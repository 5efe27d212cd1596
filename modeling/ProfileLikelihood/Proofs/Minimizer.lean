import ProfileLikelihood.Proofs.Conversion
import ProfileLikelihood.Proofs.LineSearch
import ProfileLikelihood.Proofs.Proposal

/-! What bounded L-BFGS reports. A fit comes back on one of three exits: with no free parameter
the fixed values themselves, when the start already meets the gradient tolerance the start, and
otherwise the best point of the run. On the last two the point is a point `z` of unbounded
coordinates whose full vector is the fit, and whose cost is the fit's value: the best cost of a
run is the cost of its best point. A full vector of such a point holds every fixed value, and
every free entry is a clamp into the free parameter's bounds, so a fit, whose entries are
finite, lies in the box. -/

namespace ProfileLikelihood

open Numeric

theorem Check.thetaInput_eq_ok {t : Vec} {dim : Nat} (h : Check.thetaInput t dim = .ok ()) :
    t.size = dim := by
  unfold Check.thetaInput at h
  split at h
  · cases h
  · exact Classical.not_not.1 ‹_›

theorem Termination.text_of_isConverged {t : Termination} (h : t.isConverged = true) :
    t.text = Termination.converged.text ∨ t.text = Termination.targetCost.text := by
  cases t <;> simp_all [Termination.isConverged]

namespace Unbounded

variable {p : Problem} {z θ : Vec}

theorem cost_eq_ok {u : Unbounded} {c : Float} (h : u.cost z = .ok c) :
    ∃ θ, u.fullVector z = .ok θ ∧ u.problem.value θ = .ok c ∧ c.isFinite = true := by
  unfold cost at h
  obtain ⟨θ, hθ, h⟩ := Except.bind_eq_ok.1 h
  obtain ⟨v, hv, h⟩ := Except.bind_eq_ok.1 h
  split at h
  · cases h
    exact ⟨θ, hθ, hv, ‹_›⟩
  · cases h

/-- Entry `c` of the clamped free parameters is the clamp of the point's bounded coordinate into
the bounds of the free index in position `c`. -/
theorem getElem?_clamped {c j : Nat} (hj : p.freeIndices[c]? = some j)
    {v : Float}
    (hv : (Array.zipWith (fun xi (l, h) => clamp xi l h) ((ofProblem p).toBounded z)
      (Array.zip p.lb p.ub))[c]? = some v) :
    ∃ x, v = clamp x (p.lbFull.entry j) (p.ubFull.entry j) := by
  have hlb : p.lb[c]? = some (p.lbFull.entry j) := by simp [Problem.lb, Problem.reduce, hj]
  have hub : p.ub[c]? = some (p.ubFull.entry j) := by simp [Problem.ub, Problem.reduce, hj]
  have hzip : (Array.zip p.lb p.ub)[c]? = some (p.lbFull.entry j, p.ubFull.entry j) := by
    rw [Array.zip, Array.getElem?_zipWith, hlb, hub]
  rw [Array.getElem?_zipWith, hzip] at hv
  cases hx : ((ofProblem p).toBounded z)[c]? with
  | none => simp [hx] at hv
  | some x =>
    simp only [hx, Option.some.injEq] at hv
    exact ⟨x, hv.symm⟩

/-- The full vector of any point: full length, every fixed value at its index, and every free
entry that is a number inside its bounds. -/
theorem fullVector_inBox (hok : p.FixedOK) (hb : Problem.checkBounds p.lbFull p.ubFull = .ok ())
    (h : (ofProblem p).fullVector z = .ok θ) :
    θ.size = p.dimFull ∧ (∀ j w, p.fixed.lookup j = some w → θ[j]? = some w) ∧
      ∀ j ∈ p.freeIndices, ∀ v, θ[j]? = some v → v.isNaN = false →
        p.lbFull.entry j ≤ v ∧ v ≤ p.ubFull.entry j := by
  change p.fullVector (Array.zipWith (fun xi (l, h) => clamp xi l h) ((ofProblem p).toBounded z)
    (Array.zip p.lb p.ub)) = .ok θ at h
  generalize hcl : Array.zipWith (fun xi (l, h) => clamp xi l h) ((ofProblem p).toBounded z)
    (Array.zip p.lb p.ub) = clamped at h
  have hsize : clamped.size = p.dim := by
    by_contra hne
    rw [Problem.fullVector_of_size_ne hne] at h
    cases h
  obtain ⟨v, hv, hlen, hfixed, hfree, -⟩ := hok.fullVector_spec hsize
  rw [hv] at h
  cases h
  refine ⟨hlen, hfixed, fun j hj w hw hnum => ?_⟩
  obtain ⟨c, hc⟩ := List.mem_iff_getElem?.1 hj
  rw [hfree c j hc] at hw
  obtain ⟨x, rfl⟩ := getElem?_clamped hc (hcl ▸ hw)
  have hjlt : j < p.lbFull.size := (Problem.getElem?_freeIndices.1 hc).1
  have hbox := Problem.BoxAt.of_checkBounds hb hjlt
  exact clamp_mem hbox.lb_num hbox.ub_num hbox.le hnum

end Unbounded

/-! ### The best point of a run -/

theorem runLbfgs_at_best_point {argmin : Argmin} (hargmin : Argmin.Honest argmin)
    {opts : MinimizeOptions} {u : Unbounded} {z0 : Vec} {o : Outcome}
    (h : runLbfgs argmin opts u z0 = .ok o) :
    ∃ (z : Vec) (t : Termination), u.fullVector z = .ok o.thetaHat ∧ u.cost z = .ok o.value ∧
      o.converged = t.isConverged ∧ o.status = t.text ∧ ∀ x ∈ o.thetaHat, x.isFinite = true := by
  obtain ⟨r, z, hrun, hz, hθ, hval, hconv, hstatus, hfin⟩ := runLbfgs_eq_ok h
  exact ⟨z, r.termination, hθ, hval ▸ hargmin _ _ _ _ r z hrun hz, hconv, hstatus, hfin⟩

/-! ### Reported fits -/

/-- What a fit of `p` reports. -/
structure Problem.FitReport (p : Problem) (o : Outcome) : Prop where
  /-- One entry per parameter. -/
  size : o.thetaHat.size = p.dimFull
  /-- Every entry is finite. -/
  finite : ∀ x ∈ o.thetaHat, x.isFinite = true
  /-- Every fixed parameter holds its fixed value. -/
  fixed : ∀ j w, p.fixed.lookup j = some w → o.thetaHat[j]? = some w
  /-- Every free parameter lies within its bounds. -/
  in_box : ∀ j ∈ p.freeIndices, ∀ v, o.thetaHat[j]? = some v →
    p.lbFull.entry j ≤ v ∧ v ≤ p.ubFull.entry j
  /-- The value is finite. -/
  value_finite : o.value.isFinite = true
  /-- The value is the objective's value at the fit. -/
  value : p.value o.thetaHat = .ok o.value
  /-- Convergence is claimed only with no free parameter, at a start that meets the gradient
  tolerance, or when the run converged or reached its target cost. -/
  converged : o.converged = true →
    (p.dim = 0 ∧ o.status = "No free parameters") ∨
    (0 < p.dim ∧ (o.status = "Gradient tolerance met at start" ∨
      o.status = Termination.converged.text ∨ o.status = Termination.targetCost.text))

namespace Problem

variable {p : Problem} {o : Outcome}

/-- A fit at the full vector of a point of unbounded coordinates, with the point's cost as its
value. -/
theorem FitReport.of_point (hok : p.FixedOK) (hb : checkBounds p.lbFull p.ubFull = .ok ())
    {z : Vec} (hθ : (Unbounded.ofProblem p).fullVector z = .ok o.thetaHat)
    (hc : (Unbounded.ofProblem p).cost z = .ok o.value) (hfin : ∀ x ∈ o.thetaHat, x.isFinite = true)
    (hdim : 0 < p.dim)
    (hconv : o.converged = true → o.status = "Gradient tolerance met at start" ∨
      o.status = Termination.converged.text ∨ o.status = Termination.targetCost.text) :
    p.FitReport o := by
  obtain ⟨hsize, hfixed, hbox⟩ := Unbounded.fullVector_inBox hok hb hθ
  obtain ⟨θ, hθ', hval, hvfin⟩ := Unbounded.cost_eq_ok hc
  rw [hθ] at hθ'
  cases hθ'
  refine ⟨hsize, hfin, hfixed, fun j hj v hv => ?_, hvfin, hval, fun h => .inr ⟨hdim, hconv h⟩⟩
  exact hbox j hj v hv (float_isNaN_of_isFinite (hfin v (Array.mem_of_getElem? hv)))

/-- A fit with nothing free: the fixed values themselves, at their value. -/
theorem FitReport.of_no_free (hok : p.FixedOK) {x0 x : Vec} {v : Float} (hdim : p.dim = 0)
    (hsize : x0.size = p.dim) (hx : p.fullVector x0 = .ok x) (hv : p.value x = .ok v)
    (h : Outcome.atPoint x v "No free parameters" = .ok o) : p.FitReport o := by
  obtain ⟨rfl, rfl, -, hstatus, hfin, hvfin⟩ := Outcome.atPoint_eq_ok h
  obtain ⟨x', hx', hlen, hfixed, -, -⟩ := hok.fullVector_spec hsize
  rw [hx] at hx'
  cases hx'
  refine ⟨hlen, hfin, hfixed, fun j hj => ?_, hvfin, hv, fun _ => .inl ⟨hdim, hstatus⟩⟩
  have hnil : p.freeIndices = [] := List.eq_nil_of_length_eq_zero (hdim ▸ hok.length_freeIndices)
  rw [hnil] at hj
  cases hj

end Problem

/-- Bounded L-BFGS on a problem reachable by any sequence of calls, from any start, with any
options and any solver whose best cost is the cost of its best point: every fit it reports, on
each of its three exits, has one finite entry per parameter, holds every fixed parameter at its
fixed value and every free one within its bounds, and has as its value the objective's finite
value there; it claims convergence only with no free parameter, at a start that meets the
gradient tolerance, or when the solver converged or reached its target cost. -/
theorem minimizeInBox_reports_fit {argmin : Argmin} (hargmin : Argmin.Honest argmin)
    {opts : MinimizeOptions} {p : Problem} {x0 : Vec} {o : Outcome}
    (hp : p.Reachable) (h : minimizeInBox argmin opts p x0 = .ok o) : p.FitReport o := by
  have hok := hp.fixedOK
  have hb := hp.checkBounds
  unfold minimizeInBox at h
  obtain ⟨_, hin, h⟩ := Except.bind_eq_ok.1 h
  have hsize := Check.thetaInput_eq_ok hin
  split at h
  · -- no free parameter
    rename_i hdim
    obtain ⟨x, hx, h⟩ := Except.bind_eq_ok.1 h
    obtain ⟨v, hv, h⟩ := Except.bind_eq_ok.1 h
    exact Problem.FitReport.of_no_free hok (by simpa using hdim) hsize hx hv h
  · rename_i hdim
    have hpos : 0 < p.dim := Nat.pos_of_ne_zero (by simpa using hdim)
    dsimp only at h
    obtain ⟨_, -, h⟩ := Except.bind_eq_ok.1 h
    obtain ⟨early, hearly, h⟩ := Except.bind_eq_ok.1 h
    cases early with
    | some o' =>
      cases h
      obtain ⟨hθ, hc, -, hstatus, hfin⟩ := earlyExit_eq_some hearly
      exact Problem.FitReport.of_point hok hb hθ hc hfin hpos fun _ => .inl hstatus
    | none =>
      obtain ⟨z, t, hθ, hc, hconv, hstatus, hfin⟩ := runLbfgs_at_best_point hargmin h
      refine Problem.FitReport.of_point hok hb hθ hc hfin hpos fun hc' => .inr ?_
      rw [hstatus]
      exact Termination.text_of_isConverged (hconv ▸ hc')

/-- Index `0` fixed at `0.5` and index `1` free on the whole line: a flat objective meets the
gradient tolerance at the start `0`, and the fit is `(0.5, 0)`. -/
theorem minimizeInBox_reports_fit_at_flat_start :
    Argmin.Honest Lbfgs.argmin ∧ ∃ p : Problem, p.Reachable ∧ p.dim = 1 ∧ p.fixed = [(0, 0.5)] ∧
      ∃ o, minimizeInBox Lbfgs.argmin {} p #[0.0] = .ok o ∧ o.thetaHat = #[0.5, 0.0] ∧
        o.status = "Gradient tolerance met at start" ∧ p.FitReport o := by
  let flat : Objective := ⟨fun _ => .ok (.ofFloat 0.0), fun _ => .ok #[0.0, 0.0],
    fun _ => .error .hessianNotImplemented⟩
  let p : Problem :=
    { objective := flat, lbFull := #[-1.0, -inf], ubFull := #[1.0, inf], fixed := [(0, 0.5)] }
  have hp : p.Reachable :=
    Problem.Reachable.fix [0] [0.5] (Problem.Reachable.new flat #[-1.0, -inf] #[1.0, inf] rfl) rfl
  have hrun : (minimizeInBox Lbfgs.argmin {} p #[0.0]).toOption.map
      (fun o => (o.thetaHat, o.status)) = some (#[0.5, 0.0], "Gradient tolerance met at start") := by
    decide +kernel
  obtain ⟨o, ho, hθ⟩ := Option.map_eq_some_iff.1 hrun
  have ho := Except.toOption_eq_some.1 ho
  obtain ⟨hθ, hstatus⟩ := Prod.mk.inj hθ
  exact ⟨Lbfgs.argmin_honest, p, hp, rfl, rfl, o, ho, hθ, hstatus,
    minimizeInBox_reports_fit Lbfgs.argmin_honest hp ho⟩

end ProfileLikelihood

import ProfileLikelihood.Proofs.Proposal
import ProfileLikelihood.Proofs.Termination

/-! Proposals from well-shaped points. When the current point and every point of the profile
have one entry per parameter, and so does each side of the box, no entry a proposal reads is
missing and any two points it combines have one length. The proposal then comes back with a
point of that length unless its step-size search never ends or the decomposition a trend fit
asks for fails, and each entry of that point that is a number lies in its parameter's box. A
NaN is the one thing a clip cannot move into the box, and a step along a slope that the last two
points make infinite brings one. -/

namespace ProfileLikelihood

open Numeric

theorem mem_of_mem_extract {α : Type} {as : Array α} {a : α} {i j : Nat}
    (h : a ∈ as.extract i j) : a ∈ as := by
  obtain ⟨k, hk, rfl⟩ := Array.mem_extract_iff_getElem.1 h
  exact Array.getElem_mem _

section Generic

variable {α : Type} [Scalar α]

@[simp] theorem size_clipInto (lb ub x : Array α) : (clipInto lb ub x).size = x.size := by
  simp [clipInto]

omit [Scalar α] in
theorem Profile.mapM_entry_ok {β : Type} {xs : Array (Array α)} {j : Nat} {k : α → β}
    (h : ∀ x ∈ xs, j < x.size) :
    ∃ ys, xs.mapM (fun x => Profile.pointEntry x j >>= fun v => pure (k v)) = .ok ys :=
  Except.arrayMapM_eq_ok_of fun x hx => ⟨_, by rw [Profile.pointEntry_of_lt (h x hx)]; rfl⟩

theorem fitPolynomial_outcome {E : ProfileError → Prop} {svd : SvdLibrary α} {us ys : Array α}
    (hdec : ∀ d err, fitAttempt svd us ys d = .error err → E err) (degree : Nat) :
    Except.Outcome E (fun _ => True) (fitPolynomial svd us ys degree) :=
  Except.Outcome.of_error fun _ h => retryDegree_error hdec h

/-- Fitting trends reads only entries the points have when every point of the path has the
profiled parameter and every parameter fitted: it fails only as a fit attempt does. -/
theorem RegressionFit.new?_outcome {E : ProfileError → Prop} {svd : SvdLibrary α}
    {xPath : Array (Array α)} {par dimFull : Nat} {isFixed : Nat → Bool} {regPoints regOrder : Nat}
    (hdec : ∀ us ys d err, fitAttempt svd us ys d = .error err → E err)
    (hpath : ∀ y ∈ xPath, par < y.size ∧ dimFull ≤ y.size) :
    Except.Outcome E (fun _ => True)
      (RegressionFit.new? svd xPath par dimFull isFixed regPoints regOrder) := by
  have hwin : ∀ y ∈ RegressionFit.window xPath regPoints, par < y.size ∧ dimFull ≤ y.size :=
    fun y hy => hpath y (mem_of_mem_extract hy)
  unfold RegressionFit.new?
  obtain ⟨ts, hts⟩ := Profile.mapM_entry_ok fun y hy => (hwin y hy).1
  refine (Except.Outcome.of_ok (P := fun _ => True) hts trivial).bind fun ts _ => ?_
  dsimp only
  split
  · exact Except.Outcome.of_ok rfl trivial
  · refine (Except.Outcome.foldlM (Q := fun _ => True) (fun acc _ j hj => ?_) trivial).bind
      fun _ _ => Except.Outcome.of_ok rfl trivial
    split
    · exact Except.Outcome.of_ok rfl trivial
    · split
      · exact Except.Outcome.of_ok rfl trivial
      · -- every point has the fitted parameter, so only the fit itself may fail
        obtain ⟨ys, hys⟩ : ∃ ys, (RegressionFit.window xPath regPoints).mapM
            (Profile.pointEntry · j) = .ok ys :=
          Except.arrayMapM_eq_ok_of fun y hy =>
            ⟨_, Profile.pointEntry_of_lt (by have := List.mem_range.1 hj; have := hwin y hy; omega)⟩
        rw [hys, Except.ok_bind]
        exact (fitPolynomial_outcome (hdec _ ys) _).bind fun _ _ => Except.Outcome.of_ok rfl trivial

/-- How the other parameters follow fits points of length `n`: a line has one entry per
parameter. -/
def Extrapolation.Fits (n : Nat) : Extrapolation α → Prop
  | .linear dir => dir.size = n
  | .polynomial _ => True

theorem Extrapolation.lastStep_fits {last prev unit : Array α} (step : α) {n : Nat}
    (hlast : last.size = n) (hprev : prev.size = n) (hunit : unit.size = n) :
    ∃ e, Extrapolation.lastStep last prev unit step = .ok e ∧ e.Fits n := by
  unfold Extrapolation.lastStep
  split
  · obtain ⟨z, hz, hsize⟩ := Profile.pointZip_of_size (· - ·) hlast hprev
    exact ⟨_, by rw [hz]; rfl, by simp [Extrapolation.Fits, hsize]⟩
  · exact ⟨_, rfl, hunit⟩

theorem Extrapolation.lastStep_outcome {E : ProfileError → Prop} {last prev unit : Array α}
    (step : α) {n : Nat} (hlast : last.size = n) (hprev : prev.size = n) (hunit : unit.size = n) :
    Except.Outcome E (Extrapolation.Fits n) (Extrapolation.lastStep last prev unit step) := by
  obtain ⟨e, he, hfits⟩ := Extrapolation.lastStep_fits step hlast hprev hunit
  exact Except.Outcome.of_ok he hfits

namespace Proposer

variable {P : Proposer α} {x : Array α} {par : Nat} {dir : Direction}

/-- A step from a point along a way of following that fits its length reaches a point of that
length. -/
theorem extrapolate_fits {e : Extrapolation α} {d h : α} (he : e.Fits x.size) :
    ∃ y, P.extrapolate e x par d h = .ok y ∧ y.size = x.size := by
  cases e with
  | linear dir =>
    have hdir : (dir.map (· * h)).size = x.size := by
      simpa [Extrapolation.Fits] using he
    obtain ⟨z, hz, hsize⟩ := Profile.pointZip_of_size (· + ·) rfl hdir
    refine ⟨P.clip z, ?_, by rw [size_clipInto, hsize]⟩
    simp only [extrapolate, Extrapolation.point, hz]
    rfl
  | polynomial fit => exact ⟨_, rfl, by simp⟩

theorem interpolate_size {nextObj lastObj target : α} {next last : Array α} {n : Nat}
    (hnext : next.size = n) (hlast : last.size = n) :
    ∃ y, P.interpolate nextObj lastObj next last target = .ok y ∧ y.size = n := by
  unfold interpolate
  dsimp only
  split
  · exact ⟨next, rfl, hnext⟩
  · obtain ⟨span, hspan, hsize⟩ := Profile.pointZip_of_size (· - ·) hnext hlast
    rw [hspan, Except.ok_bind]
    refine Except.bind_pure_eq_ok_and (fun z hz => ?_) (Profile.pointZip_of_size _ hlast ?_)
    · rw [size_clipInto, hz]
    · simpa using hsize

/-- A proposer whose path and box have one entry per parameter of `x`, `par` among them. -/
structure Shaped (P : Proposer α) (x : Array α) (par : Nat) : Prop where
  par_lt : par < x.size
  lb_size : P.lb.size = x.size
  ub_size : P.ub.size = x.size
  path_size : ∀ y ∈ P.xPath, y.size = x.size

omit [Scalar α] in
theorem Shaped.getD_size (h : P.Shaped x par) (i : Nat) (hi : i < P.xPath.size) :
    (P.xPath.getD i #[]).size = x.size :=
  h.path_size _ (by simp [Array.getD, hi])

/-- The history of a well-shaped input fails only as a fit attempt does, and comes back with a way
to follow that fits its length. -/
theorem history_outcome {E : ProfileError → Prop} (h : P.Shaped x par) (follow : Follow)
    (hdec : ∀ us ys d err, fitAttempt P.svd us ys d = .error err → E err) :
    Except.Outcome E (fun hist : StepHistory α => hist.extrapolation.Fits x.size)
      (P.history x par dir follow) := by
  obtain ⟨unit, hunit, hunitSize⟩ := Profile.pointSet_of_lt (v := Scalar.ofFloat dir.sign)
    (show par < (Array.replicate x.size (0.0 : α)).size by simpa using h.par_lt)
  simp only [Array.size_replicate] at hunitSize
  unfold history
  rw [hunit, Except.ok_bind]
  dsimp only
  split
  · exact Except.Outcome.of_ok rfl hunitSize
  rename_i hn
  have hlast := h.getD_size (P.xPath.size - 1) (by omega)
  have hprev := h.getD_size (P.xPath.size - 2) (by omega)
  rw [Profile.pointEntry_of_lt (hlast ▸ h.par_lt), Except.ok_bind,
    Profile.pointEntry_of_lt (hprev ▸ h.par_lt), Except.ok_bind]
  have hline := fun step : α =>
    Extrapolation.lastStep_outcome (E := E) step hlast hprev hunitSize
  cases follow with
  | hold => exact Except.Outcome.of_ok rfl hunitSize
  | lastStep => exact (hline _).bind fun e he => Except.Outcome.of_ok rfl he
  | regression =>
    dsimp only
    split
    · exact (hline _).bind fun e he => Except.Outcome.of_ok rfl he
    · refine (RegressionFit.new?_outcome hdec fun y hy => ?_).bind fun r _ => ?_
      · rw [h.path_size y hy, ← h.lb_size]
        exact ⟨h.lb_size ▸ h.par_lt, le_refl _⟩
      · cases r with
        | some fit => exact Except.Outcome.of_ok rfl trivial
        | none => exact (hline _).bind fun e he => Except.Outcome.of_ok rfl he

end Proposer

namespace StepSearch

variable {s : StepSearch α} {next : Array α} {step nextObj : α}

/-- A round from a candidate of the search's length comes back, and what it ends or goes on
with has that length too. -/
theorem round_size (he : s.extrapolation.Fits s.x.size) (hnext : next.size = s.x.size) :
    ∃ r, s.round next step nextObj = .ok r ∧
      Sum.elim (fun y => y.size = s.x.size) (fun g => g.1.size = s.x.size) r := by
  obtain ⟨cand, hc, hcand⟩ : ∃ y, s.proposer.extrapolate s.extrapolation s.x s.par s.d
      (s.scale step) = .ok y ∧ y.size = s.x.size := Proposer.extrapolate_fits he
  unfold round
  dsimp only
  rw [hc, Except.ok_bind]
  split
  · exact ⟨_, rfl, hcand⟩
  · split
    · obtain ⟨y, hy, hsize⟩ : ∃ y, s.proposer.interpolate (s.proposer.objective cand) nextObj
          cand next s.target = .ok y ∧ y.size = s.x.size := Proposer.interpolate_size hcand hnext
      exact ⟨.inl y, by rw [hy]; rfl, hsize⟩
    · exact ⟨_, rfl, hcand⟩

/-- A search from a candidate of its length spends its budget or comes back with a point of that
length. -/
theorem run_outcome (he : s.extrapolation.Fits s.x.size) :
    ∀ (fuel : Nat) (next : Array α) (step nextObj : α), next.size = s.x.size →
      Except.Outcome (· = .endlessSearch) (fun y : Array α => y.size = s.x.size)
        (s.run fuel next step nextObj)
  | 0, _, _, _, _ => rfl
  | fuel + 1, next, step, nextObj, hnext => by
    obtain ⟨r, hr, hsize⟩ : ∃ r, s.round next step nextObj = .ok r ∧
        Sum.elim (fun y => y.size = s.x.size) (fun g => g.1.size = s.x.size) r :=
      round_size he hnext
    rw [run, hr, Except.ok_bind]
    cases r with
    | inl y => exact hsize
    | inr going => exact run_outcome he fuel going.1 going.2.1 going.2.2 hsize

end StepSearch

namespace Proposer

variable {P : Proposer α} {x : Array α} {par : Nat} {dir : Direction}

theorem jumpBound_ok (h : P.Shaped x par) : ∃ b, P.jumpBound x par dir = .ok b := by
  have hlb : par < P.lb.size := h.lb_size ▸ h.par_lt
  have hub : par < P.ub.size := h.ub_size ▸ h.par_lt
  cases dir with
  | decreasing =>
    exact ⟨_, by rw [jumpBound, Profile.pointEntry_of_lt h.par_lt, Except.ok_bind,
      Profile.pointEntry_of_lt hlb]; rfl⟩
  | increasing =>
    exact ⟨_, by rw [jumpBound, Profile.pointEntry_of_lt h.par_lt, Except.ok_bind,
      Profile.pointEntry_of_lt hub]; rfl⟩

theorem fixedStep_size (h : P.Shaped x par) :
    ∃ y, P.fixedStep x par dir = .ok y ∧ y.size = x.size :=
  ⟨_, by rw [fixedStep, Profile.pointEntry_of_lt h.par_lt]; rfl, by simp⟩

/-- An adaptive step from a well-shaped input fails only by a search that spends its budget or
in the decomposition, and otherwise comes back with a point of the input's length. -/
theorem adaptiveStep_outcome (h : P.Shaped x par) (follow : Follow) :
    Except.Outcome (fun e => e = .endlessSearch ∨ e.OfDecomposition)
      (fun y : Array α => y.size = x.size) (P.adaptiveStep x par dir follow) := by
  have hout : Except.Outcome ProfileError.OfDecomposition
      (fun hist : StepHistory α => hist.extrapolation.Fits x.size)
      (P.history x par dir follow) := history_outcome h follow fun _ _ _ _ => fitAttempt_error
  cases hh : P.history x par dir follow with
  | error err =>
    rw [hh] at hout
    rw [adaptiveStep, hh]
    exact .inr hout
  | ok hist =>
    rw [hh] at hout
    have hfits : hist.extrapolation.Fits x.size := hout
    obtain ⟨jb, hj⟩ : ∃ b, P.jumpBound x par dir = .ok b := jumpBound_ok h
    cases jb with
    | some b =>
      rw [adaptiveStep_of_jump hh hj]
      obtain ⟨z, hz, hzsize⟩ : ∃ z, P.extrapolate hist.extrapolation x par
          (Scalar.ofFloat dir.sign) (Scalar.abs (b - x.getD par 0.0)) = .ok z ∧ z.size = x.size :=
        extrapolate_fits hfits
      obtain ⟨y, hy, hysize⟩ := Profile.pointSet_of_lt (v := b) (hzsize ▸ h.par_lt)
      rw [hz, Except.ok_bind]
      exact Except.Outcome.of_ok hy (hysize.trans hzsize)
    | none =>
      rw [adaptiveStep_of_search hh hj]
      obtain ⟨next, hnext, hsize⟩ : ∃ z, P.extrapolate hist.extrapolation x par
          (Scalar.ofFloat dir.sign) (Scalar.clamp hist.stepSize P.minEff P.maxEff) = .ok z ∧
          z.size = x.size := extrapolate_fits hfits
      rw [hnext, Except.ok_bind]
      exact (StepSearch.run_outcome hfits searchBudget next _ _ hsize).mono
        (fun _ he => .inl he) (fun _ hy => hy)

/-- Every proposal method from a well-shaped input fails only by a search that spends its
budget or in the decomposition, and otherwise comes back with a point of the input's length. -/
theorem nextGuess_outcome (h : P.Shaped x par) (m : NextGuessMethod) :
    Except.Outcome (fun e => e = .endlessSearch ∨ e.OfDecomposition)
      (fun y : Array α => y.size = x.size) (P.nextGuess x par dir m) := by
  cases m with
  | fixedStep =>
    obtain ⟨y, hy, hsize⟩ : ∃ y, P.fixedStep x par dir = .ok y ∧ y.size = x.size :=
      fixedStep_size h
    exact Except.Outcome.of_ok hy hsize
  | adaptiveOrder0 => exact adaptiveStep_outcome h .hold
  | adaptiveOrder1 => exact adaptiveStep_outcome h .lastStep
  | adaptiveRegression => exact adaptiveStep_outcome h .regression

end Proposer

end Generic

namespace GuessContext

/-- A proposal's input of the right shape: the problem's bounds pass their check, the profiled
index is a parameter, and the current point and every point of the profile have one entry per
parameter. -/
structure Shaped (c : GuessContext) (x : Point) (par : Nat) : Prop where
  bounds : Problem.checkBounds c.problem.lbFull c.problem.ubFull = .ok ()
  par_lt : par < c.problem.dimFull
  x_size : x.size = c.problem.dimFull
  path_size : ∀ y ∈ c.profile.xPath, y.size = c.problem.dimFull

variable {c : GuessContext} {x : Point} {par : Nat} {dir : Direction}

theorem Shaped.proposer (h : c.Shaped x par) : c.proposer.Shaped x par where
  par_lt := h.x_size ▸ h.par_lt
  lb_size := by simp [GuessContext.proposer, Double.ofFloats, h.x_size, Problem.dimFull]
  ub_size := by
    simp [GuessContext.proposer, Double.ofFloats, h.x_size, Problem.dimFull,
      (Problem.checkBounds_eq_ok h.bounds).1]
  path_size y hy := (h.path_size y hy).trans h.x_size.symm

/-- From a well-shaped input every proposal method either runs a step-size search that never
ends, or fails in the decomposition a trend fit asks for, or comes back with a point of one entry
per parameter, each entry of which that is a number lies between its parameter's bounds. -/
theorem nextGuess_in_box_unless_endless (h : c.Shaped x par) (m : NextGuessMethod) :
    c.nextGuess x par dir m = .error .endlessSearch ∨
      (∃ e, c.nextGuess x par dir m = .error e ∧ e.OfDecomposition) ∨
      ∃ y, c.nextGuess x par dir m = .ok y ∧ y.size = c.problem.dimFull ∧
        ∀ j < c.problem.dimFull, c.problem.BoundedAt j y := by
  have hout : Except.Outcome (fun e => e = .endlessSearch ∨ e.OfDecomposition)
      (fun y : Point => y.size = x.size) (c.proposer.nextGuess x par dir m) :=
    Proposer.nextGuess_outcome h.proposer m
  rcases hout.cases with
    ⟨e, he, rfl | hdec⟩ | ⟨y, hy, hsize⟩
  · exact .inl he
  · exact .inr (.inl ⟨e, he, hdec⟩)
  · refine .inr (.inr ⟨y, hy, hsize.trans h.x_size, fun j hj => ?_⟩)
    exact nextGuess_boundedAt (Problem.BoxAt.of_checkBounds h.bounds hj) hy

/-- A two-parameter input in the unit box, walked up from its middle, is well shaped. -/
theorem nextGuess_in_box_unless_endless_at_middle :
    let c : GuessContext :=
      { options := {},
        profile := Profile.new 0 { x := #[.ofFloat 0.5, .ofFloat 0.5], fval := .ofFloat 0.0 },
        problem :=
          { objective :=
              ({ formula := .linear #[.ofFloat 1.0, .ofFloat 1.0] (.ofFloat 0.0) } :
                Objective.Spec).toObjective,
            lbFull := #[0.0, 0.0], ubFull := #[1.0, 1.0] },
        globalOpt := 0.0 }
    c.Shaped #[.ofFloat 0.5, .ofFloat 0.5] 0 ∧
      (c.nextGuess #[.ofFloat 0.5, .ofFloat 0.5] 0 .increasing .adaptiveOrder1 =
          .error .endlessSearch ∨
        (∃ e, c.nextGuess #[.ofFloat 0.5, .ofFloat 0.5] 0 .increasing .adaptiveOrder1 =
          .error e ∧ e.OfDecomposition) ∨
        ∃ y, c.nextGuess #[.ofFloat 0.5, .ofFloat 0.5] 0 .increasing .adaptiveOrder1 = .ok y ∧
          y.size = c.problem.dimFull ∧ ∀ j < c.problem.dimFull, c.problem.BoundedAt j y) :=
  have h : GuessContext.Shaped _ _ _ :=
    ⟨Except.toOption_eq_some.1 (by decide), by decide, by decide, by decide⟩
  ⟨h, nextGuess_in_box_unless_endless h _⟩

/-- Validated options and a well-shaped input whose last two points differ in the profiled
parameter by the least positive double: the slope of the other parameter is infinite, the step
onto the lower bound has length zero, and `1 + ∞ · 0` is a NaN that the clip leaves in place. -/
theorem lastStep_proposal_leaves_box :
    let c : GuessContext :=
      { options := {},
        profile := (Profile.new 0 { x := #[.ofFloat (Float.ofBits 1), .ofFloat 0.0],
                                    fval := .ofFloat 0.0 }).push
          { x := #[.ofFloat 0.0, .ofFloat 1.0], fval := .ofFloat 0.0 },
        problem :=
          { objective :=
              ({ formula := .linear #[.ofFloat 0.0, .ofFloat 0.0] (.ofFloat 0.0) } :
                Objective.Spec).toObjective,
            lbFull := #[0.0, -10.0], ubFull := #[1.0, 10.0] },
        globalOpt := 0.0 }
    c.options.firstViolation.isNone = true ∧ c.Shaped #[.ofFloat 0.0, .ofFloat 1.0] 0 ∧
      c.nextGuess #[.ofFloat 0.0, .ofFloat 1.0] 0 .decreasing .adaptiveOrder1 =
        .ok #[.ofFloat 0.0, .negativeNaN] ∧
      ¬(c.problem.lbFull.entry 1 ≤ Double.negativeNaN.float ∧
        Double.negativeNaN.float ≤ c.problem.ubFull.entry 1) :=
  ⟨by decide, ⟨Except.toOption_eq_some.1 (by decide), by decide, by decide, by decide⟩,
    Except.toOption_eq_some.1 (by decide +kernel), by decide⟩

end GuessContext

end ProfileLikelihood

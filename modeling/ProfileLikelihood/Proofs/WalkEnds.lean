import ProfileLikelihood.Proofs.Walk
import ProfileLikelihood.Proofs.Proposal
import ProfileLikelihood.Proofs.Optimizer
import ProfileLikelihood.Objective.Catalog

/-! Where a profile lies and where it ends. Every point a walk records holds the profiled
parameter at the value its fit was fixed to, a proposal's value, so inside the parameter's box.
A walk stops at or past the bound it walks toward, below the ratio floor, or with a warning;
a point inside the box that is at or past a bound is on it. Hence a finished profile lies in
the box, and each end is on its bound unless the ratio floor or a warning says why not.

The values need not increase along the profile: a step can be absorbed by rounding, and an
interpolated proposal can fall back behind the point it started from. -/

namespace ProfileLikelihood

open Numeric

namespace Problem

/-- Entry `par` of `x` is present and lies in the box of parameter `par`. -/
def InBoxAt (p : Problem) (par : Nat) (x : Point) : Prop :=
  ∃ v, x[par]? = some v ∧ p.lbFull.entry par ≤ v.float ∧ v.float ≤ p.ubFull.entry par

/-- The bound of parameter `par` that a walk in direction `dir` walks toward. -/
def boundToward (p : Problem) (par : Nat) : Direction → Float
  | .decreasing => p.lbFull.entry par
  | .increasing => p.ubFull.entry par

variable {p q : Problem} {par : Nat}

theorem inBoxAt_congr (hl : q.lbFull = p.lbFull) (hu : q.ubFull = p.ubFull) {x : Point} :
    q.InBoxAt par x ↔ p.InBoxAt par x := by
  rw [InBoxAt, InBoxAt, hl, hu]

end Problem

namespace WalkSettings

variable {s : WalkSettings} {p : Problem}

/-! ### One step -/

/-- One step keeps the problem's fixed map well formed, its bounds and the optimizer's contract,
and a point it finds holds the profiled parameter inside the box: the fit was fixed there to the
proposal's value, a finite number, which the proposal kept inside the box. -/
theorem step_inBox {x : Point} {prof : Profile} {dir : Direction} :
    ∀ (tries : Nat) {reduce : Float} {q q' : Problem} {opt opt' : Optimizer}
      {pt? : Option ProfilePoint},
      q.FixedOK → q.BoxAt s.par → opt.KeepsFixed →
      s.step x prof dir tries reduce q opt = .ok (pt?, q', opt') →
      q'.FixedOK ∧ q'.lbFull = q.lbFull ∧ q'.ubFull = q.ubFull ∧ opt'.KeepsFixed ∧
        ∀ pt, pt? = some pt → q.InBoxAt s.par pt.x
  | 0, reduce, q, q', opt, opt', pt?, hok, hb, hopt, h => by
    cases h
    exact ⟨hok, rfl, rfl, hopt, fun _ h => by cases h⟩
  | tries + 1, reduce, q, q', opt, opt', pt?, hok, hb, hopt, h => by
    unfold step at h
    obtain ⟨next, hnext, h⟩ := Except.bind_eq_ok.1 h
    obtain ⟨e, he, h⟩ := Except.bind_eq_ok.1 h
    obtain ⟨q₁, hq₁, h⟩ := Except.bind_eq_ok.1 h
    obtain ⟨x0, -, h⟩ := Except.bind_eq_ok.1 h
    have hfix := Except.mapError_eq_ok.1 hq₁
    obtain ⟨hfin, hmem, hl, hu⟩ := Problem.fix_single hfix
    have hok₁ := hok.fix hfix
    obtain ⟨hlo, hhi⟩ := GuessContext.nextGuess_boundedAt hb hnext e
      (Profile.pointEntry_eq_ok he) (float_isNaN_of_isFinite hfin)
    have hretry : ∀ reduce' opt'', opt''.KeepsFixed →
        s.step x prof dir tries reduce' q₁ opt'' = .ok (pt?, q', opt') →
        q'.FixedOK ∧ q'.lbFull = q.lbFull ∧ q'.ubFull = q.ubFull ∧ opt'.KeepsFixed ∧
          ∀ pt, pt? = some pt → q.InBoxAt s.par pt.x := fun reduce' opt'' hopt'' h' => by
      obtain ⟨hok', hl', hu', hopt', hpts⟩ := step_inBox tries hok₁ (hb.congr hl hu) hopt'' h'
      exact ⟨hok', hl'.trans hl, hu'.trans hu, hopt',
        fun pt hpt => (Problem.inBoxAt_congr hl hu).1 (hpts pt hpt)⟩
    split at h
    · rename_i o opt'' hmin
      have hopt'' := hopt.minimize hmin
      split at h
      · cases h
        refine ⟨hok₁, hl, hu, hopt'', fun pt hpt => ?_⟩
        cases hpt
        exact ⟨.ofFloat e.float, by simp [pointOf, Double.ofFloats, hopt.minimize_fixed hok₁ hmin hmem],
          hlo, hhi⟩
      · exact hretry _ _ hopt'' h
    · rename_i opt'' hmin
      split at h
      · cases h
      · exact hretry _ _ (hopt.minimize hmin) h

/-! ### Whole walks -/

/-- What a walk of a task on the problem `p` keeps: the fixed map well formed, `p`'s bounds,
every point of the profile in the box, one ratio per point, and the optimizer's contract. -/
structure WalkInv (s : WalkSettings) (p : Problem) (w : WalkState) : Prop where
  fixedOK : w.problem.FixedOK
  lbFull : w.problem.lbFull = p.lbFull
  ubFull : w.problem.ubFull = p.ubFull
  inBox : ∀ x ∈ w.profile.xPath, p.InBoxAt s.par x
  ratios : w.profile.ratioPath.size = w.profile.xPath.size
  keepsFixed : w.optimizer.KeepsFixed

/-- How a walk toward `dir` ended: on a profile without points, at a point where it stops, or
with a warning. -/
def Ended (s : WalkSettings) (dir : Direction) (w : WalkState) : Prop :=
  w.profile.lastX? = none ∨
    (∃ x, w.profile.lastX? = some x ∧ s.stopsAt x w.profile w.problem dir = .ok true) ∨
    ProfileWarning.partialProfile s.par dir s.options.maxTries ∈ w.warnings ∨
    ProfileWarning.stepCapReached s.par dir s.options.maxWalkSteps ∈ w.warnings

theorem WalkInv.flip {w : WalkState} (hinv : s.WalkInv p w) :
    s.WalkInv p { w with profile := w.profile.flip } :=
  ⟨hinv.fixedOK, hinv.lbFull, hinv.ubFull,
    fun x hx => hinv.inBox x (Array.mem_reverse.1 hx), by simpa [Profile.flip] using hinv.ratios,
    hinv.keepsFixed⟩

/-- A walk keeps its invariant, only adds warnings, and ends in one of the ways `Ended` lists
before its budget runs out. -/
theorem walkFrom_inv (hb : p.BoxAt s.par) {dir : Direction} :
    ∀ (fuel taken : Nat) {w w' : WalkState}, s.WalkInv p w → taken ≤ s.options.maxWalkSteps →
      s.options.maxWalkSteps < fuel + taken → s.walkFrom dir fuel taken w = .ok w' →
      s.WalkInv p w' ∧ s.Ended dir w' ∧ ∃ extra, w'.warnings = w.warnings ++ extra
  | 0, taken, w, w', _, hle, hlt, _ => absurd hlt (by omega)
  | fuel + 1, taken, w, w', hinv, hle, hlt, h => by
    simp only [walkFrom] at h
    cases hx : w.profile.lastX? with
    | none =>
      simp only [hx] at h
      cases h
      exact ⟨hinv, .inl hx, #[], by simp⟩
    | some x =>
      simp only [hx] at h
      obtain ⟨stop, hstop, h⟩ := Except.bind_eq_ok.1 h
      cases stop
      case true =>
        cases h
        exact ⟨hinv, .inr (.inl ⟨x, hx, hstop⟩), #[], by simp⟩
      case false =>
      by_cases hcap : taken ≥ s.options.maxWalkSteps
      · simp only [hcap, if_true, Bool.false_eq_true, if_false] at h
        cases h
        exact ⟨⟨hinv.fixedOK, hinv.lbFull, hinv.ubFull, hinv.inBox, hinv.ratios, hinv.keepsFixed⟩,
          .inr (.inr (.inr Array.mem_push_self)), #[_], Array.push_eq_append⟩
      · simp only [hcap, Bool.false_eq_true, if_false] at h
        obtain ⟨⟨pt?, q, opt⟩, hstep, h⟩ := Except.bind_eq_ok.1 h
        obtain ⟨hokq, hl, hu, hopt, hpt⟩ := step_inBox s.options.maxTries hinv.fixedOK
          (hb.congr hinv.lbFull hinv.ubFull) hinv.keepsFixed hstep
        cases pt? with
        | none =>
          cases h
          exact ⟨⟨hokq, hl.trans hinv.lbFull, hu.trans hinv.ubFull, hinv.inBox, hinv.ratios, hopt⟩,
            .inr (.inr (.inl Array.mem_push_self)), #[_], Array.push_eq_append⟩
        | some pt =>
          have hinv' : s.WalkInv p
              { w with profile := w.profile.push pt, problem := q, optimizer := opt } := by
            refine ⟨hokq, hl.trans hinv.lbFull, hu.trans hinv.ubFull, fun y hy => ?_, ?_, hopt⟩
            · rcases Array.mem_push.1 hy with hy | rfl
              · exact hinv.inBox y hy
              · exact (Problem.inBoxAt_congr hinv.lbFull hinv.ubFull).1 (hpt pt rfl)
            · simpa [Profile.push] using hinv.ratios
          obtain ⟨hinv'', hend, extra, hws⟩ :=
            walkFrom_inv hb fuel (taken + 1) hinv' (by omega) (by omega) h
          exact ⟨hinv'', hend, extra, hws⟩

theorem walk_inv (hb : p.BoxAt s.par) {dir : Direction} {w w' : WalkState}
    (hinv : s.WalkInv p w) (h : s.walk dir w = .ok w') :
    s.WalkInv p w' ∧ s.Ended dir w' ∧ ∃ extra, w'.warnings = w.warnings ++ extra :=
  walkFrom_inv hb _ 0 hinv (Nat.zero_le _) (by omega) h

/-! ### The ends -/

/-- Why a walk toward `dir` may end at the point `x` whose likelihood ratio is `ratio`, the
warnings `ws` having been met: `x` is on the bound it walked toward, or its ratio fell below the
floor (only when the whole path is not wanted), or the walk was cut short with a warning. -/
def EndsAt (s : WalkSettings) (p : Problem) (dir : Direction) (x : Point) (ratio : Option Double)
    (ws : Array ProfileWarning) : Prop :=
  (∃ v, x[s.par]? = some v ∧ (v.float == p.boundToward s.par dir) = true) ∨
    (s.options.wholePath = false ∧ ∃ r, ratio = some r ∧ r.float < s.options.ratioMin) ∨
    ProfileWarning.partialProfile s.par dir s.options.maxTries ∈ ws ∨
    ProfileWarning.stepCapReached s.par dir s.options.maxWalkSteps ∈ ws

theorem entry_of_pointEntry {v : Vec} {i : Nat} {b : Float} (h : Profile.pointEntry v i = .ok b) :
    v.entry i = b := by
  simp [Vec.entry, Array.getD_eq_getD_getElem?, Profile.pointEntry_eq_ok h]

/-- A walk stops at a point at or past the bound it walks toward, or, when the whole path is not
wanted, where the last ratio is below the floor. -/
theorem stopsAt_eq_true {x : Point} {prof : Profile} {q : Problem} {dir : Direction}
    (h : s.stopsAt x prof q dir = .ok true) :
    (dir = .decreasing ∧ (Double.entry x s.par).float ≤ q.lbFull.entry s.par) ∨
      (dir = .increasing ∧ q.ubFull.entry s.par ≤ (Double.entry x s.par).float) ∨
      (s.options.wholePath = false ∧
        (prof.ratioPath.back?.map (·.float)).getD 1.0 < s.options.ratioMin) := by
  unfold stopsAt at h
  by_cases hsz : s.par ≥ x.size
  · simp [hsz] at h
  simp only [hsz, if_false] at h
  cases dir with
  | decreasing =>
    obtain ⟨bound, hbound, h⟩ := Except.bind_eq_ok.1 h
    rw [← entry_of_pointEntry hbound] at h
    by_cases hw : s.options.wholePath = true <;> simp [hw] at h <;> simp [h, hw]
  | increasing =>
    obtain ⟨bound, hbound, h⟩ := Except.bind_eq_ok.1 h
    rw [← entry_of_pointEntry hbound] at h
    by_cases hw : s.options.wholePath = true <;> simp [hw] at h <;> simp [h, hw]

/-- A walk stops at a point inside the box only on the bound it walks toward or below the ratio
floor. -/
theorem stopsAt_endsAt {x : Point} {prof : Profile} {q : Problem} {dir : Direction}
    (hin : p.InBoxAt s.par x) (hl : q.lbFull = p.lbFull) (hu : q.ubFull = p.ubFull)
    (hr : prof.ratioPath.size = prof.xPath.size) (hlast : prof.lastX? = some x)
    (h : s.stopsAt x prof q dir = .ok true) (ws : Array ProfileWarning) :
    s.EndsAt p dir x prof.ratioPath.back? ws := by
  obtain ⟨v, hv, hlo, hhi⟩ := hin
  have hentry : (Double.entry x s.par).float = v.float := by simp [Double.entry, hv]
  obtain ⟨r, hrback⟩ : ∃ r, prof.ratioPath.back? = some r := by
    have hne : prof.xPath ≠ #[] := fun he => by simp [Profile.lastX?, he] at hlast
    have hne' : prof.ratioPath ≠ #[] := fun he => hne (Array.size_eq_zero_iff.1 (by
      rw [← hr, he, Array.size_empty]))
    exact Option.isSome_iff_exists.1 (Array.back?_isSome.2 hne')
  -- past the bound it walks toward, and inside the box: on the bound
  rcases stopsAt_eq_true h with ⟨rfl, hpast⟩ | ⟨rfl, hpast⟩ | ⟨hw, hratio⟩
  · rw [hentry, hl] at hpast
    exact .inl ⟨v, hv, float_beq_of_le_of_le hpast hlo⟩
  · rw [hentry, hu] at hpast
    exact .inl ⟨v, hv, float_beq_of_le_of_le hhi hpast⟩
  · rw [hrback] at hratio
    exact .inr (.inl ⟨hw, r, hrback, hratio⟩)

/-- The end a walk toward `dir` stopped at shows the reason `EndsAt` names, against any list of
warnings that holds the walk's own. -/
theorem Ended.endsAt {dir : Direction} {w : WalkState} (hinv : s.WalkInv p w)
    (hend : s.Ended dir w) {x : Point} (hx : w.profile.lastX? = some x) {ws : Array ProfileWarning}
    (hws : ∀ a ∈ w.warnings, a ∈ ws) : s.EndsAt p dir x w.profile.ratioPath.back? ws := by
  rcases hend with hnone | ⟨x', hx', hstop⟩ | hpart | hcap
  · rw [hx] at hnone
    cases hnone
  · rw [hx] at hx'
    cases hx'
    exact stopsAt_endsAt (hinv.inBox x (Array.mem_of_back? hx)) hinv.lbFull hinv.ubFull
      hinv.ratios hx hstop ws
  · exact .inr (.inr (.inl (hws _ hpart)))
  · exact .inr (.inr (.inr (hws _ hcap)))

end WalkSettings

variable {s : WalkSettings} {p : Problem} {opt : Optimizer} {seed : Profile}

/-- A finished profile of parameter `s.par` lies in the parameter's box, and each of its ends shows
why the walk toward it stopped: the profiled value is on the bound, or the likelihood ratio fell
below its floor (only when the whole path is not wanted), or a warning says the walk was cut short.
-/
theorem runTask_within_bounds {prof : Profile} {ws : Array ProfileWarning}
    (hbounds : Problem.checkBounds p.lbFull p.ubFull = .ok ()) (hok : p.FixedOK)
    (hopt : opt.KeepsFixed) (hpar : s.par < p.dimFull) (hseed : ∀ x ∈ seed.xPath, p.InBoxAt s.par x)
    (hratio : seed.ratioPath.size = seed.xPath.size) (h : runTask s p opt seed = .ok (prof, ws)) :
    (∀ x ∈ prof.xPath, p.InBoxAt s.par x) ∧
      (∀ x, prof.xPath[0]? = some x → s.EndsAt p .decreasing x prof.ratioPath[0]? ws) ∧
      (∀ x, prof.xPath.back? = some x → s.EndsAt p .increasing x prof.ratioPath.back? ws) := by
  obtain ⟨w₁, w₂, hw₁, hw₂, rfl, rfl⟩ := runTask_walks h
  have hb : p.BoxAt s.par := .of_checkBounds hbounds hpar
  have hinv₀ : s.WalkInv p { profile := seed.flip, problem := p, optimizer := opt } :=
    ⟨hok, rfl, rfl, fun x hx => hseed x (Array.mem_reverse.1 hx), by simpa [Profile.flip] using hratio,
      hopt⟩
  obtain ⟨hinv₁, hend₁, -⟩ := WalkSettings.walk_inv hb hinv₀ hw₁
  obtain ⟨hinv₂, hend₂, extra, hws⟩ := WalkSettings.walk_inv hb hinv₁.flip hw₂
  obtain ⟨up, -, hup, hp₂⟩ := WalkSettings.walk_extends hw₂
  refine ⟨hinv₂.inBox, fun x hx => ?_, fun x hx => hend₂.endsAt hinv₂ hx fun a ha => ha⟩
  -- the first point is where the walk down stopped: the walk up only appends
  change w₂.profile.xPath[0]? = some x at hx
  change s.EndsAt p .decreasing x w₂.profile.ratioPath[0]? w₂.warnings
  have hsize : w₁.profile.size ≠ 0 := by
    intro h0
    have hnil : up = [] := Classical.byContradiction fun hne => hup hne (by simpa using h0)
    rw [hp₂, hnil, Profile.pushAll_nil] at hx
    simp [Profile.flip, Array.size_eq_zero_iff.1 h0] at hx
  have hxs : w₁.profile.xPath.size ≠ 0 := hsize
  have hrs : w₁.profile.ratioPath.size ≠ 0 := hinv₁.ratios ▸ hxs
  have hxfront : (w₁.profile.flip.pushAll up).xPath[0]? = w₁.profile.lastX? :=
    Profile.Path.x.get_flip_pushAll_front w₁.profile up hxs
  have hrfront : (w₁.profile.flip.pushAll up).ratioPath[0]? = w₁.profile.ratioPath.back? :=
    Profile.Path.ratio.get_flip_pushAll_front w₁.profile up hrs
  rw [hp₂] at hx ⊢
  dsimp only at hx ⊢
  rw [hxfront] at hx
  rw [hrfront]
  exact hend₁.endsAt hinv₁ hx fun a ha => by simp [hws, ha]

/-- One fixed step down onto the lower bound and one up onto the upper bound, from a seed in the
middle of the box. -/
theorem runTask_half_steps_within_bounds :
    ∃ prof ws, runTask ⟨0, { defaultStepSize := 0.5, wholePath := true }, .fixedStep, .ofFloat 0.0, .reference⟩
        { objective := ({ formula := .linear #[.ofFloat 0.0] (.ofFloat 0.0) } : Objective.Spec).toObjective,
          lbFull := #[-0.5], ubFull := #[0.5] }
        (.atStart true [] []) (Profile.new 0 { x := #[.ofFloat 0.0], fval := .ofFloat 0.0 }) =
          .ok (prof, ws) ∧
      (∀ x ∈ prof.xPath, Problem.InBoxAt
        { objective := ({ formula := .linear #[.ofFloat 0.0] (.ofFloat 0.0) } : Objective.Spec).toObjective,
          lbFull := #[-0.5], ubFull := #[0.5] } 0 x) ∧
      (∀ x, prof.xPath[0]? = some x →
        WalkSettings.EndsAt ⟨0, { defaultStepSize := 0.5, wholePath := true }, .fixedStep, .ofFloat 0.0, .reference⟩
          { objective := ({ formula := .linear #[.ofFloat 0.0] (.ofFloat 0.0) } : Objective.Spec).toObjective,
            lbFull := #[-0.5], ubFull := #[0.5] } .decreasing x prof.ratioPath[0]? ws) ∧
      (∀ x, prof.xPath.back? = some x →
        WalkSettings.EndsAt ⟨0, { defaultStepSize := 0.5, wholePath := true }, .fixedStep, .ofFloat 0.0, .reference⟩
          { objective := ({ formula := .linear #[.ofFloat 0.0] (.ofFloat 0.0) } : Objective.Spec).toObjective,
            lbFull := #[-0.5], ubFull := #[0.5] } .increasing x prof.ratioPath.back? ws) := by
  have hrun : (runTask ⟨0, { defaultStepSize := 0.5, wholePath := true }, .fixedStep, .ofFloat 0.0, .reference⟩
      { objective := ({ formula := .linear #[.ofFloat 0.0] (.ofFloat 0.0) } : Objective.Spec).toObjective,
        lbFull := #[-0.5], ubFull := #[0.5] }
      (.atStart true [] []) (Profile.new 0 { x := #[.ofFloat 0.0], fval := .ofFloat 0.0 })).toBool =
        true := by decide +kernel
  cases h : runTask ⟨0, { defaultStepSize := 0.5, wholePath := true }, .fixedStep, .ofFloat 0.0, .reference⟩
      { objective := ({ formula := .linear #[.ofFloat 0.0] (.ofFloat 0.0) } : Objective.Spec).toObjective,
        lbFull := #[-0.5], ubFull := #[0.5] }
      (.atStart true [] []) (Profile.new 0 { x := #[.ofFloat 0.0], fval := .ofFloat 0.0 }) with
  | error e =>
    rw [h] at hrun
    cases hrun
  | ok r =>
    obtain ⟨prof, ws⟩ := r
    have hseed : ∀ x ∈ (Profile.new 0 { x := #[.ofFloat 0.0], fval := .ofFloat 0.0 }).xPath,
        Problem.InBoxAt
          { objective := ({ formula := .linear #[.ofFloat 0.0] (.ofFloat 0.0) } : Objective.Spec).toObjective,
            lbFull := #[-0.5], ubFull := #[0.5] } 0 x := by
      intro x hx
      simp only [Profile.new, Array.mem_singleton] at hx
      subst hx
      exact ⟨_, rfl, by decide, by decide⟩
    exact ⟨prof, ws, rfl,
      runTask_within_bounds rfl ⟨.nil, by simp, by simp⟩ (Optimizer.atStart_keepsFixed true [] [])
        (by decide) hseed rfl h⟩

/-- A step of `0.01` from `10¹⁵` is absorbed by rounding, the spacing of doubles there being
`0.125`: each step records the point it left, and the profiled values stand still instead of
increasing. -/
theorem runTask_absorbed_steps_repeat_value :
    ∃ prof ws, runTask ⟨0, { maxWalkSteps := 2, wholePath := true }, .fixedStep, .ofFloat 0.0, .reference⟩
        { objective := ({ formula := .linear #[.ofFloat 0.0] (.ofFloat 0.0) } : Objective.Spec).toObjective,
          lbFull := #[-1e16], ubFull := #[1e16] }
        (.atStart true [] []) (Profile.new 0 { x := #[.ofFloat 1e15], fval := .ofFloat 0.0 }) =
          .ok (prof, ws) ∧
      (prof.parValues?.map fun vals => vals.toList.map (·.float)) ==
        some [1e15, 1e15, 1e15, 1e15, 1e15] := by
  have h : ((runTask ⟨0, { maxWalkSteps := 2, wholePath := true }, .fixedStep, .ofFloat 0.0, .reference⟩
        { objective := ({ formula := .linear #[.ofFloat 0.0] (.ofFloat 0.0) } : Objective.Spec).toObjective,
          lbFull := #[-1e16], ubFull := #[1e16] }
        (.atStart true [] []) (Profile.new 0 { x := #[.ofFloat 1e15], fval := .ofFloat 0.0 })
      ).toOption.map fun r => (r.1.parValues?.map fun vals => vals.toList.map (·.float)) ==
        some [1e15, 1e15, 1e15, 1e15, 1e15]) = some true := by decide +kernel
  cases hr : runTask ⟨0, { maxWalkSteps := 2, wholePath := true }, .fixedStep, .ofFloat 0.0, .reference⟩
      { objective := ({ formula := .linear #[.ofFloat 0.0] (.ofFloat 0.0) } : Objective.Spec).toObjective,
        lbFull := #[-1e16], ubFull := #[1e16] }
      (.atStart true [] []) (Profile.new 0 { x := #[.ofFloat 1e15], fval := .ofFloat 0.0 }) with
  | error e =>
    rw [hr] at h
    cases h
  | ok r =>
    obtain ⟨prof, ws⟩ := r
    rw [hr] at h
    exact ⟨prof, ws, rfl, Option.some.inj h⟩

end ProfileLikelihood

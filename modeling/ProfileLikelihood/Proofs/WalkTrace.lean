import ProfileLikelihood.Proofs.WalkEnds
import ProfileLikelihood.Proofs.Termination

/-! What a walk did, call by call. A walk that comes back has appended to its profile exactly
the points of the fits it accepted, in the order of its optimizer calls; it made at most as
many calls as its step budget times its try budget; it refixed only the profiled parameter; and
it ended in one of three ways, each with its own warning or none: at a point where it stops,
at the step cap, or after a step whose every try was rejected. Whether it comes back at all is
another matter: a proposal whose search never ends holds the walk up for ever. -/

namespace ProfileLikelihood

open Numeric

/-- A run of optimizer calls: from the state `opt`, calls on some problems and starts gave the
results `rs`, in order, and left the state `opt'`. -/
inductive Optimizer.Calls : Optimizer → List (Except FitError Outcome) → Optimizer → Prop
  | nil (opt : Optimizer) : Calls opt [] opt
  | cons {opt opt' opt'' : Optimizer} {r : Except FitError Outcome}
      {rs : List (Except FitError Outcome)} (p : Problem) (x0 : Vec)
      (h : opt.minimize p x0 = (r, opt')) (rest : Calls opt' rs opt'') : Calls opt (r :: rs) opt''

theorem Optimizer.Calls.append {a b c : Optimizer} {rs rs' : List (Except FitError Outcome)}
    (h : Calls a rs b) (h' : Calls b rs' c) : Calls a (rs ++ rs') c := by
  induction h with
  | nil => exact h'
  | cons p x0 hmin _ ih => exact .cons p x0 hmin (ih h')

/-- `q'` is `q` with the fixed values changed at most at parameter `par`. -/
def Problem.RefixedAt (q q' : Problem) (par : Nat) : Prop :=
  ∃ F, q' = { q with fixed := F } ∧ ∀ j ≠ par, F.lookup j = q.fixed.lookup j

namespace Problem.RefixedAt

variable {q q' q'' : Problem} {par : Nat}

theorem refl (q : Problem) (par : Nat) : q.RefixedAt q par := ⟨q.fixed, rfl, fun _ _ => rfl⟩

theorem trans (h : q.RefixedAt q' par) (h' : q'.RefixedAt q'' par) : q.RefixedAt q'' par := by
  obtain ⟨F, rfl, hF⟩ := h
  obtain ⟨F', rfl, hF'⟩ := h'
  exact ⟨F', rfl, fun j hj => (hF' j hj).trans (hF j hj)⟩

theorem of_fix {v : Float} (h : q.fix [par] [v] = .ok q') : q.RefixedAt q' par := by
  obtain ⟨-, rfl⟩ := fix_eq_ok h
  refine ⟨_, rfl, fun j hj => ?_⟩
  simp [lookup_writeFixed, hj]

end Problem.RefixedAt

namespace WalkSettings

variable {s : WalkSettings}

/-- The point a fit's result gives the profile: one for a fit that converged to a finite value,
none for a failure, a fit that did not converge or a value that is not finite. -/
def found (s : WalkSettings) : Except FitError Outcome → Option ProfilePoint
  | .ok o => if o.converged && o.value.isFinite then some (s.pointOf o) else none
  | .error _ => none

/-- What one step did: its optimizer calls, at most one per try and one per try exactly when
it found nothing; the point it found, from its last call, the calls before it all rejected;
and the problem refixed at the profiled parameter only. -/
structure StepTrace (s : WalkSettings) (tries : Nat) (q q' : Problem) (opt opt' : Optimizer)
    (pt? : Option ProfilePoint) (rs : List (Except FitError Outcome)) : Prop where
  calls : Optimizer.Calls opt rs opt'
  length_le : rs.length ≤ tries
  found : rs.filterMap s.found = pt?.toList
  exhausted : pt? = none → rs.length = tries
  refixed : q.RefixedAt q' s.par

/-- The recursion is on the tries left; a rejected try is one call whose result gives no point,
followed by the step with one try fewer. -/
theorem step_trace {x : Point} {prof : Profile} {dir : Direction} :
    ∀ (tries : Nat) {reduce : Float} {q q' : Problem} {opt opt' : Optimizer}
      {pt? : Option ProfilePoint}, s.step x prof dir tries reduce q opt = .ok (pt?, q', opt') →
      ∃ rs, s.StepTrace tries q q' opt opt' pt? rs
  | 0, reduce, q, q', opt, opt', pt?, h => by
    cases h
    exact ⟨[], .nil _, le_rfl, rfl, fun _ => rfl, .refl _ _⟩
  | tries + 1, reduce, q, q', opt, opt', pt?, h => by
    unfold step at h
    obtain ⟨next, -, h⟩ := Except.bind_eq_ok.1 h
    obtain ⟨e, -, h⟩ := Except.bind_eq_ok.1 h
    obtain ⟨q₁, hq₁, h⟩ := Except.bind_eq_ok.1 h
    obtain ⟨x0, -, h⟩ := Except.bind_eq_ok.1 h
    have hfix : q.RefixedAt q₁ s.par := .of_fix (Except.mapError_eq_ok.1 hq₁)
    have hretry : ∀ r opt₁ reduce', opt.minimize q₁ x0 = (r, opt₁) → s.found r = none →
        s.step x prof dir tries reduce' q₁ opt₁ = .ok (pt?, q', opt') →
        ∃ rs, s.StepTrace (tries + 1) q q' opt opt' pt? rs := by
      intro r opt₁ reduce' hmin hr hrest
      obtain ⟨rs, hcalls, hlen, hfound, hexh, hrefix⟩ := step_trace tries hrest
      refine ⟨r :: rs, .cons q₁ x0 hmin hcalls, by simp [hlen], ?_, ?_, hfix.trans hrefix⟩
      · simp [hr, hfound]
      · intro hnone
        simp [hexh hnone]
    split at h
    · rename_i o opt₁ hmin
      split at h
      · rename_i hacc
        cases h
        refine ⟨[.ok o], .cons _ x0 hmin (.nil _), by simp, ?_, (fun h => by cases h), hfix⟩
        simp [found, hacc]
      · rename_i hrej
        exact hretry _ _ _ hmin (by simp [found, hrej]) h
    · rename_i err opt₁ hmin
      split at h
      · cases h
      · exact hretry _ _ _ hmin rfl h

theorem filterMap_found_eq_nil {rs : List (Except FitError Outcome)}
    (h : rs.filterMap s.found = []) : ∀ r ∈ rs, s.found r = none :=
  List.filterMap_eq_nil_iff.1 h

/-! ### The stop rule -/

/-- Where a walk toward `dir` stops, at the profiled value `v` of its last point: at or past the
bound it walks toward, or, unless the whole path is wanted, with a last ratio below the floor. -/
def Stops (s : WalkSettings) (v : Float) (prof : Profile) (p : Problem) (dir : Direction) : Prop :=
  (dir = .decreasing ∧ v ≤ p.lbFull.entry s.par) ∨ (dir = .increasing ∧ p.ubFull.entry s.par ≤ v) ∨
    (s.options.wholePath = false ∧
      (prof.ratioPath.back?.map (·.float)).getD 1.0 < s.options.ratioMin)

/-- A stop check that answers read a point with the profiled parameter, and answers whether the
walk stops there. -/
theorem stopsAt_eq_ok {x : Point} {prof : Profile} {p : Problem} {dir : Direction} {b : Bool}
    (h : s.stopsAt x prof p dir = .ok b) :
    s.par < x.size ∧ (b = true ↔ s.Stops (Double.entry x s.par).float prof p dir) := by
  unfold stopsAt at h
  by_cases hsz : s.par ≥ x.size
  · simp [hsz] at h
  refine ⟨Nat.lt_of_not_le hsz, ?_⟩
  simp only [hsz, if_false] at h
  unfold Stops
  cases dir with
  | decreasing =>
    obtain ⟨bound, hbound, h⟩ := Except.bind_eq_ok.1 h
    rw [← entry_of_pointEntry hbound] at h
    cases hw : s.options.wholePath <;> simp [hw] at h <;> simp [← h]
  | increasing =>
    obtain ⟨bound, hbound, h⟩ := Except.bind_eq_ok.1 h
    rw [← entry_of_pointEntry hbound] at h
    cases hw : s.options.wholePath <;> simp [hw] at h <;> simp [← h]

/-! ### Whole walks -/

/-- How a walk toward `dir` that took `k` steps in all ended in the state `w`, with the warnings
`ws` it added and the results `rs` of its optimizer calls: where it stops, with no warning; at
the step cap, where it does not stop; or below the cap, after a step whose every try was
rejected. -/
def Ending (s : WalkSettings) (dir : Direction) (k : Nat) (w : WalkState)
    (rs : List (Except FitError Outcome)) (ws : Array ProfileWarning) : Prop :=
  (ws = #[] ∧ ∃ x, w.profile.lastX? = some x ∧ s.par < x.size ∧
      s.Stops (Double.entry x s.par).float w.profile w.problem dir) ∨
    (ws = #[.stepCapReached s.par dir s.options.maxWalkSteps] ∧ k = s.options.maxWalkSteps ∧
      ∃ x, w.profile.lastX? = some x ∧ s.par < x.size ∧
        ¬s.Stops (Double.entry x s.par).float w.profile w.problem dir) ∨
    (ws = #[.partialProfile s.par dir s.options.maxTries] ∧ k < s.options.maxWalkSteps ∧
      ∃ rs₀ last, rs = rs₀ ++ last ∧ last.length = s.options.maxTries ∧
        ∀ r ∈ last, s.found r = none)

theorem Ending.prepend {dir : Direction} {k : Nat} {w : WalkState}
    {rs : List (Except FitError Outcome)} {ws : Array ProfileWarning} (h : s.Ending dir k w rs ws)
    (rs₁ : List (Except FitError Outcome)) : s.Ending dir k w (rs₁ ++ rs) ws := by
  rcases h with hstop | hcap | ⟨hws, hk, rs₀, last, rfl, hlen, hlast⟩
  · exact .inl hstop
  · exact .inr (.inl hcap)
  · exact .inr (.inr ⟨hws, hk, rs₁ ++ rs₀, last, (List.append_assoc _ _ _).symm, hlen, hlast⟩)

/-- What a walk toward `dir` did from the state `w`, after `taken` steps, to the state `w'`:
it appended the points `pts`, one for each accepted fit among its optimizer calls `rs` and in
their order, no more than the steps it had left, with no more calls than the tries of those
steps; it added the warnings `ws`, refixed the problem at the profiled parameter only, and
ended as `Ending` says. -/
structure Trace (s : WalkSettings) (dir : Direction) (taken : Nat) (w w' : WalkState)
    (pts : List ProfilePoint) (rs : List (Except FitError Outcome)) (ws : Array ProfileWarning) :
    Prop where
  profile : w'.profile = w.profile.pushAll pts
  steps_le : taken + pts.length ≤ s.options.maxWalkSteps
  calls : Optimizer.Calls w.optimizer rs w'.optimizer
  calls_le : rs.length + taken * s.options.maxTries ≤ s.options.maxWalkSteps * s.options.maxTries
  found : rs.filterMap s.found = pts
  warnings : w'.warnings = w.warnings ++ ws
  refixed : w.problem.RefixedAt w'.problem s.par
  ending : s.Ending dir (taken + pts.length) w' rs ws

/-- A step that found a point, then the rest of the walk from the profile with that point. -/
theorem Trace.cons {dir : Direction} {taken : Nat} {w w' : WalkState} {q : Problem}
    {opt : Optimizer} {pt : ProfilePoint} {pts : List ProfilePoint}
    {rs₁ rs : List (Except FitError Outcome)} {ws : Array ProfileWarning}
    (htr : s.Trace dir (taken + 1)
      { w with profile := w.profile.push pt, problem := q, optimizer := opt } w' pts rs ws)
    (hst : s.StepTrace s.options.maxTries w.problem q w.optimizer opt (some pt) rs₁) :
    s.Trace dir taken w w' (pt :: pts) (rs₁ ++ rs) ws := by
  have hk : taken + (pt :: pts).length = taken + 1 + pts.length := by simp; omega
  refine ⟨htr.profile, ?_, hst.calls.append htr.calls, ?_, ?_, htr.warnings,
    hst.refixed.trans htr.refixed, hk ▸ htr.ending.prepend rs₁⟩
  · have := htr.steps_le
    omega
  · -- the step's calls are at most its tries, which the steps left after it leave room for
    have := htr.calls_le
    have := hst.length_le
    have := Nat.add_one_mul taken s.options.maxTries
    simp only [List.length_append]
    omega
  · rw [List.filterMap_append, hst.found, htr.found]
    rfl

theorem Profile.lastX?_of_size_ne_zero {prof : Profile} (h : prof.size ≠ 0) :
    ∃ x, prof.lastX? = some x :=
  Option.isSome_iff_exists.1 (Array.back?_isSome.2 fun he => h (by simp [Profile.size, he]))

/-- A walk that comes back did what `Trace` says. -/
theorem walkFrom_trace {dir : Direction} :
    ∀ (fuel taken : Nat) {w w' : WalkState}, w.profile.size ≠ 0 →
      taken ≤ s.options.maxWalkSteps → s.options.maxWalkSteps < fuel + taken →
      s.walkFrom dir fuel taken w = .ok w' → ∃ pts rs ws, s.Trace dir taken w w' pts rs ws
  | 0, taken, w, w', _, hle, hlt, _ => absurd hlt (by omega)
  | fuel + 1, taken, w, w', hne, hle, hlt, h => by
    obtain ⟨x, hx⟩ := Profile.lastX?_of_size_ne_zero hne
    simp only [walkFrom, hx] at h
    obtain ⟨stop, hstop, h⟩ := Except.bind_eq_ok.1 h
    obtain ⟨hsz, hstops⟩ := stopsAt_eq_ok hstop
    have hcalls : taken * s.options.maxTries ≤ s.options.maxWalkSteps * s.options.maxTries :=
      Nat.mul_le_mul_right _ hle
    cases stop
    case true =>
      cases h
      exact ⟨[], [], #[], rfl, by simpa using hle, .nil _, by simpa using hcalls, rfl, by simp,
        .refl _ _, .inl ⟨rfl, x, hx, hsz, hstops.1 rfl⟩⟩
    case false =>
    by_cases hcap : taken ≥ s.options.maxWalkSteps
    · simp only [hcap, if_true, Bool.false_eq_true, if_false] at h
      cases h
      exact ⟨[], [], #[_], rfl, by simpa using hle, .nil _, by simpa using hcalls, rfl,
        Array.push_eq_append, .refl _ _,
        .inr (.inl ⟨rfl, by simp; omega, x, hx, hsz, fun hs => by simpa using hstops.2 hs⟩)⟩
    · simp only [hcap, Bool.false_eq_true, if_false] at h
      obtain ⟨⟨pt?, q, opt⟩, hstep, h⟩ := Except.bind_eq_ok.1 h
      obtain ⟨rs₁, hst⟩ := step_trace s.options.maxTries hstep
      cases pt? with
      | none =>
        cases h
        have hlen := hst.exhausted rfl
        refine ⟨[], rs₁, #[_], rfl, by simpa using hle, hst.calls, ?_, hst.found, Array.push_eq_append,
          hst.refixed, .inr (.inr ⟨rfl, by simp; omega, [], rs₁, rfl, hlen,
            filterMap_found_eq_nil hst.found⟩)⟩
        have := Nat.mul_le_mul_right s.options.maxTries (show taken + 1 ≤ s.options.maxWalkSteps by omega)
        have := Nat.add_one_mul taken s.options.maxTries
        omega
      | some pt =>
        obtain ⟨pts, rs, ws, htr⟩ := walkFrom_trace fuel (taken + 1)
          (by simp [Profile.size, Profile.push]) (by omega) (by omega) h
        exact ⟨pt :: pts, rs₁ ++ rs, ws, htr.cons hst⟩

theorem walkFrom_of_stops {dir : Direction} {fuel taken : Nat} {w : WalkState} {x : Point}
    (hx : w.profile.lastX? = some x) (hstop : s.stopsAt x w.profile w.problem dir = .ok true) :
    s.walkFrom dir (fuel + 1) taken w = .ok w := by
  rw [walkFrom.eq_2, hx]
  dsimp only
  rw [hstop]
  rfl

theorem walkFrom_of_step_error {dir : Direction} {fuel taken : Nat} {w : WalkState} {x : Point}
    {e : ProfileError} (hx : w.profile.lastX? = some x)
    (hstop : s.stopsAt x w.profile w.problem dir = .ok false) (hcap : taken < s.options.maxWalkSteps)
    (hstep : s.step x w.profile dir s.options.maxTries 1.0 w.problem w.optimizer = .error e) :
    s.walkFrom dir (fuel + 1) taken w = .error e := by
  rw [walkFrom.eq_2, hx]
  dsimp only
  rw [hstop, Except.ok_bind, if_neg Bool.false_ne_true, if_neg (Nat.not_le.2 hcap), hstep]
  rfl

/-- A walk from a profile with points that comes back has appended to it exactly the points of
the fits it accepted, in the order of its optimizer calls and at most one for each step of its
budget; it made at most as many calls as its steps times its tries; it refixed only the profiled
parameter; and it ended as `Ending` says, with one warning at most. -/
theorem walk_ok_appends_accepted_fits {dir : Direction} {w w' : WalkState}
    (hne : w.profile.size ≠ 0) (h : s.walk dir w = .ok w') :
    ∃ pts rs ws, w'.profile = w.profile.pushAll pts ∧ pts.length ≤ s.options.maxWalkSteps ∧
      Optimizer.Calls w.optimizer rs w'.optimizer ∧
      rs.length ≤ s.options.maxWalkSteps * s.options.maxTries ∧
      rs.filterMap s.found = pts ∧ w'.warnings = w.warnings ++ ws ∧
      w.problem.RefixedAt w'.problem s.par ∧ s.Ending dir pts.length w' rs ws := by
  obtain ⟨pts, rs, ws, htr⟩ := walkFrom_trace _ 0 hne (Nat.zero_le _) (by omega) h
  refine ⟨pts, rs, ws, htr.profile, ?_, htr.calls, ?_, htr.found, htr.warnings, htr.refixed, ?_⟩
  · simpa using htr.steps_le
  · simpa using htr.calls_le
  · simpa using htr.ending

/-- A walk with one step along a flat objective from inside its box takes that step: it appends
the one fit its optimizer returns. -/
theorem walk_one_step_appends_its_fit :
    let s : WalkSettings :=
      ⟨0, { maxWalkSteps := 1, wholePath := true }, .fixedStep, .ofFloat 0.0, .reference⟩
    let w : WalkState :=
      { profile := Profile.new 0 { x := #[.ofFloat 0.0], fval := .ofFloat 0.0 },
        problem := { objective := ({ formula := .linear #[.ofFloat 0.0] (.ofFloat 0.0) } :
                       Objective.Spec).toObjective,
                     lbFull := #[-1.0], ubFull := #[1.0] },
        optimizer := .atStart true [] [] }
    w.profile.size ≠ 0 ∧ ∃ w', s.walk .increasing w = .ok w' ∧ w'.profile.size = 2 ∧
      ∃ pts rs ws, w'.profile = w.profile.pushAll pts ∧ pts.length ≤ s.options.maxWalkSteps ∧
        Optimizer.Calls w.optimizer rs w'.optimizer ∧
        rs.length ≤ s.options.maxWalkSteps * s.options.maxTries ∧
        rs.filterMap s.found = pts ∧ w'.warnings = w.warnings ++ ws ∧
        w.problem.RefixedAt w'.problem s.par ∧ s.Ending .increasing pts.length w' rs ws := by
  intro s w
  have h : ((s.walk .increasing w).toOption.map fun w' => w'.profile.size) = some 2 := by
    decide +kernel
  obtain ⟨w', hr, hsize⟩ := Option.map_eq_some_iff.1 h
  have hw := Except.toOption_eq_some.1 hr
  exact ⟨by decide, w', hw, hsize, walk_ok_appends_accepted_fits (by decide) hw⟩

theorem step_of_nextGuess_error {x : Point} {prof : Profile} {dir : Direction} {tries : Nat}
    {reduce : Float} {q : Problem} {opt : Optimizer} {e : ProfileError}
    (h : (⟨s.options, prof, q, s.globalOpt.float, 1.0, reduce, s.svd⟩ : GuessContext).nextGuess x s.par dir
      s.method = .error e) :
    s.step x prof dir (tries + 1) reduce q opt = .error e := by
  rw [step, h]
  rfl

/-- A walk whose first proposal is a step search that never ends does not come back, with
options that pass every check: it fails when the search has spent its budget. -/
theorem least_step_walk_does_not_return :
    let s : WalkSettings :=
      ⟨0, { minStepSize := Float.ofBits 1, defaultStepSize := Float.ofBits 1 }, .adaptiveOrder0,
        .ofFloat 0.0, .reference⟩
    let w : WalkState :=
      { profile := Profile.new 0 { x := #[.ofFloat 0.0], fval := .ofFloat inf },
        problem := { objective := ({ formula := .linear #[.ofFloat 0.0] (.ofFloat 0.0) } :
                       Objective.Spec).toObjective,
                     lbFull := #[-1.0], ubFull := #[1.0] },
        optimizer := .broken }
    s.options.firstViolation.isNone = true ∧ s.walk .increasing w = .error .endlessSearch := by
  intro s w
  have hstop : s.stopsAt #[.ofFloat 0.0] w.profile w.problem .increasing = .ok false :=
    Except.toOption_eq_some.1 (by decide)
  have hng : (⟨s.options, w.profile, w.problem, s.globalOpt.float, 1.0, 1.0, s.svd⟩ :
      GuessContext).nextGuess #[.ofFloat 0.0] s.par .increasing s.method = .error .endlessSearch := by
    dsimp only [s, w]
    exact GuessContext.nextGuess_least_step_endless
  have hstep : s.step #[.ofFloat 0.0] w.profile .increasing s.options.maxTries 1.0 w.problem
      w.optimizer = .error .endlessSearch :=
    step_of_nextGuess_error hng
  exact ⟨by decide, walkFrom_of_step_error rfl hstop (by decide) hstep⟩

end WalkSettings

end ProfileLikelihood

import ProfileLikelihood.Objective.Catalog
import ProfileLikelihood.Profile.Walk
import ProfileLikelihood.Proofs.Basic
import ProfileLikelihood.Proofs.Path

/-! Walks and profiling tasks. A task reports its own parameter, fails only with a failure that
stops the whole computation, and a profile it reports is the one its run returned. -/

namespace ProfileLikelihood

variable {s : WalkSettings} {p : Problem} {opt : Optimizer} {seed : Profile}

theorem size_ne_zero_of_lastX? {prof : Profile} {x : Point} (h : prof.lastX? = some x) :
    prof.size ≠ 0 := by
  intro h0
  have hempty : prof.xPath = #[] := Array.size_eq_zero_iff.1 h0
  simp [Profile.lastX?, hempty] at h

namespace WalkSettings

/-- A walk only appends points to its profile: at most as many as its step budget has left
after `taken` steps, and none to a profile without points. -/
theorem walkFrom_extends {dir : Direction} {fuel taken : Nat} {w w' : WalkState}
    (h : s.walkFrom dir fuel taken w = .ok w') :
    ∃ pts : List ProfilePoint, pts.length ≤ s.options.maxWalkSteps - taken ∧
      (pts ≠ [] → w.profile.size ≠ 0) ∧ w'.profile = w.profile.pushAll pts := by
  induction fuel generalizing taken w with
  | zero =>
    cases h
    exact ⟨[], by simp, by simp, rfl⟩
  | succ fuel ih =>
    have hkeep : w'.profile = w.profile → ∃ pts : List ProfilePoint,
        pts.length ≤ s.options.maxWalkSteps - taken ∧ (pts ≠ [] → w.profile.size ≠ 0) ∧
          w'.profile = w.profile.pushAll pts :=
      fun he => ⟨[], by simp, by simp, by simp [he]⟩
    simp only [walkFrom] at h
    cases hx : w.profile.lastX? with
    | none =>
      simp only [hx] at h
      cases h
      exact hkeep rfl
    | some x =>
      simp only [hx] at h
      obtain ⟨stop, -, h⟩ := Except.bind_eq_ok.1 h
      cases stop
      case true =>
        cases h
        exact hkeep rfl
      case false =>
      by_cases hcap : taken ≥ s.options.maxWalkSteps
      · simp only [hcap, if_true, Bool.false_eq_true, if_false] at h
        cases h
        exact hkeep rfl
      · simp only [hcap, Bool.false_eq_true, if_false] at h
        obtain ⟨⟨pt?, p, opt⟩, -, h⟩ := Except.bind_eq_ok.1 h
        cases pt? with
        | none =>
          cases h
          exact hkeep rfl
        | some pt =>
          obtain ⟨pts, hlen, -, hprof⟩ := ih h
          refine ⟨pt :: pts, ?_, fun _ => size_ne_zero_of_lastX? hx, by simpa using hprof⟩
          simp only [List.length_cons]
          omega

theorem walk_extends {dir : Direction} {w w' : WalkState} (h : s.walk dir w = .ok w') :
    ∃ pts : List ProfilePoint, pts.length ≤ s.options.maxWalkSteps ∧
      (pts ≠ [] → w.profile.size ≠ 0) ∧ w'.profile = w.profile.pushAll pts :=
  walkFrom_extends h

end WalkSettings

theorem profileTask_index {t : IndexedProfile} (h : profileTask s p opt seed = .ok t) :
    t.index = s.par := by
  unfold profileTask at h
  split at h
  · cases h; rfl
  · split at h
    · cases h
    · cases h; rfl

theorem stops_of_profileTask {err : ProfileError} (h : profileTask s p opt seed = .error err) :
    err.stops := by
  unfold profileTask at h
  split at h
  · cases h
  · split at h
    · cases h; assumption
    · cases h

theorem runTask_of_profileTask {t : IndexedProfile} {prof : Profile}
    (h : profileTask s p opt seed = .ok t) (hp : t.profile = some prof) :
    runTask s p opt seed = .ok (prof, t.warnings) := by
  unfold profileTask at h
  split at h
  · rename_i prof' ws heq
    cases h
    cases hp
    exact heq
  · split at h
    · cases h
    · cases h; cases hp

/-- A successful task is its two walks: down from the flipped seed, then up from the flipped
result; freeing the parameter again leaves the profile and the warnings as the walks left them. -/
theorem runTask_walks {prof : Profile} {ws : Array ProfileWarning}
    (h : runTask s p opt seed = .ok (prof, ws)) :
    ∃ w₁ w₂, s.walk .decreasing { profile := seed.flip, problem := p, optimizer := opt } = .ok w₁ ∧
      s.walk .increasing { w₁ with profile := w₁.profile.flip } = .ok w₂ ∧
      prof = { w₂.profile with iPar := s.par, message := completionMessage w₂.warnings.size } ∧
      ws = w₂.warnings := by
  unfold runTask at h
  obtain ⟨w₁, hw₁, h⟩ := Except.bind_eq_ok.1 h
  obtain ⟨w₂, hw₂, h⟩ := Except.bind_eq_ok.1 h
  refine ⟨w₁, w₂, hw₁, hw₂, ?_⟩
  split at h
  · obtain ⟨_, -, h⟩ := Except.bind_eq_ok.1 h
    simp only [Except.pure_eq, Except.ok.injEq, Prod.mk.injEq] at h
    exact ⟨h.1.symm, h.2.symm⟩
  · simp only [Except.pure_eq, Except.ok.injEq, Prod.mk.injEq] at h
    exact ⟨h.1.symm, h.2.symm⟩

/-- A successful task walks down from its seed, then up: its profile is the seed with the
downward walk's points put in front and the upward walk's points appended, labelled with its
parameter. -/
theorem runTask_eq_ok {prof : Profile} {ws : Array ProfileWarning}
    (h : runTask s p opt seed = .ok (prof, ws)) :
    ∃ down up : List ProfilePoint, down.length ≤ s.options.maxWalkSteps ∧
      up.length ≤ s.options.maxWalkSteps ∧ (down ≠ [] → seed.size ≠ 0) ∧
      prof = { (seed.flip.pushAll down).flip.pushAll up with
        iPar := s.par, message := completionMessage ws.size } := by
  obtain ⟨w₁, w₂, hw₁, hw₂, rfl, rfl⟩ := runTask_walks h
  obtain ⟨down, hdown, hseed, hp₁⟩ := WalkSettings.walk_extends hw₁
  obtain ⟨up, hup, -, hp₂⟩ := WalkSettings.walk_extends hw₂
  refine ⟨down, up, hdown, hup, by simpa using hseed, ?_⟩
  rw [hp₂, hp₁]

/-- A profiling task keeps its seed. -/
theorem runTask_extends_seed {prof : Profile} {ws : Array ProfileWarning}
    (h : runTask s p opt seed = .ok (prof, ws)) :
    ∃ down up : List ProfilePoint, down.length ≤ s.options.maxWalkSteps ∧
      up.length ≤ s.options.maxWalkSteps ∧
      prof.xPath.toList = (down.map (·.x)).reverse ++ seed.xPath.toList ++ up.map (·.x) ∧
      prof.fvalPath.toList =
        (down.map (·.fval)).reverse ++ seed.fvalPath.toList ++ up.map (·.fval) ∧
      prof.ratioPath.toList =
        (down.map (·.ratio)).reverse ++ seed.ratioPath.toList ++ up.map (·.ratio) ∧
      prof.gradnormPath.toList =
        (down.map (·.gradnorm)).reverse ++ seed.gradnormPath.toList ++ up.map (·.gradnorm) ∧
      prof.convergedPath.toList =
        (down.map (·.converged)).reverse ++ seed.convergedPath.toList ++ up.map (·.converged) ∧
      prof.timePath.toList =
        (down.map (·.time)).reverse ++ seed.timePath.toList ++ up.map (·.time) ∧
      prof.optimumIndex = seed.optimumIndex + down.length.toUInt64 ∧ prof.iPar = s.par := by
  obtain ⟨down, up, hdown, hup, hseed, rfl⟩ := runTask_eq_ok h
  refine ⟨down, up, hdown, hup, Profile.Path.x.get_walked seed down up,
    Profile.Path.fval.get_walked seed down up, Profile.Path.ratio.get_walked seed down up,
    Profile.Path.gradnorm.get_walked seed down up, Profile.Path.converged.get_walked seed down up,
    Profile.Path.time.get_walked seed down up, ?_, rfl⟩
  show ((seed.flip.pushAll down).flip.pushAll up).optimumIndex = _
  rw [Profile.optimumIndex_pushAll, Profile.optimumIndex_flip_pushAll_flip seed down hseed]

/-- A one-point seed inside its box on a flat objective, with one step each way: each walk takes
its step, and the task returns three points with the seed between them. -/
theorem runTask_one_step_each_way_extends_seed :
    let s : WalkSettings :=
      ⟨0, { maxWalkSteps := 1, wholePath := true }, .fixedStep, .ofFloat 0.0, .reference⟩
    let p : Problem :=
      { objective := ({ formula := .linear #[.ofFloat 0.0] (.ofFloat 0.0) } :
          Objective.Spec).toObjective,
        lbFull := #[-1.0], ubFull := #[1.0] }
    let seed := Profile.new 0 { x := #[.ofFloat 0.0], fval := .ofFloat 0.0 }
    ∃ prof ws, runTask s p (.atStart true [] []) seed = .ok (prof, ws) ∧ prof.xPath.size = 3 ∧
      ∃ down up : List ProfilePoint, down.length ≤ s.options.maxWalkSteps ∧
        up.length ≤ s.options.maxWalkSteps ∧
        prof.xPath.toList = (down.map (·.x)).reverse ++ seed.xPath.toList ++ up.map (·.x) ∧
        prof.fvalPath.toList =
          (down.map (·.fval)).reverse ++ seed.fvalPath.toList ++ up.map (·.fval) ∧
        prof.ratioPath.toList =
          (down.map (·.ratio)).reverse ++ seed.ratioPath.toList ++ up.map (·.ratio) ∧
        prof.gradnormPath.toList =
          (down.map (·.gradnorm)).reverse ++ seed.gradnormPath.toList ++ up.map (·.gradnorm) ∧
        prof.convergedPath.toList =
          (down.map (·.converged)).reverse ++ seed.convergedPath.toList ++ up.map (·.converged) ∧
        prof.timePath.toList =
          (down.map (·.time)).reverse ++ seed.timePath.toList ++ up.map (·.time) ∧
        prof.optimumIndex = seed.optimumIndex + down.length.toUInt64 ∧ prof.iPar = s.par := by
  intro s p seed
  have h : ((runTask s p (.atStart true [] []) seed).toOption.map fun r => r.1.xPath.size) =
      some 3 := by
    decide +kernel
  obtain ⟨⟨prof, ws⟩, hr, hsize⟩ := Option.map_eq_some_iff.1 h
  have hrun := Except.toOption_eq_some.1 hr
  exact ⟨prof, ws, hrun, hsize, runTask_extends_seed hrun⟩

/-! ### A seed too short for its parameter

The first thing a walk does is read the profiled parameter at its walking end, before anything
checks that the point has that entry. -/

theorem Profile.lastX?_flip (prof : Profile) : prof.flip.lastX? = prof.xPath[0]? := by
  simp only [Profile.lastX?, Profile.flip]
  rcases prof.xPath with ⟨l⟩
  simp [List.head?_eq_getElem?]

theorem WalkSettings.walk_of_short_end {dir : Direction} {w : WalkState} {x : Point}
    (hx : w.profile.lastX? = some x) (hshort : x.size ≤ s.par) :
    s.walk dir w = .error (.indexOutOfBounds s.par x.size) := by
  simp [WalkSettings.walk, WalkSettings.walkFrom, hx, WalkSettings.stopsAt, hshort]

theorem runTask_of_short_seed {x : Point} (hx : seed.xPath[0]? = some x)
    (hshort : x.size ≤ s.par) :
    runTask s p opt seed = .error (.indexOutOfBounds s.par x.size) := by
  have hend : ({ profile := seed.flip, problem := p, optimizer := opt } : WalkState).profile.lastX?
      = some x := by
    rw [Profile.lastX?_flip, hx]
  unfold runTask
  rw [WalkSettings.walk_of_short_end hend hshort]
  rfl

/-- A task whose seed starts at a point without the profiled parameter does not fail softly: the
downward walk reads that entry first, and the task stops the whole computation instead of reporting
a warning. -/
theorem profileTask_short_seed_stops {x : Point} (hx : seed.xPath[0]? = some x)
    (hshort : x.size ≤ s.par) :
    profileTask s p opt seed = .error (.indexOutOfBounds s.par x.size) ∧
      (ProfileError.indexOutOfBounds s.par x.size).stops := by
  refine ⟨?_, rfl⟩
  simp [profileTask, runTask_of_short_seed hx hshort, ProfileError.stops]

/-- A seed of two entries for the third parameter of a three-parameter problem. -/
theorem profileTask_short_seed_stops_third :
    (Profile.new 2 { x := #[.ofFloat 0.0, .ofFloat 0.0], fval := .ofFloat 0.0 }).xPath[0]? =
        some #[.ofFloat 0.0, .ofFloat 0.0] ∧ 2 ≤ 2 ∧
      profileTask ⟨2, {}, .fixedStep, .ofFloat 0.0, .reference⟩
          { objective := ⟨fun _ => .ok (.ofFloat 0.0), fun _ => .error .gradientNotImplemented,
              fun _ => .error .hessianNotImplemented⟩,
            lbFull := #[0.0, 0.0, 0.0], ubFull := #[1.0, 1.0, 1.0] }
          .broken (Profile.new 2 { x := #[.ofFloat 0.0, .ofFloat 0.0], fval := .ofFloat 0.0 }) =
        .error (.indexOutOfBounds 2 2) ∧
      (ProfileError.indexOutOfBounds 2 2).stops :=
  ⟨rfl, Nat.le_refl 2, profileTask_short_seed_stops (s := ⟨2, {}, .fixedStep, .ofFloat 0.0, .reference⟩)
    (x := #[.ofFloat 0.0, .ofFloat 0.0]) rfl (Nat.le_refl 2)⟩

/-- A profiling task does not always come back with a profile or a warning: profiling the
second parameter of a two-parameter linear problem from a one-entry seed stops the computation. -/
theorem profileTask_one_entry_seed_stops :
    profileTask ⟨1, {}, .adaptiveOrder1, .ofFloat 0.0, .reference⟩
        { objective := Objective.Spec.toObjective
            { formula := .linear #[.ofFloat 0.0, .ofFloat 0.0] (.ofFloat 0.0) },
          lbFull := #[-1.0, -1.0], ubFull := #[1.0, 1.0] }
        (.atStart true [] []) (Profile.new 1 { x := #[.ofFloat 0.0], fval := .ofFloat 0.0 }) =
      .error (.indexOutOfBounds 1 1) ∧ (ProfileError.indexOutOfBounds 1 1).stops := by
  refine ⟨?_, rfl⟩
  rw [profileTask, runTask_of_short_seed (x := #[.ofFloat 0.0])]
  · rfl
  · rfl
  · exact Nat.le_refl 1

end ProfileLikelihood

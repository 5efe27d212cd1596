import ProfileLikelihood.Profile.Gaussian
import ProfileLikelihood.Proofs.Store

/-! Gaussian approximations written into the store. Every check of a request and every profile
is computed before anything is written, so a request that fails there leaves the estimation as
it was. The writes come last and each can still fail: a named list is checked to exist but not
to have a slot for every parameter. A success adds one list of empty slots when no list is
named and writes exactly the slots of the free requested parameters, each with its Gaussian
profile. -/

namespace ProfileLikelihood

open Numeric

variable {p : Problem} {e : Estimation} {pi : Option (List Nat)} {pl : Option Nat}
  {ri n : Nat} {lib : Numerics}

theorem gaussianProfile_iPar {x : Point} {i : Nat} {v : Float} {prof : Profile}
    (h : gaussianProfile p x i v n lib = .ok prof) : prof.iPar = i := by
  unfold gaussianProfile at h
  dsimp only at h
  split at h
  · simp at h
  · cases h
    rfl

/-! ### The targets -/

/-- Classifying requested parameters: each is in range, the targets added are the free ones in
order, each with its free index, and the warnings added name the fixed ones in order. -/
theorem foldlM_classifyTarget {l : List Nat} {ts ws ts' ws'}
    (h : l.foldlM (classifyTarget p) (ts, ws) = .ok (ts', ws')) :
    (∀ i ∈ l, i < p.dimFull) ∧
      ts'.toList.map (·.1) = ts.toList.map (·.1) ++ l.filter (fun i => !p.isFixed i) ∧
      (∀ t ∈ ts'.toList, t ∈ ts.toList ∨ p.freeIndexOf t.1 = some t.2) ∧
      ws'.toList = ws.toList ++ (l.filter (fun i => p.isFixed i)).map .fixedParameterSkipped := by
  induction l generalizing ts ws with
  | nil =>
    cases h
    exact ⟨by simp, by simp, fun t ht => .inl ht, by simp⟩
  | cons i l ih =>
    rw [List.foldlM_cons] at h
    obtain ⟨⟨ts₁, ws₁⟩, hstep, hrest⟩ := Except.bind_eq_ok.1 h
    obtain ⟨hlt, hmap, hmem, hws⟩ := ih hrest
    have hi : i < p.dimFull := by
      refine Nat.lt_of_not_le fun hge => ?_
      simp [classifyTarget, hge] at hstep
    cases hfree : p.freeIndexOf i with
    | none =>
      have hfix : p.isFixed i = true := by
        simp only [Problem.freeIndexOf] at hfree
        split at hfree
        · rename_i hc
          exact hc.resolve_left (Nat.not_le.2 hi)
        · cases hfree
      simp only [classifyTarget, Nat.not_le.2 hi, if_false, hfree, Except.pure_eq,
        Except.ok.injEq, Prod.mk.injEq] at hstep
      obtain ⟨rfl, rfl⟩ := hstep
      refine ⟨?_, by simp [hmap, hfix], hmem, by simp [hws, hfix]⟩
      simpa [hi] using hlt
    | some free =>
      have hfix : p.isFixed i = false := by
        simp only [Problem.freeIndexOf] at hfree
        split at hfree
        · cases hfree
        · rename_i hc
          simpa using fun h => hc (.inr h)
      simp only [classifyTarget, Nat.not_le.2 hi, if_false, hfree] at hstep
      split at hstep
      · cases hstep
      · simp only [Except.pure_eq, Except.ok.injEq, Prod.mk.injEq] at hstep
        obtain ⟨rfl, rfl⟩ := hstep
        refine ⟨by simpa [hi] using hlt, by simp [hmap, hfix], fun t ht => ?_, by simp [hws, hfix]⟩
        rcases hmem t ht with ht | ht
        · simp only [Array.toList_push, List.mem_append, List.mem_singleton] at ht
          rcases ht with ht | rfl
          · exact .inl ht
          · exact .inr hfree
        · exact .inr ht

/-! ### The plan -/

/-- The checks of a request, when they pass, give the fit at the index requested, and the named
list exists. -/
theorem approximationStart_eq_ok {start : Fit} (h : approximationStart p e pl ri n = .ok start) :
    e.fits.get? ri = some start ∧ ∀ k, pl = some k → ∃ l, e.profiles.lists[k]? = some l := by
  unfold approximationStart at h
  dsimp only at h
  split at h
  · simp at h
  split at h
  · simp at h
  split at h
  case h_2 => simp at h
  rename_i start' hstart
  split at h
  case isTrue => simp at h
  split at h
  · rename_i k
    obtain ⟨l, hl, h⟩ := Except.bind_eq_ok.1 h
    simp only [Except.pure_eq, Except.ok.injEq] at h
    subst h
    exact ⟨hstart, fun k' hk => ⟨l, by cases hk; exact ProfileStore.list_eq_ok.1 hl⟩⟩
  · rename_i hnone
    cases h
    exact ⟨hstart, fun k hk => absurd hk (hnone k)⟩

theorem approximateTarget_eq_ok {x : Point} {variances : Vec} {t : Nat × Nat} {prof : Profile}
    (h : approximateTarget p x variances n lib t = .ok prof) :
    gaussianProfile p x t.1 (variances.entry t.2) n lib = .ok prof := by
  obtain ⟨i, free⟩ := t
  simp only [approximateTarget] at h
  split at h
  · simp at h
  · exact h

/-- What a plan that succeeds holds: the start fit at the index requested, the variances there,
a named list that exists, requested parameters in range, one Gaussian profile for each free
requested parameter, in order, with that parameter's variance, and one warning for each fixed
requested parameter. -/
theorem approximationPlan_eq_ok {profs : Array Profile} {ws : Array ProfileWarning}
    (h : approximationPlan p e pi pl ri n lib = .ok (profs, ws)) :
    ∃ start variances, e.fits.get? ri = some start ∧
      approximationVariances p start lib = .ok variances ∧
      (∀ k, pl = some k → ∃ l, e.profiles.lists[k]? = some l) ∧
      (∀ i ∈ pi.getD p.freeIndices, i < p.dimFull) ∧
      profs.toList.map (·.iPar) = (pi.getD p.freeIndices).filter (fun i => !p.isFixed i) ∧
      (∀ prof ∈ profs.toList, ∃ free, p.freeIndexOf prof.iPar = some free ∧
        gaussianProfile p start.x prof.iPar (variances.entry free) n lib = .ok prof) ∧
      ws.toList = ((pi.getD p.freeIndices).filter (fun i => p.isFixed i)).map
        .fixedParameterSkipped := by
  unfold approximationPlan at h
  obtain ⟨start, hstart, h⟩ := Except.bind_eq_ok.1 h
  obtain ⟨⟨targets, ws'⟩, htargets, h⟩ := Except.bind_eq_ok.1 h
  obtain ⟨variances, hvar, h⟩ := Except.bind_eq_ok.1 h
  obtain ⟨profs', hprofs, h⟩ := Except.bind_eq_ok.1 h
  simp only [Except.pure_eq, Except.ok.injEq, Prod.mk.injEq] at h
  obtain ⟨rfl, rfl⟩ := h
  obtain ⟨hget, hlist⟩ := approximationStart_eq_ok hstart
  obtain ⟨hlt, hmap, hmem, hws⟩ := foldlM_classifyTarget htargets
  have hprofs' : targets.toList.mapM (approximateTarget p start.x variances n lib) =
      .ok profs'.toList := by
    rw [← Array.toList_mapM, hprofs]
    rfl
  have hiPar : profs'.toList.map (·.iPar) = targets.toList.map (·.1) :=
    Except.mapM_eq_ok_map (fun _ _ ht => gaussianProfile_iPar (approximateTarget_eq_ok ht)) hprofs'
  refine ⟨start, variances, hget, hvar, hlist, hlt, by simpa [hiPar] using hmap, ?_,
    by simpa using hws⟩
  intro prof hprof
  obtain ⟨t, ht, hgauss⟩ := Except.mapM_eq_ok_mem hprofs' prof hprof
  have hgauss := approximateTarget_eq_ok hgauss
  have hi : t.1 = prof.iPar := (gaussianProfile_iPar hgauss).symm
  rcases hmem t ht with ht | hfree
  · simp at ht
  · exact ⟨t.2, hi ▸ hfree, hi ▸ hgauss⟩

/-! ### The writes -/

/-- Past a plan that succeeds, the estimation is the store chosen with the profiles written in,
and the result is that of the writes. -/
theorem approximateProfiles_of_plan {profs : Array Profile} {ws : Array ProfileWarning}
    (h : approximationPlan p e pi pl ri n lib = .ok (profs, ws)) :
    approximateProfiles p e pi pl ri n lib =
      let t := match pl with
        | some k => (e.profiles, k)
        | none => e.profiles.appendEmpty p.dimFull
      let w := t.1.setEach t.2 profs.toList
      ({ e with profiles := w.1 }, match w.2 with
        | none => .ok (t.2, ws)
        | some err => .error err) := by
  rewrite [approximateProfiles.eq_def, h]
  rfl

/-- Writes of profiles for the free requested parameters, all of which succeed, fill exactly the
slots of those parameters in the list written, each with a profile of its own parameter. -/
theorem slots_of_setEach {s s' : ProfileStore} {k : Nat} {profs : Array Profile}
    {requested : List Nat} (hw : s.setEach k profs.toList = (s', none))
    (hmap : profs.toList.map (·.iPar) = requested.filter (fun i => !p.isFixed i)) :
    (∀ j i, ¬(j = k ∧ i ∈ requested ∧ p.isFixed i = false) → s'.slot? j i = s.slot? j i) ∧
      ∀ i ∈ requested, p.isFixed i = false →
        ∃ prof ∈ profs.toList, prof.iPar = i ∧ s'.slot? k i = some (some prof) := by
  have hmem : ∀ i, i ∈ profs.toList.map (·.iPar) ↔ i ∈ requested ∧ p.isFixed i = false := by
    simp [hmap]
  refine ⟨fun j i hji => ProfileStore.slot?_setEach_of_not_mem hw j i ?_, fun i hi hfree => ?_⟩
  · rintro ⟨hj, hi⟩
    exact hji ⟨hj, (hmem i).1 hi⟩
  · exact ProfileStore.slot?_setEach_of_mem hw i ((hmem i).2 ⟨hi, hfree⟩)

/-- What a successful approximation of the parameters `requested` did to the estimation `e`,
giving `e'`, the index `k` of the list written and the warnings `ws`: the fits are as they were,
one list of empty slots is added exactly when no list is named, each fixed requested parameter
is warned of in order, and in the list written exactly the slots of the free requested
parameters changed, each to its Gaussian profile around fit `ri`. -/
structure ApproximationWritten (p : Problem) (e : Estimation) (requested : List Nat)
    (pl : Option Nat) (ri n : Nat) (e' : Estimation) (k : Nat) (ws : Array ProfileWarning)
    (lib : Numerics) : Prop where
  fits : e'.fits = e.fits
  target : match pl with
    | some k₀ => k = k₀ ∧ k₀ < e.profiles.size ∧ e'.profiles.size = e.profiles.size
    | none => k = e.profiles.size ∧ e'.profiles.size = e.profiles.size + 1
  warnings : ws.toList = (requested.filter (fun i => p.isFixed i)).map .fixedParameterSkipped
  kept : ∀ j i, ¬(j = k ∧ i ∈ requested ∧ p.isFixed i = false) →
    e'.profiles.slot? j i =
      if j < e.profiles.size then e.profiles.slot? j i
      else if j = k ∧ i < p.dimFull then some none
      else none
  written : ∃ start variances, e.fits.get? ri = some start ∧
    approximationVariances p start lib = .ok variances ∧
    ∀ i ∈ requested, p.isFixed i = false → ∃ free prof,
      p.freeIndexOf i = some free ∧
        gaussianProfile p start.x i (variances.entry free) n lib = .ok prof ∧
      e'.profiles.slot? k i = some (some prof)

/-- The writes of a plan that succeeded, when the request succeeds: all of them succeeded, into
the list chosen, and the warnings are the plan's. -/
theorem written_of_ok {t : ProfileStore × Nat} {profs : Array Profile}
    {ws ws' : Array ProfileWarning} {e' : Estimation} {k : Nat}
    (h : ({ e with profiles := (t.1.setEach t.2 profs.toList).1 },
        match (t.1.setEach t.2 profs.toList).2 with
        | none => Except.ok (t.2, ws)
        | some err => .error err) = (e', .ok (k, ws'))) :
    ∃ s', t.1.setEach t.2 profs.toList = (s', none) ∧ e' = { e with profiles := s' } ∧
      k = t.2 ∧ ws' = ws := by
  cases hw : t.1.setEach t.2 profs.toList with
  | mk s' failure =>
    rw [hw] at h
    cases failure with
    | some err => simp at h
    | none =>
      simp only [Prod.mk.injEq, Except.ok.injEq] at h
      obtain ⟨rfl, rfl, rfl⟩ := h
      exact ⟨s', rfl, rfl, rfl, rfl⟩

theorem approximateProfiles_eq_ok {e' : Estimation} {k : Nat} {ws : Array ProfileWarning}
    (h : approximateProfiles p e pi pl ri n lib = (e', .ok (k, ws))) :
    ApproximationWritten p e (pi.getD p.freeIndices) pl ri n e' k ws lib := by
  cases hplan : approximationPlan p e pi pl ri n lib with
  | error err => simp [approximateProfiles, hplan] at h
  | ok res =>
    obtain ⟨profs, ws'⟩ := res
    obtain ⟨start, variances, hget, hvar, hlist, -, hmap, hprof, hws⟩ := approximationPlan_eq_ok hplan
    rw [approximateProfiles_of_plan hplan] at h
    dsimp only at h
    obtain ⟨s', hw, rfl, rfl, rfl⟩ := written_of_ok h
    obtain ⟨hkeep, hwrite⟩ := slots_of_setEach hw hmap
    refine ⟨rfl, ?_, hws, fun j i hji => ?_, start, variances, hget, hvar, ?_⟩
    · cases pl with
      | none => exact ⟨rfl, (ProfileStore.size_setEach hw).trans (by simp [ProfileStore.size])⟩
      | some k₀ =>
        obtain ⟨l, hl⟩ := hlist k₀ rfl
        exact ⟨rfl, (Array.getElem?_eq_some_iff.1 hl).1, ProfileStore.size_setEach hw⟩
    · rw [hkeep j i hji]
      cases pl with
      | none => exact ProfileStore.slot?_appendEmpty _ _ _ _
      | some k₀ =>
        obtain ⟨l, hl⟩ := hlist k₀ rfl
        have hk₀ : k₀ < e.profiles.size := (Array.getElem?_eq_some_iff.1 hl).1
        by_cases hj : j < e.profiles.size
        · exact (if_pos hj).symm
        · have hne : j ≠ k₀ := fun hjk => hj (hjk ▸ hk₀)
          simp [hj, hne, ProfileStore.slot?_of_size_le (Nat.le_of_not_lt hj)]
    · intro i hi hfree
      obtain ⟨prof, hmem, rfl, hslot⟩ := hwrite i hi hfree
      obtain ⟨free, hfi, hg⟩ := hprof prof hmem
      exact ⟨free, prof, hfi, hg, hslot⟩

/-- A request that fails leaves the estimation as it was, unless it names a list with fewer
slots than the problem has parameters: then the writes into it before the failing one stay. -/
theorem approximateProfiles_eq_error {e' : Estimation} {err : ProfileError}
    (h : approximateProfiles p e pi pl ri n lib = (e', .error err)) :
    e' = e ∨ ∃ k l, pl = some k ∧ e.profiles.lists[k]? = some l ∧ l.size < p.dimFull := by
  cases hplan : approximationPlan p e pi pl ri n lib with
  | error err' =>
    simp only [approximateProfiles, hplan, Prod.mk.injEq] at h
    exact .inl h.1.symm
  | ok res =>
    obtain ⟨profs, ws⟩ := res
    obtain ⟨-, -, -, -, hlist, hlt, hmap, -, -⟩ := approximationPlan_eq_ok hplan
    have hpar : ∀ prof ∈ profs.toList, prof.iPar < p.dimFull := by
      intro prof hprof
      have hi : prof.iPar ∈ profs.toList.map (·.iPar) := List.mem_map_of_mem hprof
      rw [hmap] at hi
      exact hlt _ (List.mem_filter.1 hi).1
    rw [approximateProfiles_of_plan hplan] at h
    cases pl with
    | none =>
      have hfits : ∀ prof ∈ profs.toList,
          prof.iPar < (Array.replicate p.dimFull (none : Option Profile)).size := by
        simpa using hpar
      have hw := ProfileStore.setEach_of_lt (k := e.profiles.size)
        (s := (e.profiles.appendEmpty p.dimFull).1) (by simp [ProfileStore.size]) hfits
      simp [hw] at h
    | some k =>
      obtain ⟨l, hl⟩ := hlist k rfl
      by_cases hsz : p.dimFull ≤ l.size
      · have hw := ProfileStore.setEach_of_lt hl fun prof hp =>
          Nat.lt_of_lt_of_le (hpar prof hp) hsz
        simp [hw] at h
      · exact .inr ⟨k, l, rfl, hl, Nat.lt_of_not_le hsz⟩

/-- Approximation is confined. -/
theorem approximateProfiles_confined (p : Problem) (e : Estimation) (pi : Option (List Nat))
    (pl : Option Nat) (ri n : Nat) (lib : Numerics) :
    (∀ e' err, approximateProfiles p e pi pl ri n lib = (e', .error err) →
      e' = e ∨ ∃ k l, pl = some k ∧ e.profiles.lists[k]? = some l ∧ l.size < p.dimFull) ∧
    ∀ e' k ws, approximateProfiles p e pi pl ri n lib = (e', .ok (k, ws)) →
      ApproximationWritten p e (pi.getD p.freeIndices) pl ri n e' k ws lib :=
  ⟨fun _ _ h => approximateProfiles_eq_error h, fun _ _ _ h => approximateProfiles_eq_ok h⟩

/-- A problem of two parameters on `[-3, 3]²` whose objective is constant. -/
def flatSquare : Problem :=
  { objective := ⟨fun _ => .ok (.ofFloat 0.0), fun _ => .error .gradientNotImplemented,
      fun _ => .error .hessianNotImplemented⟩,
    lbFull := #[-3.0, -3.0], ubFull := #[3.0, 3.0] }

/-- One fit of `flatSquare` at the origin with the identity as its Hessian, and one list of a
single slot, too short for the problem. -/
def shortListEstimation : Estimation where
  fits := ⟨[{ id := 0, x := #[.ofFloat 0.0, .ofFloat 0.0], fval := .ofFloat 0.0,
              x0 := #[.ofFloat 0.0, .ofFloat 0.0], hess := some #[#[1.0, 0.0], #[0.0, 1.0]] }]⟩
  profiles := ⟨#[#[none]]⟩

/-- Approximating both parameters of `flatSquare` into the short list fails at the second
parameter, after the first one's profile has been written. -/
theorem approximateProfiles_fails_after_writing :
    (approximateProfiles flatSquare shortListEstimation none (some 0) 0 2 .reference).2 =
        .error (.parameterIndexOutOfRange 1 1) ∧
      (approximateProfiles flatSquare shortListEstimation none (some 0) 0 2
        .reference).1.profiles.slot? 0 0 ≠ shortListEstimation.profiles.slot? 0 0 := by
  -- one evaluation decides both: the error, and a profile in the slot that was empty
  have h : (match approximateProfiles flatSquare shortListEstimation none (some 0) 0 2
      .reference with
      | (e', .error (.parameterIndexOutOfRange 1 1)) => ((e'.profiles.slot? 0 0).bind id).isSome
      | _ => false) = true := by
    decide +kernel
  split at h
  · rename_i e' heq
    rw [heq]
    refine ⟨rfl, fun hslot => ?_⟩
    rw [hslot] at h
    cases h
  · cases h


/-- Approximating both parameters of `flatSquare` into a list of their own succeeds, and writes
as `ApproximationWritten` says. -/
theorem approximateProfiles_flatSquare_confined :
    ∃ e' k ws, approximateProfiles flatSquare shortListEstimation none none 0 3 .reference =
        (e', .ok (k, ws)) ∧
      ApproximationWritten flatSquare shortListEstimation flatSquare.freeIndices none 0 3 e' k ws
        .reference := by
  have hrun : (approximateProfiles flatSquare shortListEstimation none none 0 3
      .reference).2.toOption.isSome = true := by
    decide +kernel
  obtain ⟨⟨k, ws⟩, hks⟩ := Option.isSome_iff_exists.1 hrun
  have heq : approximateProfiles flatSquare shortListEstimation none none 0 3 .reference =
      ((approximateProfiles flatSquare shortListEstimation none none 0 3 .reference).1,
        .ok (k, ws)) := Prod.ext rfl (Except.toOption_eq_some.1 hks)
  exact ⟨_, k, ws, heq,
    (approximateProfiles_confined flatSquare shortListEstimation none none 0 3 .reference).2 _ k ws heq⟩

end ProfileLikelihood

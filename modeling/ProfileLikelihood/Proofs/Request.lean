import ProfileLikelihood.Profile.Request
import ProfileLikelihood.Proofs.Store
import ProfileLikelihood.Proofs.Walk

/-! Profiling a fitted estimation touches the store only after every check of the request has
passed, and from then on nothing fails but a failure that stops the whole computation. A run
that succeeds leaves the fits alone, adds one list of empty slots when no list is named, and
writes exactly the slots of the free requested parameters whose task found a profile. -/

namespace ProfileLikelihood

/-! ### The requested parameters -/

/-- Dropping repeats from a list in increasing order leaves it strictly increasing. -/
theorem pairwise_lt_eraseDups : ∀ {l : List Nat}, l.Pairwise (· ≤ ·) →
    l.eraseDups.Pairwise (· < ·)
  | [], _ => by simp
  | a :: as, h => by
    rw [List.eraseDups_cons]
    have hf : (as.filter fun b => !b == a).Pairwise (· ≤ ·) :=
      (List.pairwise_cons.1 h).2.filter _
    refine List.pairwise_cons.2 ⟨fun b hb => ?_, pairwise_lt_eraseDups hf⟩
    have hb' := List.mem_filter.1 (List.mem_eraseDups.1 hb)
    have hab := (List.pairwise_cons.1 h).1 b hb'.1
    have hne : b ≠ a := by simpa using hb'.2
    omega
termination_by l => l.length
decreasing_by exact Nat.lt_succ_of_le (List.length_filter_le _ _)

theorem sortDedup_pairwise (xs : List Nat) : (sortDedup xs).Pairwise (· < ·) := by
  have hsorted : (xs.mergeSort fun a b => decide (a ≤ b)).Pairwise (fun a b => decide (a ≤ b)) :=
    List.pairwise_mergeSort (fun a b c hab hbc => by simp at *; omega)
      (fun a b => by simpa using Nat.le_total a b) xs
  exact pairwise_lt_eraseDups (by simpa using hsorted)

@[simp] theorem mem_sortDedup {xs : List Nat} {i : Nat} : i ∈ sortDedup xs ↔ i ∈ xs := by
  simp [sortDedup]

namespace ProfileRequest

variable {r : ProfileRequest} {p : Problem} {e : Estimation}

/-! ### The checks -/

/-- What the checks of a request establish when they pass. -/
theorem check_eq_ok {o : ProfileOptions} {best start : Fit}
    (h : r.check p e = .ok (o, best, start)) :
    r.options.validate = .ok o ∧ e.fits.best? = some best ∧
      e.fits.get? r.resultIndex = some start ∧ start.x.size = p.dimFull ∧
      (∀ k, r.profileList = some k → ∃ l, e.profiles.lists[k]? = some l ∧ l.size = p.dimFull) ∧
      ∀ i ∈ r.indices p, i < p.dimFull := by
  unfold check at h
  obtain ⟨o', hv, h⟩ := Except.bind_eq_ok.1 h
  cases hb : e.fits.best? with
  | none => simp [hb] at h
  | some best' =>
  cases hs : e.fits.get? r.resultIndex with
  | none => simp [hb, hs] at h
  | some start' =>
  by_cases hx : start'.x.size = p.dimFull
  case neg => simp [hb, hs, hx] at h
  have hlist : ∀ k, r.profileList = some k →
      ∃ l, e.profiles.lists[k]? = some l ∧ l.size = p.dimFull := by
    intro k hk
    cases hl : e.profiles.list k with
    | error err => simp [hb, hs, hx, hk, hl] at h
    | ok l =>
      refine ⟨l, ProfileStore.list_eq_ok.1 hl, Classical.byContradiction fun hsz => ?_⟩
      simp [hb, hs, hx, hk, hl, hsz] at h
  have hrange : ∀ i ∈ r.indices p, i < p.dimFull := by
    intro i hi
    refine Classical.byContradiction fun hlt => ?_
    cases hf : (r.indices p).find? (fun x => decide (x ≥ p.dimFull)) with
    | none => exact hlt (by simpa using List.find?_eq_none.1 hf i hi)
    | some j =>
      cases hpl : r.profileList with
      | none => simp [hb, hs, hx, hpl, hf] at h
      | some k =>
        obtain ⟨l, hl, hsz⟩ := hlist k hpl
        simp [hb, hs, hx, hpl, hf, ProfileStore.list_eq_ok.2 hl, hsz] at h
  have hf : (r.indices p).find? (fun x => decide (x ≥ p.dimFull)) = none :=
    List.find?_eq_none.2 fun i hi => by simpa using hrange i hi
  have hres : (o', best', start') = (o, best, start) := by
    cases hpl : r.profileList with
    | none => simpa [hb, hs, hx, hpl, hf] using h
    | some k =>
      obtain ⟨l, hl, hsz⟩ := hlist k hpl
      simpa [hb, hs, hx, hpl, hf, ProfileStore.list_eq_ok.2 hl, hsz] using h
  cases hres
  exact ⟨hv, rfl, rfl, hx, hlist, hrange⟩

/-- Once the checks have passed, the stored profile of every requested parameter can be read. -/
theorem stored_ok_of_check {o : ProfileOptions} {best start : Fit}
    (h : r.check p e = .ok (o, best, start)) {i : Nat} (hi : i ∈ r.indices p) :
    ∃ stored, r.stored e i = .ok stored := by
  obtain ⟨-, -, -, -, hlist, hrange⟩ := check_eq_ok h
  unfold stored
  cases hpl : r.profileList with
  | none => exact ⟨none, rfl⟩
  | some k =>
    obtain ⟨l, hl, hsz⟩ := hlist k hpl
    have hil : i < l.size := by rw [hsz]; exact hrange i hi
    obtain ⟨slot, hslot⟩ : ∃ slot, l[i]? = some slot := ⟨l[i], Array.getElem?_eq_getElem hil⟩
    exact ⟨slot, ProfileStore.get_eq_ok.2 (by simp [ProfileStore.slot?, hl, hslot])⟩

/-! ### The seeds -/

variable {start : Fit} {g : Numeric.Double}

/-- Seeding a list of parameters: a seed for each free one in order, a warning for each fixed
one in order, every seed the stored profile or else the one-point profile at the start fit. -/
theorem foldlM_addSeed {l : List Nat} {ts ws ts' ws'}
    (h : l.foldlM (r.addSeed p e start g) (ts, ws) = .ok (ts', ws')) :
    ts'.toList.map (·.1) = ts.toList.map (·.1) ++ l.filter (fun i => !p.isFixed i) ∧
      ws'.toList = ws.toList ++ (l.filter (fun i => p.isFixed i)).map .fixedParameterSkipped ∧
      ∀ x ∈ ts'.toList, x ∈ ts.toList ∨
        ∃ stored, r.stored e x.1 = .ok stored ∧ x.2 = stored.getD (start.seedProfile x.1 g) := by
  induction l generalizing ts ws with
  | nil =>
    cases h
    exact ⟨by simp, by simp, fun x hx => .inl hx⟩
  | cons i l ih =>
    rw [List.foldlM_cons] at h
    obtain ⟨⟨ts₁, ws₁⟩, hstep, hrest⟩ := Except.bind_eq_ok.1 h
    obtain ⟨hts, hws, hmem⟩ := ih hrest
    by_cases hfix : p.isFixed i
    · simp only [addSeed, hfix, if_true, Except.pure_eq] at hstep
      cases hstep
      refine ⟨by simp [hts, hfix], by simp [hws, hfix], fun x hx => ?_⟩
      exact hmem x hx
    · simp only [addSeed, hfix, Bool.false_eq_true, if_false] at hstep
      obtain ⟨stored, hstored, hstep⟩ := Except.bind_eq_ok.1 hstep
      cases hstep
      refine ⟨by simp [hts, hfix], by simp [hws, hfix], fun x hx => ?_⟩
      rcases hmem x hx with hx | hx
      · simp only [Array.toList_push, List.mem_append, List.mem_singleton] at hx
        rcases hx with hx | rfl
        · exact .inl hx
        · exact .inr ⟨stored, hstored, rfl⟩
      · exact .inr hx

/-- Seeding never fails when every stored profile can be read. -/
theorem foldlM_addSeed_ok {l : List Nat} (hl : ∀ i ∈ l, ∃ stored, r.stored e i = .ok stored)
    (acc : Array (Nat × Profile) × Array ProfileWarning) :
    ∃ acc', l.foldlM (r.addSeed p e start g) acc = .ok acc' := by
  induction l generalizing acc with
  | nil => exact ⟨acc, rfl⟩
  | cons i l ih =>
    obtain ⟨ts, ws⟩ := acc
    have hstep : ∃ acc₁, r.addSeed p e start g (ts, ws) i = .ok acc₁ := by
      by_cases hfix : p.isFixed i
      · exact ⟨(ts, ws.push (.fixedParameterSkipped i)), by simp [addSeed, hfix]⟩
      · obtain ⟨stored, hstored⟩ := hl i (by simp)
        exact ⟨(ts.push (i, stored.getD (start.seedProfile i g)), ws),
          by simp [addSeed, hfix, hstored]⟩
    obtain ⟨acc₁, h₁⟩ := hstep
    obtain ⟨acc', h'⟩ := ih (fun j hj => hl j (by simp [hj])) acc₁
    exact ⟨acc', by rw [List.foldlM_cons, h₁, Except.ok_bind, h']⟩

/-! ### The plan -/

/-- A plan lists the free requested parameters in order with their seeds, and a warning for
each fixed one. -/
theorem plan_eq_ok {pl : ProfilePlan} (h : r.plan p e = .ok pl) :
    ∃ best start, r.check p e = .ok (pl.options, best, start) ∧ pl.globalOpt = best.fval ∧
      pl.seeds.toList.map (·.1) = (r.indices p).filter (fun i => !p.isFixed i) ∧
      pl.skipped.toList = ((r.indices p).filter (fun i => p.isFixed i)).map
        .fixedParameterSkipped ∧
      ∀ x ∈ pl.seeds.toList, ∃ stored, r.stored e x.1 = .ok stored ∧
        x.2 = stored.getD (start.seedProfile x.1 best.fval) := by
  unfold plan at h
  obtain ⟨⟨o, best, start⟩, hc, h⟩ := Except.bind_eq_ok.1 h
  obtain ⟨⟨seeds, skipped⟩, hfold, h⟩ := Except.bind_eq_ok.1 h
  cases h
  obtain ⟨hts, hws, hmem⟩ := foldlM_addSeed hfold
  refine ⟨best, start, hc, rfl, by simpa using hts, by simpa using hws, fun x hx => ?_⟩
  rcases hmem x hx with hx | hx
  · simp at hx
  · exact hx

/-- Making the plan fails only where the checks fail. -/
theorem check_of_plan_error {err : ProfileError} (h : r.plan p e = .error err) :
    r.check p e = .error err := by
  unfold plan at h
  cases hc : r.check p e with
  | error err' => rw [hc] at h; simpa using h
  | ok res =>
    obtain ⟨o, best, start⟩ := res
    obtain ⟨acc, hacc⟩ : ∃ acc,
        (r.indices p).foldlM (r.addSeed p e start best.fval) (#[], #[]) = .ok acc :=
      foldlM_addSeed_ok (fun i hi => stored_ok_of_check hc hi) _
    rw [hc, Except.ok_bind] at h
    simp [hacc] at h

theorem indices_pairwise : (r.indices p).Pairwise (· < ·) := sortDedup_pairwise _

theorem seeds_nodup {pl : ProfilePlan} (h : r.plan p e = .ok pl) :
    (pl.seeds.toList.map (·.1)).Nodup := by
  obtain ⟨-, -, -, -, hseeds, -, -⟩ := plan_eq_ok h
  rw [hseeds]
  exact (indices_pairwise.filter _).imp Nat.ne_of_lt

theorem seeds_lt {pl : ProfilePlan} (h : r.plan p e = .ok pl) :
    ∀ x ∈ pl.seeds.toList, x.1 < p.dimFull := by
  obtain ⟨_, _, hc, -, hseeds, -, -⟩ := plan_eq_ok h
  obtain ⟨-, -, -, -, -, hrange⟩ := check_eq_ok hc
  intro x hx
  have hmem : x.1 ∈ (r.indices p).filter (fun i => !p.isFixed i) :=
    hseeds ▸ List.mem_map_of_mem hx
  exact hrange x.1 (List.mem_filter.1 hmem).1

/-! ### The target list -/

/-- Once the checks have passed, the list the run writes into exists and has one slot per
parameter of the problem. -/
theorem target_list {o : ProfileOptions} {best start : Fit}
    (h : r.check p e = .ok (o, best, start)) :
    ∃ l, (r.target e.profiles p.dimFull).1.lists[(r.target e.profiles p.dimFull).2]? = some l ∧
      l.size = p.dimFull := by
  obtain ⟨-, -, -, -, hlist, -⟩ := check_eq_ok h
  cases hpl : r.profileList with
  | none =>
    refine ⟨Array.replicate p.dimFull none, ?_, by simp⟩
    simp [target, hpl, ProfileStore.size]
  | some k => simpa [target, hpl] using hlist k hpl

/-- The store the run starts from: the old slots, and, when no list is named, one new list of
empty slots. -/
theorem slot?_target {o : ProfileOptions} {best start : Fit}
    (h : r.check p e = .ok (o, best, start)) (j i : Nat) :
    (r.target e.profiles p.dimFull).1.slot? j i =
      if j < e.profiles.size then e.profiles.slot? j i
      else if j = (r.target e.profiles p.dimFull).2 ∧ i < p.dimFull then some none
      else none := by
  obtain ⟨-, -, -, -, hlist, -⟩ := check_eq_ok h
  cases hpl : r.profileList with
  | none =>
    simp only [target, hpl]
    exact ProfileStore.slot?_appendEmpty _ _ _ _
  | some k =>
    obtain ⟨l, hl, -⟩ := hlist k hpl
    have hk : k < e.profiles.size := (Array.getElem?_eq_some_iff.1 hl).1
    simp only [target, hpl]
    by_cases hj : j < e.profiles.size
    · simp [hj]
    · have hjk : j ≠ k := by omega
      have hnone : e.profiles.lists[j]? = none :=
        Array.getElem?_eq_none (by simpa [ProfileStore.size] using hj)
      simp [hj, hjk, ProfileStore.slot?, hnone]

end ProfileRequest

/-! ### The writes -/

namespace ProfilePlan

variable {pl : ProfilePlan} {p : Problem} {opt : Optimizer} {m : NextGuessMethod} {k : Nat}

/-- One task of the run: its output, its warnings appended, and its profile written into its own
slot of list `k` when it found one. -/
theorem step_eq_ok {st st' : ProfileStore} {ws ws' : Array ProfileWarning} {x : Nat × Profile}
    (h : pl.step p opt m k (st, ws) x = .ok (st', ws')) :
    ∃ t, profileTask ⟨x.1, pl.options, m, pl.globalOpt, .reference⟩ p opt x.2 = .ok t ∧
      ws' = ws ++ t.warnings ∧
      match t.profile with
      | some prof => st.set k x.1 prof = .ok st'
      | none => st' = st := by
  obtain ⟨i, start⟩ := x
  obtain ⟨t, ht, h⟩ := Except.bind_eq_ok.1 h
  have hidx : t.index = i := profileTask_index ht
  refine ⟨t, ht, ?_⟩
  cases hp : t.profile with
  | none =>
    simp only [hp, Except.pure_eq, Except.ok_bind, Except.ok.injEq, Prod.mk.injEq] at h
    exact ⟨h.2.symm, h.1.symm⟩
  | some prof =>
    simp only [hp] at h
    obtain ⟨st₁, hset, h⟩ := Except.bind_eq_ok.1 h
    cases h
    rw [hidx] at hset
    exact ⟨rfl, hset⟩

/-- The run writes each task's profile into the task's own slot, in order, and collects the
warnings in order. -/
theorem foldlM_step_eq_ok {seeds : List (Nat × Profile)} {st st' : ProfileStore}
    {ws ws' : Array ProfileWarning} (hnd : (seeds.map (·.1)).Nodup)
    (hk : ∃ l, st.lists[k]? = some l ∧ ∀ x ∈ seeds, x.1 < l.size)
    (h : seeds.foldlM (pl.step p opt m k) (st, ws) = .ok (st', ws')) :
    ∃ out : Nat → IndexedProfile,
      (∀ x ∈ seeds, profileTask ⟨x.1, pl.options, m, pl.globalOpt, .reference⟩ p opt x.2 = .ok (out x.1)) ∧
      (∀ j i, st'.slot? j i =
        if j = k ∧ i ∈ seeds.map (·.1) ∧ (out i).profile.isSome then some (out i).profile
        else st.slot? j i) ∧
      ws'.toList = ws.toList ++ (seeds.map (·.1)).flatMap fun i => (out i).warnings.toList := by
  induction seeds generalizing st ws with
  | nil =>
    cases h
    exact ⟨fun _ => ⟨0, none, #[]⟩, by simp, by simp, by simp⟩
  | cons x seeds ih =>
    rw [List.foldlM_cons] at h
    obtain ⟨⟨st₁, ws₁⟩, hstep, hrest⟩ := Except.bind_eq_ok.1 h
    obtain ⟨t, ht, hws, hwrite⟩ := step_eq_ok hstep
    obtain ⟨l, hl, hlt⟩ := hk
    rw [List.map_cons, List.nodup_cons] at hnd
    obtain ⟨hx, hnd'⟩ := hnd
    have hk₁ : ∃ l₁, st₁.lists[k]? = some l₁ ∧ ∀ y ∈ seeds, y.1 < l₁.size := by
      have hsize : (st₁.lists[k]?).map Array.size = some l.size := by
        cases hp : t.profile with
        | none => simp only [hp] at hwrite; subst hwrite; simp [hl]
        | some prof => simp only [hp] at hwrite; rw [ProfileStore.size_set hwrite k, hl]; rfl
      obtain ⟨l₁, hl₁, hsz⟩ := Option.map_eq_some_iff.1 hsize
      exact ⟨l₁, hl₁, fun y hy => hsz ▸ hlt y (List.mem_cons_of_mem _ hy)⟩
    obtain ⟨out, hout, hslot, hwarn⟩ := ih hnd' hk₁ hrest
    refine ⟨fun i => if i = x.1 then t else out i, fun y hy => ?_, fun j i => ?_, ?_⟩
    · rcases List.mem_cons.1 hy with rfl | hy
      · simpa using ht
      · have hne : y.1 ≠ x.1 := fun he => hx (he ▸ List.mem_map_of_mem hy)
        simpa [hne] using hout y hy
    · rw [hslot j i]
      by_cases hix : i = x.1
      · subst hix
        cases hp : t.profile with
        | none =>
          simp only [hp] at hwrite
          subst hwrite
          simp [hx, hp]
        | some prof =>
          simp only [hp] at hwrite
          rw [ProfileStore.slot?_set hwrite]
          simp [hx, hp]
      · have hst₁ : st₁.slot? j i = st.slot? j i := by
          cases hp : t.profile with
          | none => simp only [hp] at hwrite; rw [hwrite]
          | some prof =>
            simp only [hp] at hwrite
            rw [ProfileStore.slot?_set hwrite]
            simp [hix]
        simp only [List.map_cons, List.mem_cons, hix, false_or, if_false, hst₁]
    · rw [hwarn, hws]
      have hrest : (seeds.map (·.1)).flatMap (fun i => (if i = x.1 then t else out i).warnings.toList) =
          (seeds.map (·.1)).flatMap fun i => (out i).warnings.toList := by
        simp only [List.flatMap_def]
        congr 1
        refine List.map_congr_left fun i hi => ?_
        have hne : i ≠ x.1 := fun he => hx (he ▸ hi)
        simp [hne]
      simp [hrest]

/-- The run keeps the number of lists. -/
theorem size_of_foldlM_step {seeds : List (Nat × Profile)} {st st' : ProfileStore}
    {ws ws' : Array ProfileWarning}
    (h : seeds.foldlM (pl.step p opt m k) (st, ws) = .ok (st', ws')) : st'.size = st.size := by
  induction seeds generalizing st ws with
  | nil => cases h; rfl
  | cons x seeds ih =>
    rw [List.foldlM_cons] at h
    obtain ⟨⟨st₁, ws₁⟩, hstep, hrest⟩ := Except.bind_eq_ok.1 h
    obtain ⟨t, -, -, hwrite⟩ := step_eq_ok hstep
    rw [ih hrest]
    cases hp : t.profile with
    | none => simp only [hp] at hwrite; rw [hwrite]
    | some prof => simp only [hp] at hwrite; exact ProfileStore.size_eq_of_set hwrite

/-- Running the plan fails only with a failure that stops everything, as long as list `k` has a
slot for every task. -/
theorem foldlM_step_error {seeds : List (Nat × Profile)} {st : ProfileStore}
    {ws : Array ProfileWarning} {err : ProfileError}
    (hk : ∃ l, st.lists[k]? = some l ∧ ∀ x ∈ seeds, x.1 < l.size)
    (h : seeds.foldlM (pl.step p opt m k) (st, ws) = .error err) : err.stops := by
  induction seeds generalizing st ws with
  | nil => cases h
  | cons x seeds ih =>
    obtain ⟨l, hl, hlt⟩ := hk
    rw [List.foldlM_cons] at h
    cases hstep : pl.step p opt m k (st, ws) x with
    | error err' =>
      rw [hstep] at h
      cases h
      obtain ⟨i, start⟩ := x
      cases ht : profileTask ⟨i, pl.options, m, pl.globalOpt, .reference⟩ p opt start with
      | error e' =>
        simp only [step, write, ht, Except.error_bind, Except.error.injEq] at hstep
        exact hstep ▸ stops_of_profileTask ht
      | ok t =>
        have hidx : t.index = i := profileTask_index ht
        cases hp : t.profile with
        | none => simp [step, write, ht, hp] at hstep
        | some prof =>
          have hset := ProfileStore.set_of_lt hl (hlt (i, start) List.mem_cons_self) prof
          simp [step, write, ht, hp, hidx, hset] at hstep
    | ok acc =>
      obtain ⟨st₁, ws₁⟩ := acc
      rw [hstep, Except.ok_bind] at h
      obtain ⟨t, -, -, hwrite⟩ := step_eq_ok hstep
      have hsize : (st₁.lists[k]?).map Array.size = some l.size := by
        cases hp : t.profile with
        | none => simp only [hp] at hwrite; subst hwrite; simp [hl]
        | some prof => simp only [hp] at hwrite; rw [ProfileStore.size_set hwrite k, hl]; rfl
      obtain ⟨l₁, hl₁, hsz⟩ := Option.map_eq_some_iff.1 hsize
      exact ih ⟨l₁, hl₁, fun y hy => hsz ▸ hlt y (List.mem_cons_of_mem _ hy)⟩ h

/-- The whole run: the number of lists is kept, and the writes and warnings are those of the
tasks in the order of the seeds, after the skipped parameters' warnings. -/
theorem run_eq_ok {st st' : ProfileStore} {ws' : Array ProfileWarning}
    (hnd : (pl.seeds.toList.map (·.1)).Nodup)
    (hk : ∃ l, st.lists[k]? = some l ∧ ∀ x ∈ pl.seeds.toList, x.1 < l.size)
    (h : pl.run p opt m st k = .ok (st', ws')) :
    st'.size = st.size ∧ ∃ out : Nat → IndexedProfile,
      (∀ x ∈ pl.seeds.toList,
        profileTask ⟨x.1, pl.options, m, pl.globalOpt, .reference⟩ p opt x.2 = .ok (out x.1)) ∧
      (∀ j i, st'.slot? j i =
        if j = k ∧ i ∈ pl.seeds.toList.map (·.1) ∧ (out i).profile.isSome then
          some (out i).profile
        else st.slot? j i) ∧
      ws'.toList = pl.skipped.toList ++
        (pl.seeds.toList.map (·.1)).flatMap fun i => (out i).warnings.toList := by
  unfold run at h
  rw [← Array.foldlM_toList] at h
  exact ⟨size_of_foldlM_step h, foldlM_step_eq_ok hnd hk h⟩

theorem run_error {st : ProfileStore} {err : ProfileError}
    (hk : ∃ l, st.lists[k]? = some l ∧ ∀ x ∈ pl.seeds.toList, x.1 < l.size)
    (h : pl.run p opt m st k = .error err) : err.stops := by
  unfold run at h
  rw [← Array.foldlM_toList] at h
  exact foldlM_step_error hk h

end ProfilePlan

/-! ### Profiling -/

section Profiling

variable {p : Problem} {e e' : Estimation} {opt : Optimizer} {r : ProfileRequest} {k : Nat}
  {ws : Array ProfileWarning}

/-- What a successful profiling run did: the fits are kept, one list of empty slots is added
exactly when no list is named, the tasks run from the plan's seeds, the chosen list gets
exactly the profiles the tasks found for the free requested parameters, and the warnings are
the skipped parameters' and then the tasks', in parameter order. -/
theorem parameterProfile_eq_ok (h : parameterProfile p e opt r = .ok (e', k, ws)) :
    e'.fits = e.fits ∧
    (match r.profileList with
      | some k₀ => k = k₀ ∧ k₀ < e.profiles.size ∧ e'.profiles.size = e.profiles.size
      | none => k = e.profiles.size ∧ e'.profiles.size = e.profiles.size + 1) ∧
    ∃ pl : ProfilePlan, ∃ out : Nat → IndexedProfile, r.plan p e = .ok pl ∧
      pl.seeds.toList.map (·.1) = (r.indices p).filter (fun i => !p.isFixed i) ∧
      (∀ x ∈ pl.seeds.toList,
        profileTask ⟨x.1, pl.options, r.method, pl.globalOpt, .reference⟩ p opt x.2 = .ok (out x.1)) ∧
      (∀ j i, e'.profiles.slot? j i =
        if j = k ∧ i ∈ r.indices p ∧ p.isFixed i = false ∧ (out i).profile.isSome then
          some (out i).profile
        else if j < e.profiles.size then e.profiles.slot? j i
        else if j = k ∧ i < p.dimFull then some none
        else none) ∧
      ws.toList = ((r.indices p).filter (fun i => p.isFixed i)).map .fixedParameterSkipped ++
        ((r.indices p).filter (fun i => !p.isFixed i)).flatMap fun i => (out i).warnings.toList := by
  unfold parameterProfile at h
  obtain ⟨pl, hplan, h⟩ := Except.bind_eq_ok.1 h
  obtain ⟨best, start, hc, -, hseeds, hskipped, -⟩ := ProfileRequest.plan_eq_ok hplan
  obtain ⟨l, hl, hsz⟩ := ProfileRequest.target_list hc
  have hslot₀ := ProfileRequest.slot?_target hc
  cases ht : r.target e.profiles p.dimFull with
  | mk st₀ k₀ =>
    rw [ht] at hl hslot₀
    simp only [ht] at h
    obtain ⟨⟨st, ws'⟩, hrun, h⟩ := Except.bind_eq_ok.1 h
    simp only [Except.pure_eq, Except.ok.injEq, Prod.mk.injEq] at h
    obtain ⟨rfl, rfl, rfl⟩ := h
    obtain ⟨hsize, out, hout, hslot, hwarn⟩ := ProfilePlan.run_eq_ok
      (ProfileRequest.seeds_nodup hplan)
      ⟨l, hl, fun x hx => hsz ▸ ProfileRequest.seeds_lt hplan x hx⟩ hrun
    refine ⟨rfl, ?_, pl, out, hplan, hseeds, hout, fun j i => ?_, ?_⟩
    · obtain ⟨-, -, -, -, hlist, -⟩ := ProfileRequest.check_eq_ok hc
      cases hpl : r.profileList with
      | none =>
        simp only [ProfileRequest.target, hpl, ProfileStore.appendEmpty, Prod.mk.injEq] at ht
        obtain ⟨rfl, rfl⟩ := ht
        refine ⟨rfl, ?_⟩
        show st.size = _
        rw [hsize]
        simp [ProfileStore.size]
      | some k₁ =>
        simp only [ProfileRequest.target, hpl, Prod.mk.injEq] at ht
        obtain ⟨rfl, rfl⟩ := ht
        obtain ⟨l₁, hl₁, -⟩ := hlist k₁ hpl
        exact ⟨rfl, (Array.getElem?_eq_some_iff.1 hl₁).1, hsize⟩
    · dsimp only
      rw [hslot, hslot₀, hseeds]
      simp [List.mem_filter, and_assoc]
    · rw [hwarn, hskipped, hseeds]

/-- Profiling into a named list resumes the profiles stored there: a stored profile comes back with
all its points, in order and unaltered, the points of the downward walk in front of them and those
of the upward walk after, and its optimum's index moved past the points put in front. -/
theorem parameterProfile_resumes (h : parameterProfile p e opt r = .ok (e', k, ws))
    (hk : r.profileList = some k) {i : Nat} {old new : Profile}
    (hold : e.profiles.slot? k i = some (some old))
    (hnew : e'.profiles.slot? k i = some (some new)) :
    ∃ down up : List ProfilePoint,
      (∀ {α : Type} (path : Profile.Path α), (path.get new).toList =
        (down.map path.field).reverse ++ (path.get old).toList ++ up.map path.field) ∧
      new.optimumIndex = old.optimumIndex + down.length.toUInt64 := by
  obtain ⟨-, hsize, pl, out, hplan, hseeds, hout, hslot, -⟩ := parameterProfile_eq_ok h
  rw [hslot] at hnew
  by_cases hw : k = k ∧ i ∈ r.indices p ∧ p.isFixed i = false ∧ (out i).profile.isSome
  · rw [if_pos hw] at hnew
    obtain ⟨-, hi, hfree, -⟩ := hw
    have hmem : i ∈ pl.seeds.toList.map (·.1) := by
      rw [hseeds]
      simp [hi, hfree]
    obtain ⟨x, hx, rfl⟩ := List.mem_map.1 hmem
    obtain ⟨_, _, -, -, -, -, hseed⟩ := ProfileRequest.plan_eq_ok hplan
    obtain ⟨stored, hstored, hx₂⟩ := hseed x hx
    have hstored_old : stored = some old := by
      simp only [ProfileRequest.stored, hk] at hstored
      have hget := ProfileStore.get_eq_ok.1 hstored
      rw [hold] at hget
      exact (Option.some.inj hget).symm
    have htask := hout x hx
    rw [hx₂, hstored_old, Option.getD_some] at htask
    have hprof : (out x.1).profile = some new := Option.some.inj hnew
    obtain ⟨down, up, -, -, hdown, rfl⟩ := runTask_eq_ok (runTask_of_profileTask htask hprof)
    refine ⟨down, up, fun path => ?_, ?_⟩
    · rw [path.get_label, path.get_walked]
    · show ((old.flip.pushAll down).flip.pushAll up).optimumIndex = _
      rw [Profile.optimumIndex_pushAll, Profile.optimumIndex_flip_pushAll_flip old down hdown]
  · rw [if_neg hw] at hnew
    rw [hk] at hsize
    rw [if_pos hsize.2.1, hold] at hnew
    cases hnew
    exact ⟨[], [], fun path => by simp, by simp⟩

end Profiling

/-- Profiling is atomic and confined. -/
theorem parameterProfile_atomic_confined (p : Problem) (e : Estimation) (opt : Optimizer)
    (r : ProfileRequest) :
    (∀ err, parameterProfile p e opt r = .error err → err.stops ∨ r.check p e = .error err) ∧
    ∀ e' k ws, parameterProfile p e opt r = .ok (e', k, ws) →
      e'.fits = e.fits ∧
      (match r.profileList with
        | some k₀ => k = k₀ ∧ k₀ < e.profiles.size ∧ e'.profiles.size = e.profiles.size
        | none => k = e.profiles.size ∧ e'.profiles.size = e.profiles.size + 1) ∧
      ∃ pl : ProfilePlan, ∃ out : Nat → IndexedProfile, r.plan p e = .ok pl ∧
        pl.seeds.toList.map (·.1) = (r.indices p).filter (fun i => !p.isFixed i) ∧
        (∀ x ∈ pl.seeds.toList,
          profileTask ⟨x.1, pl.options, r.method, pl.globalOpt, .reference⟩ p opt x.2 = .ok (out x.1)) ∧
        (∀ j i, e'.profiles.slot? j i =
          if j = k ∧ i ∈ r.indices p ∧ p.isFixed i = false ∧ (out i).profile.isSome then
            some (out i).profile
          else if j < e.profiles.size then e.profiles.slot? j i
          else if j = k ∧ i < p.dimFull then some none
          else none) ∧
        ws.toList = ((r.indices p).filter (fun i => p.isFixed i)).map .fixedParameterSkipped ++
          ((r.indices p).filter (fun i => !p.isFixed i)).flatMap fun i => (out i).warnings.toList := by
  refine ⟨fun err h => ?_, fun _ _ _ h => parameterProfile_eq_ok h⟩
  unfold parameterProfile at h
  rcases Except.bind_eq_error.1 h with hplan | ⟨pl, hplan, h⟩
  · exact .inr (ProfileRequest.check_of_plan_error hplan)
  obtain ⟨best, start, hc, -⟩ := ProfileRequest.plan_eq_ok hplan
  obtain ⟨l, hl, hsz⟩ := ProfileRequest.target_list hc
  cases ht : r.target e.profiles p.dimFull with
  | mk st₀ k₀ =>
    rw [ht] at hl
    simp only [ht] at h
    -- past the plan only the run can fail, and its list has a slot for every task
    rcases Except.bind_eq_error.1 h with hrun | ⟨⟨st, ws⟩, -, h⟩
    · exact .inl (ProfilePlan.run_error
        ⟨l, hl, fun x hx => hsz ▸ ProfileRequest.seeds_lt hplan x hx⟩ hrun)
    · simp at h


/-- Profiling the one parameter of a flat problem on `[-1, 1]` from its only fit, one step each
way, succeeds: it adds a list, writes the profile into its slot, and does so as the confinement
theorem says. -/
theorem parameterProfile_flat_line_confined :
    let p : Problem :=
      { objective := ({ formula := .linear #[.ofFloat 0.0] (.ofFloat 0.0) } :
          Objective.Spec).toObjective,
        lbFull := #[-1.0], ubFull := #[1.0] }
    let e : Estimation :=
      { fits := ⟨[{ id := 0, x := #[.ofFloat 0.0], fval := .ofFloat 0.0, x0 := #[.ofFloat 0.0] }]⟩ }
    let opt : Optimizer := .atStart true [] []
    let r : ProfileRequest :=
      { method := .fixedStep, options := { maxWalkSteps := 1, wholePath := true } }
    ∃ e' k ws, parameterProfile p e opt r = .ok (e', k, ws) ∧
      (∃ prof, e'.profiles.slot? k 0 = some (some prof)) ∧
      e'.fits = e.fits ∧ k = e.profiles.size ∧ e'.profiles.size = e.profiles.size + 1 ∧
      ∃ pl : ProfilePlan, ∃ out : Nat → IndexedProfile, r.plan p e = .ok pl ∧
        pl.seeds.toList.map (·.1) = (r.indices p).filter (fun i => !p.isFixed i) ∧
        (∀ x ∈ pl.seeds.toList,
          profileTask ⟨x.1, pl.options, r.method, pl.globalOpt, .reference⟩ p opt x.2 = .ok (out x.1)) ∧
        (∀ j i, e'.profiles.slot? j i =
          if j = k ∧ i ∈ r.indices p ∧ p.isFixed i = false ∧ (out i).profile.isSome then
            some (out i).profile
          else if j < e.profiles.size then e.profiles.slot? j i
          else if j = k ∧ i < p.dimFull then some none
          else none) ∧
        ws.toList = ((r.indices p).filter (fun i => p.isFixed i)).map .fixedParameterSkipped ++
          ((r.indices p).filter (fun i => !p.isFixed i)).flatMap fun i => (out i).warnings.toList := by
  intro p e opt r
  have h : ((parameterProfile p e opt r).toOption.map fun res =>
      (res.1.profiles.slot? res.2.1 0).map Option.isSome) = some (some true) := by
    decide +kernel
  obtain ⟨⟨e', k, ws⟩, hr, hslot⟩ := Option.map_eq_some_iff.1 h
  obtain ⟨o, ho, hsome⟩ := Option.map_eq_some_iff.1 hslot
  obtain ⟨prof, rfl⟩ := Option.isSome_iff_exists.1 hsome
  have hrun := Except.toOption_eq_some.1 hr
  obtain ⟨hfits, hk, rest⟩ := (parameterProfile_atomic_confined p e opt r).2 e' k ws hrun
  obtain ⟨hk, hsize⟩ : k = e.profiles.size ∧ e'.profiles.size = e.profiles.size + 1 := hk
  exact ⟨e', k, ws, hrun, ⟨prof, ho⟩, hfits, hk, hsize, rest⟩

end ProfileLikelihood

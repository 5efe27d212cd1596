import ProfileLikelihood.Profile.Store
import ProfileLikelihood.Proofs.Basic

/-! Slots of the profile store, read one at a time. Writing a slot changes that slot alone and
keeps the length of every list; adding an empty list adds slots that hold nothing and leaves
the others as they were. -/

namespace ProfileLikelihood.ProfileStore

/-- The slot of parameter `i` in list `k`, if the store has one. -/
def slot? (s : ProfileStore) (k i : Nat) : Option (Option Profile) :=
  s.lists[k]?.bind (·[i]?)

theorem list_eq_ok {s : ProfileStore} {k : Nat} {l : Array (Option Profile)} :
    s.list k = .ok l ↔ s.lists[k]? = some l := by
  unfold list
  split <;> rename_i h <;> simp [h]

theorem get_eq_ok {s : ProfileStore} {i k : Nat} {slot : Option Profile} :
    s.get i k = .ok slot ↔ s.slot? k i = some slot := by
  unfold get slot?
  cases hk : s.lists[k]? with
  | none => simp [list, hk, bind, Except.bind]
  | some l =>
    cases hi : l[i]? <;>
      simp [list, hk, hi, bind, Except.bind, throw, throwThe, MonadExceptOf.throw, pure,
        Except.pure]

theorem set_of_lt {s : ProfileStore} {k i : Nat} {l : Array (Option Profile)}
    (hk : s.lists[k]? = some l) (hi : i < l.size) (prof : Profile) :
    s.set k i prof = .ok ⟨s.lists.set! k (l.set! i (some prof))⟩ := by
  simp [set, list, hk, hi, bind, Except.bind, pure, Except.pure]

/-- A successful write is into a list the store has, at a slot of that list. -/
theorem exists_of_set {s s' : ProfileStore} {k i : Nat} {prof : Profile}
    (h : s.set k i prof = .ok s') :
    ∃ l, s.lists[k]? = some l ∧ i < l.size ∧ s' = ⟨s.lists.set! k (l.set! i (some prof))⟩ := by
  cases hk : s.lists[k]? with
  | none => simp [set, list, hk, bind, Except.bind] at h
  | some l =>
    rcases Nat.lt_or_ge i l.size with hi | hi
    · rw [set_of_lt hk hi] at h
      cases h
      exact ⟨l, rfl, hi, rfl⟩
    · simp [set, list, hk, Nat.not_lt.2 hi, bind, Except.bind, throw, throwThe,
        MonadExceptOf.throw] at h

theorem slot?_set {s s' : ProfileStore} {k i : Nat} {prof : Profile}
    (h : s.set k i prof = .ok s') (j i' : Nat) :
    s'.slot? j i' = if j = k ∧ i' = i then some (some prof) else s.slot? j i' := by
  obtain ⟨l, hk, hi, rfl⟩ := exists_of_set h
  obtain ⟨hks, hl⟩ := Array.getElem?_eq_some_iff.1 hk
  by_cases hj : j = k
  · subst hj
    by_cases hi' : i' = i
    · subst hi'
      simp [slot?, hks, hi]
    · simp [slot?, hks, hl, hi', Ne.symm hi']
  · simp [slot?, hj, Ne.symm hj]

theorem slot?_of_size_le {s : ProfileStore} {j : Nat} (h : s.size ≤ j) (i : Nat) :
    s.slot? j i = none := by
  simp [slot?, Array.getElem?_eq_none (show s.lists.size ≤ j from h)]

theorem size_set {s s' : ProfileStore} {k i : Nat} {prof : Profile}
    (h : s.set k i prof = .ok s') (j : Nat) :
    (s'.lists[j]?).map Array.size = (s.lists[j]?).map Array.size := by
  obtain ⟨l, hk, -, rfl⟩ := exists_of_set h
  obtain ⟨hks, hl⟩ := Array.getElem?_eq_some_iff.1 hk
  by_cases hj : j = k
  · subst hj
    simp [hks, hl]
  · simp [Ne.symm hj]

theorem size_eq_of_set {s s' : ProfileStore} {k i : Nat} {prof : Profile}
    (h : s.set k i prof = .ok s') : s'.size = s.size := by
  obtain ⟨l, -, -, rfl⟩ := exists_of_set h
  simp [size]

@[simp] theorem appendEmpty_index (s : ProfileStore) (dim : Nat) :
    (s.appendEmpty dim).2 = s.size := rfl

@[simp] theorem lists_appendEmpty (s : ProfileStore) (dim : Nat) :
    (s.appendEmpty dim).1.lists = s.lists.push (Array.replicate dim none) := rfl

/-- The new list holds `dim` empty slots; the old lists are as they were. -/
theorem slot?_appendEmpty (s : ProfileStore) (dim j i : Nat) :
    (s.appendEmpty dim).1.slot? j i =
      if j < s.size then s.slot? j i
      else if j = s.size ∧ i < dim then some none else none := by
  simp only [slot?, lists_appendEmpty, Array.getElem?_push, size]
  by_cases hj : j < s.lists.size
  · simp [hj, Nat.ne_of_lt hj]
  · by_cases hj' : j = s.lists.size
    · subst hj'
      by_cases hi : i < dim <;> simp [hi]
    · simp [hj, hj']

/-! ### Writing several slots -/

/-- Writing profiles into a list with a slot for each of them never fails. -/
theorem setEach_of_lt {k : Nat} {l : Array (Option Profile)} :
    ∀ {s : ProfileStore} {profs : List Profile}, s.lists[k]? = some l →
      (∀ prof ∈ profs, prof.iPar < l.size) → (s.setEach k profs).2 = none
  | _, [], _, _ => rfl
  | s, prof :: rest, hk, hlt => by
    have hset := set_of_lt hk (hlt prof List.mem_cons_self) prof
    -- the write keeps the list's length, so the rest still fits
    obtain ⟨l₁, hk₁, hsz⟩ : ∃ l₁, (⟨s.lists.set! k (l.set! prof.iPar (some prof))⟩ :
        ProfileStore).lists[k]? = some l₁ ∧ l₁.size = l.size := by
      have := size_set hset k
      rw [hk] at this
      obtain ⟨l₁, hl₁, h⟩ := Option.map_eq_some_iff.1 this
      exact ⟨l₁, hl₁, h⟩
    simp only [setEach, hset]
    exact setEach_of_lt hk₁ fun q hq => hsz ▸ hlt q (List.mem_cons_of_mem _ hq)

/-- Writes that all succeed keep the number of lists. -/
theorem size_setEach {k : Nat} :
    ∀ {s s' : ProfileStore} {profs : List Profile}, s.setEach k profs = (s', none) →
      s'.size = s.size
  | _, _, [], h => by cases h; rfl
  | s, s', prof :: rest, h => by
    simp only [setEach] at h
    split at h
    · rename_i s₁ hset
      rw [size_setEach h, size_eq_of_set hset]
    · cases h

/-- Writes that all succeed leave every slot no profile was written to as it was. -/
theorem slot?_setEach_of_not_mem {k : Nat} :
    ∀ {s s' : ProfileStore} {profs : List Profile}, s.setEach k profs = (s', none) →
      ∀ j i, ¬(j = k ∧ i ∈ profs.map (·.iPar)) → s'.slot? j i = s.slot? j i
  | _, _, [], h, _, _, _ => by cases h; rfl
  | s, s', prof :: rest, h, j, i, hji => by
    simp only [setEach] at h
    split at h
    · rename_i s₁ hset
      rw [slot?_setEach_of_not_mem h j i fun ⟨hj, hi⟩ => hji ⟨hj, by simp [hi]⟩,
        slot?_set hset]
      have hne : ¬(j = k ∧ i = prof.iPar) := fun ⟨hj, hi⟩ => hji ⟨hj, by simp [hi]⟩
      simp [hne]
    · cases h

/-- Writes that all succeed leave in each slot written one of the profiles written to it. -/
theorem slot?_setEach_of_mem {k : Nat} :
    ∀ {s s' : ProfileStore} {profs : List Profile}, s.setEach k profs = (s', none) →
      ∀ i ∈ profs.map (·.iPar), ∃ prof ∈ profs, prof.iPar = i ∧ s'.slot? k i = some (some prof)
  | _, _, [], _, i, hi => by simp at hi
  | s, s', prof :: rest, h, i, hi => by
    simp only [setEach] at h
    split at h
    · rename_i s₁ hset
      by_cases hrest : i ∈ rest.map (·.iPar)
      · obtain ⟨q, hq, hqi, hslot⟩ := slot?_setEach_of_mem h i hrest
        exact ⟨q, List.mem_cons_of_mem _ hq, hqi, hslot⟩
      · have hi' : i = prof.iPar := by simpa [hrest] using hi
        refine ⟨prof, List.mem_cons_self, hi'.symm, ?_⟩
        rw [slot?_setEach_of_not_mem h k i fun ⟨_, h'⟩ => hrest h', slot?_set hset]
        simp [hi']
    · cases h

end ProfileLikelihood.ProfileStore

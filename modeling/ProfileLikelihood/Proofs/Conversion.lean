import ProfileLikelihood.Proofs.Optimizer

/-! Full and reduced vectors. On a well-formed fixed map the merge that builds a full vector has
a closed form: entry `i` is the fixed value of `i`, or else the free entry whose position is the
number of free indices below `i`. That number is also where `i` stands in the list of free
indices and what `freeIndexOf` computes by counting the fixed indices below `i`. From the closed
form: a full vector holds every fixed value at its index and the free entries at the free
indices in order, dropping the fixed entries gives the free entries back, and a full vector is
rebuilt from its free entries exactly when it holds the fixed values. -/

namespace ProfileLikelihood

/-- The element at position `c` of the numbers below `n` that pass `P` is the `i` below `n` that
passes `P` with `c` passing numbers below it. -/
theorem getElem?_filter_range {P : Nat → Bool} {n c i : Nat} :
    ((List.range n).filter P)[c]? = some i ↔
      i < n ∧ P i = true ∧ ((List.range i).filter P).length = c := by
  induction n generalizing c with
  | zero => simp
  | succ n ih =>
    rw [List.range_succ, List.filter_append]
    by_cases hn : P n = true
    · rw [List.filter_singleton, hn, cond_true]
      constructor
      · intro h
        by_cases hc : c < ((List.range n).filter P).length
        · rw [List.getElem?_append_left hc] at h
          obtain ⟨hi, hP, hrank⟩ := ih.1 h
          exact ⟨by omega, hP, hrank⟩
        · -- past the numbers below `n`, only `n` itself is left
          rw [List.getElem?_append_right (by omega)] at h
          have hc' : c - ((List.range n).filter P).length = 0 := by
            cases hk : c - ((List.range n).filter P).length with
            | zero => rfl
            | succ k => rw [hk] at h; simp at h
          rw [hc'] at h
          simp only [List.getElem?_cons_zero, Option.some.injEq] at h
          subst h
          exact ⟨by omega, hn, by omega⟩
      · rintro ⟨hi, hP, rfl⟩
        by_cases hin : i = n
        · subst hin
          rw [List.getElem?_append_right (by omega), Nat.sub_self]
          rfl
        · have hlt : i < n := by omega
          have h := ih.2 ⟨hlt, hP, rfl⟩
          rw [List.getElem?_append_left (List.getElem?_eq_some_iff.1 h).1]
          exact h
    · rw [List.filter_singleton, Bool.not_eq_true] at *
      rw [hn, cond_false, List.append_nil, ih]
      constructor
      · rintro ⟨hi, hP, hrank⟩
        exact ⟨by omega, hP, hrank⟩
      · rintro ⟨hi, hP, hrank⟩
        have hin : i ≠ n := fun h => by subst h; simp [hn] at hP
        exact ⟨by omega, hP, hrank⟩

namespace Problem

/-! ### Free positions -/

theorem getElem?_freeIndices {p : Problem} {c i : Nat} :
    p.freeIndices[c]? = some i ↔ i < p.dimFull ∧ p.isFixed i = false ∧ p.freeRank i = c := by
  rw [freeIndices, getElem?_filter_range, Bool.not_eq_true']
  rfl

/-- The free parameters below `i` are the indices below `i` less the fixed ones below it. -/
theorem FixedOK.freeRank_eq {p : Problem} (hok : p.FixedOK) (i : Nat) :
    p.freeRank i = i - (p.fixed.filter (·.1 < i)).length := by
  let K := (p.fixed.filter (·.1 < i)).map (·.1)
  have hnodup : K.Nodup :=
    ((List.pairwise_map.2 (hok.sorted.filter _)).imp Nat.ne_of_lt)
  have hcount := length_filter_range_mem (n := i) hnodup (fun k hk => by
    obtain ⟨q, hq, rfl⟩ := List.mem_map.1 hk
    simpa using (List.mem_filter.1 hq).2)
  -- below `i`, being fixed is being one of the fixed indices below `i`
  have hsame : (List.range i).filter (fun j => decide (j ∈ K)) = (List.range i).filter p.isFixed := by
    refine List.filter_congr fun j hj => ?_
    have hji := List.mem_range.1 hj
    have hmem : j ∈ K ↔ j ∈ p.fixedIndices := by
      simp only [K, fixedIndices, List.mem_map, List.mem_filter, decide_eq_true_eq]
      constructor
      · rintro ⟨q, ⟨hq, -⟩, rfl⟩
        exact ⟨q, hq, rfl⟩
      · rintro ⟨q, hq, rfl⟩
        exact ⟨q, ⟨hq, hji⟩, rfl⟩
    rw [isFixed_eq]
    exact decide_eq_decide.2 hmem
  have hsplit := List.length_eq_countP_add_countP p.isFixed (l := List.range i)
  simp only [List.countP_eq_length_filter, List.length_range] at hsplit
  rw [hsame] at hcount
  simp only [K, List.length_map] at hcount
  simp only [freeRank] at hsplit ⊢
  have hneg : (List.range i).filter (fun j => !p.isFixed j) =
      (List.range i).filter (fun j => decide ¬(p.isFixed j = true)) := by
    simp
  rw [hneg]
  omega

theorem reducedVector_of_size_ne {p : Problem} {x : Vec} (h : x.size ≠ p.dimFull) :
    p.reducedVector x = .error (.thetaLengthMismatch p.dimFull x.size) := by
  unfold reducedVector
  simp [h]

theorem reducedVector_of_size_eq {p : Problem} {x : Vec} (h : x.size = p.dimFull) :
    p.reducedVector x = .ok (p.reduce x) := by
  unfold reducedVector
  simp [h]

/-! ### Entries of the full vector -/

section Entries

variable {p : Problem} {xFree : Vec}

variable (hok : p.FixedOK)
include hok

theorem fullEntry_of_free {c i : Nat} (hsize : xFree.size = p.dim) (h : p.freeIndices[c]? = some i) :
    xFree[c]? = some (p.fullEntry xFree i) := by
  obtain ⟨-, hfree, rfl⟩ := getElem?_freeIndices.1 h
  have hc : p.freeRank i < xFree.size := by
    rw [hsize, ← hok.length_freeIndices]
    exact (List.getElem?_eq_some_iff.1 h).1
  simp [fullEntry, (lookup_eq_none_iff_isFixed p i).2 hfree, Vec.entry, hc]

/-- The free entries of the full vector are the free vector itself. -/
theorem reduce_fullEntries (hsize : xFree.size = p.dim) :
    p.reduce ((List.range p.dimFull).map (p.fullEntry xFree)).toArray = xFree := by
  rw [← Array.toList_inj]
  apply List.ext_getElem?
  intro c
  simp only [reduce, List.getElem?_map, Array.getElem?_toList]
  cases hc : p.freeIndices[c]? with
  | none =>
    have hlen : p.freeIndices.length ≤ c := List.getElem?_eq_none_iff.1 hc
    rw [hok.length_freeIndices, ← hsize] at hlen
    simp [hlen]
  | some i =>
    have hi : i < p.dimFull := (getElem?_freeIndices.1 hc).1
    simp [Vec.entry, hi, fullEntry_of_free hok hsize hc]

end Entries

/-! ### Free positions of full indices -/

/-- A full index has a free position exactly when it stands at that position among the free
indices. -/
theorem FixedOK.freeIndexOf_eq_some_iff {p : Problem} (hok : p.FixedOK) {i c : Nat} :
    p.freeIndexOf i = some c ↔ p.freeIndices[c]? = some i := by
  unfold freeIndexOf
  rw [getElem?_freeIndices, ← hok.freeRank_eq i]
  by_cases hi : i ≥ p.dimFull
  · simp [hi]
  · by_cases hfix : p.isFixed i
    · simp [hfix]
    · have hlt : i < p.dimFull := by omega
      simp [hlt, hfix]

/-! ### Reduced matrices -/

theorem reducedMatrix_of_square {p : Problem} {m : Mat} (hm : m.size = p.dimFull)
    (hrows : ∀ row ∈ m, row.size = p.dimFull) :
    p.reducedMatrix m =
      .ok (p.freeIndices.toArray.map fun i => p.freeIndices.toArray.map fun j => m.entry i j) := by
  have hwidth : (m.getD 0 #[]).size = p.dimFull := by
    by_cases h0 : 0 < m.size
    · simp [Array.getD, h0, hrows _ (Array.getElem_mem h0)]
    · simp [Array.getD, h0]
      omega
  have hshape : m.shape = (p.dimFull, p.dimFull) := Prod.ext hm hwidth
  unfold reducedMatrix
  rw [hshape]
  simp

theorem reducedMatrix_of_shape_ne {p : Problem} {m : Mat} (h : m.shape ≠ (p.dimFull, p.dimFull)) :
    p.reducedMatrix m = .error (.hessianDimMismatch p.dimFull m.shape.1 m.shape.2) := by
  unfold reducedMatrix
  rcases hs : m.shape with ⟨r, c⟩
  rw [hs] at h
  have h' : r ≠ p.dimFull ∨ c ≠ p.dimFull := by
    by_cases hr : r = p.dimFull
    · exact .inr fun hc => h (by rw [hr, hc])
    · exact .inl hr
  simp only [h', if_true]
  rfl

/-- Entry `(a, b)` of the reduced matrix is the entry of the full matrix at the free indices in
positions `a` and `b`. -/
theorem getElem?_reducedMatrix {p : Problem} {m : Mat} (hm : m.size = p.dimFull)
    (hrows : ∀ row ∈ m, row.size = p.dimFull) {a b i j : Nat}
    (ha : p.freeIndices[a]? = some i) (hb : p.freeIndices[b]? = some j) :
    ((p.freeIndices.toArray.map fun i => p.freeIndices.toArray.map fun j => m.entry i j)[a]?.bind
      (·[b]?)) = m[i]?.bind (·[j]?) := by
  have hi : i < m.size := hm ▸ (getElem?_freeIndices.1 ha).1
  have hj : j < m[i].size := by
    rw [hrows _ (Array.getElem_mem hi)]
    exact (getElem?_freeIndices.1 hb).1
  simp [ha, hb, Mat.entry, Array.getD, hi, hj]

/-! ### Every reachable problem -/

section Views

variable {p : Problem} (hok : p.FixedOK)
include hok

/-- A free vector of the right length becomes a full vector of full length that holds every
fixed value at its index and the free entries at the free indices in order; dropping its fixed
entries gives the free vector back. -/
theorem FixedOK.fullVector_spec {xFree : Vec} (hsize : xFree.size = p.dim) :
    ∃ v, p.fullVector xFree = .ok v ∧ v.size = p.dimFull ∧
      (∀ j w, p.fixed.lookup j = some w → v[j]? = some w) ∧
      (∀ c i : Nat, p.freeIndices[c]? = some i → v[i]? = xFree[c]?) ∧
      p.reducedVector v = .ok xFree := by
  refine ⟨_, fullVector_eq_ok hok hsize, by simp, fun j w hw => ?_, fun c i hc => ?_, ?_⟩
  · have hj : j < p.dimFull := hok.lt_dimFull _ (mem_of_lookup hw)
    simp [hj, fullEntry_of_lookup hw]
  · have hi : i < p.dimFull := (getElem?_freeIndices.1 hc).1
    simp [hi, fullEntry_of_free hok hsize hc]
  · rw [reducedVector_of_size_eq (by simp), reduce_fullEntries hok hsize]

/-- A full vector is rebuilt from its free entries exactly when it holds the fixed values. -/
theorem FixedOK.rebuild_iff {x : Vec} (hx : x.size = p.dimFull) :
    (p.reducedVector x >>= p.fullVector) = .ok x ↔
      ∀ j w, p.fixed.lookup j = some w → x[j]? = some w := by
  have hred : (p.reduce x).size = p.dim := by simp [reduce, hok.length_freeIndices]
  rw [reducedVector_of_size_eq hx, Except.ok_bind, fullVector_eq_ok hok hred]
  constructor
  · intro heq j w hw
    have hj : j < p.dimFull := hok.lt_dimFull _ (mem_of_lookup hw)
    rw [← Except.ok.inj heq]
    simp [hj, fullEntry_of_lookup hw]
  · intro hfixed
    congr 1
    apply Array.ext (by simp [hx])
    intro i hi _
    simp only [List.getElem_toArray, List.getElem_map, List.getElem_range]
    cases hlook : p.fixed.lookup i with
    | some w =>
      have hx' := hfixed i w hlook
      rw [fullEntry_of_lookup hlook]
      simp_all
    | none =>
      have hfree := (lookup_eq_none_iff_isFixed p i).1 hlook
      have hc : p.freeIndices[p.freeRank i]? = some i :=
        getElem?_freeIndices.2 ⟨by simpa using hi, hfree, rfl⟩
      have hentry := fullEntry_of_free hok hred hc
      have hix : i < x.size := by simpa [hx] using hi
      have hown : (p.reduce x)[p.freeRank i]? = some x[i] := by
        simp [reduce, hc, Vec.entry, hix]
      rw [hown, Option.some.injEq] at hentry
      exact hentry.symm

end Views

theorem freeIndexOf_eq_none_iff (p : Problem) (i : Nat) :
    p.freeIndexOf i = none ↔ p.dimFull ≤ i ∨ p.fixed.lookup i ≠ none := by
  rw [ne_eq, lookup_eq_none_iff_isFixed, Bool.not_eq_false]
  unfold freeIndexOf
  by_cases h : i ≥ p.dimFull ∨ p.isFixed i = true
  · simp only [h, if_true]
  · simp only [h, if_false, reduceCtorEq]

/-- The reduced matrix of a square full matrix is square of side `dim`, with the full matrix's
entry at the free indices in positions `a` and `b` as its entry `(a, b)`. -/
theorem FixedOK.reducedMatrix_spec {p : Problem} (hok : p.FixedOK) {m : Mat}
    (hm : m.size = p.dimFull) (hrows : ∀ row ∈ m, row.size = p.dimFull) :
    ∃ r, p.reducedMatrix m = .ok r ∧ r.size = p.dim ∧ (∀ row ∈ r, row.size = p.dim) ∧
      ∀ a b i j : Nat, p.freeIndices[a]? = some i → p.freeIndices[b]? = some j →
        (r[a]?.bind (·[b]?)) = m[i]?.bind (·[j]?) := by
  refine ⟨_, reducedMatrix_of_square hm hrows, by simp [hok.length_freeIndices], ?_,
    fun a b i j ha hb => getElem?_reducedMatrix hm hrows ha hb⟩
  intro row hrow
  obtain ⟨k, -, rfl⟩ := Array.mem_map.1 hrow
  simp [hok.length_freeIndices]

/-- How the full and reduced views of a problem correspond. -/
structure Views (p : Problem) : Prop where
  /-- A free vector of length `dim` becomes a full vector of length `dimFull` with every fixed
  value at its index and the free entries at the free indices in order; dropping its fixed
  entries gives the free vector back. -/
  full : ∀ xFree : Vec, xFree.size = p.dim → ∃ v, p.fullVector xFree = .ok v ∧
    v.size = p.dimFull ∧ (∀ j w, p.fixed.lookup j = some w → v[j]? = some w) ∧
    (∀ c i : Nat, p.freeIndices[c]? = some i → v[i]? = xFree[c]?) ∧
    p.reducedVector v = .ok xFree
  /-- A full vector is rebuilt from its free entries exactly when it holds the fixed values. -/
  rebuild : ∀ x : Vec, x.size = p.dimFull →
    ((p.reducedVector x >>= p.fullVector) = .ok x ↔
      ∀ j w, p.fixed.lookup j = some w → x[j]? = some w)
  /-- A full index has free position `c` exactly when it stands at `c` among the free indices. -/
  freeIndexOf_some : ∀ i c : Nat, p.freeIndexOf i = some c ↔ p.freeIndices[c]? = some i
  /-- A full index out of range or fixed has no free position. -/
  freeIndexOf_none : ∀ i, p.freeIndexOf i = none ↔ p.dimFull ≤ i ∨ p.fixed.lookup i ≠ none
  /-- The reduced matrix of a square full matrix is square of side `dim` and holds the entries
  at the free indices. -/
  matrix : ∀ m : Mat, m.size = p.dimFull → (∀ row ∈ m, row.size = p.dimFull) →
    ∃ r, p.reducedMatrix m = .ok r ∧ r.size = p.dim ∧ (∀ row ∈ r, row.size = p.dim) ∧
      ∀ a b i j : Nat, p.freeIndices[a]? = some i → p.freeIndices[b]? = some j →
        (r[a]?.bind (·[b]?)) = m[i]?.bind (·[j]?)
  /-- A free vector of another length is refused with both lengths. -/
  full_length : ∀ xFree : Vec, xFree.size ≠ p.dim →
    p.fullVector xFree = .error (.thetaLengthMismatch p.dim xFree.size)
  /-- A full vector of another length is refused with both lengths. -/
  reduced_length : ∀ x : Vec, x.size ≠ p.dimFull →
    p.reducedVector x = .error (.thetaLengthMismatch p.dimFull x.size)
  /-- A matrix of another shape is refused with the shape expected and the one found. -/
  matrix_shape : ∀ m : Mat, m.shape ≠ (p.dimFull, p.dimFull) →
    p.reducedMatrix m = .error (.hessianDimMismatch p.dimFull m.shape.1 m.shape.2)

/-- The full and reduced views correspond on every problem reachable by any sequence of calls. -/
theorem Reachable.full_reduced_views {p : Problem} (h : p.Reachable) : p.Views :=
  have hok := h.fixedOK
  { full := fun _ => hok.fullVector_spec
    rebuild := fun _ => hok.rebuild_iff
    freeIndexOf_some := fun _ _ => hok.freeIndexOf_eq_some_iff
    freeIndexOf_none := p.freeIndexOf_eq_none_iff
    matrix := fun _ => hok.reducedMatrix_spec
    full_length := fun _ => fullVector_of_size_ne
    reduced_length := fun _ => reducedVector_of_size_ne
    matrix_shape := fun _ => reducedMatrix_of_shape_ne }

/-- Indices `2` and `0` of a four-parameter problem fixed to `9` and `7`: the free entries
`[1, 2]` fill the gaps in order. -/
theorem full_reduced_views_of_two_fixed :
    ∃ p : Problem, p.Reachable ∧ p.fixed = [(0, 7.0), (2, 9.0)] ∧
      p.fullVector #[1.0, 2.0] = .ok #[7.0, 1.0, 9.0, 2.0] ∧ p.Views := by
  have hnew := Reachable.new ⟨fun _ => .ok (.ofFloat 0.0), fun _ => .error .gradientNotImplemented,
    fun _ => .error .hessianNotImplemented⟩ (Array.replicate 4 (-10.0)) (Array.replicate 4 10.0) rfl
  have hfix := Reachable.fix [2, 0] [9.0, 7.0] hnew rfl
  exact ⟨_, hfix, rfl, rfl, Reachable.full_reduced_views hfix⟩

end Problem

end ProfileLikelihood

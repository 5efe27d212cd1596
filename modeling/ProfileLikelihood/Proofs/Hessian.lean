import ProfileLikelihood.Problem.Evaluate
import ProfileLikelihood.Proofs.Halving
import ProfileLikelihood.Proofs.Optimizer

/-! Hessians of a problem. An analytic Hessian is taken once it passes the check; without one, the
Hessian of the gradient stands in, and without a gradient either, second differences of the
value. Every Hessian returned at a point with one coordinate per parameter is a square matrix of
finite entries over the parameters, and the finite-difference ones are symmetric bit for bit.

The Hessian of a gradient is made symmetric twice: each entry off the diagonal and its transpose
are replaced by their mean `(a + b) / 2`, then by `½ (a + b)` of the two equal means. The last
pass alone gives the symmetry; the first, with the check between them, gives finiteness, since
the mean of two equal finite halves cannot overflow. Both passes are folds over the positions off
the diagonal, each written once together with its transpose, and their entries have a closed
form (`entry_foldl_writePair`). The Hessian of values keeps symmetry as a loop invariant. -/

namespace ProfileLikelihood.Mat

/-- An `n × n` matrix: `n` rows of `n` entries each. -/
structure Square (n : Nat) (m : Mat) : Prop where
  size : m.size = n
  row_size : ∀ row ∈ m, row.size = n

/-- Each entry equals the entry across the diagonal, bit for bit. -/
def Symm (m : Mat) : Prop := ∀ i j, entry m i j = entry m j i

/-- Every entry is finite. -/
def AllFinite (m : Mat) : Prop := ∀ row ∈ m, ∀ v ∈ row, v.isFinite = true

/-- `t` written to entry `(i, j)` and to its transpose. -/
def setPair (m : Mat) (i j : Nat) (t : Float) : Mat :=
  (m.modify i (·.set! j t)).modify j (·.set! i t)

/-- The entry `(i, j)` and its transpose both replaced by `g` of the two. -/
def writePair (g : Float → Float → Float) (m : Mat) (p : Nat × Nat) : Mat :=
  setPair m p.1 p.2 (g (entry m p.1 p.2) (entry m p.2 p.1))

theorem entry_modify_set (m : Mat) (i j a b : Nat) (t : Float) :
    entry (m.modify i (·.set! j t)) a b =
      if a = i ∧ b = j ∧ j < (m.getD i #[]).size then t else entry m a b := by
  unfold entry
  simp only [Array.getD_eq_getD_getElem?, Array.getElem?_modify]
  by_cases ha : i = a
  · subst ha
    cases hr : m[i]? with
    | none => simp
    | some r =>
      simp only [Option.map_some, Option.getD_some, Array.set!_eq_setIfInBounds]
      by_cases hb : j = b
      · subst hb
        by_cases hj : j < r.size <;> simp [hj]
      · simp [hb, Ne.symm hb]
  · simp [ha, Ne.symm ha]

variable {n : Nat} {m : Mat}

theorem Square.getD_size (h : Square n m) {i : Nat} (hi : i < n) : (m.getD i #[]).size = n := by
  rw [Array.getD_eq_getD_getElem?, Array.getElem?_eq_getElem (by rw [h.size]; exact hi)]
  exact h.row_size _ (Array.getElem_mem _)

theorem Square.modify_set (h : Square n m) (i j : Nat) (t : Float) :
    Square n (m.modify i (·.set! j t)) where
  size := by rw [Array.size_modify, h.size]
  row_size := by
    intro row hrow
    obtain ⟨k, hk, rfl⟩ := Array.mem_iff_getElem.1 hrow
    rw [Array.getElem_modify]
    split
    · rw [Array.size_set!]; exact h.row_size _ (Array.getElem_mem _)
    · exact h.row_size _ (Array.getElem_mem _)

theorem Square.setPair (h : Square n m) (i j : Nat) (t : Float) : Square n (Mat.setPair m i j t) :=
  (h.modify_set i j t).modify_set j i t

/-- Within an `n × n` matrix, `setPair` changes exactly the two entries it writes. -/
theorem entry_setPair (h : Square n m) {i j : Nat} (hi : i < n) (hj : j < n) (t : Float)
    (a b : Nat) :
    entry (setPair m i j t) a b =
      if (a = i ∧ b = j) ∨ (a = j ∧ b = i) then t else entry m a b := by
  rw [setPair, entry_modify_set, entry_modify_set, (h.modify_set i j t).getD_size hj,
    h.getD_size hi]
  by_cases h1 : a = j ∧ b = i
  · simp [h1, hi]
  · rw [if_neg (fun h => h1 ⟨h.1, h.2.1⟩)]
    by_cases h2 : a = i ∧ b = j
    · simp [h2, hj]
    · rw [if_neg (fun h => h2 ⟨h.1, h.2.1⟩), if_neg (by tauto)]

/-! ### Positions off the diagonal -/

/-- The positions above the diagonal of an `n × n` matrix, row by row. -/
def abovePairs (n : Nat) : List (Nat × Nat) :=
  (List.range n).flatMap fun i => (List.range (n - (i + 1))).map fun k => (i, i + 1 + k)

/-- The positions below the diagonal of an `n × n` matrix, row by row. -/
def belowPairs (n : Nat) : List (Nat × Nat) :=
  (List.range n).flatMap fun i => (List.range i).map fun j => (i, j)

theorem mem_abovePairs {p : Nat × Nat} : p ∈ abovePairs n ↔ p.1 < p.2 ∧ p.2 < n := by
  obtain ⟨a, b⟩ := p
  simp only [abovePairs, List.mem_flatMap, List.mem_range, List.mem_map, Prod.mk.injEq]
  constructor
  · rintro ⟨i, hi, k, hk, rfl, rfl⟩
    omega
  · rintro ⟨hab, hb⟩
    exact ⟨a, by omega, b - a - 1, by omega, rfl, by omega⟩

theorem mem_belowPairs {p : Nat × Nat} : p ∈ belowPairs n ↔ p.2 < p.1 ∧ p.1 < n := by
  obtain ⟨a, b⟩ := p
  simp only [belowPairs, List.mem_flatMap, List.mem_range, List.mem_map, Prod.mk.injEq]
  constructor
  · rintro ⟨i, hi, j, hj, rfl, rfl⟩
    omega
  · rintro ⟨hab, ha⟩
    exact ⟨a, ha, b, hab, rfl, rfl⟩

/-- Rows listed one after another, each without repeats and each within its own row, repeat no
position. -/
theorem nodup_flatMap_rows {f : Nat → List (Nat × Nat)} (hf : ∀ i, (f i).Nodup)
    (hrow : ∀ i, ∀ p ∈ f i, p.1 = i) : ((List.range n).flatMap f).Nodup := by
  rw [List.nodup_flatMap]
  refine ⟨fun i _ => hf i, ?_⟩
  rw [List.pairwise_iff_getElem]
  intro i j hi hj hij p hpi hpj
  simp only [List.getElem_range] at hpi hpj
  have := hrow _ _ hpi
  have := hrow _ _ hpj
  omega

theorem nodup_abovePairs : (abovePairs n).Nodup :=
  nodup_flatMap_rows (fun _ => List.nodup_range.map fun k k' h => by simpa using h)
    (by simp)

theorem nodup_belowPairs : (belowPairs n).Nodup :=
  nodup_flatMap_rows (fun _ => List.nodup_range.map fun k k' h => by simpa using h)
    (by simp)

/-! ### Writing pairs in turn -/

section Fold

variable {g : Float → Float → Float} {L : List (Nat × Nat)}

theorem Square.writePair (h : Square n m) (p : Nat × Nat) : Square n (Mat.writePair g m p) :=
  h.setPair _ _ _

theorem Square.foldl_writePair (h : Square n m) : Square n (L.foldl (Mat.writePair g) m) := by
  induction L generalizing m with
  | nil => exact h
  | cons p L ih => exact ih (h.writePair p)

/-- Writing pairs in turn, no position twice and never a position and its transpose both, leaves
each written entry at `g` of the two entries as they were at the start. -/
theorem entry_foldl_writePair (h : Square n m) (hin : ∀ p ∈ L, p.1 < n ∧ p.2 < n)
    (hswap : ∀ p ∈ L, p.swap ∉ L) (hnd : L.Nodup) (a b : Nat) :
    entry (L.foldl (writePair g) m) a b =
      if (a, b) ∈ L then g (entry m a b) (entry m b a)
      else if (b, a) ∈ L then g (entry m b a) (entry m a b) else entry m a b := by
  induction L generalizing m with
  | nil => simp
  | cons p L ih =>
    obtain ⟨hp1, hp2⟩ := hin p List.mem_cons_self
    have hpL : p ∉ L := (List.nodup_cons.1 hnd).1
    have hsL : p.swap ∉ L := fun hs => hswap p List.mem_cons_self (List.mem_cons_of_mem _ hs)
    have hps : p.swap ≠ p := fun hs =>
      hswap p List.mem_cons_self (by rw [hs]; exact List.mem_cons_self)
    rw [List.foldl_cons, ih (h.writePair p) (fun q hq => hin q (List.mem_cons_of_mem _ hq))
      (fun q hq hs => hswap q (List.mem_cons_of_mem _ hq) (List.mem_cons_of_mem _ hs))
      (List.nodup_cons.1 hnd).2]
    obtain ⟨i, j⟩ := p
    simp only [writePair, entry_setPair h hp1 hp2, List.mem_cons, Prod.mk.injEq,
      Prod.swap] at hpL hsL hps ⊢
    grind

end Fold

/-- Outside an `n × n` matrix every entry reads `0`. -/
theorem Square.entry_eq_zero (h : Square n m) {a b : Nat} (hab : n ≤ a ∨ n ≤ b) :
    entry m a b = 0.0 := by
  unfold entry
  by_cases ha : n ≤ a
  · have hrow : m.getD a #[] = #[] := by
      rw [Array.getD_eq_getD_getElem?, Array.getElem?_eq_none (by rw [h.size]; exact ha)]
      rfl
    rw [hrow]
    rfl
  · rw [Array.getD_eq_getD_getElem?,
      Array.getElem?_eq_none (by rw [h.getD_size (by omega)]; omega)]
    rfl

theorem AllFinite.entry_isFinite (hf : AllFinite m) (h : Square n m) {a b : Nat} (ha : a < n)
    (hb : b < n) : (entry m a b).isFinite = true := by
  have ha' : a < m.size := h.size ▸ ha
  have hb' : b < (m.getD a #[]).size := (h.getD_size ha).symm ▸ hb
  unfold entry
  rw [Array.getD, dif_pos hb']
  refine hf _ ?_ _ (Array.getElem_mem _)
  rw [Array.getD, dif_pos ha']
  exact Array.getElem_mem _

theorem allFinite_of_entry (h : Square n m)
    (hf : ∀ a b, a < n → b < n → (entry m a b).isFinite = true) : AllFinite m := by
  intro row hrow v hv
  obtain ⟨a, ha, rfl⟩ := Array.mem_iff_getElem.1 hrow
  obtain ⟨b, hb, rfl⟩ := Array.mem_iff_getElem.1 hv
  have hfin := hf a b (h.size ▸ ha) (h.row_size _ (Array.getElem_mem _) ▸ hb)
  unfold entry at hfin
  simpa [Array.getD, ha, hb] using hfin

theorem Symm.modify_set_diag (hs : Symm m) (i : Nat) (t : Float) :
    Symm (m.modify i (·.set! i t)) := by
  intro a b
  rw [entry_modify_set, entry_modify_set, hs a b]
  by_cases hab : a = b
  · rw [hab]
  · rw [if_neg (by omega), if_neg (by omega)]

theorem Symm.setPair (hs : Symm m) (h : Square n m) {i j : Nat} (hi : i < n)
    (hj : j < n) (t : Float) : Symm (Mat.setPair m i j t) := by
  intro a b
  rw [entry_setPair h hi hj, entry_setPair h hi hj, hs a b]
  by_cases hab : (a = i ∧ b = j) ∨ (a = j ∧ b = i)
  · rw [if_pos hab, if_pos (by omega)]
  · rw [if_neg hab, if_neg (by omega)]

end ProfileLikelihood.Mat

namespace ProfileLikelihood

open Mat

/-- A Hessian passes the check as an `n`-row, `n`-column matrix of finite entries. -/
theorem Check.hessianSized_eq_ok {h : Mat.Sized} {n : Nat}
    (hc : Check.hessianSized h n = .ok ()) : h.rows.size = n ∧ h.cols = n ∧ AllFinite h.rows := by
  unfold Check.hessianSized at hc
  split at hc
  · cases hc
  · rename_i hdim
    refine ⟨by omega, by omega, ?_⟩
    dsimp only at hc
    split at hc
    · cases hc
    · rename_i hbad
      intro row hrow v hv
      obtain ⟨i, hi⟩ := List.mem_iff_getElem?.1 (Array.mem_toList_iff.2 hrow)
      have hmem : (row, i) ∈ h.rows.toList.zipIdx := List.mem_zipIdx_iff_getElem?.2 hi
      have hnone := List.findSome?_eq_none_iff.1 hbad _ hmem
      exact Check.firstNonFinite_eq_none (Option.map_eq_none_iff.1 hnone) v hv

end ProfileLikelihood

namespace ProfileLikelihood.FiniteDiff

open Mat Numeric

variable {n : Nat} {m : Mat}

theorem symmetrize_eq (m : Mat) :
    symmetrize m = (abovePairs m.size).foldl (writePair fun a b => (a + b) / 2.0) m := by
  rw [symmetrize, abovePairs, List.foldl_flatMap]
  simp only [List.foldl_map]
  rfl

theorem symmetrizeBelow_eq (m : Mat) :
    symmetrizeBelow m = (belowPairs m.size).foldl (writePair fun a b => 0.5 * (a + b)) m := by
  rw [symmetrizeBelow, belowPairs, List.foldl_flatMap]
  simp only [List.foldl_map]
  rfl

/-- The first pass replaces each entry off the diagonal by the mean of it and its transpose,
computed from the entries as given. -/
theorem entry_symmetrize (h : Square n m) (a b : Nat) :
    entry (symmetrize m) a b =
      if a < b ∧ b < n then (entry m a b + entry m b a) / 2.0
      else if b < a ∧ a < n then (entry m b a + entry m a b) / 2.0 else entry m a b := by
  have hin : ∀ p ∈ abovePairs n, p.1 < n ∧ p.2 < n := fun p hp => by
    have := mem_abovePairs.1 hp
    omega
  have hswap : ∀ p ∈ abovePairs n, p.swap ∉ abovePairs n := fun p hp hs => by
    have := mem_abovePairs.1 hp
    have := mem_abovePairs.1 hs
    simp only [Prod.fst_swap, Prod.snd_swap] at this
    omega
  rw [symmetrize_eq, h.size, entry_foldl_writePair h hin hswap nodup_abovePairs]
  simp only [mem_abovePairs]

/-- The last pass replaces each entry off the diagonal by half the sum of it and its
transpose. -/
theorem entry_symmetrizeBelow (h : Square n m) (a b : Nat) :
    entry (symmetrizeBelow m) a b =
      if b < a ∧ a < n then 0.5 * (entry m a b + entry m b a)
      else if a < b ∧ b < n then 0.5 * (entry m b a + entry m a b) else entry m a b := by
  have hin : ∀ p ∈ belowPairs n, p.1 < n ∧ p.2 < n := fun p hp => by
    have := mem_belowPairs.1 hp
    omega
  have hswap : ∀ p ∈ belowPairs n, p.swap ∉ belowPairs n := fun p hp hs => by
    have := mem_belowPairs.1 hp
    have := mem_belowPairs.1 hs
    simp only [Prod.fst_swap, Prod.snd_swap] at this
    omega
  rw [symmetrizeBelow_eq, h.size, entry_foldl_writePair h hin hswap nodup_belowPairs]
  simp only [mem_belowPairs]

theorem square_symmetrize (h : Square n m) : Square n (symmetrize m) := by
  rw [symmetrize_eq]
  exact h.foldl_writePair

theorem square_symmetrizeBelow (h : Square n m) : Square n (symmetrizeBelow m) := by
  rw [symmetrizeBelow_eq]
  exact h.foldl_writePair

/-- The last pass writes one value to both sides of the diagonal, whatever it is given. -/
theorem symm_symmetrizeBelow (h : Square n m) : Symm (symmetrizeBelow m) := by
  intro a b
  rw [entry_symmetrizeBelow h a b, entry_symmetrizeBelow h b a]
  by_cases h₁ : b < a ∧ a < n
  · rw [if_pos h₁, if_neg (by omega), if_pos h₁]
  · by_cases h₂ : a < b ∧ b < n
    · rw [if_neg h₁, if_pos h₂, if_pos h₂]
    · rw [if_neg h₁, if_neg h₂, if_neg h₂, if_neg h₁]
      by_cases hab : a = b
      · rw [hab]
      · rw [h.entry_eq_zero (by omega), h.entry_eq_zero (by omega)]

/-- After the first pass has passed the check, the last one leaves a symmetric matrix of finite
entries: off the diagonal both passes average one entry with its transpose, so the last one
halves twice the same finite half of a sum. -/
theorem symmetrizeBelow_checked {r : Mat} (h : Square n r) {c : Mat.Sized}
    (hrows : c.rows = symmetrize r) (hc : Check.hessianSized c n = .ok ()) :
    Square n (symmetrizeBelow c.rows) ∧ AllFinite (symmetrizeBelow c.rows) ∧
      Symm (symmetrizeBelow c.rows) := by
  obtain ⟨-, -, hfin⟩ := Check.hessianSized_eq_ok hc
  rw [hrows] at hfin ⊢
  have hs := square_symmetrize h
  refine ⟨square_symmetrizeBelow hs,
    allFinite_of_entry (square_symmetrizeBelow hs) fun a b ha hb => ?_, symm_symmetrizeBelow hs⟩
  have habove : ∀ a b, a < b → b < n →
      (entry (symmetrizeBelow (symmetrize r)) a b).isFinite = true := fun a b hlt hb => by
    have hab := hfin.entry_isFinite hs (hlt.trans hb) hb
    have c₁ : ¬(b < a ∧ a < n) := by omega
    have c₂ : a < b ∧ b < n := ⟨hlt, hb⟩
    rw [entry_symmetrize h] at hab
    rw [entry_symmetrizeBelow hs, entry_symmetrize h, entry_symmetrize h]
    simp only [c₁, c₂, ↓reduceIte] at hab ⊢
    exact isFinite_half_mul_add_half hab
  rcases lt_trichotomy a b with hlt | rfl | hlt
  · exact habove a b hlt hb
  · rw [entry_symmetrizeBelow hs, if_neg (by omega), if_neg (by omega)]
    exact hfin.entry_isFinite hs ha ha
  · rw [symm_symmetrizeBelow hs]
    exact habove b a hlt ha

/-! ### The Hessian of a gradient -/

variable {g : Vec → Except FitError Vec} {x : Vec}

theorem differenceRow_size {gp gm row : Vec} {d : Float}
    (h : differenceRow n gp gm d = .ok row) : row.size = n := by
  unfold differenceRow at h
  split_ifs at h with h₁ h₂
  cases h
  rw [Array.size_zipWith]
  omega

theorem square_of_differenceRows {f : Nat → Except FitError Vec} {rows : List Vec}
    (hf : ∀ i row, f i = .ok row → row.size = n) (hrows : (List.range n).mapM f = .ok rows) :
    Square n rows.toArray where
  size := by simpa using (Except.mapM_eq_ok_getElem? hrows).1
  row_size := fun row hrow => by
    obtain ⟨i, -, hi⟩ := Except.mapM_eq_ok_mem hrows row (by simpa using hrow)
    exact hf i row hi

theorem centralHessian_eq_ok {c : Mat.Sized} (h : centralHessian g x = .ok c) :
    ∃ r, Square x.size r ∧ c.rows = symmetrize r := by
  unfold centralHessian at h
  obtain ⟨g0, -, h⟩ := Except.bind_eq_ok.1 h
  obtain ⟨rows, hrows, h⟩ := Except.bind_eq_ok.1 h
  cases h
  refine ⟨rows.toArray, square_of_differenceRows (fun i row hi => ?_) hrows, rfl⟩
  obtain ⟨gp, -, hi⟩ := Except.bind_eq_ok.1 hi
  obtain ⟨gm, -, hi⟩ := Except.bind_eq_ok.1 hi
  exact differenceRow_size hi

theorem forwardHessian_eq_ok {c : Mat.Sized} (h : forwardHessian g x = .ok c) :
    ∃ r, Square x.size r ∧ c.rows = symmetrize r := by
  unfold forwardHessian at h
  obtain ⟨g0, -, h⟩ := Except.bind_eq_ok.1 h
  obtain ⟨rows, hrows, h⟩ := Except.bind_eq_ok.1 h
  cases h
  refine ⟨rows.toArray, square_of_differenceRows (fun i row hi => ?_) hrows, rfl⟩
  obtain ⟨gp, -, hi⟩ := Except.bind_eq_ok.1 hi
  exact differenceRow_size hi

/-- The law assumed of a finite-difference library: each Hessian of a gradient it returns is the
difference rows, one per coordinate, with symmetry restored by the mean across the diagonal. -/
structure Hessians.Laws (fd : Hessians) : Prop where
  central : ∀ g x c, fd.central g x = .ok c → ∃ r, Square x.size r ∧ c.rows = symmetrize r
  forward : ∀ g x c, fd.forward g x = .ok c → ∃ r, Square x.size r ∧ c.rows = symmetrize r

theorem Hessians.reference_laws : Hessians.reference.Laws :=
  ⟨fun _ _ _ h => centralHessian_eq_ok h, fun _ _ _ h => forwardHessian_eq_ok h⟩

/-- The Hessian of a gradient, central or forward, is a symmetric `n × n` matrix of finite
entries. -/
theorem hessianOfGradient_eq_ok {fd : Hessians} (hfd : fd.Laws) {H : Mat}
    (h : hessianOfGradient fd g x = .ok H) : Square x.size H ∧ AllFinite H ∧ Symm H := by
  unfold hessianOfGradient at h
  obtain ⟨c, hc, h⟩ := Except.bind_eq_ok.1 h
  split at h
  · rename_i hchk
    cases h
    obtain ⟨r, hr, hrows⟩ := hfd.central g x c hc
    exact symmetrizeBelow_checked hr hrows hchk
  · obtain ⟨f, hf, h⟩ := Except.bind_eq_ok.1 h
    obtain ⟨u, hu, h⟩ := Except.bind_eq_ok.1 h
    cases h
    obtain ⟨r, hr, hrows⟩ := hfd.forward g x f hf
    exact symmetrizeBelow_checked hr hrows hu

/-! ### The Hessian of values -/

theorem square_fill : Square n (fill n n 0.0) where
  size := Array.size_replicate
  row_size := fun row hrow => by
    rw [fill, Array.mem_replicate] at hrow
    rw [hrow.2, Array.size_replicate]

theorem symm_fill : Symm (fill n n 0.0) := by
  have hzero : ∀ a b, entry (fill n n 0.0) a b = 0.0 := fun a b => by
    by_cases h : n ≤ a ∨ n ≤ b
    · exact square_fill.entry_eq_zero h
    · have ha : a < n := by omega
      have hb : b < n := by omega
      simp [entry, fill, Array.getD_eq_getD_getElem?, ha, hb]
  intro a b
  rw [hzero, hzero]

/-- The Hessian of values is a symmetric `n × n` matrix of finite entries: it starts from zeros,
writes each diagonal entry once and each entry below the diagonal to its transpose as well, and
is checked last. -/
theorem hessianOfValues_eq_ok {f : Vec → Except FitError Float} {H : Mat}
    (h : hessianOfValues f x = .ok H) : Square x.size H ∧ AllFinite H ∧ Symm H := by
  unfold hessianOfValues at h
  obtain ⟨f0, -, h⟩ := Except.bind_eq_ok.1 h
  obtain ⟨m, hm, h⟩ := Except.bind_eq_ok.1 h
  obtain ⟨u, hu, h⟩ := Except.bind_eq_ok.1 h
  obtain rfl : m = H := Except.ok.inj h
  -- every step of both loops keeps the matrix square and symmetric
  have hinv : Square x.size m ∧ Symm m := by
    refine Except.foldlM_invariant (fun m => Square x.size m ∧ Symm m) ?_ ?_ hm
    · intro m i hi m' ⟨hsq, hsym⟩ hstep
      obtain ⟨a, -, hstep⟩ := Except.bind_eq_ok.1 hstep
      obtain ⟨b, -, hstep⟩ := Except.bind_eq_ok.1 hstep
      refine Except.foldlM_invariant (fun m => Square x.size m ∧ Symm m) ?_
        ⟨hsq.modify_set i i _, hsym.modify_set_diag i _⟩ hstep
      intro m j hj m'' ⟨hsq', hsym'⟩ hinner
      obtain ⟨_, -, hinner⟩ := Except.bind_eq_ok.1 hinner
      obtain ⟨_, -, hinner⟩ := Except.bind_eq_ok.1 hinner
      obtain ⟨_, -, hinner⟩ := Except.bind_eq_ok.1 hinner
      obtain ⟨_, -, hinner⟩ := Except.bind_eq_ok.1 hinner
      obtain rfl := Except.ok.inj hinner
      have hi' : i < x.size := List.mem_range.1 hi
      have hj' : j < x.size := by
        have := List.mem_range.1 hj
        omega
      exact ⟨hsq'.setPair i j _, hsym'.setPair hsq' hi' hj' _⟩
    · exact ⟨square_fill, symm_fill⟩
  obtain ⟨-, -, hfin⟩ := Check.hessianSized_eq_ok hu
  exact ⟨hinv.1, hfin, hinv.2⟩

end ProfileLikelihood.FiniteDiff

namespace ProfileLikelihood.Problem

open Mat

/-- Every Hessian of a problem at a point with one coordinate per parameter is a square matrix of
finite entries over the parameters, once an analytic Hessian, where there is one, is a matrix (each
row as long as the width it declares), for any finite-difference library that keeps its law. -/
theorem hessian_square_finite_symmetric (p : Problem) (fd : FiniteDiff.Hessians)
    (hfd : fd.Laws) (x : Vec) (hx : x.size = p.dimFull)
    (hmatrix : ∀ h, p.objective.hessian x = .ok h → ∀ row ∈ h.rows, row.size = h.cols)
    {H : Mat} (hH : p.hessian fd x = .ok H) :
    Square p.dimFull H ∧ AllFinite H ∧
      (p.objective.hessian x = .error .hessianNotImplemented → Symm H) := by
  unfold Problem.hessian at hH
  split at hH
  · rename_i h hobj
    obtain ⟨u, hu, hH⟩ := Except.bind_eq_ok.1 hH
    obtain rfl : h.rows = H := Except.ok.inj hH
    obtain ⟨hsize, hcols, hfin⟩ := Check.hessianSized_eq_ok hu
    refine ⟨⟨hsize, fun row hrow => (hmatrix h hobj row hrow).trans hcols⟩, hfin,
      fun hno => ?_⟩
    rw [hobj] at hno
    cases hno
  · -- no analytic Hessian: the gradient's Hessian, else the values'
    have hfd : Square x.size H ∧ AllFinite H ∧ Symm H := by
      split at hH
      · exact FiniteDiff.hessianOfGradient_eq_ok hfd hH
      · exact FiniteDiff.hessianOfValues_eq_ok hH
      · cases hH
    rw [hx] at hfd
    exact ⟨hfd.1, hfd.2.1, fun _ => hfd.2.2⟩
  · cases hH

/-- A problem in two parameters whose objective is the product `x₀ x₁`, given without a
gradient or a Hessian. -/
def productPlane : Problem :=
  { objective := { value := fun v => .ok (v.getD 0 (.ofFloat 0.0) * v.getD 1 (.ofFloat 0.0)) },
    lbFull := #[-3.0, -3.0], ubFull := #[3.0, 3.0] }

theorem productPlane_hessian_symmetric :
    FiniteDiff.Hessians.reference.Laws ∧ #[1.0, 2.0].size = productPlane.dimFull ∧
      productPlane.objective.hessian #[1.0, 2.0] = .error .hessianNotImplemented ∧
      ∃ H, productPlane.hessian .reference #[1.0, 2.0] = .ok H ∧
        Square 2 H ∧ AllFinite H ∧ Symm H := by
  have hsome : (productPlane.hessian .reference #[1.0, 2.0]).toOption.isSome = true := by
    decide +kernel
  obtain ⟨H, hH⟩ := Option.isSome_iff_exists.1 hsome
  have hH := Except.toOption_eq_some.1 hH
  obtain ⟨hsq, hfin, hsym⟩ :=
    hessian_square_finite_symmetric productPlane .reference FiniteDiff.Hessians.reference_laws
      #[1.0, 2.0] rfl (fun h hh => by cases hh) hH
  exact ⟨FiniteDiff.Hessians.reference_laws, rfl, rfl, H, hH, hsq, hfin, hsym rfl⟩

end ProfileLikelihood.Problem

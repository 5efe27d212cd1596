import ProfileLikelihood.Problem.Basic
import ProfileLikelihood.Proofs.Basic

/-! The fixed parameters of a problem, read as a finite map from indices to values. The list
that holds them stays sorted by index with no repeat, every index in range and every value
finite, through every sequence of calls a caller can make. On such a list, fixing writes the
pairs into the map in order, the last write to an index winning, unfixing erases the keys, the
number of free parameters is the number of indices left over, and the free indices are those
the map does not hold. -/

namespace ProfileLikelihood.Problem

/-- A well-formed fixed map: indices strictly increasing and in range, values finite. -/
structure FixedOK (p : Problem) : Prop where
  sorted : p.fixed.Pairwise (·.1 < ·.1)
  lt_dimFull : ∀ q ∈ p.fixed, q.1 < p.dimFull
  finite : ∀ q ∈ p.fixed, q.2.isFinite = true

/-- The problems a caller can build: a new problem, then any sequence of fixes, unfixes and bound
changes. -/
inductive Reachable : Problem → Prop
  | new (objective : Objective) (lb ub : Vec) {p : Problem} :
      Problem.new objective lb ub = .ok p → Reachable p
  | fix {p q : Problem} (indices : List Nat) (values : List Float) :
      Reachable p → p.fix indices values = .ok q → Reachable q
  | unfix {p : Problem} (indices : List Nat) : Reachable p → Reachable (p.unfixPartial indices).1
  | setBounds {p q : Problem} (lb ub : Vec) :
      Reachable p → p.setBounds lb ub = .ok q → Reachable q

/-! ### Writing one entry -/

theorem lookup_cons_pair (k : Nat) (w : Float) (l : List (Nat × Float)) (j : Nat) :
    ((k, w) :: l).lookup j = if j = k then some w else l.lookup j := by
  rw [List.lookup_cons]
  by_cases h : j = k
  · subst h
    simp
  · simp [beq_false_of_ne h, h]

theorem lookup_insertFixed (m : List (Nat × Float)) (i : Nat) (v : Float) (j : Nat) :
    (insertFixed m i v).lookup j = if j = i then some v else m.lookup j := by
  induction m with
  | nil => simp [insertFixed, lookup_cons_pair]
  | cons e rest ih =>
    obtain ⟨k, w⟩ := e
    unfold insertFixed
    split
    · simp only [lookup_cons_pair]
    · split
      · rename_i hik
        subst hik
        by_cases hji : j = i <;> simp [lookup_cons_pair, hji]
      · rename_i hik hik'
        rw [lookup_cons_pair, lookup_cons_pair, ih]
        by_cases hjk : j = k
        · subst hjk
          simp [Ne.symm hik']
        · simp [hjk]

theorem mem_insertFixed {m : List (Nat × Float)} {i : Nat} {v : Float} {q : Nat × Float}
    (h : q ∈ insertFixed m i v) : q = (i, v) ∨ q ∈ m := by
  induction m with
  | nil => simpa [insertFixed] using h
  | cons e rest ih =>
    obtain ⟨k, w⟩ := e
    unfold insertFixed at h
    split at h
    · simpa using h
    · split at h
      · rcases List.mem_cons.1 h with h | h
        · exact .inl h
        · exact .inr (List.mem_cons_of_mem _ h)
      · rcases List.mem_cons.1 h with h | h
        · exact .inr (h ▸ List.mem_cons_self)
        · rcases ih h with h | h
          · exact .inl h
          · exact .inr (List.mem_cons_of_mem _ h)

/-- Writing an entry keeps the map sorted by index with no repeat. -/
theorem pairwise_insertFixed {m : List (Nat × Float)} (h : m.Pairwise (·.1 < ·.1)) (i : Nat)
    (v : Float) : (insertFixed m i v).Pairwise (·.1 < ·.1) := by
  induction m with
  | nil => simp [insertFixed]
  | cons e rest ih =>
    obtain ⟨k, w⟩ := e
    obtain ⟨hk, hrest⟩ := List.pairwise_cons.1 h
    unfold insertFixed
    split
    · rename_i hik
      refine List.pairwise_cons.2 ⟨fun q hq => ?_, h⟩
      rcases List.mem_cons.1 hq with rfl | hq
      · exact hik
      · exact Nat.lt_trans hik (hk q hq)
    · split
      · rename_i _ hik
        subst hik
        exact List.pairwise_cons.2 ⟨hk, hrest⟩
      · rename_i hik hik'
        refine List.pairwise_cons.2 ⟨fun q hq => ?_, ih hrest⟩
        rcases mem_insertFixed hq with rfl | hq
        · show k < i
          omega
        · exact hk q hq

/-! ### Fixing and unfixing -/

/-- The fixed map after writing `pairs` in order. -/
def writeFixed (m : List (Nat × Float)) (pairs : List (Nat × Float)) : List (Nat × Float) :=
  pairs.foldl (fun m (i, v) => insertFixed m i v) m

theorem lookup_writeFixed (m pairs : List (Nat × Float)) (j : Nat) :
    (writeFixed m pairs).lookup j =
      pairs.foldl (fun f x => fun j' => if j' = x.1 then some x.2 else f j') (List.lookup · m) j := by
  induction pairs generalizing m with
  | nil => rfl
  | cons x pairs ih =>
    simp only [writeFixed, List.foldl_cons] at ih ⊢
    have hinit : (fun j' => List.lookup j' (insertFixed m x.1 x.2)) =
        fun j' => if j' = x.1 then some x.2 else List.lookup j' m :=
      funext fun j' => lookup_insertFixed m x.1 x.2 j'
    rw [ih, hinit]

theorem mem_writeFixed {m pairs : List (Nat × Float)} {q : Nat × Float}
    (h : q ∈ writeFixed m pairs) : q ∈ pairs ∨ q ∈ m := by
  induction pairs generalizing m with
  | nil => exact .inr h
  | cons x pairs ih =>
    rcases ih h with h | h
    · exact .inl (List.mem_cons_of_mem _ h)
    · rcases mem_insertFixed h with rfl | h
      · exact .inl List.mem_cons_self
      · exact .inr h

theorem pairwise_writeFixed {m : List (Nat × Float)} (h : m.Pairwise (·.1 < ·.1))
    (pairs : List (Nat × Float)) : (writeFixed m pairs).Pairwise (·.1 < ·.1) := by
  induction pairs generalizing m with
  | nil => exact h
  | cons x pairs ih => exact ih (pairwise_insertFixed h x.1 x.2)

theorem fixProblem_eq_none {n : Nat} {pairs : List (Nat × Float)}
    (h : fixProblem n pairs = none) : ∀ q ∈ pairs, q.1 < n ∧ q.2.isFinite = true := by
  induction pairs with
  | nil => simp
  | cons x pairs ih =>
    obtain ⟨i, v⟩ := x
    unfold fixProblem at h
    split at h
    · cases h
    · split at h
      · cases h
      · rename_i hi hv
        intro q hq
        rcases List.mem_cons.1 hq with rfl | hq
        · exact ⟨by omega, by simpa using hv⟩
        · exact ih h q hq

/-- A successful fix checked every pair and wrote them all in order. -/
theorem fix_eq_ok {p q : Problem} {indices : List Nat} {values : List Float}
    (h : p.fix indices values = .ok q) :
    (∀ x ∈ indices.zip values, x.1 < p.dimFull ∧ x.2.isFinite = true) ∧
      q = { p with fixed := writeFixed p.fixed (indices.zip values) } := by
  unfold fix at h
  split at h
  · cases h
  · simp only [Except.pure_eq] at h
    split at h
    · cases h
    · rename_i hnone
      cases h
      exact ⟨fixProblem_eq_none hnone, rfl⟩

theorem mem_insertFixed_self (m : List (Nat × Float)) (i : Nat) (v : Float) :
    (i, v) ∈ insertFixed m i v := by
  have h : (insertFixed m i v).lookup i = some v := by simp [lookup_insertFixed]
  obtain ⟨l₁, l₂, hl, -⟩ := List.lookup_eq_some_iff.1 h
  rw [hl]
  simp

theorem fix_single {p q : Problem} {i : Nat} {v : Float} (h : p.fix [i] [v] = .ok q) :
    v.isFinite = true ∧ (i, v) ∈ q.fixed ∧ q.lbFull = p.lbFull ∧ q.ubFull = p.ubFull := by
  obtain ⟨hpairs, rfl⟩ := fix_eq_ok h
  exact ⟨(hpairs (i, v) (by simp)).2, mem_insertFixed_self p.fixed i v, rfl, rfl⟩

/-- Unfixing stops at the first index out of range; the indices before it are freed. -/
theorem unfixPartial_fixed (p : Problem) (indices : List Nat) :
    ∃ freed : List Nat, freed ⊆ indices ∧
      (p.unfixPartial indices).1 = { p with fixed := p.fixed.filter (·.1 ∉ freed) } ∧
      ((p.unfixPartial indices).2 = none → freed = indices) := by
  induction indices generalizing p with
  | nil => exact ⟨[], by simp, by simp [unfixPartial], fun _ => rfl⟩
  | cons i rest ih =>
    by_cases hi : i ≥ p.dimFull
    · exact ⟨[], by simp, by simp [unfixPartial, hi], by simp [unfixPartial, hi]⟩
    · obtain ⟨freed, hsub, hq, hnone⟩ := ih { p with fixed := p.fixed.filter (·.1 != i) }
      refine ⟨i :: freed, ?_, ?_, ?_⟩
      · exact List.cons_subset_cons _ hsub
      · simp only [unfixPartial, hi, if_false, hq, List.filter_filter]
        congr 2
        funext q
        by_cases hq : q.1 = i <;> simp [hq]
      · simp only [unfixPartial, hi, if_false]
        intro h
        rw [hnone h]

/-- An unfix that fails stopped at an index out of range, every index before it in range; the
problem is the one those earlier indices leave, each of them freed. -/
theorem unfixPartial_eq_error {p q : Problem} {indices : List Nat} {e : FitError}
    (h : p.unfixPartial indices = (q, some e)) :
    ∃ pre i rest, indices = pre ++ i :: rest ∧ (∀ j ∈ pre, j < p.dimFull) ∧ p.dimFull ≤ i ∧
      e = .indexOutOfRange i p.dimFull ∧ q = { p with fixed := p.fixed.filter (·.1 ∉ pre) } := by
  induction indices generalizing p with
  | nil => simp [unfixPartial] at h
  | cons i rest ih =>
    by_cases hi : i ≥ p.dimFull
    · simp only [unfixPartial, hi, if_true, Prod.mk.injEq, Option.some.injEq] at h
      obtain ⟨rfl, rfl⟩ := h
      exact ⟨[], i, rest, rfl, by simp, hi, rfl, by simp⟩
    · simp only [unfixPartial, hi, if_false] at h
      -- freeing `i` keeps the bounds, so the rest is checked against the same dimension
      obtain ⟨pre, j, rest', rfl, hpre, hj, rfl, rfl⟩ := ih h
      refine ⟨i :: pre, j, rest', rfl, ?_, hj, rfl, ?_⟩
      · intro k hk
        rcases List.mem_cons.1 hk with rfl | hk
        · omega
        · exact hpre k hk
      · simp only [List.filter_filter]
        congr 2
        funext q
        by_cases hq : q.1 = i <;> simp [hq]

/-- An unfix that fails has already freed every index listed before the first one out of range. -/
theorem unfixPartial_error_frees_prefix {p q : Problem} {indices : List Nat} {e : FitError}
    (h : p.unfixPartial indices = (q, some e)) :
    ∃ pre i rest, indices = pre ++ i :: rest ∧ (∀ j ∈ pre, j < p.dimFull) ∧ p.dimFull ≤ i ∧
      e = .indexOutOfRange i p.dimFull ∧ q = { p with fixed := p.fixed.filter (·.1 ∉ pre) } ∧
      (q.fixed = p.fixed ↔ ∀ j ∈ pre, p.isFixed j = false) := by
  obtain ⟨pre, i, rest, hind, hpre, hi, he, rfl⟩ := unfixPartial_eq_error h
  refine ⟨pre, i, rest, hind, hpre, hi, he, rfl, ?_⟩
  simp only [List.filter_eq_self, decide_eq_true_eq, isFixed, List.any_eq_false, beq_iff_eq]
  constructor
  · intro hkeep j hj q hq hqj
    exact hkeep q hq (hqj ▸ hj)
  · intro hfree q hq hqpre
    exact hfree q.1 hqpre q hq rfl

/-- Unfixing `[0, 2]` in a two-parameter problem with index `0` fixed fails on `2` after freeing
`0`. -/
theorem unfix_error_frees_prefix_of_two :
    ∃ p q : Problem, p.dimFull = 2 ∧ p.fixed = [(0, 0.5)] ∧
      p.unfixPartial [0, 2] = (q, some (.indexOutOfRange 2 2)) ∧
      ∃ pre i rest, [0, 2] = pre ++ i :: rest ∧ (∀ j ∈ pre, j < p.dimFull) ∧ p.dimFull ≤ i ∧
        FitError.indexOutOfRange 2 2 = .indexOutOfRange i p.dimFull ∧
        q = { p with fixed := p.fixed.filter (·.1 ∉ pre) } ∧
        (q.fixed = p.fixed ↔ ∀ j ∈ pre, p.isFixed j = false) := by
  let flat : Objective := ⟨fun _ => .ok (.ofFloat 0.0), fun _ => .error .gradientNotImplemented,
    fun _ => .error .hessianNotImplemented⟩
  let p : Problem :=
    { objective := flat, lbFull := #[-1.0, -1.0], ubFull := #[1.0, 1.0], fixed := [(0, 0.5)] }
  have h : p.unfixPartial [0, 2] = ({ p with fixed := [] }, some (.indexOutOfRange 2 2)) := rfl
  exact ⟨p, _, rfl, rfl, h, unfixPartial_error_frees_prefix h⟩

/-- Index `0` of a two-parameter problem is fixed; unfixing `[0, 2]` fails on `2`, and index `0`
is free all the same. -/
theorem unfix_out_of_range_frees_earlier :
    ∃ p : Problem, p.Reachable ∧ p.dimFull = 2 ∧ p.fixed = [(0, 0.5)] ∧
      p.unfixPartial [0, 2] = ({ p with fixed := [] }, some (.indexOutOfRange 2 2)) := by
  have hnew := Reachable.new ⟨fun _ => .ok (.ofFloat 0.0), fun _ => .error .gradientNotImplemented,
    fun _ => .error .hessianNotImplemented⟩ #[-1.0, -1.0] #[1.0, 1.0] rfl
  exact ⟨_, Reachable.fix [0] [0.5] hnew rfl, rfl, rfl, rfl⟩

theorem setBounds_eq_ok {p q : Problem} {lb ub : Vec} (h : p.setBounds lb ub = .ok q) :
    checkBounds lb ub = .ok () ∧ lb.size = p.dimFull ∧ q = { p with lbFull := lb, ubFull := ub } := by
  unfold setBounds at h
  obtain ⟨u, hc, h⟩ := Except.bind_eq_ok.1 h
  split at h
  · cases h
  · rename_i hsize
    cases h
    exact ⟨hc, Classical.byContradiction hsize, rfl⟩

/-! ### The map -/

theorem lookup_filter_not_mem (l : List (Nat × Float)) (freed : List Nat) (j : Nat) :
    (l.filter (·.1 ∉ freed)).lookup j = if j ∈ freed then none else l.lookup j := by
  induction l with
  | nil => simp
  | cons e l ih =>
    obtain ⟨k, w⟩ := e
    by_cases hk : k ∈ freed
    · have hdrop : decide (k ∉ freed) = false := by simp [hk]
      rw [List.filter_cons, hdrop, if_neg Bool.false_ne_true, ih, lookup_cons_pair]
      by_cases hjk : j = k
      · subst hjk
        simp [hk]
      · simp [hjk]
    · have hkeep : decide (k ∉ freed) = true := by simp [hk]
      rw [List.filter_cons, hkeep, if_pos rfl, lookup_cons_pair, lookup_cons_pair, ih]
      by_cases hjk : j = k
      · subst hjk
        simp [hk]
      · simp [hjk]

theorem lookup_eq_none_iff (l : List (Nat × Float)) (j : Nat) :
    l.lookup j = none ↔ j ∉ l.map (·.1) := by
  induction l with
  | nil => simp
  | cons e l ih =>
    obtain ⟨k, w⟩ := e
    rw [lookup_cons_pair]
    by_cases hjk : j = k
    · simp [hjk]
    · simp [hjk, ih]

theorem isFixed_eq (p : Problem) (i : Nat) : p.isFixed i = decide (i ∈ p.fixedIndices) := by
  by_cases h : i ∈ p.fixedIndices
  · obtain ⟨q, hq, rfl⟩ := List.mem_map.1 h
    simp only [h, decide_true, isFixed, List.any_eq_true, beq_iff_eq]
    exact ⟨q, hq, rfl⟩
  · simp only [h, decide_false, isFixed, List.any_eq_false, beq_iff_eq]
    intro q hq hqi
    exact h (hqi ▸ List.mem_map_of_mem hq)

/-! ### Counting -/

theorem length_filter_range_mem {K : List Nat} {n : Nat} (hK : K.Nodup) (hlt : ∀ k ∈ K, k < n) :
    ((List.range n).filter fun i => decide (i ∈ K)).length = K.length := by
  have hset : ((List.range n).filter fun i => decide (i ∈ K)).toFinset = K.toFinset := by
    ext i
    simp only [List.mem_toFinset, List.mem_filter, List.mem_range, decide_eq_true_eq]
    exact ⟨fun h => h.2, fun h => ⟨hlt i h, h⟩⟩
  rw [← List.toFinset_card_of_nodup (List.nodup_range.filter _), hset,
    List.toFinset_card_of_nodup hK]

theorem FixedOK.nodup_fixedIndices {p : Problem} (h : p.FixedOK) : p.fixedIndices.Nodup :=
  (List.pairwise_map.2 h.sorted).imp Nat.ne_of_lt

theorem FixedOK.length_le {p : Problem} (h : p.FixedOK) : p.fixed.length ≤ p.dimFull := by
  have hcount := length_filter_range_mem (n := p.dimFull) h.nodup_fixedIndices
    (fun k hk => by
      obtain ⟨q, hq, rfl⟩ := List.mem_map.1 hk
      exact h.lt_dimFull q hq)
  have hle := List.length_filter_le (fun i => decide (i ∈ p.fixedIndices)) (List.range p.dimFull)
  simp only [fixedIndices, List.length_map] at hcount hle
  simp only [List.length_range] at hle
  omega

/-- The free indices are as many as the problem's free parameters. -/
theorem FixedOK.length_freeIndices {p : Problem} (h : p.FixedOK) : p.freeIndices.length = p.dim := by
  have hcount := length_filter_range_mem (n := p.dimFull) h.nodup_fixedIndices
    (fun k hk => by
      obtain ⟨q, hq, rfl⟩ := List.mem_map.1 hk
      exact h.lt_dimFull q hq)
  have hsplit := List.length_eq_countP_add_countP (fun i => decide (i ∈ p.fixedIndices))
    (l := List.range p.dimFull)
  simp only [List.countP_eq_length_filter, List.length_range] at hsplit
  have hfree : p.freeIndices = (List.range p.dimFull).filter
      fun i => decide ¬(decide (i ∈ p.fixedIndices) = true) := by
    simp [freeIndices, isFixed_eq]
  rw [hfree, dim]
  simp only [fixedIndices, List.length_map] at hcount hsplit ⊢
  omega

/-! ### Every call keeps the map well formed -/

theorem FixedOK.of_new {objective : Objective} {lb ub : Vec} {p : Problem}
    (h : Problem.new objective lb ub = .ok p) : p.FixedOK := by
  unfold Problem.new at h
  obtain ⟨_, -, h⟩ := Except.bind_eq_ok.1 h
  cases h
  exact ⟨List.Pairwise.nil, by simp, by simp⟩

theorem FixedOK.fix {p q : Problem} {indices : List Nat} {values : List Float} (hp : p.FixedOK)
    (h : p.fix indices values = .ok q) : q.FixedOK := by
  obtain ⟨hpairs, rfl⟩ := fix_eq_ok h
  refine ⟨pairwise_writeFixed hp.sorted _, fun x hx => ?_, fun x hx => ?_⟩
  · rcases mem_writeFixed hx with hx | hx
    · exact (hpairs x hx).1
    · exact hp.lt_dimFull x hx
  · rcases mem_writeFixed hx with hx | hx
    · exact (hpairs x hx).2
    · exact hp.finite x hx

theorem FixedOK.unfixPartial {p : Problem} (hp : p.FixedOK) (indices : List Nat) :
    (p.unfixPartial indices).1.FixedOK := by
  obtain ⟨freed, -, heq, -⟩ := unfixPartial_fixed p indices
  rw [heq]
  refine ⟨hp.sorted.filter _, fun x hx => hp.lt_dimFull x (List.mem_filter.1 hx).1,
    fun x hx => hp.finite x (List.mem_filter.1 hx).1⟩

theorem FixedOK.setBounds {p q : Problem} {lb ub : Vec} (hp : p.FixedOK)
    (h : p.setBounds lb ub = .ok q) : q.FixedOK := by
  obtain ⟨-, hsize, rfl⟩ := setBounds_eq_ok h
  refine ⟨hp.sorted, fun x hx => ?_, hp.finite⟩
  show x.1 < lb.size
  rw [hsize]
  exact hp.lt_dimFull x hx

theorem Reachable.fixedOK {p : Problem} (h : p.Reachable) : p.FixedOK := by
  induction h with
  | new _ _ _ h => exact FixedOK.of_new h
  | fix _ _ _ h ih => exact ih.fix h
  | unfix indices _ ih => exact ih.unfixPartial indices
  | setBounds _ _ _ h ih => exact ih.setBounds h

/-- Every reachable problem has bounds that pass the bounds check: only a new problem and a
change of bounds set them, and both check them first. -/
theorem Reachable.checkBounds {p : Problem} (h : p.Reachable) :
    checkBounds p.lbFull p.ubFull = .ok () := by
  induction h with
  | new _ _ _ h =>
    unfold Problem.new at h
    obtain ⟨_, hc, h⟩ := Except.bind_eq_ok.1 h
    cases h
    exact hc
  | fix _ _ _ h ih =>
    obtain ⟨-, rfl⟩ := fix_eq_ok h
    exact ih
  | unfix indices _ ih =>
    obtain ⟨freed, -, heq, -⟩ := unfixPartial_fixed _ indices
    rw [heq]
    exact ih
  | setBounds _ _ _ h ih =>
    obtain ⟨hc, -, rfl⟩ := setBounds_eq_ok h
    exact hc

/-! ### The fixed map through any sequence of calls -/

/-- The fixed map through any sequence of calls. -/
theorem Reachable.fixed_map {p : Problem} (h : p.Reachable) :
    p.FixedOK ∧ p.fixed.length ≤ p.dimFull ∧ p.dim = p.dimFull - p.fixed.length ∧
      p.freeIndices.Pairwise (· < ·) ∧
      (∀ i, i ∈ p.freeIndices ↔ i < p.dimFull ∧ p.fixed.lookup i = none) ∧
      p.freeIndices.length = p.dim ∧
      (∀ indices values q, p.fix indices values = .ok q → ∀ j,
        q.fixed.lookup j = (indices.zip values).foldl
          (fun f x => fun j' => if j' = x.1 then some x.2 else f j') (List.lookup · p.fixed) j) ∧
      (∀ indices q, p.unfixPartial indices = (q, none) → ∀ j,
        q.fixed.lookup j = if j ∈ indices then none else p.fixed.lookup j) := by
  have hok := h.fixedOK
  refine ⟨hok, hok.length_le, rfl, List.pairwise_lt_range.filter _, fun i => ?_,
    hok.length_freeIndices, fun indices values q hfix j => ?_, fun indices q hunfix j => ?_⟩
  · rw [lookup_eq_none_iff]
    simp only [freeIndices, List.mem_filter, List.mem_range, isFixed_eq, fixedIndices,
      Bool.not_eq_true']
    by_cases hm : i ∈ p.fixed.map (·.1) <;> simp [hm]
  · obtain ⟨-, rfl⟩ := fix_eq_ok hfix
    exact lookup_writeFixed p.fixed _ j
  · obtain ⟨freed, -, heq, hnone⟩ := unfixPartial_fixed p indices
    rw [hunfix] at heq hnone
    cases hnone rfl
    rw [show q = _ from heq]
    exact lookup_filter_not_mem p.fixed indices j

/-- A new problem of two parameters whose second is then fixed at `0.5`. -/
theorem fixed_map_of_second_fixed :
    ∃ p : Problem, p.Reachable ∧ p.fixed = [(1, 0.5)] ∧
      p.FixedOK ∧ p.fixed.length ≤ p.dimFull ∧ p.dim = p.dimFull - p.fixed.length ∧
      p.freeIndices.Pairwise (· < ·) ∧
      (∀ i, i ∈ p.freeIndices ↔ i < p.dimFull ∧ p.fixed.lookup i = none) ∧
      p.freeIndices.length = p.dim ∧
      (∀ indices values q, p.fix indices values = .ok q → ∀ j,
        q.fixed.lookup j = (indices.zip values).foldl
          (fun f x => fun j' => if j' = x.1 then some x.2 else f j') (List.lookup · p.fixed) j) ∧
      (∀ indices q, p.unfixPartial indices = (q, none) → ∀ j,
        q.fixed.lookup j = if j ∈ indices then none else p.fixed.lookup j) := by
  have hnew := Reachable.new ⟨fun _ => .ok (.ofFloat 0.0), fun _ => .error .gradientNotImplemented,
    fun _ => .error .hessianNotImplemented⟩ #[0.0, 0.0] #[1.0, 1.0] rfl
  have hfix := Reachable.fix [1] [0.5] hnew rfl
  exact ⟨_, hfix, rfl, Reachable.fixed_map hfix⟩

end ProfileLikelihood.Problem

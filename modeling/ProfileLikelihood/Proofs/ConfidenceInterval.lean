import Mathlib
import ProfileLikelihood.Interval
import ProfileLikelihood.Proofs.BoundMaps

/-! Confidence intervals read in exact arithmetic. The interval starts at the first point whose
ratio reaches the level and ends at the last one, found by a search from each end. Where such a
point is not an end of the profile its outer neighbour lies below the level, since the point is
the outermost one at the level, so the line through the two meets the level a weight in `(0, 1]`
of the way from the neighbour. On increasing parameter values the interval then covers every
point at the level, also across dips below it between them, and reaches no further than the
outer neighbours. -/

namespace ProfileLikelihood.Interval

open Numeric

/-! ### The ends found -/

/-- The last entry of a list that a test accepts, found as the last of the accepted entries with
their indices: an entry at that index, accepted, and no entry after it accepted. -/
theorem getLast?_filter_zipIdx {β : Type} {q : β → Bool} {L : List β} {a : β} {u : Nat}
    (h : (L.zipIdx.filter (q ·.1)).getLast? = some (a, u)) :
    ∃ hu : u < L.length, L[u] = a ∧ q a = true ∧
      ∀ j (hj : j < L.length), u < j → q L[j] = false := by
  induction L using List.reverseRecOn with
  | nil => simp at h
  | append_singleton L b ih =>
    rw [List.zipIdx_append, List.filter_append] at h
    by_cases hb : q b = true
    · simp only [List.zipIdx_singleton, Nat.zero_add, List.filter_cons, hb, if_true,
        List.filter_nil, List.getLast?_append, List.getLast?_singleton, Option.some_or,
        Option.some.injEq, Prod.mk.injEq] at h
      obtain ⟨rfl, rfl⟩ := h
      refine ⟨by simp, by simp, hb, fun j hj hlt => ?_⟩
      simp only [List.length_append, List.length_singleton] at hj
      omega
    · have h' : (L.zipIdx.filter (q ·.1)).getLast? = some (a, u) := by simpa [hb] using h
      obtain ⟨hu, hLu, hqa, hlast⟩ := ih h'
      refine ⟨by simp; omega, by simp [List.getElem_append_left hu, hLu], hqa,
        fun j hj hlt => ?_⟩
      by_cases hjL : j < L.length
      · rw [List.getElem_append_left hjL]
        exact hlast j hjL hlt
      · have hj' : j = L.length := by simp at hj; omega
        subst hj'
        simpa using hb

section Search

variable {α : Type} [Scalar α]

/-- A profile with points, one ratio per point and some ratio at the level `c` gives as ends the
first and the last point whose ratio reaches `c`. -/
theorem bounds_eq_ok {n : Nat} {ratios : Array α} {c : α} (hn : n = ratios.size) (hpos : 0 < n)
    (hreach : ∃ k, ∃ hk : k < ratios.size, c ≤ ratios[k]) :
    ∃ l u, ∃ hl : l < ratios.size, ∃ hu : u < ratios.size,
      (c ≤ ratios[l] ∧ ∀ j (hj : j < l), ¬c ≤ ratios[j]) ∧
      (c ≤ ratios[u] ∧ ∀ j (hj : j < ratios.size), u < j → ¬c ≤ ratios[j]) ∧
      bounds n ratios c = .ok (if l = 0 then .point 0 else .crossing l (l - 1),
        if u = n - 1 then .point u else .crossing u (u + 1)) := by
  obtain ⟨k, hk, hck⟩ := hreach
  let above := fun r : α => decide (r ≥ c)
  obtain ⟨l, hfind⟩ : ∃ l, ratios.findIdx? above = some l := by
    cases hf : ratios.findIdx? above with
    | some l => exact ⟨l, rfl⟩
    | none =>
      have := Array.findIdx?_eq_none_iff.1 hf ratios[k] (Array.getElem_mem hk)
      simp [above, hck] at this
  obtain ⟨hl, hcl, hbefore⟩ := Array.findIdx?_eq_some_iff_getElem.1 hfind
  obtain ⟨⟨a, u⟩, hlast⟩ :
      ∃ au, (ratios.toList.zipIdx.filter (above ·.1)).getLast? = some au := by
    cases hf : (ratios.toList.zipIdx.filter (above ·.1)).getLast? with
    | some au => exact ⟨au, rfl⟩
    | none =>
      have hmem : (ratios[k], k) ∈ ratios.toList.zipIdx.filter (above ·.1) := by
        simp [List.mem_filter, List.mem_zipIdx_iff_getElem?, above, hck, hk]
      rw [List.getLast?_eq_none_iff.1 hf] at hmem
      simp at hmem
  obtain ⟨hu, hua, hcu, hafter⟩ := getLast?_filter_zipIdx hlast
  simp only [Array.length_toList] at hu
  refine ⟨l, u, hl, hu, ⟨by simpa [above] using hcl, fun j hj => ?_⟩,
    ⟨?_, fun j hj hlt => ?_⟩, ?_⟩
  · simpa [above] using hbefore j hj
  · simp only [Array.getElem_toList] at hua
    subst hua
    simpa [above] using hcu
  · have h := hafter j (by simpa using hj) hlt
    simp only [Array.getElem_toList] at h
    simpa [above] using h
  · have hne : ¬(n = 0 || n ≠ ratios.size) = true := by
      simp only [Bool.or_eq_true, decide_eq_true_eq, not_or, not_not]
      exact ⟨by omega, hn⟩
    simp only [bounds, hne]
    rw [hfind, hlast]
    rfl

end Search

/-! ### Exact arithmetic -/

theorem levelCrossing_eq {c rIn rOut : ℝ} (xIn xOut : ℝ) (hout : rOut < c) (hin : c ≤ rIn) :
    let w := (c - rOut) / (rIn - rOut)
    0 < w ∧ w ≤ 1 ∧ levelCrossing c xIn rIn xOut rOut = xOut + w * (xIn - xOut) := by
  have hd : 0 < rIn - rOut := by linarith
  refine ⟨div_pos (by linarith) hd, (div_le_one hd).2 (by linarith), rfl⟩

theorem weighted_mem {a b w : ℝ} (h₀ : 0 ≤ w) (h₁ : w ≤ 1) :
    min a b ≤ a + w * (b - a) ∧ a + w * (b - a) ≤ max a b := by
  rcases le_total a b with hab | hba
  · have h₂ : 0 ≤ w * (b - a) := mul_nonneg h₀ (by linarith)
    have h₃ : w * (b - a) ≤ b - a := mul_le_of_le_one_left (by linarith) h₁
    constructor <;> simp [hab] <;> linarith
  · have h₂ : w * (b - a) ≤ 0 := mul_nonpos_of_nonneg_of_nonpos h₀ (by linarith)
    have h₃ : b - a ≤ w * (b - a) := by nlinarith
    constructor <;> simp [hba] <;> linarith

/-- The interval `[lb, ub]` that the points `x 0, …, x (n - 1)` with ratios `r 0, …, r (n - 1)`
give at the level `c`, in exact arithmetic. `l` and `u` are the first and the last point whose
ratio reaches `c`. -/
structure ExactInterval (n : ℕ) (x r : ℕ → ℝ) (c lb ub : ℝ) (l u : ℕ) : Prop where
  first : l < n ∧ c ≤ r l ∧ ∀ j < l, r j < c
  last : u < n ∧ c ≤ r u ∧ ∀ j, u < j → j < n → r j < c
  lower : (l = 0 ∧ lb = x 0) ∨ (0 < l ∧
    ∃ w, w = (c - r (l - 1)) / (r l - r (l - 1)) ∧ 0 < w ∧ w ≤ 1 ∧
      lb = x (l - 1) + w * (x l - x (l - 1)))
  upper : (u = n - 1 ∧ ub = x (n - 1)) ∨ (u + 1 < n ∧
    ∃ w, w = (c - r (u + 1)) / (r u - r (u + 1)) ∧ 0 < w ∧ w ≤ 1 ∧
      ub = x (u + 1) + w * (x u - x (u + 1)))
  neighbour_le_lb : 0 < l → x (l - 1) ≤ lb
  lb_le_first : lb ≤ x l
  covers : ∀ k < n, c ≤ r k → x l ≤ x k ∧ x k ≤ x u
  last_le_ub : x u ≤ ub
  ub_le_neighbour : u + 1 < n → ub ≤ x (u + 1)
  lb_le_ub : lb ≤ ub

@[simp] theorem value_point (xs ratios : Array ℝ) (c : ℝ) (i : ℕ) :
    (Bound.point i).value xs ratios c = xs.getD i 0 := by
  simp only [Bound.value]
  norm_num

@[simp] theorem value_crossing (xs ratios : Array ℝ) (c : ℝ) (i o : ℕ) :
    (Bound.crossing i o).value xs ratios c =
      levelCrossing c (xs.getD i 0) (ratios.getD i 0) (xs.getD o 0) (ratios.getD o 0) := by
  simp only [Bound.value]
  norm_num

variable {x r : ℕ → ℝ} {c : ℝ}

/-- The lower end: the first point that reaches the level, or the crossing with the point
before it, which lies below the level. -/
theorem lowerEnd_laws {l : ℕ} (hmono : x (l - 1) ≤ x l) (hcl : c ≤ r l)
    (hbefore : ∀ j < l, r j < c) :
    let lb := if l = 0 then x 0 else levelCrossing c (x l) (r l) (x (l - 1)) (r (l - 1))
    ((l = 0 ∧ lb = x 0) ∨ (0 < l ∧ ∃ w, w = (c - r (l - 1)) / (r l - r (l - 1)) ∧
      0 < w ∧ w ≤ 1 ∧ lb = x (l - 1) + w * (x l - x (l - 1)))) ∧
    (0 < l → x (l - 1) ≤ lb) ∧ lb ≤ x l := by
  intro lb
  rcases Nat.eq_zero_or_pos l with rfl | hl
  · exact ⟨.inl ⟨rfl, rfl⟩, by omega, le_rfl⟩
  · obtain ⟨hw₀, hw₁, hlb⟩ := levelCrossing_eq (x l) (x (l - 1))
      (hbefore (l - 1) (by omega)) hcl
    have hlb' : lb = x (l - 1) + (c - r (l - 1)) / (r l - r (l - 1)) * (x l - x (l - 1)) := by
      simp only [lb, if_neg (Nat.pos_iff_ne_zero.1 hl), hlb]
    have hmem := weighted_mem (a := x (l - 1)) (b := x l) hw₀.le hw₁
    rw [min_eq_left hmono, max_eq_right hmono, ← hlb'] at hmem
    exact ⟨.inr ⟨hl, _, rfl, hw₀, hw₁, hlb'⟩, fun _ => hmem.1, hmem.2⟩


/-- The upper end: the last point that reaches the level, or the crossing with the point after
it, which lies below the level. -/
theorem upperEnd_laws {n u : ℕ} (hu : u < n) (hmono : u + 1 < n → x u ≤ x (u + 1))
    (hcu : c ≤ r u) (hafter : ∀ j, u < j → j < n → r j < c) :
    let ub := if u = n - 1 then x u else levelCrossing c (x u) (r u) (x (u + 1)) (r (u + 1))
    ((u = n - 1 ∧ ub = x (n - 1)) ∨ (u + 1 < n ∧
      ∃ w, w = (c - r (u + 1)) / (r u - r (u + 1)) ∧ 0 < w ∧ w ≤ 1 ∧
        ub = x (u + 1) + w * (x u - x (u + 1)))) ∧
    x u ≤ ub ∧ (u + 1 < n → ub ≤ x (u + 1)) := by
  intro ub
  by_cases hend : u = n - 1
  · have hub : ub = x u := if_pos hend
    refine ⟨.inl ⟨hend, by rw [hub, hend]⟩, hub.ge, fun h => by omega⟩
  · have hnext : u + 1 < n := by omega
    obtain ⟨hw₀, hw₁, hub⟩ :=
      levelCrossing_eq (x u) (x (u + 1)) (hafter (u + 1) (by omega) hnext) hcu
    have hub' : ub = x (u + 1) + (c - r (u + 1)) / (r u - r (u + 1)) * (x u - x (u + 1)) := by
      simp only [ub, if_neg hend, hub]
    have hmem := weighted_mem (a := x (u + 1)) (b := x u) hw₀.le hw₁
    rw [min_eq_right (hmono hnext), max_eq_left (hmono hnext), ← hub'] at hmem
    exact ⟨.inr ⟨hnext, _, rfl, hw₀, hw₁, hub'⟩, hmem.1, fun _ => hmem.2⟩

theorem getD_le_getD {xs : Array ℝ} (hmono : Monotone fun i : Fin xs.size => xs[i]) {i j : ℕ}
    (hij : i ≤ j) (hj : j < xs.size) : xs.getD i 0 ≤ xs.getD j 0 := by
  have hi : i < xs.size := by omega
  simp only [Array.getD_eq_getD_getElem?, Array.getElem?_eq_getElem hi,
    Array.getElem?_eq_getElem hj, Option.getD_some]
  exact hmono (show (⟨i, hi⟩ : Fin xs.size) ≤ ⟨j, hj⟩ from hij)

/-- In exact arithmetic, the interval read off increasing parameter values `xs` with one ratio
per point, at a level `c` that some ratio reaches, is found, and it is the interval of
`ExactInterval`: from the first to the last point that reaches `c`, each end moved out to the
crossing with its outer neighbour unless it ends the profile. -/
theorem approximate_exact_interval (xs ratios : Array ℝ) (c : ℝ) (hsize : xs.size = ratios.size)
    (hpos : 0 < xs.size) (hmono : Monotone fun i : Fin xs.size => xs[i])
    (hreach : ∃ k, ∃ hk : k < ratios.size, c ≤ ratios[k]) :
    ∃ lb ub l u, approximate xs ratios c = .ok (lb, ub) ∧
      ExactInterval xs.size (xs.getD · 0) (ratios.getD · 0) c lb ub l u := by
  obtain ⟨l, u, hl, hu, ⟨hcl, hbefore⟩, ⟨hcu, hafter⟩, hb⟩ :=
    bounds_eq_ok hsize hpos hreach
  have hr : ∀ j (hj : j < ratios.size), ratios.getD j 0 = ratios[j] := fun j hj => by
    simp [Array.getD_eq_getD_getElem?, Array.getElem?_eq_getElem hj]
  have hfirst : ∀ j < l, ratios.getD j 0 < c := fun j hj => by
    rw [hr j (by omega)]
    exact lt_of_not_ge (hbefore j hj)
  have hlast : ∀ j, u < j → j < xs.size → ratios.getD j 0 < c := fun j hlt hj => by
    rw [hr j (by omega)]
    exact lt_of_not_ge (hafter j (by omega) hlt)
  have hcl' : c ≤ ratios.getD l 0 := by rw [hr l hl]; exact hcl
  have hcu' : c ≤ ratios.getD u 0 := by rw [hr u hu]; exact hcu
  -- every point that reaches the level lies between the first and the last
  have hreached : ∀ k < xs.size, c ≤ ratios.getD k 0 → l ≤ k ∧ k ≤ u := fun k hk hck =>
    ⟨Nat.le_of_not_lt fun h => absurd hck (not_le.2 (hfirst k h)),
      Nat.le_of_not_lt fun h => absurd hck (not_le.2 (hlast k h hk))⟩
  have hlu := (hreached l (by omega) hcl').2
  obtain ⟨hlo, hlo₁, hlo₂⟩ := lowerEnd_laws (x := (xs.getD · 0)) (r := (ratios.getD · 0))
    (getD_le_getD hmono (Nat.sub_le l 1) (by omega)) hcl' hfirst
  obtain ⟨hup, hup₁, hup₂⟩ := upperEnd_laws (x := (xs.getD · 0)) (r := (ratios.getD · 0))
    (show u < xs.size by omega) (fun h => getD_le_getD hmono (Nat.le_succ u) h) hcu' hlast
  refine ⟨_, _, l, u, ?_, ⟨⟨by omega, hcl', hfirst⟩, ⟨by omega, hcu', hlast⟩, hlo, hup, hlo₁,
    hlo₂, fun k hk hck => ?_, hup₁, hup₂, ?_⟩⟩
  · simp only [approximate, hb, bind, Except.bind, pure, Except.pure,
      apply_ite (Bound.value xs ratios c), value_point, value_crossing]
  · obtain ⟨hlk, hku⟩ := hreached k hk hck
    exact ⟨getD_le_getD hmono hlk hk, getD_le_getD hmono hku (by omega)⟩
  · exact hlo₂.trans ((getD_le_getD hmono hlu (by omega)).trans hup₁)


/-- A profile with two peaks above the level `0.4` and a dip below it between them: the interval
runs from the first peak to the last one and beyond, across the dip. -/
theorem approximate_exact_interval_across_dip :
    let xs : Array ℝ := #[0, 1, 2, 3, 4]
    let ratios : Array ℝ := #[0.1, 0.5, 0.2, 0.6, 0.1]
    (xs.size = ratios.size ∧ 0 < xs.size ∧ (Monotone fun i : Fin xs.size => xs[i]) ∧
      ∃ k, ∃ hk : k < ratios.size, (0.4 : ℝ) ≤ ratios[k]) ∧
    ∃ lb ub l u, approximate xs ratios 0.4 = .ok (lb, ub) ∧
      ExactInterval xs.size (xs.getD · 0) (ratios.getD · 0) 0.4 lb ub l u := by
  intro xs ratios
  have hsize : xs.size = ratios.size := rfl
  have hpos : 0 < xs.size := by decide
  have hmono : Monotone fun i : Fin xs.size => xs[i] := by
    have hval : ∀ i : Fin xs.size, xs[i] = (i : ℕ) := by
      intro i
      fin_cases i <;> simp [xs]
    intro i j hij
    simp only [hval]
    exact_mod_cast hij
  have hreach : ∃ k, ∃ hk : k < ratios.size, (0.4 : ℝ) ≤ ratios[k] :=
    ⟨1, by decide, by norm_num [ratios]⟩
  exact ⟨⟨hsize, hpos, hmono, hreach⟩,
    approximate_exact_interval xs ratios 0.4 hsize hpos hmono hreach⟩

end ProfileLikelihood.Interval

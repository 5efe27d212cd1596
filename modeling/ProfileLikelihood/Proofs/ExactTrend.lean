import Mathlib
import ProfileLikelihood.Proofs.StepWindow

/-! Trend fits in exact arithmetic. The decomposition is a parameter, assumed exact: it ends, its
singular values are nonnegative with as many positive as the matrix's rank, and it solves a
system that has a solution exactly. When no positive singular value of a design falls below the
cut-off, an attempt at distinct abscissae reads the rank `min(rows, degree + 1)`, so the degree
falls at most once, to one below the number of rows, and the fit ends with the exact solution.
Values that follow a polynomial of at most that degree in the profiled parameter are then fitted
by that polynomial's coefficients in the scaled offset, and Horner's rule gives back the
polynomial at every offset: a proposal along fitted trends moves each such parameter along its
polynomial. -/

namespace ProfileLikelihood

open Numeric Polynomial

/-! ### Powers of distinct abscissae -/

section Powers

variable {n m : Nat} {A : Matrix (Fin n) (Fin m) ℝ} {v : Fin n → ℝ}

/-- Row `r` of `A` holds the powers `1, v r, v r ^ 2, …` of the abscissa `v r`. -/
def PowersOf (A : Matrix (Fin n) (Fin m) ℝ) (v : Fin n → ℝ) : Prop :=
  ∀ r k, A r k = v r ^ (k : Nat)

theorem PowersOf.submatrix_eq (hA : PowersOf A v) {k : Nat} (hn : k ≤ n) (hm : k ≤ m) :
    A.submatrix (Fin.castLE hn) (Fin.castLE hm) = Matrix.vandermonde (v ∘ Fin.castLE hn) := by
  ext r c
  rw [Matrix.submatrix_apply, hA, Matrix.vandermonde_apply, Function.comp_apply, Fin.val_castLE]

theorem det_vandermonde_castLE_ne_zero (hv : Function.Injective v) {k : Nat} (hn : k ≤ n) :
    (Matrix.vandermonde (v ∘ Fin.castLE hn)).det ≠ 0 :=
  Matrix.det_vandermonde_ne_zero_iff.2 (hv.comp (Fin.castLE_injective hn))

/-- The powers of distinct abscissae have rank `min n m`: their leading square block is a
Vandermonde matrix at distinct points. -/
theorem PowersOf.rank_eq (hA : PowersOf A v) (hv : Function.Injective v) :
    A.rank = min n m := by
  refine le_antisymm (le_min (Matrix.rank_le_height A) (Matrix.rank_le_width A)) ?_
  have hunit : IsUnit (Matrix.vandermonde (v ∘ Fin.castLE (min_le_left n m))) :=
    (Matrix.isUnit_iff_isUnit_det _).2
      (Ne.isUnit (det_vandermonde_castLE_ne_zero hv (min_le_left n m)))
  calc min n m = (Matrix.vandermonde (v ∘ Fin.castLE (min_le_left n m))).rank := by
        rw [Matrix.rank_of_isUnit _ hunit, Fintype.card_fin]
    _ = (A.submatrix (Fin.castLE (min_le_left n m)) (Fin.castLE (min_le_right n m))).rank := by
        rw [hA.submatrix_eq]
    _ ≤ A.rank := Matrix.rank_submatrix_le _ _ _

/-- With no more powers than distinct abscissae, a combination of the powers is determined by its
values. -/
theorem PowersOf.mulVec_injective (hA : PowersOf A v) (hv : Function.Injective v) (hmn : m ≤ n) :
    Function.Injective A.mulVec := by
  intro c c' h
  have hrow : ∀ r, (Matrix.vandermonde (v ∘ Fin.castLE hmn)).mulVec (c - c') r =
      A.mulVec (c - c') (Fin.castLE hmn r) := by
    intro r
    have hpow : ∀ r k, A r k = v r ^ (k : Nat) := hA
    simp only [Matrix.mulVec, dotProduct, Matrix.vandermonde_apply, Function.comp_apply, hpow]
  have hzero : (Matrix.vandermonde (v ∘ Fin.castLE hmn)).mulVec (c - c') = 0 := by
    ext r
    rw [hrow, Matrix.mulVec_sub, h, sub_self]
    rfl
  exact sub_eq_zero.1 (Matrix.eq_zero_of_mulVec_eq_zero (det_vandermonde_castLE_ne_zero hv hmn)
    hzero)

end Powers

/-! ### Horner's rule -/

/-- The polynomial with coefficients `c`, lowest power first. -/
noncomputable def coeffPoly : List ℝ → ℝ[X]
  | [] => 0
  | a :: c => C a + X * coeffPoly c

theorem horner_eq_eval (u : ℝ) :
    ∀ c : List ℝ, c.foldr (fun ck acc => acc * u + ck) 0 = (coeffPoly c).eval u
  | [] => by simp [coeffPoly]
  | a :: c => by
    simp only [List.foldr_cons, coeffPoly, eval_add, eval_C, eval_mul, eval_X, horner_eq_eval u c]
    ring

theorem coeffPoly_coeff : ∀ (c : List ℝ) (i : Nat), (coeffPoly c).coeff i = c.getD i 0
  | [], i => by simp [coeffPoly]
  | a :: c, 0 => by simp [coeffPoly]
  | a :: c, i + 1 => by
    simp [coeffPoly, coeff_X_mul, coeffPoly_coeff c i]

theorem coeffPoly_eq {c : List ℝ} {Q : ℝ[X]} {D : Nat} (hlen : c.length = D + 1)
    (hQ : Q.natDegree ≤ D) (hc : ∀ k < D + 1, c.getD k 0 = Q.coeff k) : coeffPoly c = Q := by
  ext i
  rw [coeffPoly_coeff]
  by_cases hi : i < D + 1
  · exact hc i hi
  · rw [List.getD_eq_default _ _ (by omega), coeff_eq_zero_of_natDegree_lt (by omega)]

theorem eval_comp_linear (Q : ℝ[X]) (a b u : ℝ) :
    (Q.comp (C a * X + C b)).eval u = Q.eval (a * u + b) := by
  simp only [eval_comp, eval_add, eval_mul, eval_C, eval_X]

theorem natDegree_comp_linear_le (Q : ℝ[X]) (a b : ℝ) :
    (Q.comp (C a * X + C b)).natDegree ≤ Q.natDegree :=
  calc (Q.comp (C a * X + C b)).natDegree ≤ Q.natDegree * (C a * X + C b).natDegree :=
        natDegree_comp_le
    _ ≤ Q.natDegree * 1 := Nat.mul_le_mul_left _ natDegree_linear_le
    _ = Q.natDegree := mul_one _

/-! ### An exact decomposition -/

@[simp] theorem scalar_powi_eq (x : ℝ) (n : Nat) : Scalar.powi x n = x ^ n := rfl

/-- A list of rows read as a matrix of `m` columns. -/
def rowsMatrix (a : Array (Array ℝ)) (m : Nat) : Matrix (Fin a.size) (Fin m) ℝ :=
  Matrix.of fun r k => (a.getD r #[]).getD k 0

/-- The first `n` entries of an array, as a vector. -/
def arrayVec (b : Array ℝ) (n : Nat) : Fin n → ℝ := fun i => b.getD i 0

/-- What a least-squares fit takes from an exact decomposition of a matrix whose rows have `m`
entries each: the decomposition ends; its singular values are nonnegative, as many of them
positive as the matrix's rank; and, with a cut-off below every positive singular value, it
solves a system of one row or more that has a solution exactly, with `m` unknowns. -/
structure SvdLibrary.Exact (svd : SvdLibrary ℝ) : Prop where
  ends : ∀ a, ∃ s, svd a = some s
  values_nonneg : ∀ {a : Array (Array ℝ)} {s : SvdSolver ℝ}, svd a = some s → ∀ v ∈ s.values, 0 ≤ v
  rank_eq : ∀ {a : Array (Array ℝ)} {s : SvdSolver ℝ} {m : Nat}, (∀ row ∈ a, row.size = m) →
    svd a = some s → (s.values.toList.filter (0 < ·)).length = (rowsMatrix a m).rank
  solve : ∀ {a : Array (Array ℝ)} {s : SvdSolver ℝ} {m : Nat} {b : Array ℝ} {eps : ℝ},
    0 < a.size → (∀ row ∈ a, row.size = m) → svd a = some s →
    (∀ v ∈ s.values, 0 < v → eps < v) → b.size = a.size →
    (∃ c, (rowsMatrix a m).mulVec c = arrayVec b a.size) →
    (s.solve b eps).size = m ∧
      (rowsMatrix a m).mulVec (arrayVec (s.solve b eps) m) = arrayVec b a.size

/-- No positive singular value of a design at the abscissae `us` lies at or below its cut-off. -/
def SvdLibrary.ClearsCutoff (svd : SvdLibrary ℝ) (us : Array ℝ) : Prop :=
  ∀ degree s, svd (design us degree) = some s →
    ∀ v ∈ s.values, 0 < v → rankCutoff s.values us.size < v

/-- The entries of `us` are distinct. -/
def DistinctEntries (us : Array ℝ) : Prop :=
  ∀ i j, i < us.size → j < us.size → us.getD i 0 = us.getD j 0 → i = j

section Design

variable {us : Array ℝ} {D : Nat}

@[simp] theorem size_design (us : Array ℝ) (D : Nat) : (design us D).size = us.size := by
  simp [design]

theorem design_row_size (us : Array ℝ) (D : Nat) : ∀ row ∈ design us D, row.size = D + 1 := by
  simp [design]

theorem powersOf_design (us : Array ℝ) (D : Nat) :
    PowersOf (rowsMatrix (design us D) (D + 1)) (fun r => us.getD r 0) := by
  intro r k
  have hr : (r : Nat) < us.size := by simpa using r.isLt
  show ((design us D).getD r #[]).getD k 0 = _
  simp [design, Array.getD_eq_getD_getElem?, hr, k.isLt]

theorem DistinctEntries.injective (hus : DistinctEntries us) :
    Function.Injective fun r : Fin (design us D).size => us.getD r 0 := by
  intro r r' h
  have hr : (r : Nat) < us.size := by simpa using r.isLt
  have hr' : (r' : Nat) < us.size := by simpa using r'.isLt
  exact Fin.ext (hus r r' hr hr' h)

theorem DistinctEntries.rank_design (hus : DistinctEntries us) :
    (rowsMatrix (design us D) (D + 1)).rank = min us.size (D + 1) := by
  rw [(powersOf_design us D).rank_eq hus.injective, size_design]

end Design

/-- The cut-off of nonnegative singular values is nonnegative. -/
theorem rankCutoff_nonneg {values : Array ℝ} (h : ∀ v ∈ values, 0 ≤ v) (rows : Nat) :
    0 ≤ rankCutoff values rows := by
  have hmax : ∀ (vs : List ℝ) (init : ℝ), init ≤ vs.foldl Scalar.maxNum init := by
    intro vs
    induction vs with
    | nil => exact fun _ => le_rfl
    | cons w vs ih => exact fun init => (le_max_left init w).trans (ih _)
  have heps : (0 : ℝ) ≤ Scalar.epsilon :=
    Rat.cast_nonneg.2 (ratValue_nonneg (by decide) (by decide))
  unfold rankCutoff
  refine mul_nonneg (mul_nonneg ?_ (Nat.cast_nonneg rows)) heps
  split
  · simp
  · rename_i v vs hv
    exact (h v (by simp [← Array.mem_toList_iff, hv])).trans (hmax vs v)

section Fit

variable {svd : SvdLibrary ℝ} {us ys : Array ℝ}

/-- An attempt at distinct abscissae, with an exact decomposition whose positive singular values
clear the cut-off, reads the rank `min(rows, degree + 1)`: with no rows it finds no fit, with
fewer rows than powers it reports the number of rows, and otherwise it returns the
decomposition's solution. -/
theorem fitAttempt_exact (hsvd : svd.Exact) (hcut : svd.ClearsCutoff us)
    (hus : DistinctEntries us) (ys : Array ℝ) (D : Nat) :
    ∃ s, svd (design us D) = some s ∧ (∀ v ∈ s.values, 0 < v → rankCutoff s.values us.size < v) ∧
      fitAttempt svd us ys D =
        if us.size = 0 then .ok (.inl none)
        else if us.size < D + 1 then .ok (.inr us.size)
        else .ok (.inl (some (s.solve ys (rankCutoff s.values us.size)))) := by
  obtain ⟨s, hs⟩ := hsvd.ends (design us D)
  have hclear := hcut D s hs
  have heps := rankCutoff_nonneg (hsvd.values_nonneg hs) us.size
  -- above the cut-off are exactly the positive singular values, as many as the rank
  have hcount : (s.values.toList.filter (· > rankCutoff s.values us.size)).length =
      min us.size (D + 1) := by
    rw [← DistinctEntries.rank_design hus, ← hsvd.rank_eq (design_row_size us D) hs]
    congr 1
    refine List.filter_congr fun v hv => ?_
    have hv' : v ∈ s.values := Array.mem_toList_iff.1 hv
    by_cases hpos : 0 < v
    · simp [hpos, hclear v hv' hpos]
    · simp only [hpos, decide_false, gt_iff_lt, decide_eq_false_iff_not, not_lt]
      exact (not_lt.1 hpos).trans heps
  refine ⟨s, hs, hclear, ?_⟩
  simp only [fitAttempt, hs, rankAbove, ge_iff_le, real_zero_lit, heps, if_true,
    Except.ok_bind, hcount, scalar_isFinite_eq]
  by_cases h0 : us.size = 0
  · simp [h0]
  · by_cases hlt : us.size < D + 1
    · simp [h0, hlt, min_eq_left hlt.le]
    · simp [h0, hlt, min_eq_right (not_lt.1 hlt)]

/-- At distinct abscissae, with at least one row and a first degree of at least one, the fit
tries the first degree, or one below the number of rows when that is smaller, and ends with the
decomposition's solution there. -/
theorem fitPolynomial_exact (hsvd : svd.Exact) (hcut : svd.ClearsCutoff us)
    (hus : DistinctEntries us) (hrows : 0 < us.size) {D0 : Nat} (hD0 : 0 < D0) (ys : Array ℝ) :
    ∃ s, svd (design us (min D0 (us.size - 1))) = some s ∧
      (∀ v ∈ s.values, 0 < v → rankCutoff s.values us.size < v) ∧
      fitPolynomial svd us ys D0 = .ok (some (s.solve ys (rankCutoff s.values us.size))) := by
  obtain ⟨s, hs, hclear, hattempt⟩ := fitAttempt_exact hsvd hcut hus ys D0
  have h0 : us.size ≠ 0 := by omega
  by_cases hlt : us.size < D0 + 1
  · -- one retry, at one below the number of rows, where the design has full column rank
    obtain ⟨s', hs', hclear', hattempt'⟩ := fitAttempt_exact hsvd hcut hus ys (us.size - 1)
    have hD : min D0 (us.size - 1) = us.size - 1 := min_eq_right (by omega)
    refine ⟨s', by rw [hD]; exact hs', hclear', ?_⟩
    obtain ⟨D1, rfl⟩ : ∃ D1, D0 = D1 + 1 := ⟨D0 - 1, by omega⟩
    rw [if_neg h0, if_pos hlt] at hattempt
    rw [if_neg h0, if_neg (by omega)] at hattempt'
    simp only [fitPolynomial, retryDegree, hattempt, hattempt', Except.ok_bind]
    rfl
  · have hD : min D0 (us.size - 1) = D0 := min_eq_left (by omega)
    refine ⟨s, by rw [hD]; exact hs, hclear, ?_⟩
    rw [if_neg h0, if_neg hlt] at hattempt
    simp only [fitPolynomial, retryDegree, hattempt, Except.ok_bind]
    rfl

/-- Values at `D + 1` or more distinct abscissae that follow a polynomial of degree at most `D`
are solved exactly by that polynomial's coefficients. -/
theorem solve_eq_coeffPoly (hsvd : svd.Exact) (hus : DistinctEntries us) {D : Nat} {s : SvdSolver ℝ}
    {eps : ℝ} (hs : svd (design us D) = some s) (hclear : ∀ v ∈ s.values, 0 < v → eps < v)
    (hD : D + 1 ≤ us.size) {Q : ℝ[X]} (hQ : Q.natDegree ≤ D) (hys : ys.size = us.size)
    (hval : ∀ r < us.size, ys.getD r 0 = Q.eval (us.getD r 0)) :
    coeffPoly (s.solve ys eps).toList = Q := by
  have hpow := powersOf_design us D
  have hsol : (rowsMatrix (design us D) (D + 1)).mulVec (fun k => Q.coeff k) =
      arrayVec ys (design us D).size := by
    ext r
    have hr : (r : Nat) < us.size := by simpa using r.isLt
    have hpow' : ∀ r k, rowsMatrix (design us D) (D + 1) r k = us.getD r 0 ^ (k : Nat) := hpow
    simp only [Matrix.mulVec, dotProduct, hpow', arrayVec, hval r hr,
      eval_eq_sum_range' (Nat.lt_succ_of_le hQ)]
    rw [← Fin.sum_univ_eq_sum_range (fun k => Q.coeff k * us.getD r 0 ^ k)]
    exact Finset.sum_congr rfl fun k _ => mul_comm _ _
  obtain ⟨hsize, hsolve⟩ := hsvd.solve (by simp; omega) (design_row_size us D) hs hclear
    (by simpa using hys) ⟨_, hsol⟩
  have hcoeff := hpow.mulVec_injective hus.injective (by simpa using hD) (hsolve.trans hsol.symm)
  refine coeffPoly_eq (by simpa using hsize) hQ fun k hk => ?_
  have := congrFun hcoeff ⟨k, hk⟩
  simpa [arrayVec, Array.getD_eq_getD_getElem?, List.getD_eq_getElem?_getD] using this

end Fit

/-! ### The abscissae and the values of a trend fit -/

theorem Except.listMapM_eq_ok_map {α β ε : Type} {f : α → Except ε β} {g : α → β} :
    ∀ {l : List α}, (∀ a ∈ l, f a = .ok (g a)) → l.mapM f = .ok (l.map g)
  | [], _ => rfl
  | a :: l, h => by
    rw [List.mapM_cons, h a List.mem_cons_self, Except.ok_bind,
      Except.listMapM_eq_ok_map fun b hb => h b (List.mem_cons_of_mem a hb)]
    rfl

theorem Except.arrayMapM_eq_ok_map {α β ε : Type} {f : α → Except ε β} {g : α → β}
    {xs : Array α} (h : ∀ a ∈ xs, f a = .ok (g a)) : xs.mapM f = .ok (xs.map g) := by
  rw [Array.mapM_eq_mapM_toList,
    Except.listMapM_eq_ok_map fun a ha => h a (Array.mem_toList_iff.1 ha)]
  simp only [Functor.map, Except.map]
  exact congrArg Except.ok (Array.ext' (by simp))

theorem getD_mem_of_lt {α : Type} {a : Array α} {i : Nat} (d : α) (h : i < a.size) :
    a.getD i d ∈ a := by
  rw [← Array.getElem_eq_getD d (h := h)]
  exact Array.getElem_mem h

namespace RegressionFit

/-- The offsets a trend fit along `xPath` reads: on the window, each point's value of parameter
`par` less the last point's. -/
noncomputable def offsetsOf (xPath : Array (Array ℝ)) (par regPoints : Nat) : Array ℝ :=
  (window xPath regPoints).map fun p => p.getD par 0 - (xPath.getD (xPath.size - 1) #[]).getD par 0

/-- The abscissae of a trend fit: the offsets divided by their largest magnitude. -/
noncomputable def abscissae (xPath : Array (Array ℝ)) (par regPoints : Nat) : Array ℝ :=
  (offsetsOf xPath par regPoints).map (· / spread (offsetsOf xPath par regPoints))

variable {xPath : Array (Array ℝ)} {par regPoints : Nat}

theorem size_window (xPath : Array (Array ℝ)) (regPoints : Nat) :
    (window xPath regPoints).size = min xPath.size regPoints := by
  simp only [window, Array.size_extract, min_self]
  omega

theorem window_getD_last (h : 0 < min xPath.size regPoints) :
    (window xPath regPoints).getD (min xPath.size regPoints - 1) #[] =
      xPath.getD (xPath.size - 1) #[] := by
  unfold window
  simp only [Array.getD_eq_getD_getElem?, Array.getElem?_extract]
  rw [if_pos (by omega)]
  congr 2
  omega

theorem offsets_eq (hpath : ∀ p ∈ xPath, par < p.size) :
    offsets xPath par regPoints = .ok (offsetsOf xPath par regPoints) := by
  unfold offsets offsetsOf
  simp only [real_zero_lit]
  refine Except.arrayMapM_eq_ok_map fun p hp => ?_
  rw [Profile.pointEntry_of_lt (hpath p (mem_of_mem_extract hp)), Array.getElem_eq_getD (0 : ℝ)]
  rfl

/-- Every offset's magnitude is at most the spread, and the spread is not negative. -/
theorem le_spread {ts : Array ℝ} :
    0 ≤ spread ts ∧ ∀ t ∈ ts, |t| ≤ spread ts := by
  have hfold : ∀ (l : List ℝ) (init : ℝ),
      init ≤ l.foldl (fun acc t => max acc |t|) init ∧
        ∀ t ∈ l, |t| ≤ l.foldl (fun acc t => max acc |t|) init := by
    intro l
    induction l with
    | nil => exact fun init => ⟨le_rfl, by simp⟩
    | cons a l ih =>
      intro init
      obtain ⟨hinit, hmem⟩ := ih (max init |a|)
      refine ⟨(le_max_left _ _).trans hinit, fun t ht => ?_⟩
      rcases List.mem_cons.1 ht with rfl | ht
      · exact (le_max_right _ _).trans hinit
      · exact hmem t ht
  have hspread : spread ts = ts.toList.foldl (fun acc t => max acc |t|) 0 := by
    rw [spread, ← Array.foldl_toList]
    simp
  obtain ⟨h0, hmem⟩ := hfold ts.toList 0
  exact ⟨hspread ▸ h0, fun t ht => hspread ▸ hmem t (Array.mem_toList_iff.2 ht)⟩

theorem getD_map_of_lt {α β : Type} {xs : Array α} {f : α → β} {i : Nat} (d : α) (e : β)
    (h : i < xs.size) : (xs.map f).getD i e = f (xs.getD i d) := by
  simp [Array.getD_eq_getD_getElem?, h]

/-- Distinct profiled values on a window of two points or more spread the offsets over a positive
range and give distinct abscissae. -/
theorem abscissae_distinct (hk : 2 ≤ min xPath.size regPoints)
    (hd : DistinctEntries ((window xPath regPoints).map (·.getD par 0))) :
    0 < spread (offsetsOf xPath par regPoints) ∧ DistinctEntries (abscissae xPath par regPoints) := by
  have hW := size_window xPath regPoints
  have hval : ∀ i < min xPath.size regPoints,
      ((window xPath regPoints).map (·.getD par 0)).getD i 0 =
        ((window xPath regPoints).getD i #[]).getD par 0 :=
    fun i hi => getD_map_of_lt #[] 0 (by omega)
  have hoff : ∀ i < min xPath.size regPoints, (offsetsOf xPath par regPoints).getD i 0 =
      ((window xPath regPoints).getD i #[]).getD par 0 -
        ((window xPath regPoints).getD (min xPath.size regPoints - 1) #[]).getD par 0 := by
    intro i hi
    rw [offsetsOf, getD_map_of_lt #[] 0 (by omega), window_getD_last (by omega)]
  have hsize : (offsetsOf xPath par regPoints).size = min xPath.size regPoints := by
    simp [offsetsOf, hW]
  have hfirst : (offsetsOf xPath par regPoints).getD 0 0 ≠ 0 := by
    intro h0
    rw [hoff 0 (by omega), sub_eq_zero, ← hval 0 (by omega), ← hval _ (by omega)] at h0
    have := hd 0 _ (by simp [hW]; omega) (by simp [hW]; omega) h0
    omega
  have hmem : (offsetsOf xPath par regPoints).getD 0 0 ∈ offsetsOf xPath par regPoints :=
    getD_mem_of_lt 0 (by omega)
  have hpos : 0 < spread (offsetsOf xPath par regPoints) :=
    (abs_pos.2 hfirst).trans_le (le_spread.2 _ hmem)
  refine ⟨hpos, fun i j hi hj h => ?_⟩
  have hi' : i < min xPath.size regPoints := by simpa [abscissae, hsize] using hi
  have hj' : j < min xPath.size regPoints := by simpa [abscissae, hsize] using hj
  rw [abscissae, getD_map_of_lt 0 0 (by omega), getD_map_of_lt 0 0 (by omega),
    div_left_inj' hpos.ne', hoff i hi', hoff j hj', sub_left_inj, ← hval i hi',
    ← hval j hj'] at h
  exact hd i j (by simpa [hW] using hi') (by simpa [hW] using hj') h

end RegressionFit

/-! ### Polynomial trends are fitted exactly -/

theorem foldlM_range_push {β ε : Type} {f : Option (Array β) → Nat → Except ε (Option (Array β))}
    {G : Nat → β → Prop} :
    ∀ {n : Nat}, (∀ cs j, j < n → ∃ v, f (some cs) j = .ok (some (cs.push v)) ∧ G j v) →
      ∃ cs : Array β, (List.range n).foldlM f (some #[]) = .ok (some cs) ∧ cs.size = n ∧
        ∀ j (hj : j < cs.size), G j cs[j]
  | 0, _ => ⟨#[], rfl, rfl, fun j hj => absurd hj (by simp)⟩
  | n + 1, hstep => by
    obtain ⟨cs, hcs, hsize, hG⟩ := foldlM_range_push (n := n) fun cs j hj => hstep cs j (by omega)
    obtain ⟨v, hv, hGv⟩ := hstep cs n (by omega)
    refine ⟨cs.push v, ?_, by simp [hsize], fun j hj => ?_⟩
    · rw [List.range_succ, List.foldlM_append, hcs, Except.ok_bind]
      simp [List.foldlM, hv]
    · by_cases hjn : j < cs.size
      · rw [Array.getElem_push_lt hjn]
        exact hG j hjn
      · obtain rfl : j = cs.size := by simp at hj; omega
        rw [Array.getElem_push_eq]
        exact hsize ▸ hGv

/-- A fold over the first `n` indices whose every step pushes one entry, followed by `k`. -/
theorem foldlM_range_push_bind {β γ ε : Type}
    {f : Option (Array β) → Nat → Except ε (Option (Array β))} {G : Nat → β → Prop} {n : Nat}
    {k : Option (Array β) → Except ε γ} {P : γ → Prop}
    (hstep : ∀ cs j, j < n → ∃ v, f (some cs) j = .ok (some (cs.push v)) ∧ G j v)
    (hk : ∀ cs : Array β, cs.size = n → (∀ j (hj : j < cs.size), G j cs[j]) →
      ∃ r, k (some cs) = .ok r ∧ P r) :
    ∃ r, ((List.range n).foldlM f (some #[]) >>= k) = .ok r ∧ P r := by
  obtain ⟨cs, hcs, hsize, hG⟩ := foldlM_range_push hstep
  rw [hcs, Except.ok_bind]
  exact hk cs hsize hG

section Fit

variable {svd : SvdLibrary ℝ} {us ys : Array ℝ} {c : Array ℝ}

/-- A fit at distinct abscissae of values that follow a polynomial of degree at most the degree
the fit ends at has that polynomial's coefficients. -/
theorem fitPolynomial_eq_coeffPoly (hsvd : svd.Exact) (hcut : svd.ClearsCutoff us)
    (hus : DistinctEntries us) (hrows : 0 < us.size) {D0 : Nat} (hD0 : 0 < D0) {Q : ℝ[X]}
    (hQ : Q.natDegree ≤ min D0 (us.size - 1)) (hys : ys.size = us.size)
    (hval : ∀ r < us.size, ys.getD r 0 = Q.eval (us.getD r 0))
    (h : fitPolynomial svd us ys D0 = .ok (some c)) : coeffPoly c.toList = Q := by
  obtain ⟨s, hs, hclear, hfit⟩ := fitPolynomial_exact hsvd hcut hus hrows hD0 ys
  obtain rfl : c = s.solve ys (rankCutoff s.values us.size) := by
    rw [hfit] at h
    exact (Option.some.inj (Except.ok.inj h)).symm
  exact solve_eq_coeffPoly hsvd hus hs hclear (by omega) hQ hys hval

end Fit

namespace RegressionFit

variable {svd : SvdLibrary ℝ} {xPath : Array (Array ℝ)} {par dimFull regPoints regOrder : Nat}

/-- With an exact decomposition whose positive singular values clear the cut-off, distinct
profiled values on a window of two points or more, a path of three points or more and an order of
at least one, the trends come back: scaled by the spread of the offsets, and for every free
parameter the fit of its values on the window. -/
theorem new?_exact (isFixed : Nat → Bool) (hsvd : svd.Exact) (hcut : svd.ClearsCutoff (abscissae xPath par regPoints))
    (hpath : ∀ p ∈ xPath, par < p.size ∧ dimFull ≤ p.size) (hn : 3 ≤ xPath.size)
    (hreg : 2 ≤ regPoints) (hord : 1 ≤ regOrder)
    (hd : DistinctEntries ((window xPath regPoints).map (·.getD par 0))) :
    ∃ fit, new? svd xPath par dimFull isFixed regPoints regOrder = .ok (some fit) ∧
      fit.scale = spread (offsetsOf xPath par regPoints) ∧
      ∀ j < dimFull, j ≠ par → isFixed j = false → ∃ c, fit.coeffs[j]? = some (some c) ∧
        fitPolynomial svd (abscissae xPath par regPoints)
          ((window xPath regPoints).map (·.getD j 0)) (min regOrder (xPath.size / 2)) =
          .ok (some c) := by
  have hk : 2 ≤ min xPath.size regPoints := by omega
  obtain ⟨hpos, hus⟩ := abscissae_distinct hk hd
  have husize : 0 < (abscissae xPath par regPoints).size := by
    simp [abscissae, offsetsOf, size_window]
    omega
  have hD0 : 0 < min regOrder (xPath.size / 2) := by omega
  suffices h : ∃ r, new? svd xPath par dimFull isFixed regPoints regOrder = .ok r ∧
      ∃ fit, r = some fit ∧ fit.scale = spread (offsetsOf xPath par regPoints) ∧
        ∀ j < dimFull, j ≠ par → isFixed j = false → ∃ c, fit.coeffs[j]? = some (some c) ∧
          fitPolynomial svd (abscissae xPath par regPoints)
            ((window xPath regPoints).map (·.getD j 0)) (min regOrder (xPath.size / 2)) =
            .ok (some c) by
    obtain ⟨r, hr, fit, rfl, hfit⟩ := h
    exact ⟨fit, hr, hfit⟩
  unfold new?
  rw [offsets_eq fun p hp => (hpath p hp).1, Except.ok_bind]
  have hscale : ¬spread (offsetsOf xPath par regPoints) ≤ 0 := not_le.2 hpos
  simp only [real_zero_lit, hscale, decide_false, scalar_isFinite_eq, Bool.not_true,
    Bool.or_false, beq_iff_eq, hD0.ne', Bool.false_or, if_false]
  rw [show (offsetsOf xPath par regPoints).map (· / spread (offsetsOf xPath par regPoints)) =
    abscissae xPath par regPoints from rfl]
  refine foldlM_range_push_bind (G := fun j v => j ≠ par → isFixed j = false → ∃ c, v = some c ∧
      fitPolynomial svd (abscissae xPath par regPoints)
        ((window xPath regPoints).map (·.getD j 0)) (min regOrder (xPath.size / 2)) =
        .ok (some c)) (fun cs j hj => ?_) (fun cs hsize hG => ?_)
  · by_cases hfree : (j == par || isFixed j) = true
    · refine ⟨none, by simp only [hfree, if_true]; rfl, fun hpar hfix => ?_⟩
      simp [hpar, hfix] at hfree
    · have hys : (window xPath regPoints).mapM (Profile.pointEntry · j) =
          .ok ((window xPath regPoints).map (·.getD j 0)) :=
        Except.arrayMapM_eq_ok_map fun p hp => by
          rw [Profile.pointEntry_of_lt (by have := hpath p (mem_of_mem_extract hp); omega),
            Array.getElem_eq_getD (0 : ℝ)]
      obtain ⟨s, -, -, hfit⟩ := fitPolynomial_exact hsvd hcut hus husize hD0
        ((window xPath regPoints).map (·.getD j 0))
      refine ⟨some _, ?_, fun _ _ => ⟨_, rfl, hfit⟩⟩
      simp only [Bool.not_eq_true] at hfree
      simp only [hfree, Bool.false_eq_true, if_false, hys, hfit, Except.ok_bind]
      rfl
  · refine ⟨_, rfl, ⟨cs, spread (offsetsOf xPath par regPoints)⟩, rfl, rfl,
      fun j hj hpar hfix => ?_⟩
    obtain ⟨c, hc, hfit⟩ := hG j (hsize ▸ hj) hpar hfix
    exact ⟨c, by rw [Array.getElem?_eq_getElem (hsize ▸ hj), hc], hfit⟩

end RegressionFit

namespace RegressionFit

variable {svd : SvdLibrary ℝ} {xPath : Array (Array ℝ)} {par regPoints D0 j : Nat} {c : Array ℝ}

/-- The fitted trend of a parameter whose values on the window follow a polynomial `Pj` of at most
the fit's degree in the profiled parameter gives, by Horner's rule at the scaled offset `t`, the
value of `Pj` at the last point's profiled value plus `t`. -/
theorem horner_fit_eq_eval (hsvd : svd.Exact)
    (hcut : svd.ClearsCutoff (abscissae xPath par regPoints))
    (hk : 2 ≤ min xPath.size regPoints)
    (hd : DistinctEntries ((window xPath regPoints).map (·.getD par 0))) (hD0 : 0 < D0)
    {Pj : ℝ[X]} (hdeg : Pj.natDegree ≤ min D0 (min xPath.size regPoints - 1))
    (hrel : ∀ p ∈ window xPath regPoints, p.getD j 0 = Pj.eval (p.getD par 0))
    (hfit : fitPolynomial svd (abscissae xPath par regPoints)
      ((window xPath regPoints).map (·.getD j 0)) D0 = .ok (some c)) (t : ℝ) :
    c.foldr (fun ck acc => acc * (t / spread (offsetsOf xPath par regPoints)) + ck) 0 =
      Pj.eval ((xPath.getD (xPath.size - 1) #[]).getD par 0 + t) := by
  obtain ⟨hpos, hus⟩ := abscissae_distinct hk hd
  have hne : spread (offsetsOf xPath par regPoints) ≠ 0 := hpos.ne'
  have hWsize := size_window xPath regPoints
  have husize : (abscissae xPath par regPoints).size = min xPath.size regPoints := by
    simp [abscissae, offsetsOf, hWsize]
  -- the trend in the scaled offset: `Pj` at the anchor plus the spread times the offset
  have hQdeg : (Pj.comp (C (spread (offsetsOf xPath par regPoints)) * X +
      C ((xPath.getD (xPath.size - 1) #[]).getD par 0))).natDegree ≤
      min D0 ((abscissae xPath par regPoints).size - 1) := by
    have hcomp := natDegree_comp_linear_le Pj (spread (offsetsOf xPath par regPoints))
      ((xPath.getD (xPath.size - 1) #[]).getD par 0)
    rw [husize]
    omega
  have hval : ∀ r < (abscissae xPath par regPoints).size,
      ((window xPath regPoints).map (·.getD j 0)).getD r 0 =
        (Pj.comp (C (spread (offsetsOf xPath par regPoints)) * X +
          C ((xPath.getD (xPath.size - 1) #[]).getD par 0))).eval
          ((abscissae xPath par regPoints).getD r 0) := by
    intro r hr
    have hrW : r < (window xPath regPoints).size := by omega
    have hmem : (window xPath regPoints).getD r #[] ∈ window xPath regPoints :=
      getD_mem_of_lt #[] hrW
    have hoff : (offsetsOf xPath par regPoints).getD r 0 =
        ((window xPath regPoints).getD r #[]).getD par 0 -
          (xPath.getD (xPath.size - 1) #[]).getD par 0 := by
      rw [offsetsOf, getD_map_of_lt #[] 0 hrW]
    rw [getD_map_of_lt #[] 0 hrW, abscissae, getD_map_of_lt 0 0 (by simpa [offsetsOf] using hrW),
      hoff, eval_comp_linear, hrel _ hmem, mul_div_cancel₀ _ hne, sub_add_cancel]
  have hcoeff := fitPolynomial_eq_coeffPoly hsvd hcut hus (by omega) hD0 hQdeg
    (by rw [Array.size_map, hWsize, husize]) hval hfit
  rw [← Array.foldr_toList, horner_eq_eval, hcoeff, eval_comp_linear, mul_div_cancel₀ _ hne,
    add_comm]

end RegressionFit

namespace Proposer

variable {P : Proposer ℝ} {x : Array ℝ} {par : Nat}

/-- A history along fitted trends, from a well-shaped input with three points or more, follows
the trends the fit returns. -/
theorem history_regression (dir : Direction) (hx : P.Shaped x par) (hn : 3 ≤ P.xPath.size)
    {fit : RegressionFit ℝ}
    (hfit : RegressionFit.new? P.svd P.xPath par P.lb.size P.isFixed P.options.regPoints
      P.options.regOrder = .ok (some fit)) :
    ∃ hist, P.history x par dir .regression = .ok hist ∧ hist.extrapolation = .polynomial fit := by
  obtain ⟨unit, hunit, -⟩ := Profile.pointSet_of_lt (v := Scalar.ofFloat dir.sign)
    (show par < (Array.replicate x.size (0.0 : ℝ)).size by simpa using hx.par_lt)
  have hlastSize := hx.getD_size (P.xPath.size - 1) (by omega)
  have hprevSize := hx.getD_size (P.xPath.size - 2) (by omega)
  refine ⟨{ stepSize := ?s, extrapolation := .polynomial fit, deltaObj := ?d }, ?main, rfl⟩
  case main =>
  unfold history
  rw [hunit, Except.ok_bind]
  dsimp only
  rw [if_neg (by omega), Profile.pointEntry_of_lt (hlastSize ▸ hx.par_lt), Except.ok_bind,
    Profile.pointEntry_of_lt (hprevSize ▸ hx.par_lt), Except.ok_bind]
  rw [if_neg (by omega), hfit, Except.ok_bind]
  rfl

end Proposer

theorem Extrapolation.point_polynomial {x : Array ℝ} {par j : Nat} {fit : RegressionFit ℝ}
    {d h : ℝ} (hpar : par < x.size) (hj : j < x.size) (hjp : j ≠ par) {c : Array ℝ}
    (hc : fit.coeffs[j]? = some (some c)) :
    ∃ z, (Extrapolation.polynomial fit).point x par d h = .ok z ∧
      z.getD par 0 = x.getD par 0 + d * h ∧
      z.getD j 0 = c.foldr (fun ck acc => acc * (d * h / fit.scale) + ck) 0 := by
  refine ⟨_, rfl, ?_, ?_⟩
  · simp [Array.getD_eq_getD_getElem?, hpar]
  · simp [Array.getD_eq_getD_getElem?, hj, hjp, RegressionFit.predict?, hc]

/-- In exact arithmetic, with validated options and an exact decomposition whose positive
singular values clear the cut-off on the fit's designs: from a profile of three points or more
ending at `x`, with distinct profiled values on the window of the fit, the history along fitted
trends comes back, and at every step `h` its candidate is the clip of a point that moves the
profiled parameter by `d * h` and puts every free parameter whose values on the window follow a
polynomial of admissible degree in the profiled parameter on that polynomial. -/
theorem Proposer.regression_follows_polynomials (P : Proposer ℝ) (o : ProfileOptions)
    (x : Array ℝ) (par : Nat) (dir : Direction) (ho : o.firstViolation = none)
    (hopt : P.options = o.exact) (hsvd : P.svd.Exact)
    (hcut : P.svd.ClearsCutoff (RegressionFit.abscissae P.xPath par P.options.regPoints))
    (hshape : P.Shaped x par) (hn : 3 ≤ P.xPath.size) (hlast : P.xPath.back? = some x)
    (hdistinct : DistinctEntries
      ((RegressionFit.window P.xPath P.options.regPoints).map (·.getD par 0))) :
    ∃ hist, P.history x par dir .regression = .ok hist ∧
      ∀ (j : Nat) (Pj : ℝ[X]), j < x.size → j ≠ par → P.isFixed j = false →
        Pj.natDegree ≤ min P.options.regOrder
          (min (P.xPath.size / 2) (min P.xPath.size P.options.regPoints - 1)) →
        (∀ p ∈ RegressionFit.window P.xPath P.options.regPoints,
          p.getD j 0 = Pj.eval (p.getD par 0)) →
        ∀ h : ℝ, ∃ z, hist.extrapolation.point x par (Scalar.ofFloat dir.sign) h = .ok z ∧
          P.extrapolate hist.extrapolation x par (Scalar.ofFloat dir.sign) h = .ok (P.clip z) ∧
          z.getD par 0 = x.getD par 0 + Scalar.ofFloat dir.sign * h ∧
          z.getD j 0 = Pj.eval (x.getD par 0 + Scalar.ofFloat dir.sign * h) := by
  obtain ⟨-, -, -, -, -, -, -, -, hpts, hord⟩ := ProfileOptions.firstViolation_eq_none ho
  have hreg : 2 ≤ P.options.regPoints := by
    rw [hopt]
    exact not_lt.1 hpts
  have hord' : 1 ≤ P.options.regOrder := by
    rw [hopt]
    exact not_lt.1 hord
  have hpath : ∀ p ∈ P.xPath, par < p.size ∧ P.lb.size ≤ p.size := fun p hp => by
    rw [hshape.path_size p hp, hshape.lb_size]
    exact ⟨hshape.par_lt, le_rfl⟩
  obtain ⟨fit, hfit, hscale, hcoeffs⟩ := RegressionFit.new?_exact P.isFixed
    hsvd hcut hpath hn hreg hord' hdistinct
  obtain ⟨hist, hh, he⟩ := Proposer.history_regression dir hshape hn hfit
  refine ⟨hist, hh, fun j Pj hj hjp hfix hdeg hrel h => ?_⟩
  obtain ⟨c, hc, hfitj⟩ := hcoeffs j (hshape.lb_size ▸ hj) hjp hfix
  obtain ⟨z, hz, hzpar, hzj⟩ := Extrapolation.point_polynomial (d := Scalar.ofFloat dir.sign)
    (h := h) hshape.par_lt hj hjp hc
  refine ⟨z, he ▸ hz, by rw [he, Proposer.extrapolate, hz, Except.ok_bind]; rfl, hzpar, ?_⟩
  -- the trend is fitted at offsets from the last point, which is `x`
  have hanchor : P.xPath.getD (P.xPath.size - 1) #[] = x := by
    rw [Array.back?_eq_getElem?] at hlast
    rw [Array.getD_eq_getD_getElem?, hlast, Option.getD_some]
  have hpred := RegressionFit.horner_fit_eq_eval hsvd hcut (by omega) hdistinct (by omega)
    (by omega) hrel hfitj (Scalar.ofFloat dir.sign * h)
  rw [hanchor] at hpred
  rw [hzj, hscale, hpred]

/-! ### A decomposition that keeps the laws -/

open Float.Model Float.Model.UnpackedFloat Rounding in
theorem ratValue_epsilon : ratValue epsilon = 1 / 2 ^ 52 := by
  have hu : (epsilon : Float).toModel.unpack = .finite .positive (2 ^ 52) (-104) (by decide) := rfl
  rw [ratValue, hu]
  simp [value, Sign.apply]
  norm_num

theorem width_eq {a : Array (Array ℝ)} {m : Nat} (hrows : ∀ row ∈ a, row.size = m)
    (ha : 0 < a.size) : (a.getD 0 #[]).size = m := by
  exact hrows _ (getD_mem_of_lt #[] ha)

open Classical in
/-- A decomposition that keeps the laws of an exact one: ones for as many singular values as the
rank of the matrix, read with the first row's length, and one of the solutions of a system that
has some. -/
noncomputable def SvdLibrary.exactOracle : SvdLibrary ℝ := fun a =>
  some ⟨Array.replicate (rowsMatrix a (a.getD 0 #[]).size).rank 1, fun b _ =>
    if h : ∃ c, (rowsMatrix a (a.getD 0 #[]).size).mulVec c = arrayVec b a.size then
      Array.ofFn (Classical.choose h)
    else #[]⟩

theorem SvdLibrary.exactOracle_exact : SvdLibrary.exactOracle.Exact where
  ends a := ⟨_, rfl⟩
  values_nonneg := by
    intro a s hs v hv
    cases hs
    simp only [Array.mem_replicate] at hv
    rw [hv.2]
    exact zero_le_one
  rank_eq := by
    intro a s m hrows hs
    cases hs
    simp only [Array.toList_replicate, zero_lt_one, List.filter_replicate, decide_true, if_true,
      List.length_replicate]
    by_cases ha : 0 < a.size
    · rw [width_eq hrows ha]
    · have h0 : a.size = 0 := by omega
      have h₁ := Matrix.rank_le_height (rowsMatrix a (a.getD 0 #[]).size)
      have h₂ := Matrix.rank_le_height (rowsMatrix a m)
      omega
  solve := by
    intro a s m b eps ha hrows hs _ _ hsol
    cases hs
    obtain rfl := width_eq hrows ha
    dsimp only
    rw [dif_pos hsol]
    refine ⟨Array.size_ofFn, ?_⟩
    have hvec : arrayVec (Array.ofFn (Classical.choose hsol)) (a.getD 0 #[]).size =
        Classical.choose hsol := by
      funext i
      have hi : (i : Nat) < (Array.ofFn (Classical.choose hsol)).size := by
        rw [Array.size_ofFn]; exact i.isLt
      rw [arrayVec, ← Array.getElem_eq_getD 0 (h := hi), Array.getElem_ofFn]
    rw [hvec]
    exact Classical.choose_spec hsol

/-- The stand-in clears the cut-off on designs of fewer than `2⁵²` rows: its positive singular
values are ones, and the cut-off is the number of rows times `2⁻⁵²`. -/
theorem SvdLibrary.exactOracle_clearsCutoff {us : Array ℝ} (h : (us.size : ℝ) < 2 ^ 52) :
    SvdLibrary.exactOracle.ClearsCutoff us := by
  intro degree s hs v hv hpos
  cases hs
  obtain ⟨hr, rfl⟩ := Array.mem_replicate.1 hv
  obtain ⟨r, hr'⟩ : ∃ r, (rowsMatrix (design us degree)
      ((design us degree).getD 0 #[]).size).rank = r + 1 := ⟨_, (Nat.succ_pred_eq_of_ne_zero hr).symm⟩
  have hmax : ∀ k : Nat, (List.replicate k (1 : ℝ)).foldl Scalar.maxNum 1 = 1 := by
    intro k
    induction k with
    | zero => rfl
    | succ k ih => simpa [List.replicate_succ] using ih
  simp only [rankCutoff, Array.toList_replicate, hr', List.replicate_succ, hmax]
  show (1 : ℝ) * (us.size : ℝ) * ((ratValue epsilon : ℚ) : ℝ) < 1
  rw [ratValue_epsilon, one_mul, Rat.cast_div, Rat.cast_one, Rat.cast_pow, Rat.cast_ofNat,
    ← div_eq_mul_one_div, div_lt_one (by positivity)]
  exact h

/-- Along the parabola through `(-1, 1)`, `(0, 0)`, `(1/2, 1/4)` and `(1, 1)`, the history from the
last point follows the parabola at every step. -/
theorem Proposer.regression_follows_parabola :
    let P : Proposer ℝ :=
      { options := ProfileOptions.exact {}, xPath := #[#[-1, 1], #[0, 0], #[1 / 2, 1 / 4], #[1, 1]],
        fvalPath := #[0, 0, 0, 0], lb := #[-2, -10], ub := #[2, 10], isFixed := fun _ => false,
        objective := fun _ => 0, svd := SvdLibrary.exactOracle, globalOpt := 0,
        minStepIncreaseFactor := 1, maxStepReduceFactor := 1 }
    ∃ hist, P.history #[1, 1] 0 .increasing .regression = .ok hist ∧
      ∀ h : ℝ, ∃ z, hist.extrapolation.point #[1, 1] 0 1 h = .ok z ∧
        z.getD 0 0 = 1 + h ∧ z.getD 1 0 = (1 + h) ^ 2 := by
  intro P
  have hwin : RegressionFit.window P.xPath P.options.regPoints = P.xPath := rfl
  have hpath : ∀ y ∈ P.xPath, y = #[-1, 1] ∨ y = #[0, 0] ∨ y = #[1 / 2, 1 / 4] ∨ y = #[1, 1] := by
    intro y hy
    simpa [P] using hy
  have hshape : P.Shaped #[1, 1] 0 := ⟨by simp, rfl, rfl, fun y hy => by
    rcases hpath y hy with rfl | rfl | rfl | rfl <;> rfl⟩
  have hcut : P.svd.ClearsCutoff (RegressionFit.abscissae P.xPath 0 P.options.regPoints) := by
    refine SvdLibrary.exactOracle_clearsCutoff ?_
    simp only [RegressionFit.abscissae, RegressionFit.offsetsOf, hwin, Array.size_map]
    norm_num [P]
  have hdistinct : DistinctEntries
      ((RegressionFit.window P.xPath P.options.regPoints).map (·.getD 0 0)) := by
    rw [hwin]
    intro i j hi hj hij
    simp only [Array.size_map] at hi hj
    change i < 4 at hi
    change j < 4 at hj
    interval_cases i <;> interval_cases j <;> first | rfl | norm_num [P] at hij
  obtain ⟨hist, hh, hfollow⟩ := Proposer.regression_follows_polynomials P {} #[1, 1] 0 .increasing
    (by decide) rfl SvdLibrary.exactOracle_exact hcut hshape (by decide) rfl hdistinct
  refine ⟨hist, hh, fun h => ?_⟩
  have hdeg : (X ^ 2 : ℝ[X]).natDegree ≤ min P.options.regOrder
      (min (P.xPath.size / 2) (min P.xPath.size P.options.regPoints - 1)) := by
    rw [natDegree_X_pow]
    decide
  have hrel : ∀ p ∈ RegressionFit.window P.xPath P.options.regPoints,
      p.getD 1 0 = (X ^ 2 : ℝ[X]).eval (p.getD 0 0) := by
    rw [hwin]
    intro p hp
    rcases hpath p hp with rfl | rfl | rfl | rfl <;> norm_num
  obtain ⟨z, hz, -, hz0, hz1⟩ := hfollow 1 (X ^ 2) (by decide) (by decide) rfl hdeg hrel h
  simp only [ofFloat_sign_increasing] at hz hz0 hz1
  refine ⟨z, hz, ?_, ?_⟩
  · simpa using hz0
  · simpa using hz1

end ProfileLikelihood

import Mathlib

/-! Rounding to a double, in exact arithmetic. A positive mantissa `m` at exponent `e` is rounded
at its target exponent, the larger of the one that leaves it 53 bits and the least exponent
`-1074`: it is divided by a power of two, rounded to nearest with ties to even (`roundDiv`), and a
carry out of 53 bits moves into the exponent. Read as rationals, rounding is monotone, keeps the
sign, at most doubles a positive number and leaves a double as it is. What it gives is a zero or a
mantissa below `2 ^ 53` at an exponent of at least `-1074`, of 53 bits above the least exponent. -/

open Float.Model Float.Model.UnpackedFloat

namespace ProfileLikelihood.Numeric.Rounding

/-- Rounding to nearest, ties to even, of `h / 2` where `h` is twice the exact value cut to an
integer and `s` says whether the cut dropped anything. -/
def rneHalf (h : Nat) (s : Bool) : Nat :=
  h / 2 + if h % 2 = 1 then (if s then 1 else h / 2 % 2) else 0

theorem shiftRight_exact (m k : Nat) :
    ExtendedMantissa.ofMantissaAndAccuracy m .exact >>> k =
      ⟨m / 2 ^ k, decide (2 * m / 2 ^ k % 2 = 1), decide (2 * m % 2 ^ k ≠ 0)⟩ := by
  induction k with
  | zero =>
    simp [HShiftRight.hShiftRight, Nat.repeat, ExtendedMantissa.ofMantissaAndAccuracy, Nat.mod_one]
  | succ k ih =>
    change ExtendedMantissa.shiftRightOne
      (ExtendedMantissa.ofMantissaAndAccuracy m .exact >>> k) = _
    rw [ih]
    have hP : 0 < 2 ^ k := Nat.two_pow_pos k
    have hdiv : 2 * m / 2 ^ (k + 1) = m / 2 ^ k := by
      rw [Nat.pow_succ, Nat.mul_comm (2 ^ k) 2, Nat.mul_div_mul_left _ _ (by norm_num)]
    have hmod := Nat.mod_pow_succ (b := 2) (x := 2 * m) (k := k)
    simp only [ExtendedMantissa.shiftRightOne, ExtendedMantissa.mk.injEq]
    refine ⟨by rw [Nat.div_div_eq_div_mul, ← Nat.pow_succ], ?_, ?_⟩
    · rw [hdiv]
      cases h : m / 2 ^ k % 2 with
      | zero => simp
      | succ n => simp; omega
    · rw [hmod]
      have hb : 2 * m / 2 ^ k % 2 = 0 ∨ 2 * m / 2 ^ k % 2 = 1 := Nat.mod_two_eq_zero_or_one _
      rcases hb with hb | hb <;> simp [hb]
      

/-- `m / 2 ^ k` rounded to nearest, ties to even. -/
def roundDiv (m k : Nat) : Nat := rneHalf (2 * m / 2 ^ k) (decide (2 * m % 2 ^ k ≠ 0))

theorem div_eq_half_div (m k : Nat) : m / 2 ^ k = 2 * m / 2 ^ k / 2 := by
  rw [Nat.div_div_eq_div_mul, Nat.mul_comm (2 ^ k) 2, Nat.mul_div_mul_left _ _ (by norm_num)]

theorem roundedMantissa_shift (m k : Nat) :
    (ExtendedMantissa.ofMantissaAndAccuracy m .exact >>> k).roundedMantissa = roundDiv m k := by
  rw [shiftRight_exact, roundDiv, div_eq_half_div]
  generalize 2 * m / 2 ^ k = h
  generalize decide (2 * m % 2 ^ k ≠ 0) = s
  have hb : h % 2 = 0 ∨ h % 2 = 1 := Nat.mod_two_eq_zero_or_one h
  rcases hb with hb | hb <;> cases s <;>
    simp [hb, rneHalf, ExtendedMantissa.roundedMantissa, ExtendedMantissa.accuracy,
      Accuracy.roundToNearestEven]

theorem rneHalf_mono {h h' : Nat} {s s' : Bool} (hh : h ≤ h') (hs : h = h' → s → s') :
    rneHalf h s ≤ rneHalf h' s' := by
  unfold rneHalf
  cases s <;> cases s' <;>
    simp only [Bool.false_eq_true, ↓reduceIte, imp_false, not_true_eq_false] at hs ⊢ <;>
    split_ifs <;> omega

theorem roundDiv_mono {m m' : Nat} (k : Nat) (h : m ≤ m') : roundDiv m k ≤ roundDiv m' k := by
  apply rneHalf_mono (Nat.div_le_div_right (by omega))
  intro heq hs
  have h₁ := Nat.div_add_mod (2 * m) (2 ^ k)
  have h₂ := Nat.div_add_mod (2 * m') (2 ^ k)
  rw [heq] at h₁
  simp only [decide_eq_true_eq] at hs ⊢
  omega

theorem div_le_roundDiv (m k : Nat) : m / 2 ^ k ≤ roundDiv m k := by
  rw [div_eq_half_div, roundDiv, rneHalf]
  omega

theorem roundDiv_le (m k : Nat) : roundDiv m k ≤ m / 2 ^ k + 1 := by
  rw [div_eq_half_div, roundDiv, rneHalf]
  split_ifs <;> omega

theorem roundDiv_zero (m : Nat) : roundDiv m 0 = m := by
  simp [roundDiv, rneHalf]

theorem roundDiv_mul_pow (m k j : Nat) : roundDiv (m * 2 ^ j) (k + j) = roundDiv m k := by
  have hj : 0 < 2 ^ j := Nat.two_pow_pos j
  have hdiv : 2 * (m * 2 ^ j) / 2 ^ (k + j) = 2 * m / 2 ^ k := by
    rw [Nat.pow_add, ← Nat.mul_assoc, Nat.mul_div_mul_right _ _ hj]
  have hmod : 2 * (m * 2 ^ j) % 2 ^ (k + j) = 2 * m % 2 ^ k * 2 ^ j := by
    rw [Nat.pow_add, ← Nat.mul_assoc, Nat.mul_mod_mul_right]
  simp only [roundDiv, hdiv, hmod, ne_eq, Nat.mul_eq_zero, Nat.pow_eq_zero, not_or]
  simp

/-- Rounding at most doubles a positive quotient. -/
theorem roundDiv_mul_le (m k : Nat) : roundDiv m k * 2 ^ k ≤ 2 * m := by
  have hP : 0 < 2 ^ k := Nat.two_pow_pos k
  have hlo := Nat.div_mul_le_self m (2 ^ k)
  have h2 := Nat.div_mul_le_self (2 * m) (2 ^ k)
  rcases Nat.eq_zero_or_pos (m / 2 ^ k) with hq | hq
  · -- below one unit the result is at most one, and one only from at least half a unit
    have hr : roundDiv m k ≤ 2 * m / 2 ^ k := by
      rw [div_eq_half_div] at hq
      rw [roundDiv, rneHalf]
      split_ifs <;> omega
    calc roundDiv m k * 2 ^ k ≤ 2 * m / 2 ^ k * 2 ^ k := Nat.mul_le_mul_right _ hr
      _ ≤ 2 * m := h2
  · calc roundDiv m k * 2 ^ k ≤ (m / 2 ^ k + 1) * 2 ^ k := Nat.mul_le_mul_right _ (roundDiv_le m k)
      _ ≤ (2 * (m / 2 ^ k)) * 2 ^ k := Nat.mul_le_mul_right _ (by omega)
      _ ≤ 2 * m := by rw [Nat.mul_assoc]; omega

theorem targetExponent_eq (m : Nat) (e : Int) :
    Format.binary64.targetExponent (totalExponent m e) = max ((m.log2 : Int) + e - 52) (-1074) := by
  simp only [Format.targetExponent, totalExponent, Format.mantissaBits, Format.minExponent]
  norm_num
  omega

/-- The float with sign `s` and mantissa `r` at exponent `t`, a carry out of 53 bits moved into
the exponent. -/
def ofRounded (s : Sign) (r : Nat) (t : Int) : UnpackedFloat :=
  if h : r = 0 then .zero s
  else if r < 2 ^ 53 then .finite s r t (Nat.pos_of_ne_zero h)
  else .finite s (2 ^ 52) (t + 1) (by decide)

/-- A quotient of `m` by the power of two that brings it to 53 bits is at most `2 ^ 53`. -/
theorem roundDiv_le_two_pow {m : Nat} {e t : Int} (ht : (m.log2 : Int) + e - 52 ≤ t) (het : e ≤ t) :
    roundDiv m (t - e).toNat ≤ 2 ^ 53 := by
  have hm : m < 2 ^ (m.log2 + 1) := Nat.lt_log2_self
  have hpow : 2 ^ (m.log2 + 1) ≤ 2 ^ (53 + (t - e).toNat) :=
    Nat.pow_le_pow_right (by decide) (by omega)
  have hq : m / 2 ^ (t - e).toNat < 2 ^ 53 := by
    rw [Nat.div_lt_iff_lt_mul (Nat.two_pow_pos _), ← Nat.pow_add]
    omega
  have := roundDiv_le m (t - e).toNat
  omega

theorem shiftToExponent_exact (m : Nat) (e t : Int) (het : e ≤ t) :
    shiftToExponent m e .exact t =
      (ExtendedMantissa.ofMantissaAndAccuracy m .exact >>> (t - e).toNat, t) := by
  simp only [shiftToExponent, Prod.mk.injEq, true_and]
  omega

/-- Moving a mantissa of at most 53 bits to its target exponent shifts nothing. -/
theorem shiftToTarget_small {R : Nat} {t : Int} (hR : R < 2 ^ 53) (ht : -1074 ≤ t) :
    shiftToTargetExponent Format.binary64 R t .exact = (⟨R, false, false⟩, t) := by
  have hlog : R.log2 ≤ 52 := by
    rcases Nat.eq_zero_or_pos R with rfl | hpos
    · simp
    · exact Nat.le_of_lt_succ ((Nat.log2_lt (by omega)).2 hR)
  have htarget : Format.binary64.targetExponent (totalExponent R t) ≤ t := by
    rw [targetExponent_eq]; omega
  have hshift : (Format.binary64.targetExponent (totalExponent R t) - t).toNat = 0 := by omega
  simp only [shiftToTargetExponent, shiftToExponent, hshift, Int.natCast_zero, Int.add_zero,
    shiftRight_exact, Nat.pow_zero, Nat.div_one, Nat.mod_one]
  simp

theorem shiftToTarget_carry {t : Int} (ht : -1074 ≤ t) :
    shiftToTargetExponent Format.binary64 (2 ^ 53) t .exact = (⟨2 ^ 52, false, false⟩, t + 1) := by
  have htarget : Format.binary64.targetExponent (totalExponent (2 ^ 53) t) = t + 1 := by
    rw [targetExponent_eq, Nat.log2_two_pow]; omega
  have hshift : (t + 1 - t).toNat = 1 := by omega
  simp only [shiftToTargetExponent, htarget, shiftToExponent, hshift, shiftRight_exact]
  simp

theorem finish_eq (s : Sign) {R : Nat} {t : Int} (hR : R ≤ 2 ^ 53) (ht : -1074 ≤ t) :
    (if h : (shiftToTargetExponent Format.binary64 R t .exact).1.mantissa = 0 then zero s
      else finite s (shiftToTargetExponent Format.binary64 R t .exact).1.mantissa
        (shiftToTargetExponent Format.binary64 R t .exact).2 (Nat.pos_of_ne_zero h)) =
      ofRounded s R t := by
  rcases Nat.lt_or_ge R (2 ^ 53) with hlt | hge
  · simp only [shiftToTarget_small hlt ht, ofRounded, hlt, ↓reduceIte]
  · obtain rfl : R = 2 ^ 53 := by omega
    simp only [shiftToTarget_carry ht, ofRounded]
    rw [dif_neg (by decide), dif_neg (by decide), if_neg (by decide)]

theorem roundWithAccuracy_exact (s : Sign) (m : Nat) (e : Int)
    (het : e ≤ Format.binary64.targetExponent (totalExponent m e)) :
    roundWithAccuracy Format.binary64 s m e .exact =
      ofRounded s (roundDiv m (Format.binary64.targetExponent (totalExponent m e) - e).toNat)
        (Format.binary64.targetExponent (totalExponent m e)) := by
  generalize ht : Format.binary64.targetExponent (totalExponent m e) = t at het ⊢
  have ht' := ht
  rw [targetExponent_eq] at ht'
  have hR := roundDiv_le_two_pow (m := m) (by omega : (m.log2 : Int) + e - 52 ≤ t) het
  unfold roundWithAccuracy
  rw [shiftToTargetExponent, ht, shiftToExponent_exact m e t het]
  simp only [roundedMantissa_shift]
  exact finish_eq s hR (by omega)

theorem log2_mul_two_pow {m : Nat} (hm : 0 < m) (j : Nat) : (m * 2 ^ j).log2 = m.log2 + j := by
  have hne : m * 2 ^ j ≠ 0 := Nat.mul_ne_zero (by omega) (by positivity)
  apply Nat.le_antisymm
  · have hlt : m * 2 ^ j < 2 ^ (m.log2 + j + 1) :=
      calc m * 2 ^ j < 2 ^ (m.log2 + 1) * 2 ^ j :=
            Nat.mul_lt_mul_of_pos_right Nat.lt_log2_self (by positivity)
        _ = 2 ^ (m.log2 + j + 1) := by rw [← Nat.pow_add]; congr 1; omega
    have h := (Nat.log2_lt hne).2 hlt
    omega
  · exact (Nat.le_log2 hne).2 (by
      rw [Nat.pow_add]; exact Nat.mul_le_mul_right _ (Nat.log2_self_le (by omega)))

theorem log2_mono {m m' : Nat} (hm : 0 < m) (h : m ≤ m') : m.log2 ≤ m'.log2 :=
  (Nat.le_log2 (by omega)).2 ((Nat.log2_self_le (by omega)).trans h)

/-- The exponent at which `m · 2 ^ e` is rounded. -/
def target (m : Nat) (e : Int) : Int := Format.binary64.targetExponent (totalExponent m e)

theorem target_eq (m : Nat) (e : Int) : target m e = max ((m.log2 : Int) + e - 52) (-1074) :=
  targetExponent_eq m e

/-- The mantissa that `m · 2 ^ e` rounds to, at its target exponent. -/
def roundedMantissa (m : Nat) (e : Int) : Nat :=
  roundDiv (m * 2 ^ (e - target m e).toNat) (target m e - e).toNat

theorem round_eq (s : Sign) {m : Nat} (hm : 0 < m) (e : Int) :
    round Format.binary64 s m e = ofRounded s (roundedMantissa m e) (target m e) := by
  have ht := target_eq m e
  have hlog := log2_mul_two_pow hm (e - target m e).toNat
  have htarget : Format.binary64.targetExponent
      (totalExponent (m * 2 ^ (e - target m e).toNat) (e - (e - target m e).toNat)) =
      target m e := by
    rw [targetExponent_eq, hlog]
    omega
  unfold UnpackedFloat.round decreaseExponent
  change roundWithAccuracy Format.binary64 s (m <<< (e - target m e).toNat)
    (e - (e - target m e).toNat) .exact = _
  rw [Nat.shiftLeft_eq, roundWithAccuracy_exact s _ _ (by rw [htarget]; omega), htarget,
    roundedMantissa]
  congr 2
  omega

/-- The number an unpacked float stands for; infinities and NaN stand for none and read `0`. -/
def value : UnpackedFloat → ℚ
  | .finite s m e _ => (s.apply m : ℚ) * 2 ^ e
  | _ => 0

theorem value_ofRounded (s : Sign) {R : Nat} (t : Int) (hR : R ≤ 2 ^ 53) :
    value (ofRounded s R t) = (s.apply R : ℚ) * 2 ^ t := by
  unfold ofRounded
  split_ifs with h0 hlt
  · subst h0; cases s <;> simp [value, Sign.apply]
  · rfl
  · obtain rfl : R = 2 ^ 53 := by omega
    have h2 : (2 : ℚ) ^ (t + 1) = 2 * 2 ^ t := by
      rw [zpow_add_one₀ (by norm_num)]; ring
    cases s <;> simp [value, Sign.apply, h2] <;> ring

theorem roundedMantissa_le {m : Nat} (hm : 0 < m) (e : Int) : roundedMantissa m e ≤ 2 ^ 53 := by
  have ht := target_eq m e
  have hlog := log2_mul_two_pow hm (e - target m e).toNat
  have h := roundDiv_le_two_pow (m := m * 2 ^ (e - target m e).toNat)
    (e := e - (e - target m e).toNat) (t := target m e) (by rw [hlog]; omega) (by omega)
  unfold roundedMantissa
  rwa [show (target m e - (e - ((e - target m e).toNat : Int))).toNat = (target m e - e).toNat by
    omega] at h

theorem value_round (s : Sign) {m : Nat} (hm : 0 < m) (e : Int) :
    value (round Format.binary64 s m e) = (s.apply (roundedMantissa m e) : ℚ) * 2 ^ target m e := by
  rw [round_eq s hm, value_ofRounded s _ (roundedMantissa_le hm e)]

theorem target_mul_pow {m : Nat} (hm : 0 < m) (e : Int) (j : Nat) :
    target (m * 2 ^ j) (e - j) = target m e := by
  rw [target_eq, target_eq, log2_mul_two_pow hm]
  omega

/-- Written with a smaller exponent, a number rounds to the same mantissa. -/
theorem roundedMantissa_mul_pow {m : Nat} (hm : 0 < m) {e : Int} (j : Nat)
    (hj : e - j ≤ target m e) : roundedMantissa (m * 2 ^ j) (e - j) = roundedMantissa m e := by
  have ht := target_mul_pow hm e j
  unfold roundedMantissa
  rw [ht]
  have h₁ : j + (e - j - target m e).toNat =
      (e - target m e).toNat + (min e (target m e) - (e - j)).toNat := by omega
  have h₂ : (target m e - (e - j)).toNat =
      (target m e - e).toNat + (min e (target m e) - (e - j)).toNat := by omega
  rw [Nat.mul_assoc, ← Nat.pow_add, h₁, h₂, Nat.pow_add, ← Nat.mul_assoc, roundDiv_mul_pow]

/-- At an exponent below every target, rounding keeps the order of mantissas: within one target
by the monotone quotient, and across targets because a higher target starts a higher binade. -/
theorem rounded_le_rounded {M M' : Nat} {E : Int} (hM : 0 < M) (hMM : M ≤ M') (hE : E ≤ -1074) :
    (roundedMantissa M E : ℚ) * 2 ^ target M E ≤ (roundedMantissa M' E : ℚ) * 2 ^ target M' E := by
  have ht := target_eq M E
  have ht' := target_eq M' E
  have hlog := log2_mono hM hMM
  have hR : roundedMantissa M E = roundDiv M (target M E - E).toNat := by
    simp [roundedMantissa, show (E - target M E).toNat = 0 by omega]
  have hR' : roundedMantissa M' E = roundDiv M' (target M' E - E).toNat := by
    simp [roundedMantissa, show (E - target M' E).toNat = 0 by omega]
  rcases eq_or_lt_of_le (show target M E ≤ target M' E by omega) with heq | hlt
  · rw [hR, hR', heq]
    gcongr
    exact roundDiv_mono _ hMM
  · have hup : roundedMantissa M E ≤ 2 ^ 53 := roundedMantissa_le hM E
    have hlow : 2 ^ 52 ≤ roundedMantissa M' E := by
      rw [hR']
      refine le_trans ?_ (div_le_roundDiv M' _)
      rw [Nat.le_div_iff_mul_le (Nat.two_pow_pos _), ← Nat.pow_add]
      exact le_trans (Nat.pow_le_pow_right (by decide) (by omega)) (Nat.log2_self_le (by omega))
    have hup' : (roundedMantissa M E : ℚ) ≤ 2 ^ 53 := by exact_mod_cast hup
    have hlow' : (2 : ℚ) ^ 52 ≤ roundedMantissa M' E := by exact_mod_cast hlow
    calc (roundedMantissa M E : ℚ) * 2 ^ target M E ≤ 2 ^ 53 * 2 ^ target M E := by gcongr
      _ = 2 ^ (target M E + 53) := by rw [zpow_add₀ two_ne_zero]; norm_num; ring
      _ ≤ 2 ^ (target M' E + 52) := zpow_le_zpow_right₀ (by norm_num) (by omega)
      _ = 2 ^ 52 * 2 ^ target M' E := by rw [zpow_add₀ two_ne_zero]; norm_num; ring
      _ ≤ (roundedMantissa M' E : ℚ) * 2 ^ target M' E := by gcongr

theorem cast_mul_pow_toNat (m : Nat) {e E : Int} (hE : E ≤ e) :
    ((m * 2 ^ (e - E).toNat : Nat) : ℚ) * 2 ^ E = (m : ℚ) * 2 ^ e := by
  push_cast
  rw [mul_assoc, ← zpow_natCast, ← zpow_add₀ two_ne_zero]
  congr 2
  omega

/-- Rounding a positive number is monotone. -/
theorem value_round_le {m m' : Nat} {e e' : Int} (hm : 0 < m) (hm' : 0 < m')
    (h : (m : ℚ) * 2 ^ e ≤ (m' : ℚ) * 2 ^ e') :
    value (round Format.binary64 .positive m e) ≤
      value (round Format.binary64 .positive m' e') := by
  rw [value_round _ hm, value_round _ hm']
  simp only [Sign.apply, Int.cast_natCast]
  -- bring both numbers to one exponent below every target
  set E := min (min e e') (-1074) with hE
  have ht := target_eq m e
  have ht' := target_eq m' e'
  have hj : e - ((e - E).toNat : Int) = E := by omega
  have hj' : e' - ((e' - E).toNat : Int) = E := by omega
  rw [← roundedMantissa_mul_pow hm (e - E).toNat (by omega),
    ← roundedMantissa_mul_pow hm' (e' - E).toNat (by omega),
    ← target_mul_pow hm e (e - E).toNat, ← target_mul_pow hm' e' (e' - E).toNat, hj, hj']
  apply rounded_le_rounded (Nat.mul_pos hm (Nat.two_pow_pos _)) _ (by omega)
  have hc := cast_mul_pow_toNat m (show E ≤ e by omega)
  have hc' := cast_mul_pow_toNat m' (show E ≤ e' by omega)
  have hpos : (0 : ℚ) < 2 ^ E := zpow_pos (by norm_num) E
  exact_mod_cast le_of_mul_le_mul_right (hc.trans_le (h.trans hc'.symm.le)) hpos

theorem value_round_nonneg {m : Nat} (hm : 0 < m) (e : Int) :
    0 ≤ value (round Format.binary64 .positive m e) := by
  rw [value_round _ hm]
  simp only [Sign.apply, Int.cast_natCast]
  positivity

theorem value_round_neg {m : Nat} (hm : 0 < m) (e : Int) :
    value (round Format.binary64 .negative m e) = -value (round Format.binary64 .positive m e) := by
  rw [value_round _ hm, value_round _ hm]
  simp only [Sign.apply, Int.cast_neg, Int.cast_natCast, neg_mul]

/-- Rounding at most doubles a positive number. -/
theorem value_round_le_two_mul {m : Nat} (hm : 0 < m) (e : Int) :
    value (round Format.binary64 .positive m e) ≤ 2 * ((m : ℚ) * 2 ^ e) := by
  rw [value_round _ hm]
  simp only [Sign.apply, Int.cast_natCast]
  set E := min e (target m e)
  have hj : e - ((e - E).toNat : Int) = E := by omega
  rw [← roundedMantissa_mul_pow hm (e - E).toNat (by omega),
    ← target_mul_pow hm e (e - E).toNat, hj]
  set M := m * 2 ^ (e - E).toNat
  have hM : 0 < M := Nat.mul_pos hm (Nat.two_pow_pos _)
  have htE : target M E = target m e := by rw [← hj]; exact target_mul_pow hm e _
  have hR : roundedMantissa M E = roundDiv M (target M E - E).toNat := by
    simp [roundedMantissa, show (E - target M E).toNat = 0 by omega]
  have hle := roundDiv_mul_le M (target M E - E).toNat
  rw [← hR] at hle
  have hle' : (roundedMantissa M E : ℚ) * 2 ^ (target M E - E) ≤ 2 * M := by
    rw [show target M E - E = ((target M E - E).toNat : Int) by omega, zpow_natCast]
    exact_mod_cast hle
  calc (roundedMantissa M E : ℚ) * 2 ^ target M E
      = (roundedMantissa M E : ℚ) * 2 ^ (target M E - E) * 2 ^ E := by
        rw [mul_assoc, ← zpow_add₀ two_ne_zero, sub_add_cancel]
    _ ≤ 2 * M * 2 ^ E := by gcongr
    _ = 2 * ((m : ℚ) * 2 ^ e) := by rw [mul_assoc, cast_mul_pow_toNat m (by omega)]

theorem round_canonical (s : Sign) {m : Nat} {e : Int} (hm : 0 < m) (hlt : m < 2 ^ 53)
    (he : -1074 ≤ e) (hc : 2 ^ 52 ≤ m ∨ e = -1074) :
    round Format.binary64 s m e = .finite s m e hm := by
  have hlog : m.log2 < 53 := (Nat.log2_lt (by omega)).2 hlt
  have hc : 52 ≤ m.log2 ∨ e = -1074 := hc.imp_left (Nat.le_log2 (by omega)).2
  have ht : target m e = e := by rw [target_eq]; omega
  rw [round_eq s hm, ht, roundedMantissa, ht]
  simp only [sub_self, Int.toNat_zero, Nat.pow_zero, Nat.mul_one, roundDiv_zero, ofRounded,
    Nat.pos_iff_ne_zero.1 hm, hlt, ↓reduceDIte, ↓reduceIte]

section Normalize

variable {n : Int} {e : Int} {zs : Sign}

theorem normalize_of_pos (hn : 0 < n) :
    normalize Format.binary64 n e zs = round Format.binary64 .positive n.toNat e := by
  simp [UnpackedFloat.normalize, Int.compare_eq_gt.2 hn]

theorem normalize_of_neg (hn : n < 0) :
    normalize Format.binary64 n e zs = round Format.binary64 .negative (-n).toNat e := by
  simp [UnpackedFloat.normalize, Int.compare_eq_lt.2 hn]

theorem normalize_zero : normalize Format.binary64 0 e zs = .zero zs := by
  simp [UnpackedFloat.normalize]

theorem value_normalize_nonneg (hn : 0 ≤ n) : 0 ≤ value (normalize Format.binary64 n e zs) := by
  rcases eq_or_lt_of_le hn with rfl | hn
  · simp [normalize_zero, value]
  · rw [normalize_of_pos hn]
    exact value_round_nonneg (by omega) e

theorem value_normalize_nonpos (hn : n ≤ 0) : value (normalize Format.binary64 n e zs) ≤ 0 := by
  rcases eq_or_lt_of_le hn with rfl | hn
  · simp [normalize_zero, value]
  · rw [normalize_of_neg hn, value_round_neg (by omega)]
    exact neg_nonpos.2 (value_round_nonneg (by omega) e)

end Normalize

theorem cast_toNat_of_nonneg {n : Int} (hn : 0 ≤ n) : ((n.toNat : Nat) : ℚ) = n := by
  exact_mod_cast Int.toNat_of_nonneg hn

/-- Rounding a signed mantissa at an exponent is monotone in the number it stands for. -/
theorem value_normalize_le {n n' e e' : Int} (zs zs' : Sign)
    (h : (n : ℚ) * 2 ^ e ≤ (n' : ℚ) * 2 ^ e') :
    value (normalize Format.binary64 n e zs) ≤ value (normalize Format.binary64 n' e' zs') := by
  have hp : (0 : ℚ) < 2 ^ e := zpow_pos (by norm_num) e
  have hp' : (0 : ℚ) < 2 ^ e' := zpow_pos (by norm_num) e'
  rcases le_or_gt n 0 with hn | hn <;> rcases le_or_gt n' 0 with hn' | hn'
  · -- both at most zero: rounding the magnitudes in the other order
    rcases eq_or_lt_of_le hn' with rfl | hn'
    · exact (value_normalize_nonpos hn).trans (value_normalize_nonneg le_rfl)
    rcases eq_or_lt_of_le hn with rfl | hn
    · have : (n' : ℚ) * 2 ^ e' < 0 := mul_neg_of_neg_of_pos (by exact_mod_cast hn') hp'
      simp at h; linarith
    rw [normalize_of_neg hn, normalize_of_neg hn', value_round_neg (by omega),
      value_round_neg (by omega), neg_le_neg_iff]
    apply value_round_le (by omega) (by omega)
    rw [cast_toNat_of_nonneg (by omega), cast_toNat_of_nonneg (by omega)]
    push_cast
    linarith
  · exact (value_normalize_nonpos hn).trans (value_normalize_nonneg hn'.le)
  · have : 0 < (n : ℚ) * 2 ^ e := mul_pos (by exact_mod_cast hn) hp
    have : (n' : ℚ) * 2 ^ e' ≤ 0 := mul_nonpos_of_nonpos_of_nonneg (by exact_mod_cast hn') hp'.le
    linarith
  · rw [normalize_of_pos hn, normalize_of_pos hn']
    apply value_round_le (by omega) (by omega)
    rwa [cast_toNat_of_nonneg (by omega), cast_toNat_of_nonneg (by omega)]

theorem value_normalize_le_two_mul {n E : Int} (zs : Sign) (hn : 0 ≤ n) :
    value (normalize Format.binary64 n E zs) ≤ 2 * ((n : ℚ) * 2 ^ E) := by
  rcases eq_or_lt_of_le hn with rfl | hn
  · simp [normalize_zero, value]
  · rw [normalize_of_pos hn, ← cast_toNat_of_nonneg (le_of_lt hn)]
    exact value_round_le_two_mul (by omega) E

theorem two_pow_le_roundedMantissa {m : Nat} (hm : 0 < m) {e : Int} (ht : -1074 < target m e) :
    2 ^ 52 ≤ roundedMantissa m e := by
  have ht' := target_eq m e
  have hlog := log2_mul_two_pow hm (e - target m e).toNat
  unfold roundedMantissa
  refine le_trans ?_ (div_le_roundDiv _ _)
  rw [Nat.le_div_iff_mul_le (Nat.two_pow_pos _), ← Nat.pow_add]
  exact le_trans (Nat.pow_le_pow_right (by decide) (by omega))
    (Nat.log2_self_le (Nat.mul_ne_zero (by omega) (by positivity)))

/-- The forms rounding gives: a zero, or a mantissa below `2 ^ 53` at an exponent of at least
`-1074`, of 53 bits unless the exponent is the least. -/
def IsRounded : UnpackedFloat → Prop
  | .zero _ => True
  | .finite _ m e _ => m < 2 ^ 53 ∧ -1074 ≤ e ∧ (2 ^ 52 ≤ m ∨ e = -1074)
  | _ => False

theorem isRounded_ofRounded (s : Sign) {R : Nat} {t : Int} (ht : -1074 ≤ t)
    (hc : 2 ^ 52 ≤ R ∨ t = -1074) : IsRounded (ofRounded s R t) := by
  unfold ofRounded
  split_ifs with h0 hlt
  · trivial
  · exact ⟨hlt, ht, hc⟩
  · exact ⟨by decide, by omega, .inl le_rfl⟩

theorem isRounded_round (s : Sign) {m : Nat} (hm : 0 < m) (e : Int) :
    IsRounded (round Format.binary64 s m e) := by
  have ht := target_eq m e
  rw [round_eq s hm]
  refine isRounded_ofRounded s (by omega) ?_
  by_cases hlow : target m e = -1074
  · exact .inr hlow
  · exact .inl (two_pow_le_roundedMantissa hm (by omega))

theorem isRounded_normalize (n E : Int) (zs : Sign) :
    IsRounded (normalize Format.binary64 n E zs) := by
  rcases lt_trichotomy n 0 with hn | rfl | hn
  · rw [normalize_of_neg hn]
    exact isRounded_round _ (by omega) E
  · rw [normalize_zero]
    trivial
  · rw [normalize_of_pos hn]
    exact isRounded_round _ (by omega) E

end ProfileLikelihood.Numeric.Rounding

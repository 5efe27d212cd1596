import ProfileLikelihood.Proofs.FloatArith

/-! Halving a double. Dividing by two moves a double's exponent down by one; at the bottom of the
subnormals the bit that falls off is rounded, ties to even. Either way the half is the rounding of
half the number, so it is monotone like the other operations, and a half doubled and halved again
stays finite: the sum of two equal halves cannot pass the largest double. -/

namespace ProfileLikelihood.Numeric

open Float.Model Float.Model.UnpackedFloat Rounding

/-! ### Division by two in the model -/

theorem unpack_two :
    (2.0 : Float).toModel.unpack = .finite .positive (2 ^ 52) (-51) (by decide) := rfl

theorem sign_div_positive (s : Sign) : s / .positive = s := by
  cases s <;> rfl

theorem targetExponent_binary64 (T : Int) :
    Format.binary64.targetExponent T = max (T - 53) (-1074) := by
  simp only [Format.targetExponent, Format.mantissaBits, Format.minExponent]
  norm_num

theorem log2_lt_of_lt_two_pow {m k : Nat} (hk : 0 < k) (h : m < 2 ^ k) : m.log2 < k := by
  rcases Nat.eq_zero_or_pos m with rfl | hm
  · simpa [Nat.log2_zero] using hk
  · exact (Nat.log2_lt (by omega)).2 h

/-- At the bottom exponent, a mantissa halved with its dropped bit as the accuracy rounds as the
mantissa itself one exponent lower. -/
theorem roundWithAccuracy_half (s : Sign) (m : Nat) (hm : m < 2 ^ 53) :
    roundWithAccuracy Format.binary64 s (m / 2) (-1074)
        (accuracyOfFraction (m * 2 ^ 51 % 2 ^ 52) (2 ^ 52)) =
      roundWithAccuracy Format.binary64 s m (-1075) .exact := by
  have hl : (m / 2).log2 < 53 := log2_lt_of_lt_two_pow (by decide) (by omega)
  have hl' : m.log2 < 54 := log2_lt_of_lt_two_pow (by decide) (by omega)
  -- both shift to the bottom exponent: the halved one by nothing, the other by its last bit
  have hshift : shiftToTargetExponent Format.binary64 (m / 2) (-1074)
      (accuracyOfFraction (m * 2 ^ 51 % 2 ^ 52) (2 ^ 52)) =
      shiftToTargetExponent Format.binary64 m (-1075) .exact := by
    unfold shiftToTargetExponent shiftToExponent
    dsimp only
    rw [targetExponent_eq, targetExponent_eq,
      show (max (((m / 2).log2 : Int) + -1074 - 52) (-1074) - -1074).toNat = 0 by omega,
      show (max ((m.log2 : Int) + -1075 - 52) (-1074) - -1075).toNat = 1 by omega]
    rcases Nat.mod_two_eq_zero_or_one m with h | h
    · rw [show m * 2 ^ 51 % 2 ^ 52 = 0 by omega,
        show accuracyOfFraction 0 (2 ^ 52) = .exact by rfl]
      simp [ExtendedMantissa.ofMantissaAndAccuracy, HShiftRight.hShiftRight, Nat.repeat,
        ExtendedMantissa.shiftRightOne, h]
    · rw [show m * 2 ^ 51 % 2 ^ 52 = 2 ^ 51 by omega,
        show accuracyOfFraction (2 ^ 51) (2 ^ 52) = .inexact .eq by rfl]
      simp [ExtendedMantissa.ofMantissaAndAccuracy, HShiftRight.hShiftRight, Nat.repeat,
        ExtendedMantissa.shiftRightOne, h]
  unfold roundWithAccuracy
  rw [hshift]

theorem round_mul_two (s : Sign) {m : Nat} (hm : 0 < m) {e : Int} (he : e - 1 ≤ target m e) :
    round Format.binary64 s (m * 2) (e - 1) = round Format.binary64 s m e := by
  have ht := target_mul_pow hm e 1
  have hr := roundedMantissa_mul_pow hm 1 (by simpa using he)
  simp only [pow_one, Nat.cast_one] at ht hr
  rw [round_eq s (by omega), round_eq s hm, ht, hr]

/-- Dividing a double by two rounds its mantissa one exponent lower. -/
theorem div_two_eq_round (s : Sign) {m : Nat} {e : Int} (hm : 0 < m)
    (hd : IsDouble (.finite s m e hm)) :
    UnpackedFloat.div Format.binary64 (.finite s m e hm)
        (.finite .positive (2 ^ 52) (-51) (by decide)) =
      round Format.binary64 s m (e - 1) := by
  obtain ⟨hlt, hlo, -, hc⟩ := hd
  have hlog : m.log2 < 53 := log2_lt_of_lt_two_pow (by decide) hlt
  have htot : totalExponent m e - totalExponent (2 ^ 52) (-51) = m.log2 + e - 1 := by
    simp only [totalExponent, Nat.log2_two_pow]
    omega
  have hnormal : -1073 ≤ e → m.log2 = 52 := fun he => by
    have := (Nat.le_log2 (by omega)).2 (hc.resolve_right (by omega))
    omega
  simp only [UnpackedFloat.div, divCore, sign_div_positive, htot, targetExponent_binary64]
  rcases (by omega : -1072 ≤ e ∨ e = -1073 ∨ e = -1074) with he | rfl | rfl
  · -- a normal double above the two lowest binades: the quotient `2m` at `e - 2` is exact
    have hl := hnormal (by omega)
    rw [show min (e - -51) (max (↑m.log2 + e - 1 - 53) (-1074)) = e - 1 - 1 by omega,
      show (e - -51 - (e - 1 - 1)).toNat = 53 by omega, Nat.shiftLeft_eq,
      show m * 2 ^ 53 / 2 ^ 52 = m * 2 by omega, show m * 2 ^ 53 % 2 ^ 52 = 0 by omega,
      show accuracyOfFraction 0 (2 ^ 52) = .exact by rfl]
    have ht : target m (e - 1) = e - 1 := by rw [target_eq, hl]; omega
    have ht2 := target_mul_pow hm (e - 1) 1
    simp only [pow_one, Nat.cast_one] at ht2
    rw [roundWithAccuracy_eq_round s _ (by omega), round_mul_two s hm (by omega)]
  · -- the lowest normal binade: the quotient `m` at the bottom exponent is exact
    have hl := hnormal le_rfl
    rw [show min (-1073 - -51) (max (↑m.log2 + -1073 - 1 - 53) (-1074)) = -1074 by omega,
      show (-1073 - -51 - -1074 : Int).toNat = 52 by omega, Nat.shiftLeft_eq,
      show m * 2 ^ 52 / 2 ^ 52 = m by omega, show m * 2 ^ 52 % 2 ^ 52 = 0 by omega,
      show accuracyOfFraction 0 (2 ^ 52) = .exact by rfl,
      roundWithAccuracy_eq_round s _ (by rw [target_eq]; omega)]
    norm_num
  · -- the lowest binade: the bit halving drops decides the rounding
    rw [show min (-1074 - -51) (max (↑m.log2 + -1074 - 1 - 53) (-1074)) = -1074 by omega,
      show (-1074 - -51 - -1074 : Int).toNat = 51 by omega, Nat.shiftLeft_eq,
      show m * 2 ^ 51 / 2 ^ 52 = m / 2 by omega]
    rw [roundWithAccuracy_half s m hlt, roundWithAccuracy_eq_round s _ (by rw [target_eq]; omega)]
    norm_num

/-! ### Halves of doubles -/

theorem unpack_div_two (a : Float) : (a / 2.0).toModel.unpack = (Float.Model.pack
    (UnpackedFloat.div Format.binary64 a.toModel.unpack
      (.finite .positive (2 ^ 52) (-51) (by decide)))).unpack := by
  rw [← unpack_two]; rfl

/-- Halving a finite double rounds half its number. -/
theorem roundsTo_div_two {a : Float} (ha : a.isFinite = true) :
    RoundsTo (a / 2.0) (ratValue a / 2) := by
  have hd := unpack_isDouble ha
  have hu := unpack_div_two a
  unfold ratValue
  generalize a.toModel.unpack = x at hd hu
  cases x with
  | zero s => exact ⟨0, 0, s / .positive, by simp [value], by rw [hu, normalize_zero]; rfl⟩
  | finite s m e hm =>
    refine ⟨s.apply m, e - 1, .positive, ?_,
      by rw [hu, normalize_apply s hm, div_two_eq_round s hm hd]⟩
    rw [zpow_sub₀ two_ne_zero, zpow_one]
    simp only [value]
    ring
  | _ => cases hd

/-- Only a finite double halves to a finite one. -/
theorem isFinite_of_div_two {a : Float} (h : (a / 2.0).isFinite = true) : a.isFinite = true := by
  have hu := unpack_div_two a
  change (a / 2.0).toModel.unpack.isFinite = true at h
  change a.toModel.unpack.isFinite = true
  rw [hu] at h
  generalize a.toModel.unpack = x at h ⊢
  cases x with
  | zero | finite => rfl
  | infinity s => cases s <;> exact absurd h (by decide +kernel)
  | notANumber => exact absurd h (by decide +kernel)

/-- The largest finite double, `(2 ^ 53 - 1) · 2 ^ 971`. -/
def maxFinite : Float := Float.ofBits 0x7FEFFFFFFFFFFFFF

theorem maxFinite_isFinite : maxFinite.isFinite = true := by decide
theorem neg_maxFinite_isFinite : (-maxFinite).isFinite = true := by decide

theorem ratValue_maxFinite : ratValue maxFinite = (2 ^ 53 - 1) * 2 ^ 971 := by
  have hu : maxFinite.toModel.unpack = .finite .positive (2 ^ 53 - 1) 971 (by decide) := rfl
  rw [ratValue, hu]
  simp [value, Sign.apply]
  norm_num

theorem ratValue_neg_maxFinite : ratValue (-maxFinite) = -ratValue maxFinite := by
  have hu : (-maxFinite).toModel.unpack = .finite .negative (2 ^ 53 - 1) 971 (by decide) := rfl
  rw [ratValue_maxFinite, ratValue, hu]
  simp [value, Sign.apply]
  norm_num

/-- No finite double exceeds the largest in magnitude. -/
theorem abs_ratValue_le_maxFinite {a : Float} (ha : a.isFinite = true) :
    |ratValue a| ≤ ratValue maxFinite := by
  have hd := unpack_isDouble ha
  rw [ratValue_maxFinite, ratValue]
  generalize a.toModel.unpack = x at hd
  cases x with
  | zero s => norm_num [value]
  | finite s m e hm =>
    obtain ⟨hlt, -, he, -⟩ := hd
    rw [abs_value_finite]
    have hm' : (m : ℚ) ≤ 2 ^ 53 - 1 := by
      have : ((m + 1 : Nat) : ℚ) ≤ 2 ^ 53 := by exact_mod_cast (show m + 1 ≤ 2 ^ 53 by omega)
      push_cast at this
      linarith
    calc (m : ℚ) * 2 ^ e ≤ (2 ^ 53 - 1) * 2 ^ e := by gcongr
      _ ≤ (2 ^ 53 - 1) * 2 ^ (971 : Int) := by gcongr; norm_num
      _ = (2 ^ 53 - 1) * 2 ^ 971 := by norm_num
  | _ => cases hd

/-- The mean of a halved double with itself, `½ (s / 2 + s / 2)`, is finite once the half is:
each step is bounded by the same steps taken from the largest double and its negation. -/
theorem isFinite_half_mul_add_half {s : Float} (h : (s / 2.0).isFinite = true) :
    (0.5 * (s / 2.0 + s / 2.0)).isFinite = true := by
  have hs := isFinite_of_div_two h
  have hb := abs_le.1 (abs_ratValue_le_maxFinite hs)
  have hlo : -maxFinite / 2.0 ≤ s / 2.0 :=
    (roundsTo_div_two neg_maxFinite_isFinite).le (roundsTo_div_two hs)
      (by rw [ratValue_neg_maxFinite]; linarith)
  have hhi : s / 2.0 ≤ maxFinite / 2.0 :=
    (roundsTo_div_two hs).le (roundsTo_div_two maxFinite_isFinite) (by linarith)
  have hlo₁ := (le_iff_ratValue_le (by decide +kernel) h).1 hlo
  have hhi₁ := (le_iff_ratValue_le h (by decide +kernel)).1 hhi
  have hlo₂ : -maxFinite / 2.0 + -maxFinite / 2.0 ≤ s / 2.0 + s / 2.0 :=
    (roundsTo_add (by decide +kernel) (by decide +kernel)).le (roundsTo_add h h) (by linarith)
  have hhi₂ : s / 2.0 + s / 2.0 ≤ maxFinite / 2.0 + maxFinite / 2.0 :=
    (roundsTo_add h h).le (roundsTo_add (by decide +kernel) (by decide +kernel)) (by linarith)
  have hsum : (s / 2.0 + s / 2.0).isFinite = true :=
    isFinite_of_le_of_le (by decide +kernel) (by decide +kernel) hlo₂ hhi₂
  have hhalf : 0 ≤ ratValue 0.5 := ratValue_nonneg (by decide) (by decide)
  have hlo₃ := (le_iff_ratValue_le (by decide +kernel) hsum).1 hlo₂
  have hhi₃ := (le_iff_ratValue_le hsum (by decide +kernel)).1 hhi₂
  exact isFinite_of_le_of_le (by decide +kernel) (by decide +kernel)
    ((roundsTo_mul (by decide) (by decide +kernel)).le (roundsTo_mul (by decide) hsum)
      (mul_le_mul_of_nonneg_left hlo₃ hhalf))
    ((roundsTo_mul (by decide) hsum).le (roundsTo_mul (by decide) (by decide +kernel))
      (mul_le_mul_of_nonneg_left hhi₃ hhalf))

end ProfileLikelihood.Numeric

import ProfileLikelihood.Proofs.Rounding
import ProfileLikelihood.Proofs.Float

/-! The doubles among unpacked floats. Packing a rounded form and unpacking it gives it back when
its exponent is at most `971`, and the infinity of its sign past that, which happens only at
magnitudes of `2 ^ 1024` and above. The forms a finite double unpacks to compare as the numbers
they stand for, and the sum, difference and product of two of them are the roundings of the sum,
difference and product of their numbers. -/

open Float.Model Float.Model.UnpackedFloat

namespace ProfileLikelihood.Numeric.Rounding

/-! ### Packing and unpacking -/

theorem toNat_packComponents (s : Sign) (e : BitVec 11) (m : BitVec 52) :
    (packComponents Format.binary64 s e m).toNat =
      s.toBitVec.toNat * 2 ^ 63 + e.toNat * 2 ^ 52 + m.toNat := by
  have he := e.isLt
  have hm := m.isLt
  simp only [packComponents, BitVec.toNat_append]
  rw [← Nat.shiftLeft_add_eq_or_of_lt hm, ← Nat.shiftLeft_add_eq_or_of_lt he]
  simp only [Nat.shiftLeft_eq]
  ring

theorem toNat_toBitVec_lt (s : Sign) : s.toBitVec.toNat < 2 := s.toBitVec.isLt

theorem sign_of_bits (s : Sign) {r : Nat} (hr : r < 2 ^ 63) :
    (if s.toBitVec.toNat * 2 ^ 63 + r < 2 ^ 63 then Sign.positive else Sign.negative) = s := by
  cases s <;> simp [Sign.toBitVec]; omega

/-- A packed double read back as a `Float`. -/
def ofUnpacked (x : UnpackedFloat) : Float := Float.ofModel (Float.Model.pack x)

theorem toBits_ofUnpacked (x : UnpackedFloat) :
    (ofUnpacked x).toBits.toNat = (UnpackedFloat.pack Format.binary64 x).toNat := rfl

/-- The bits of a packed finite form: those of the infinity of its sign when the exponent
overflows, of a normal number when the mantissa has 53 bits, of a subnormal one otherwise. -/
theorem toNat_pack_finite (s : Sign) {m : Nat} {e : Int} (hm : 0 < m) :
    (UnpackedFloat.pack Format.binary64 (.finite s m e hm)).toNat =
      if 2047 ≤ (e + 1075).toNat then s.toBitVec.toNat * 2 ^ 63 + 2047 * 2 ^ 52
      else if m.log2 = 52 then s.toBitVec.toNat * 2 ^ 63 + (e + 1075).toNat * 2 ^ 52 + m % 2 ^ 52
      else s.toBitVec.toNat * 2 ^ 63 + m % 2 ^ 52 := by
  have hb : Format.binary64.exponentBias = 1023 := rfl
  have hmb : Format.binary64.mantissaBits = 53 := rfl
  simp only [UnpackedFloat.pack, hb, hmb]
  -- the three branches of `pack` against the three of the statement; mismatched pairs are absurd
  split_ifs with h1
  all_goals norm_num at h1
  all_goals first
    | omega
    | (rw [packedInfinity, toNat_packComponents]; simp)
    | (rw [toNat_packComponents]; simp only [BitVec.toNat_ofNat]; norm_num <;> omega)

theorem unpack_pack_normal (s : Sign) {m : Nat} {e : Int} (hm : 0 < m) (hlo : 2 ^ 52 ≤ m)
    (hhi : m < 2 ^ 53) (he : -1074 ≤ e) (he' : e ≤ 971) :
    (Float.Model.pack (.finite s m e hm)).unpack = .finite s m e hm := by
  have hlog : m.log2 = 52 := by
    have h1 := (Nat.le_log2 (by omega)).2 hlo
    have h2 := (Nat.log2_lt (by omega)).2 hhi
    omega
  have hbits : (ofUnpacked (.finite s m e hm)).toBits.toNat =
      s.toBitVec.toNat * 2 ^ 63 + (e + 1075).toNat * 2 ^ 52 + m % 2 ^ 52 := by
    rw [toBits_ofUnpacked, toNat_pack_finite, if_neg (by omega), if_pos hlog]
  have hs := toNat_toBitVec_lt s
  change (ofUnpacked (.finite s m e hm)).toModel.unpack = _
  have hcases := unpack_cases (ofUnpacked (.finite s m e hm))
  rw [hbits] at hcases
  rcases hcases with ⟨h1, -⟩ | ⟨h1, -⟩ | ⟨h1, -⟩ | ⟨h1, -⟩ | ⟨-, -, hpos, hu⟩
  all_goals try omega
  rw [hu]
  congr 1
  · rw [Nat.add_assoc]
    exact sign_of_bits s (by omega)
  all_goals omega

theorem unpack_pack_subnormal (s : Sign) {m : Nat} (hm : 0 < m) (hlt : m < 2 ^ 52) :
    (Float.Model.pack (.finite s m (-1074) hm)).unpack = .finite s m (-1074) hm := by
  have hlog : m.log2 < 52 := (Nat.log2_lt (by omega)).2 hlt
  have hbits : (ofUnpacked (.finite s m (-1074) hm)).toBits.toNat =
      s.toBitVec.toNat * 2 ^ 63 + m := by
    rw [toBits_ofUnpacked, toNat_pack_finite, if_neg (by omega), if_neg (by omega),
      Nat.mod_eq_of_lt hlt]
  have hs := toNat_toBitVec_lt s
  change (ofUnpacked (.finite s m (-1074) hm)).toModel.unpack = _
  have hcases := unpack_cases (ofUnpacked (.finite s m (-1074) hm))
  rw [hbits] at hcases
  rcases hcases with ⟨h1, -⟩ | ⟨h1, -⟩ | ⟨h1, h2, -⟩ | ⟨-, hpos, hu⟩ | ⟨h1, -⟩
  all_goals try omega
  rw [hu]
  congr 1
  · exact sign_of_bits s (by omega)
  · omega

/-- An exponent past `971` does not fit: the result is the infinity of the sign. -/
theorem unpack_pack_overflow (s : Sign) {m : Nat} {e : Int} (hm : 0 < m) (he : 972 ≤ e) :
    (Float.Model.pack (.finite s m e hm)).unpack = .infinity s := by
  have hbits : (ofUnpacked (.finite s m e hm)).toBits.toNat =
      s.toBitVec.toNat * 2 ^ 63 + 2047 * 2 ^ 52 := by
    rw [toBits_ofUnpacked, toNat_pack_finite, if_pos (by omega)]
  have hs := toNat_toBitVec_lt s
  change (ofUnpacked (.finite s m e hm)).toModel.unpack = _
  have hcases := unpack_cases (ofUnpacked (.finite s m e hm))
  rw [hbits] at hcases
  rcases hcases with ⟨-, -, hu⟩ | ⟨-, h2, -⟩ | ⟨h1, -⟩ | ⟨h1, -⟩ | ⟨-, h1, -⟩
  all_goals try omega
  rw [hu, sign_of_bits s (by omega)]

theorem unpack_pack_zero (s : Sign) : (Float.Model.pack (.zero s)).unpack = .zero s := by
  cases s <;> rfl

/-! ### Doubles -/

/-- The forms a finite double unpacks to: the rounded forms with an exponent of at most `971`. -/
def IsDouble : UnpackedFloat → Prop
  | .zero _ => True
  | .finite _ m e _ => m < 2 ^ 53 ∧ -1074 ≤ e ∧ e ≤ 971 ∧ (2 ^ 52 ≤ m ∨ e = -1074)
  | _ => False

theorem two_pow_mul_zpow (n : Nat) (e : Int) : (2 : ℚ) ^ n * 2 ^ e = 2 ^ (e + n) := by
  rw [zpow_add₀ two_ne_zero, zpow_natCast, mul_comm]

theorem abs_value_finite (s : Sign) {m : Nat} (e : Int) (hm : 0 < m) :
    |value (.finite s m e hm)| = (m : ℚ) * 2 ^ e := by
  have hp : (0 : ℚ) < 2 ^ e := zpow_pos (by norm_num) e
  cases s <;> simp [value, Sign.apply, abs_mul, abs_of_pos hp]

/-- The magnitude from which a rounded number no longer fits a double. -/
def overflowBound : ℚ := 2 ^ 1024

theorem overflowBound_pos : 0 < overflowBound := by
  unfold overflowBound
  positivity

/-- A double stands for a number of magnitude below `2 ^ 1024`. -/
theorem abs_value_lt_of_isDouble {x : UnpackedFloat} (hx : IsDouble x) :
    |value x| < overflowBound := by
  unfold overflowBound
  cases x with
  | zero s => simp [value]
  | finite s m e hm =>
    obtain ⟨hlt, -, he', -⟩ := hx
    rw [abs_value_finite]
    calc (m : ℚ) * 2 ^ e < 2 ^ 53 * 2 ^ e := by gcongr; exact_mod_cast hlt
      _ = 2 ^ (e + 53) := two_pow_mul_zpow 53 e
      _ ≤ 2 ^ (1024 : Int) := zpow_le_zpow_right₀ (by norm_num) (by omega)
      _ = 2 ^ 1024 := by norm_num
  | _ => cases hx

theorem unpack_pack_of_isDouble {x : UnpackedFloat} (hx : IsDouble x) :
    (Float.Model.pack x).unpack = x := by
  cases x with
  | zero s => exact unpack_pack_zero s
  | finite s m e hm =>
    obtain ⟨hlt, he, he', hc⟩ := hx
    by_cases hlo : 2 ^ 52 ≤ m
    · exact unpack_pack_normal s hm hlo hlt he he'
    · obtain rfl : e = -1074 := hc.resolve_left hlo
      exact unpack_pack_subnormal s hm (by omega)
  | _ => cases hx

/-- A rounded form packs to itself when it is a double, and to the infinity of its sign when its
exponent is too large, which it is only when its magnitude is at least `2 ^ 1024`. -/
theorem pack_of_isRounded {x : UnpackedFloat} (hx : IsRounded x) :
    IsDouble x ∧ (Float.Model.pack x).unpack = x ∨
    overflowBound ≤ value x ∧ (Float.Model.pack x).unpack = .infinity .positive ∨
    value x ≤ -overflowBound ∧ (Float.Model.pack x).unpack = .infinity .negative := by
  unfold overflowBound
  cases x with
  | zero s => exact .inl ⟨trivial, unpack_pack_zero s⟩
  | finite s m e hm =>
    obtain ⟨hlt, he, hc⟩ := hx
    by_cases he' : e ≤ 971
    · have hd : IsDouble (.finite s m e hm) := ⟨hlt, he, he', hc⟩
      exact .inl ⟨hd, unpack_pack_of_isDouble hd⟩
    · -- an exponent past `971` is normal, so the magnitude is at least `2 ^ 52 · 2 ^ 972`
      have hlo : (2 : ℚ) ^ 52 ≤ m := by exact_mod_cast hc.resolve_right (by omega)
      have hbig : (2 : ℚ) ^ 1024 ≤ (m : ℚ) * 2 ^ e :=
        calc (2 : ℚ) ^ 1024 = 2 ^ 52 * 2 ^ (972 : Int) := by rw [two_pow_mul_zpow]; norm_num
          _ ≤ (m : ℚ) * 2 ^ e := by
            gcongr
            · norm_num
            · omega
      have hinf := unpack_pack_overflow s hm (by omega : 972 ≤ e)
      cases s with
      | positive => exact .inr (.inl ⟨by simpa [value, Sign.apply] using hbig, hinf⟩)
      | negative => exact .inr (.inr ⟨by simpa [value, Sign.apply] using hbig, hinf⟩)
  | _ => cases hx

/-! ### Comparing doubles -/

theorem mul_zpow_lt_of_exp_lt {m m' : Nat} {e e' : Int} (hm : m < 2 ^ 53) (hm' : 2 ^ 52 ≤ m')
    (he : e < e') : (m : ℚ) * 2 ^ e < m' * 2 ^ e' :=
  calc (m : ℚ) * 2 ^ e < 2 ^ 53 * 2 ^ e := by gcongr; exact_mod_cast hm
    _ = 2 ^ (e + 53) := two_pow_mul_zpow 53 e
    _ ≤ 2 ^ (e' + 52) := zpow_le_zpow_right₀ (by norm_num) (by omega)
    _ = 2 ^ 52 * 2 ^ e' := (two_pow_mul_zpow 52 e').symm
    _ ≤ m' * 2 ^ e' := by gcongr; exact_mod_cast hm'

theorem compare_eq_of_lt_iff {α β : Type} [LinearOrder α] [LinearOrder β] {a b : α} {c d : β}
    (hlt : a < b ↔ c < d) (hgt : b < a ↔ d < c) : compare a b = compare c d := by
  rcases lt_trichotomy a b with h | rfl | h
  · rw [compare_lt_iff_lt.2 h, compare_lt_iff_lt.2 (hlt.1 h)]
  · have hcd : c = d := le_antisymm (not_lt.1 fun h => lt_irrefl a (hgt.2 h))
      (not_lt.1 fun h => lt_irrefl a (hlt.2 h))
    rw [compare_eq_iff_eq.2 (rfl : a = a), compare_eq_iff_eq.2 hcd]
  · rw [compare_gt_iff_gt.2 h, compare_gt_iff_gt.2 (hgt.1 h)]

/-- Positive rounded mantissas compare as the numbers they stand for: by exponent first, then by
mantissa. -/
theorem compare_mul_zpow {m m' : Nat} {e e' : Int} (hm : m < 2 ^ 53) (hm' : m' < 2 ^ 53)
    (he : -1074 ≤ e) (he' : -1074 ≤ e') (hc : 2 ^ 52 ≤ m ∨ e = -1074)
    (hc' : 2 ^ 52 ≤ m' ∨ e' = -1074) :
    (compare e e').then (compare m m') = compare ((m : ℚ) * 2 ^ e) ((m' : ℚ) * 2 ^ e') := by
  rcases lt_trichotomy e e' with h | rfl | h
  · rw [Int.compare_eq_lt.2 h, Ordering.lt_then, eq_comm, compare_lt_iff_lt]
    exact mul_zpow_lt_of_exp_lt hm (hc'.resolve_right (by omega)) h
  · have hp : (0 : ℚ) < 2 ^ e := zpow_pos (by norm_num) e
    rw [compare_eq_iff_eq.2 (rfl : e = e), Ordering.eq_then]
    exact compare_eq_of_lt_iff (by rw [mul_lt_mul_iff_left₀ hp]; exact_mod_cast Iff.rfl)
      (by rw [mul_lt_mul_iff_left₀ hp]; exact_mod_cast Iff.rfl)
  · rw [Int.compare_eq_gt.2 h, Ordering.gt_then, eq_comm, compare_gt_iff_gt]
    exact mul_zpow_lt_of_exp_lt hm' (hc.resolve_right (by omega)) h

theorem compare_neg_neg (a b : ℚ) : compare (-a) (-b) = (compare a b).swap := by
  rw [← Std.OrientedCmp.eq_swap]
  exact compare_eq_of_lt_iff neg_lt_neg_iff neg_lt_neg_iff

/-- Doubles compare as the numbers they stand for. -/
theorem compare_of_isDouble {x y : UnpackedFloat} (hx : IsDouble x) (hy : IsDouble y) :
    x.compare y = some (compare (value x) (value y)) := by
  cases x with
  | zero s =>
    cases y with
    | zero t => simp [UnpackedFloat.compare, value]
    | finite t m e hm =>
      have hp : (0 : ℚ) < (m : ℚ) * 2 ^ e := by positivity
      cases t
      · simpa [UnpackedFloat.compare, value, Sign.apply] using
          (compare_gt_iff_gt.2 (by linarith : -((m : ℚ) * 2 ^ e) < 0)).symm
      · simpa [UnpackedFloat.compare, value, Sign.apply] using (compare_lt_iff_lt.2 hp).symm
    | _ => cases hy
  | finite s m e hm =>
    have hp : (0 : ℚ) < (m : ℚ) * 2 ^ e := by positivity
    cases y with
    | zero t =>
      cases s
      · simpa [UnpackedFloat.compare, value, Sign.apply] using
          (compare_lt_iff_lt.2 (by linarith : -((m : ℚ) * 2 ^ e) < 0)).symm
      · simpa [UnpackedFloat.compare, value, Sign.apply] using (compare_gt_iff_gt.2 hp).symm
    | finite t m' e' hm' =>
      have hp' : (0 : ℚ) < (m' : ℚ) * 2 ^ e' := by positivity
      obtain ⟨hlt, he, -, hc⟩ := hx
      obtain ⟨hlt', he', -, hc'⟩ := hy
      have hcmp := compare_mul_zpow hlt hlt' he he' hc hc'
      cases s <;> cases t
      · simp only [UnpackedFloat.compare, value, Sign.apply, Int.cast_neg, Int.cast_natCast,
          neg_mul, compare_neg_neg, hcmp]
      · simpa [UnpackedFloat.compare, value, Sign.apply] using
          (compare_lt_iff_lt.2 (by linarith : -((m : ℚ) * 2 ^ e) < m' * 2 ^ e')).symm
      · simpa [UnpackedFloat.compare, value, Sign.apply] using
          (compare_gt_iff_gt.2 (by linarith : -((m' : ℚ) * 2 ^ e') < m * 2 ^ e)).symm
      · simp only [UnpackedFloat.compare, value, Sign.apply, Int.cast_natCast, hcmp]
    | _ => cases hy
  | _ => cases hx

theorem infinity_compare_of_isDouble {x : UnpackedFloat} (hx : IsDouble x) :
    (UnpackedFloat.infinity .positive).compare x = some .gt ∧
      (UnpackedFloat.infinity .negative).compare x = some .lt := by
  cases x with
  | zero s => cases s <;> exact ⟨rfl, rfl⟩
  | finite s => cases s <;> exact ⟨rfl, rfl⟩
  | _ => cases hx

theorem compare_infinity_of_isDouble {x : UnpackedFloat} (hx : IsDouble x) :
    x.compare (.infinity .positive) = some .lt ∧ x.compare (.infinity .negative) = some .gt := by
  cases x with
  | zero s => cases s <;> exact ⟨rfl, rfl⟩
  | finite s => cases s <;> exact ⟨rfl, rfl⟩
  | _ => cases hx

/-! ### Arithmetic on doubles -/

theorem normalize_apply (s : Sign) {m : Nat} (hm : 0 < m) (e : Int) (zs : Sign) :
    normalize Format.binary64 (s.apply m) e zs = round Format.binary64 s m e := by
  cases s
  · rw [normalize_of_neg (by simp [Sign.apply]; omega)]
    simp [Sign.apply]
  · rw [normalize_of_pos (by simp [Sign.apply]; omega)]
    simp [Sign.apply]

theorem normalize_of_isDouble {x : UnpackedFloat} (hx : IsDouble x) :
    ∃ (n E : Int) (zs : Sign), (n : ℚ) * 2 ^ E = value x ∧
      normalize Format.binary64 n E zs = x := by
  cases x with
  | zero s => exact ⟨0, 0, s, by simp [value], normalize_zero⟩
  | finite s m e hm =>
    obtain ⟨hlt, he, -, hc⟩ := hx
    exact ⟨s.apply m, e, s, rfl, by rw [normalize_apply s hm, round_canonical s hm hlt he hc]⟩
  | _ => cases hx

theorem value_decreaseExponent (s : Sign) (m : Nat) {e t : Int} (ht : t ≤ e) :
    (s.apply (decreaseExponent m e t).1 : ℚ) * 2 ^ t = (s.apply m : ℚ) * 2 ^ e := by
  have h := cast_mul_pow_toNat m ht
  simp only [decreaseExponent, Nat.shiftLeft_eq]
  cases s
  · simp only [Sign.apply, Int.cast_neg, Int.cast_natCast, neg_mul, neg_inj]
    exact_mod_cast h
  · simp only [Sign.apply, Int.cast_natCast]
    exact_mod_cast h

theorem value_neg_sign (s : Sign) {m : Nat} (e : Int) (hm : 0 < m) :
    value (.finite (-s) m e hm) = -value (.finite s m e hm) := by
  cases s
  · show ((Sign.positive.apply m : Int) : ℚ) * 2 ^ e =
      -(((Sign.negative.apply m : Int) : ℚ) * 2 ^ e)
    simp [Sign.apply]
  · show ((Sign.negative.apply m : Int) : ℚ) * 2 ^ e =
      -(((Sign.positive.apply m : Int) : ℚ) * 2 ^ e)
    simp [Sign.apply]

theorem isDouble_neg_sign (s : Sign) {m : Nat} {e : Int} (hm : 0 < m)
    (h : IsDouble (.finite s m e hm)) : IsDouble (.finite (-s) m e hm) := h

/-- The sum of two doubles is the rounding of the sum of their numbers. -/
theorem add_eq_normalize {x y : UnpackedFloat} (hx : IsDouble x) (hy : IsDouble y) :
    ∃ (n E : Int) (zs : Sign), (n : ℚ) * 2 ^ E = value x + value y ∧
      UnpackedFloat.add Format.binary64 x y = normalize Format.binary64 n E zs := by
  cases x with
  | zero s =>
    cases y with
    | zero t =>
      refine ⟨0, 0, if s == t then s else .positive, by simp [value], ?_⟩
      rw [normalize_zero]
      simp only [UnpackedFloat.add]
      split <;> rfl
    | finite t m e hm =>
      obtain ⟨n, E, zs, hq, h⟩ := normalize_of_isDouble hy
      exact ⟨n, E, zs, by simp [hq, value], h.symm⟩
    | _ => cases hy
  | finite s m e hm =>
    cases y with
    | zero t =>
      obtain ⟨n, E, zs, hq, h⟩ := normalize_of_isDouble hx
      exact ⟨n, E, zs, by simp [hq, value], h.symm⟩
    | finite t m' e' hm' =>
      refine ⟨s.apply (decreaseExponent m e (min e e')).1 +
        t.apply (decreaseExponent m' e' (min e e')).1, min e e', .positive, ?_, rfl⟩
      push_cast
      rw [add_mul, value_decreaseExponent s m (min_le_left e e'),
        value_decreaseExponent t m' (min_le_right e e')]
      rfl
    | _ => cases hy
  | _ => cases hx

/-- The difference of two doubles is the rounding of the difference of their numbers. -/
theorem sub_eq_normalize {x y : UnpackedFloat} (hx : IsDouble x) (hy : IsDouble y) :
    ∃ (n E : Int) (zs : Sign), (n : ℚ) * 2 ^ E = value x - value y ∧
      UnpackedFloat.sub Format.binary64 x y = normalize Format.binary64 n E zs := by
  cases x with
  | zero s =>
    cases y with
    | zero t =>
      refine ⟨0, 0, if s == -t then s else .positive, by simp [value], ?_⟩
      rw [normalize_zero]
      simp only [UnpackedFloat.sub]
      split <;> rfl
    | finite t m e hm =>
      obtain ⟨n, E, zs, hq, h⟩ := normalize_of_isDouble (isDouble_neg_sign t hm hy)
      exact ⟨n, E, zs, by rw [hq, value_neg_sign]; simp [value], h.symm⟩
    | _ => cases hy
  | finite s m e hm =>
    cases y with
    | zero t =>
      obtain ⟨n, E, zs, hq, h⟩ := normalize_of_isDouble hx
      exact ⟨n, E, zs, by simp [hq, value], h.symm⟩
    | finite t m' e' hm' =>
      refine ⟨s.apply (decreaseExponent m e (min e e')).1 -
        t.apply (decreaseExponent m' e' (min e e')).1, min e e', .positive, ?_, rfl⟩
      push_cast
      rw [sub_mul, value_decreaseExponent s m (min_le_left e e'),
        value_decreaseExponent t m' (min_le_right e e')]
      rfl
    | _ => cases hy
  | _ => cases hx

theorem apply_mul_sign (s t : Sign) (a b : Int) :
    (s * t).apply (a * b) = s.apply a * t.apply b := by
  cases s <;> cases t
  · change Sign.positive.apply (a * b) = _
    simp [Sign.apply]
  · change Sign.negative.apply (a * b) = _
    simp [Sign.apply]
  · change Sign.negative.apply (a * b) = _
    simp [Sign.apply]
  · change Sign.positive.apply (a * b) = _
    simp [Sign.apply]

/-- A product of mantissas of doubles has 53 bits, or sits at an exponent no larger than the
least: it is rounded from where it stands, with no shift to the left. -/
theorem exp_le_target_mul {m m' : Nat} {e e' : Int} (hm : 0 < m) (hm' : 0 < m')
    (hc : 2 ^ 52 ≤ m ∨ e = -1074) (hc' : 2 ^ 52 ≤ m' ∨ e' = -1074) (he : -1074 ≤ e)
    (he' : -1074 ≤ e') : e + e' ≤ target (m * m') (e + e') := by
  rw [target_eq]
  have hlog (h : 2 ^ 52 ≤ m * m') : 52 ≤ (m * m').log2 := (Nat.le_log2 (by positivity)).2 h
  rcases hc with hc | rfl
  · have := hlog (le_trans hc (Nat.le_mul_of_pos_right m hm'))
    omega
  · rcases hc' with hc' | rfl
    · have := hlog (le_trans hc' (Nat.le_mul_of_pos_left m' hm))
      omega
    · omega

theorem roundWithAccuracy_eq_round (s : Sign) {m : Nat} (e : Int) (he : e ≤ target m e) :
    roundWithAccuracy Format.binary64 s m e .exact = round Format.binary64 s m e := by
  unfold UnpackedFloat.round decreaseExponent
  change _ = roundWithAccuracy Format.binary64 s (m <<< (e - target m e).toNat)
    (e - (e - target m e).toNat) .exact
  rw [show (e - target m e).toNat = 0 by omega]
  simp

/-- The product of two doubles is the rounding of the product of their numbers. -/
theorem mul_eq_normalize {x y : UnpackedFloat} (hx : IsDouble x) (hy : IsDouble y) :
    ∃ (n E : Int) (zs : Sign), (n : ℚ) * 2 ^ E = value x * value y ∧
      UnpackedFloat.mul Format.binary64 x y = normalize Format.binary64 n E zs := by
  cases x with
  | zero s =>
    cases y with
    | zero t => exact ⟨0, 0, s * t, by simp [value], by rw [normalize_zero]; rfl⟩
    | finite t m e hm => exact ⟨0, 0, s * t, by simp [value], by rw [normalize_zero]; rfl⟩
    | _ => cases hy
  | finite s m e hm =>
    cases y with
    | zero t => exact ⟨0, 0, s * t, by simp [value], by rw [normalize_zero]; rfl⟩
    | finite t m' e' hm' =>
      obtain ⟨-, he, -, hc⟩ := hx
      obtain ⟨-, he', -, hc'⟩ := hy
      refine ⟨(s * t).apply (m * m' : Nat), e + e', .positive, ?_, ?_⟩
      · rw [Nat.cast_mul, apply_mul_sign, Int.cast_mul, zpow_add₀ two_ne_zero]
        simp only [value]
        ring
      · rw [normalize_apply _ (Nat.mul_pos hm hm')]
        exact roundWithAccuracy_eq_round _ _ (exp_le_target_mul hm hm' hc hc' he he')
    | _ => cases hy
  | _ => cases hx

end ProfileLikelihood.Numeric.Rounding

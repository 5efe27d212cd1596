import Mathlib
import ProfileLikelihood.Proofs.FloatArith
import ProfileLikelihood.Transform

/-! The maps between a box and the real line in exact arithmetic: the same definitions, read
over the reals. There the logistic function is the sigmoid and the logit inverts it, so the map
of an interval keeps the order and `toUnbounded` undoes it wherever the logit's clamp is
inactive. Softplus increases strictly below its cutoff at 20 and above it, but at 20 it is
`log (1 + e²⁰)`, about `20 + 2·10⁻⁹`, while just above 20 it is the identity: it drops across
the cutoff, on a window narrower than `e⁻²⁰`. Its inverse has the same cutoff; it is undone by
softplus on all positive reals, so the maps of a single bound undo `toUnbounded` too, but it
undoes softplus only where softplus does not cross 20. -/

namespace ProfileLikelihood

open Numeric

/-- Exact arithmetic: the real exponential and logarithm, and `max` and the clamp as they are
on numbers. -/
noncomputable instance : Scalar ℝ where
  decLt := inferInstance
  decLe := inferInstance
  exp := Real.exp
  log := Real.log
  log1p x := Real.log (1 + x)
  expm1 x := Real.exp x - 1
  maxNum := max
  minNum := min
  clamp x lo hi := if x < lo then lo else if x > hi then hi else x
  abs x := |x|
  powi x n := x ^ n
  isNaN _ := false
  isFinite _ := true
  beq a b := decide (a = b)
  ofFloat x := (ratValue x : ℝ)
  ofNat n := n
  epsilon := (ratValue epsilon : ℝ)

section Primitives

@[simp] theorem scalar_exp_eq (x : ℝ) : Scalar.exp x = Real.exp x := rfl

@[simp] theorem scalar_log_eq (x : ℝ) : Scalar.log x = Real.log x := rfl

@[simp] theorem scalar_log1p_eq (x : ℝ) : Scalar.log1p x = Real.log (1 + x) := rfl

@[simp] theorem scalar_expm1_eq (x : ℝ) : Scalar.expm1 x = Real.exp x - 1 := rfl

@[simp] theorem scalar_maxNum_eq (a b : ℝ) : Scalar.maxNum a b = max a b := rfl

theorem scalar_clamp_of_mem {x lo hi : ℝ} (h₁ : lo ≤ x) (h₂ : x ≤ hi) :
    Scalar.clamp x lo hi = x := by
  show (if x < lo then lo else if x > hi then hi else x) = x
  rw [if_neg (not_lt.2 h₁), if_neg (not_lt.2 h₂)]

theorem logitEps_pos : (0 : ℝ) < logitEps := by
  simp only [logitEps]
  norm_num

end Primitives

/-! ### `log (1 + eˣ)` -/

theorem lt_log_one_add_exp (x : ℝ) : x < Real.log (1 + Real.exp x) := by
  rw [Real.lt_log_iff_exp_lt (by positivity)]
  linarith

theorem log_one_add_exp_strictMono : StrictMono fun x : ℝ => Real.log (1 + Real.exp x) :=
  fun _ _ hab => Real.log_lt_log (by positivity) (by linarith [Real.exp_lt_exp.2 hab])

theorem log_one_add_exp_le (x : ℝ) : Real.log (1 + Real.exp x) ≤ x + Real.exp (-x) := by
  have hsplit : 1 + Real.exp x = Real.exp x * (1 + Real.exp (-x)) := by
    rw [mul_add, ← Real.exp_add]
    simp [add_comm]
  rw [hsplit, Real.log_mul (by positivity) (by positivity), Real.log_exp]
  linarith [Real.log_le_sub_one_of_pos (by positivity : (0 : ℝ) < 1 + Real.exp (-x))]

/-! ### The scalar maps over the reals -/

theorem softplus_eq (x : ℝ) :
    softplus x = if 20 < x then x else Real.log (1 + Real.exp x) := by
  simp only [softplus, scalar_log1p_eq, scalar_exp_eq]
  norm_num

theorem softplus_of_le {x : ℝ} (h : x ≤ 20) : softplus x = Real.log (1 + Real.exp x) := by
  rw [softplus_eq, if_neg (not_lt.2 h)]

theorem softplus_of_lt {x : ℝ} (h : 20 < x) : softplus x = x := by
  rw [softplus_eq, if_pos h]

theorem softplusInv_eq (y : ℝ) :
    softplusInv y = if 20 < y then y else Real.log (Real.exp y - 1) := by
  simp only [softplusInv, scalar_log_eq, scalar_expm1_eq]
  norm_num

theorem softplusInv_of_le {y : ℝ} (h : y ≤ 20) : softplusInv y = Real.log (Real.exp y - 1) := by
  rw [softplusInv_eq, if_neg (not_lt.2 h)]

theorem softplusInv_of_lt {y : ℝ} (h : 20 < y) : softplusInv y = y := by
  rw [softplusInv_eq, if_pos h]

/-- Both branches of the logistic function are the sigmoid. -/
theorem logistic_eq_sigmoid (x : ℝ) : logistic x = Real.sigmoid x := by
  by_cases hx : 0 ≤ x
  · have hge : x ≥ (0.0 : ℝ) := by norm_num; exact hx
    simp only [logistic, if_pos hge, scalar_exp_eq, Real.sigmoid_def]
    norm_num
  · have hlt : ¬x ≥ (0.0 : ℝ) := by norm_num; linarith
    simp only [logistic, if_neg hlt, scalar_exp_eq, Real.sigmoid_def, Real.exp_neg]
    norm_num
    field_simp
    ring

theorem logit_of_mem {p : ℝ} (h₁ : logitEps ≤ p) (h₂ : p ≤ 1 - logitEps) :
    logit p = Real.log (p / (1 - p)) := by
  have h₂' : p ≤ (1.0 : ℝ) - logitEps := by norm_num; exact h₂
  simp only [logit, scalar_clamp_of_mem h₁ h₂', scalar_log_eq]
  norm_num

theorem sigmoid_log_div_one_sub {p : ℝ} (h₀ : 0 < p) (h₁ : p < 1) :
    Real.sigmoid (Real.log (p / (1 - p))) = p := by
  have hq : 0 < p / (1 - p) := div_pos h₀ (by linarith)
  rw [Real.sigmoid_def, Real.exp_neg, Real.exp_log hq]
  have : (1 - p) ≠ 0 := by linarith
  field_simp
  ring

/-! ### Softplus across its cutoff -/

theorem softplus_strictMonoOn_Iic : StrictMonoOn (softplus : ℝ → ℝ) (Set.Iic 20) := by
  intro a ha b hb hab
  rw [softplus_of_le ha, softplus_of_le hb]
  exact log_one_add_exp_strictMono hab

theorem softplus_strictMonoOn_Ioi : StrictMonoOn (softplus : ℝ → ℝ) (Set.Ioi 20) := by
  intro a ha b hb hab
  rwa [softplus_of_lt ha, softplus_of_lt hb]

theorem softplus_le_softplus_iff_of_le_of_lt {a b : ℝ} (ha : a ≤ 20) (hb : 20 < b) :
    softplus a ≤ softplus b ↔ Real.log (1 + Real.exp a) ≤ b := by
  rw [softplus_of_le ha, softplus_of_lt hb]

/-- Softplus keeps the order of two points unless the larger lies just above the cutoff. -/
theorem softplus_le_softplus {a b : ℝ} (hab : a ≤ b)
    (hb : b ∉ Set.Ioo 20 (20 + Real.exp (-20))) : softplus a ≤ softplus b := by
  rcases le_or_gt b 20 with hb20 | hb20
  · exact softplus_strictMonoOn_Iic.monotoneOn (le_trans hab hb20) hb20 hab
  rcases le_or_gt a 20 with ha20 | ha20
  · -- across the cutoff: `b` is past the window, and softplus below it is at most
    have hwin : 20 + Real.exp (-20) ≤ b := by
      by_contra h
      exact hb ⟨hb20, not_le.1 h⟩
    rw [softplus_le_softplus_iff_of_le_of_lt ha20 hb20]
    calc Real.log (1 + Real.exp a) ≤ Real.log (1 + Real.exp 20) :=
          log_one_add_exp_strictMono.monotone ha20
      _ ≤ 20 + Real.exp (-20) := log_one_add_exp_le 20
      _ ≤ b := hwin
  · exact softplus_strictMonoOn_Ioi.monotoneOn ha20 hb20 hab

/-- The inverse undoes softplus exactly where softplus does not take a point at or below the
cutoff above it. -/
theorem softplusInv_softplus_iff (x : ℝ) :
    softplusInv (softplus x) = x ↔ 20 < x ∨ softplus x ≤ 20 := by
  rcases lt_or_ge 20 x with hx | hx
  · simp [softplus_of_lt hx, softplusInv_of_lt hx, hx]
  · rw [softplus_of_le hx]
    rcases le_or_gt (Real.log (1 + Real.exp x)) 20 with hy | hy
    · have hexp : Real.exp (Real.log (1 + Real.exp x)) = 1 + Real.exp x :=
        Real.exp_log (by positivity)
      simp [softplusInv_of_le hy, hexp, hy]
    · -- the inverse is the identity there, and softplus moved `x` up
      have hne : Real.log (1 + Real.exp x) ≠ x := (lt_log_one_add_exp x).ne'
      simp [softplusInv_of_lt hy, hne, not_lt.2 hx, not_le.2 hy]

theorem softplus_softplusInv {y : ℝ} (hy : 0 < y) : softplus (softplusInv y) = y := by
  rcases lt_or_ge 20 y with h | h
  · rw [softplusInv_of_lt h, softplus_of_lt h]
  · -- `log (eʸ - 1)` lies below `y`, so softplus takes its exact branch
    have hpos : 0 < Real.exp y - 1 := by linarith [Real.add_one_lt_exp hy.ne']
    have hlt : Real.log (Real.exp y - 1) < y := by
      rw [Real.log_lt_iff_lt_exp hpos]
      linarith
    rw [softplusInv_of_le h, softplus_of_le (by linarith), Real.exp_log hpos]
    simp

/-- Softplus at `20 + 10⁻⁹` is below softplus at 20, and the inverse does not bring
softplus at 20 back to 20. -/
theorem softplus_drops_across_cutoff :
    softplus (20.000000001 : ℝ) < softplus 20 ∧ softplusInv (softplus (20 : ℝ)) ≠ 20 := by
  have hexp20 : Real.exp 20 < 5e8 := by
    have h := Real.exp_one_lt_d9
    calc Real.exp 20 = Real.exp 1 ^ 20 := by rw [← Real.exp_nat_mul]; norm_num
      _ < 2.7182818286 ^ 20 := by gcongr
      _ < 5e8 := by norm_num
  have hδ : Real.exp 1e-9 < 1 / (1 - 1e-9) :=
    Real.exp_bound_div_one_sub_of_interval' (by norm_num) (by norm_num)
  -- `e^(20 + δ) < 1 + e²⁰` as long as `e²⁰ δ / (1 - δ) < 1`
  have hcross : (20.000000001 : ℝ) < Real.log (1 + Real.exp 20) := by
    rw [Real.lt_log_iff_exp_lt (by positivity)]
    calc Real.exp 20.000000001 = Real.exp 20 * Real.exp 1e-9 := by
          rw [← Real.exp_add]; norm_num
      _ < Real.exp 20 * (1 / (1 - 1e-9)) := mul_lt_mul_of_pos_left hδ (Real.exp_pos 20)
      _ ≤ 1 + Real.exp 20 := by
        rw [mul_one_div, div_le_iff₀ (by norm_num)]
        norm_num
        linarith
  have h20 : softplus (20 : ℝ) = Real.log (1 + Real.exp 20) := softplus_of_le le_rfl
  refine ⟨?_, ?_⟩
  · rw [softplus_of_lt (by norm_num), h20]
    exact hcross
  · rw [h20, softplusInv_of_lt (by linarith)]
    exact (lt_log_one_add_exp 20).ne'

/-! ### The maps of a coordinate -/

namespace Transform

theorem toBounded_lower (lb z : ℝ) : (lower lb).toBounded z = lb + softplus z := rfl

theorem toBounded_upper (ub z : ℝ) : (upper ub).toBounded z = ub - softplus z := rfl

theorem toBounded_interval (lb ub z : ℝ) :
    (interval lb ub).toBounded z = lb + (ub - lb) * Real.sigmoid z := by
  rw [toBounded, logistic_eq_sigmoid]

theorem toBounded_interval_monotone {lb ub : ℝ} (h : lb ≤ ub) :
    Monotone (interval lb ub).toBounded := by
  intro a b hab
  rw [toBounded_interval, toBounded_interval]
  have := mul_le_mul_of_nonneg_left (Real.sigmoid_le hab) (sub_nonneg.2 h)
  linarith

theorem toBounded_lower_le {lb a b : ℝ} (hab : a ≤ b)
    (hb : b ∉ Set.Ioo 20 (20 + Real.exp (-20))) :
    (lower lb).toBounded a ≤ (lower lb).toBounded b := by
  rw [toBounded_lower, toBounded_lower]
  linarith [softplus_le_softplus hab hb]

theorem toBounded_upper_le {ub a b : ℝ} (hab : a ≤ b)
    (hb : b ∉ Set.Ioo 20 (20 + Real.exp (-20))) :
    (upper ub).toBounded b ≤ (upper ub).toBounded a := by
  rw [toBounded_upper, toBounded_upper]
  linarith [softplus_le_softplus hab hb]

theorem toUnbounded_lower (lb x : ℝ) :
    (lower lb).toUnbounded x = softplusInv (max (x - lb) logitEps) := rfl

theorem toUnbounded_upper (ub x : ℝ) :
    (upper ub).toUnbounded x = softplusInv (max (ub - x) logitEps) := rfl

theorem toUnbounded_interval_of_lt {lb ub : ℝ} (h : lb < ub) (x : ℝ) :
    (interval lb ub).toUnbounded x = logit ((x - lb) / (ub - lb)) := by
  have hw : ¬ub - lb ≤ (0.0 : ℝ) := by norm_num; linarith
  simp only [toUnbounded, hw, if_false]

theorem toUnbounded_interval_self (lb x : ℝ) : (interval lb lb).toUnbounded x = 0 := by
  simp only [toUnbounded, sub_self]
  norm_num

/-- `x` is a point where `toUnbounded` clamps nothing: at least `10⁻¹⁰` inside a single bound;
between two bounds, at a fraction of the width between `10⁻¹⁰` and `1 - 10⁻¹⁰`; or the one point
of an interval of width zero. -/
def ClampsInactive : Transform ℝ → ℝ → Prop
  | free, _ => True
  | lower lb, x => logitEps ≤ x - lb
  | upper ub, x => logitEps ≤ ub - x
  | interval lb ub, x =>
    (lb < ub ∧ logitEps ≤ (x - lb) / (ub - lb) ∧ (x - lb) / (ub - lb) ≤ 1 - logitEps) ∨
      (lb = ub ∧ x = lb)

theorem toBounded_toUnbounded {t : Transform ℝ} {x : ℝ} (h : t.ClampsInactive x) :
    t.toBounded (t.toUnbounded x) = x := by
  cases t with
  | free => rfl
  | lower lb =>
    have h' : logitEps ≤ x - lb := h
    rw [toUnbounded_lower, max_eq_left h', toBounded_lower,
      softplus_softplusInv (logitEps_pos.trans_le h')]
    ring
  | upper ub =>
    have h' : logitEps ≤ ub - x := h
    rw [toUnbounded_upper, max_eq_left h', toBounded_upper,
      softplus_softplusInv (logitEps_pos.trans_le h')]
    ring
  | interval lb ub =>
    rcases h with ⟨hlt, h₁, h₂⟩ | ⟨rfl, rfl⟩
    · have hp₀ : 0 < (x - lb) / (ub - lb) := logitEps_pos.trans_le h₁
      have hp₁ : (x - lb) / (ub - lb) < 1 := by linarith [logitEps_pos]
      rw [toUnbounded_interval_of_lt hlt, logit_of_mem h₁ h₂, toBounded_interval,
        sigmoid_log_div_one_sub hp₀ hp₁]
      have hw : ub - lb ≠ 0 := sub_ne_zero.2 hlt.ne'
      field_simp
      ring
    · rw [toUnbounded_interval_self, toBounded_interval]
      ring

/-- How `toBounded` orders the line, by kind of map: the identity and the map of an interval
keep the order; the map of a lower bound keeps it and that of an upper bound reverses it, but
for a larger point just above the cutoff of softplus. -/
def OrderLaw : Transform ℝ → Prop
  | free => StrictMono (free : Transform ℝ).toBounded
  | lower lb => ∀ a b : ℝ, a ≤ b → b ∉ Set.Ioo 20 (20 + Real.exp (-20)) →
      (lower lb).toBounded a ≤ (lower lb).toBounded b
  | upper ub => ∀ a b : ℝ, a ≤ b → b ∉ Set.Ioo 20 (20 + Real.exp (-20)) →
      (upper ub).toBounded b ≤ (upper ub).toBounded a
  | interval lb ub => lb ≤ ub → Monotone (interval lb ub).toBounded

theorem orderLaw (t : Transform ℝ) : t.OrderLaw := by
  cases t with
  | free => exact fun _ _ h => h
  | lower lb => exact fun _ _ hab hb => toBounded_lower_le hab hb
  | upper ub => exact fun _ _ hab hb => toBounded_upper_le hab hb
  | interval lb ub => exact toBounded_interval_monotone

end Transform

/-- What softplus and its inverse do in exact arithmetic. -/
structure SoftplusLaws : Prop where
  /-- Softplus increases strictly up to its cutoff, and beyond it. -/
  below : StrictMonoOn (softplus : ℝ → ℝ) (Set.Iic 20)
  above : StrictMonoOn (softplus : ℝ → ℝ) (Set.Ioi 20)
  /-- Across the cutoff it keeps the order exactly when the larger point is past
  `log (1 + eᵃ)`, ... -/
  across : ∀ a b : ℝ, a ≤ 20 → 20 < b →
    (softplus a ≤ softplus b ↔ Real.log (1 + Real.exp a) ≤ b)
  /-- ... so it keeps the order of any two points but for a larger one just above 20. -/
  off_window : ∀ a b : ℝ, a ≤ b → b ∉ Set.Ioo 20 (20 + Real.exp (-20)) →
    softplus a ≤ softplus b
  /-- The inverse undoes softplus where softplus does not cross the cutoff, ... -/
  inv_softplus : ∀ x : ℝ, softplusInv (softplus x) = x ↔ 20 < x ∨ softplus x ≤ 20
  /-- ... and softplus undoes the inverse on all positive reals. -/
  softplus_inv : ∀ y : ℝ, 0 < y → softplus (softplusInv y) = y

theorem softplusLaws : SoftplusLaws where
  below := softplus_strictMonoOn_Iic
  above := softplus_strictMonoOn_Ioi
  across _ _ ha hb := softplus_le_softplus_iff_of_le_of_lt ha hb
  off_window _ _ hab hb := softplus_le_softplus hab hb
  inv_softplus := softplusInv_softplus_iff
  softplus_inv _ hy := softplus_softplusInv hy

/-- What a map between a coordinate's bounds and the real line does in exact arithmetic. -/
structure Transform.ExactLaws (t : Transform ℝ) : Prop where
  softplus : SoftplusLaws
  order : t.OrderLaw
  /-- The map undoes `toUnbounded` where that clamps nothing. -/
  round_trip : ∀ x : ℝ, t.ClampsInactive x → t.toBounded (t.toUnbounded x) = x

/-- In exact arithmetic softplus increases on each side of its cutoff but drops across it, on a
window of width `e⁻²⁰` above it, and its inverse undoes it only where it does not cross the
cutoff; so every map keeps (or, for an upper bound, reverses) the order of the line, the maps
of a single bound but on that window, and every map undoes `toUnbounded` where no clamp acts. -/
theorem bound_maps_exact_laws (t : Transform ℝ) : t.ExactLaws :=
  ⟨softplusLaws, t.orderLaw, fun _ h => Transform.toBounded_toUnbounded h⟩

end ProfileLikelihood

import ProfileLikelihood.Proofs.FloatArith
import ProfileLikelihood.Proofs.Minimizer

/-! The start of a bounded run. Each coordinate of the start is clamped into its bounds and then
kept a margin inside every finite bound: a thousandth of the width between two finite bounds, a
thousandth of `max(|b|, 1)` at a single finite bound `b`. Rounding keeps the moved bounds in order
and inside the box, so the start lands in the box, except when the width of two finite bounds is
too large for a double. It then overflows to `+∞`, the margin with it, the moved bounds become `+∞`
and `-∞`, and the clamp between them is refused. The bounds of a problem are checked only for NaN
and order, so such a box is accepted, and a run on it stops at its start. -/

namespace ProfileLikelihood

open Numeric Float.Model Float.Model.UnpackedFloat Rounding

/-- The margin is a positive double of at most an eighth. -/
theorem startMargin_spec :
    startMargin.isFinite = true ∧ 0 < ratValue startMargin ∧ ratValue startMargin ≤ 1 / 8 := by
  have hfin : startMargin.isFinite = true := by decide
  have h8 : (0.125 : Float).isFinite = true := by decide
  have hv8 : ratValue 0.125 = 1 / 8 := by
    have h : (0.125 : Float).toModel.unpack = .finite .positive (2 ^ 52) (-55) (by decide) := rfl
    rw [ratValue, h]
    norm_num [value, Sign.apply]
  refine ⟨hfin, ?_, ?_⟩
  · rw [← ratValue_zero]
    exact (lt_iff_ratValue_lt isFinite_zero hfin).1 (by decide)
  · rw [← hv8]
    exact (le_iff_ratValue_le hfin h8).1 (by decide)

/-! ### Clamping -/

theorem clampChecked_of_le {x lo hi : Float} (h : lo ≤ hi) :
    clampChecked x lo hi = .ok (Numeric.clamp x lo hi) := by
  simp [clampChecked, h]

theorem clampChecked_of_not_le {x lo hi : Float} (h : ¬lo ≤ hi) :
    clampChecked x lo hi = .error (.reversedClamp lo hi) := by
  simp [clampChecked, h]

theorem clampChecked_eq_error {x lo hi : Float} {err : FitError}
    (h : clampChecked x lo hi = .error err) : err = .reversedClamp lo hi ∧ ¬lo ≤ hi := by
  unfold clampChecked at h
  split at h
  · cases h
  · cases h
    exact ⟨rfl, ‹_›⟩

/-! ### One coordinate -/

/-- The step `interiorStart` takes at one coordinate, with start `x` and bounds `l`, `u`. -/
def interiorEntry (x l u : Float) : Except FitError Float := do
  let xi ← clampChecked x l u
  match l.isFinite, u.isFinite with
  | true, true =>
    let m := startMargin * (u - l)
    if m > 0.0 then clampChecked xi (l + m) (u - m) else pure xi
  | true, false => pure (Numeric.maxNum xi (l + startMargin * Numeric.maxNum l.abs 1.0))
  | false, true => pure (Numeric.minNum xi (u - startMargin * Numeric.maxNum u.abs 1.0))
  | false, false => pure xi

theorem interiorStart_eq (x lb ub : Vec) :
    interiorStart x lb ub =
      (Array.range x.size).mapM fun i => interiorEntry (x.entry i) (lb.entry i) (ub.entry i) :=
  rfl

variable {x l u : Float}

/-- Between two finite bounds whose width is a double, the margin is a finite double, nonnegative
and at most half the width. -/
theorem margin_spec (hl : l.isFinite = true) (hu : u.isFinite = true) (hlu : l ≤ u)
    (hw : (u - l).isFinite = true) :
    (startMargin * (u - l)).isFinite = true ∧ 0 ≤ ratValue (startMargin * (u - l)) ∧
      2 * ratValue (startMargin * (u - l)) ≤ ratValue u - ratValue l := by
  obtain ⟨hsf, hspos, hs8⟩ := startMargin_spec
  have hLU := (le_iff_ratValue_le hl hu).1 hlu
  have hwr := roundsTo_sub hu hl
  have hW := ratValue_nonneg hw (hwr.zero_le (by linarith))
  have hW2 := hwr.ratValue_le_two_mul hw (by linarith)
  have hmr := roundsTo_mul hsf hw
  have hmf := hmr.isFinite isFinite_zero hw (by rw [ratValue_zero]; positivity)
    (mul_le_of_le_one_left hW (by linarith))
  have hM0 := ratValue_nonneg hmf (hmr.zero_le (by positivity))
  have hM2 := hmr.ratValue_le_two_mul hmf (by positivity)
  refine ⟨hmf, hM0, ?_⟩
  -- each rounding at most doubles, and the margin's factor is at most an eighth
  calc 2 * ratValue (startMargin * (u - l))
      ≤ 4 * ratValue startMargin * ratValue (u - l) := by linarith
    _ ≤ 4 * ratValue startMargin * (2 * (ratValue u - ratValue l)) := by gcongr
    _ = 8 * ratValue startMargin * (ratValue u - ratValue l) := by ring
    _ ≤ 1 * (ratValue u - ratValue l) := by gcongr; linarith
    _ = ratValue u - ratValue l := one_mul _

/-- Two finite bounds whose width is a double: the start lands between them. -/
theorem interiorEntry_of_width (hx : x.isFinite = true) (hl : l.isFinite = true)
    (hu : u.isFinite = true) (hlu : l ≤ u) (hw : (u - l).isFinite = true) :
    ∃ y, interiorEntry x l u = .ok y ∧ l ≤ y ∧ y ≤ u := by
  obtain ⟨hmf, hM0, h2M⟩ := margin_spec hl hu hlu hw
  have hxi := clamp_isFinite hx hl hu
  obtain ⟨-, hxl, hxu⟩ := clamp_mem_of_not_isNaN (float_isNaN_of_isFinite hx)
    (float_isNaN_of_isFinite hl) (float_isNaN_of_isFinite hu) hlu
  unfold interiorEntry
  rw [clampChecked_of_le hlu]
  simp only [Except.ok_bind, hl, hu]
  split_ifs with hpos
  · -- the bounds moved in by the margin stay in order and inside the box
    have hlm := roundsTo_add hl hmf
    have hum := roundsTo_sub hu hmf
    have h₁ : l ≤ l + startMargin * (u - l) := RoundsTo.le (roundsTo_self hl) hlm (by linarith)
    have h₂ : l + startMargin * (u - l) ≤ u - startMargin * (u - l) :=
      RoundsTo.le hlm hum (by linarith)
    have h₃ : u - startMargin * (u - l) ≤ u := RoundsTo.le hum (roundsTo_self hu) (by linarith)
    have hlmf := hlm.isFinite hl hu (by linarith) (by linarith)
    have humf := hum.isFinite hl hu (by linarith) (by linarith)
    rw [clampChecked_of_le h₂]
    refine ⟨_, rfl, ?_⟩
    have hy := clamp_isFinite hxi hlmf humf
    obtain ⟨-, hy₁, hy₂⟩ := clamp_mem_of_not_isNaN (float_isNaN_of_isFinite hxi)
      (float_isNaN_of_isFinite hlmf) (float_isNaN_of_isFinite humf) h₂
    exact ⟨le_trans_of_isFinite hl hlmf hy h₁ hy₁, le_trans_of_isFinite hy humf hu hy₂ h₃⟩
  · exact ⟨_, rfl, hxl, hxu⟩

/-- Two finite bounds whose width overflows: the margin is `+∞`, the moved bounds are `+∞` and
`-∞`, and the clamp between them is refused. -/
theorem interiorEntry_of_overflow (hl : l.isFinite = true) (hu : u.isFinite = true) (hlu : l ≤ u)
    (hw : (u - l).isFinite = false) :
    interiorEntry x l u = .error (.reversedClamp (l + startMargin * (u - l))
      (u - startMargin * (u - l))) := by
  obtain ⟨hsf, hspos, -⟩ := startMargin_spec
  have hLU := (le_iff_ratValue_le hl hu).1 hlu
  have hwinf := (roundsTo_sub hu hl).unpack_posInf (by linarith) hw
  have hminf := unpack_mul_posInf hsf hspos hwinf
  have hpos : startMargin * (u - l) > 0.0 := by
    rw [GT.gt, float_lt_iff, hminf]
    rfl
  have hrev : ¬l + startMargin * (u - l) ≤ u - startMargin * (u - l) := by
    rw [float_le_iff, unpack_add_posInf hl hminf, unpack_sub_posInf hu hminf]
    decide
  unfold interiorEntry
  rw [clampChecked_of_le hlu]
  simp only [Except.ok_bind, hl, hu]
  rw [if_pos hpos, clampChecked_of_not_le hrev]

theorem unpack_posInf_of_le (hl : l.isFinite = true) (hun : u.isNaN = false)
    (hu : u.isFinite = false) (hlu : l ≤ u) : u.toModel.unpack = .infinity .positive := by
  rcases isFinite_or_unpack_infinity hun with hfin | ⟨s, hs⟩
  · rw [hfin] at hu
    cases hu
  · cases s
    · rw [float_le_iff, hs, (compare_infinity_of_isDouble (unpack_isDouble hl)).2] at hlu
      cases hlu
    · exact hs

theorem unpack_negInf_of_le (hln : l.isNaN = false) (hl : l.isFinite = false)
    (hu : u.isFinite = true) (hlu : l ≤ u) : l.toModel.unpack = .infinity .negative := by
  rcases isFinite_or_unpack_infinity hln with hfin | ⟨s, hs⟩
  · rw [hfin] at hl
    cases hl
  · cases s
    · exact hs
    · rw [float_le_iff, hs, (infinity_compare_of_isDouble (unpack_isDouble hu)).1] at hlu
      cases hlu

/-- The margin at a single finite bound `b`: a thousandth of `max(|b|, 1)`, a finite double and
nonnegative. -/
theorem halfMargin_spec {b : Float} (hb : b.isFinite = true) :
    (startMargin * maxNum b.abs 1.0).isFinite = true ∧
      0 ≤ ratValue (startMargin * maxNum b.abs 1.0) := by
  obtain ⟨hsf, hspos, hs8⟩ := startMargin_spec
  obtain ⟨haf, hav⟩ := abs_of_isFinite hb
  have h1 : (1.0 : Float).isFinite = true := by decide
  have hk : (maxNum b.abs 1.0).isFinite = true ∧ 0 ≤ ratValue (maxNum b.abs 1.0) := by
    unfold maxNum
    rw [if_neg (by rw [float_isNaN_of_isFinite haf]; decide)]
    split_ifs
    · exact ⟨h1, ratValue_nonneg h1 (by decide)⟩
    · exact ⟨haf, by rw [hav]; exact abs_nonneg _⟩
  obtain ⟨hkf, hk0⟩ := hk
  have hcr := roundsTo_mul hsf hkf
  have hcf := hcr.isFinite isFinite_zero hkf (by rw [ratValue_zero]; positivity)
    (mul_le_of_le_one_left hk0 (by linarith))
  exact ⟨hcf, ratValue_nonneg hcf (hcr.zero_le (by positivity))⟩

/-- A finite lower bound and an infinite upper one: the start lands between them. -/
theorem interiorEntry_of_lower (hx : x.isFinite = true) (hl : l.isFinite = true)
    (hun : u.isNaN = false) (hu : u.isFinite = false) (hlu : l ≤ u) :
    ∃ y, interiorEntry x l u = .ok y ∧ l ≤ y ∧ y ≤ u := by
  have huinf := unpack_posInf_of_le hl hun hu hlu
  obtain ⟨hcf, hc0⟩ := halfMargin_spec hl
  have hb := roundsTo_add hl hcf
  have hlb : l ≤ l + startMargin * maxNum l.abs 1.0 :=
    RoundsTo.le (roundsTo_self hl) hb (by linarith)
  obtain ⟨hxn, hxl, hxu⟩ := clamp_mem_of_not_isNaN (float_isNaN_of_isFinite hx)
    (float_isNaN_of_isFinite hl) hun hlu
  unfold interiorEntry
  rw [clampChecked_of_le hlu]
  simp only [Except.ok_bind, hl, hu]
  refine ⟨_, rfl, ?_⟩
  generalize startMargin * maxNum l.abs 1.0 = c at hb hlb
  unfold maxNum
  rw [if_neg (by rw [hxn]; decide)]
  split_ifs
  · exact ⟨hlb, le_of_unpack_posInf hb.isNaN huinf⟩
  · exact ⟨hxl, hxu⟩

/-- An infinite lower bound and a finite upper one: the start lands between them. -/
theorem interiorEntry_of_upper (hx : x.isFinite = true) (hln : l.isNaN = false)
    (hl : l.isFinite = false) (hu : u.isFinite = true) (hlu : l ≤ u) :
    ∃ y, interiorEntry x l u = .ok y ∧ l ≤ y ∧ y ≤ u := by
  have hlinf := unpack_negInf_of_le hln hl hu hlu
  obtain ⟨hcf, hc0⟩ := halfMargin_spec hu
  have hb := roundsTo_sub hu hcf
  have hbu : u - startMargin * maxNum u.abs 1.0 ≤ u :=
    RoundsTo.le hb (roundsTo_self hu) (by linarith)
  obtain ⟨hxn, hxl, hxu⟩ := clamp_mem_of_not_isNaN (float_isNaN_of_isFinite hx) hln
    (float_isNaN_of_isFinite hu) hlu
  unfold interiorEntry
  rw [clampChecked_of_le hlu]
  simp only [Except.ok_bind, hl, hu]
  refine ⟨_, rfl, ?_⟩
  generalize startMargin * maxNum u.abs 1.0 = c at hb hbu
  unfold minNum
  rw [if_neg (by rw [hxn]; decide)]
  split_ifs
  · exact ⟨le_of_unpack_negInf hb.isNaN hlinf, hbu⟩
  · exact ⟨hxl, hxu⟩

theorem interiorEntry_of_free (hx : x.isFinite = true) (hln : l.isNaN = false)
    (hl : l.isFinite = false) (hun : u.isNaN = false) (hu : u.isFinite = false) (hlu : l ≤ u) :
    ∃ y, interiorEntry x l u = .ok y ∧ l ≤ y ∧ y ≤ u := by
  obtain ⟨-, hxl, hxu⟩ := clamp_mem_of_not_isNaN (float_isNaN_of_isFinite hx) hln hun hlu
  unfold interiorEntry
  rw [clampChecked_of_le hlu]
  simp only [Except.ok_bind, hl, hu]
  exact ⟨_, rfl, hxl, hxu⟩

/-- A coordinate with a finite start and bounds that are numbers in order: the start lands
between the bounds, unless both are finite and their width overflows, when the clamp is refused. -/
theorem interiorEntry_cases (hx : x.isFinite = true) (hln : l.isNaN = false)
    (hun : u.isNaN = false) (hlu : l ≤ u) :
    (l.isFinite = true → u.isFinite = true → (u - l).isFinite = true) ∧
        (∃ y, interiorEntry x l u = .ok y ∧ l ≤ y ∧ y ≤ u) ∨
      (l.isFinite = true ∧ u.isFinite = true ∧ (u - l).isFinite = false) ∧
        ∃ lo hi, interiorEntry x l u = .error (.reversedClamp lo hi) := by
  cases hl : l.isFinite <;> cases hu : u.isFinite
  · exact .inl ⟨by simp, interiorEntry_of_free hx hln hl hun hu hlu⟩
  · exact .inl ⟨by simp, interiorEntry_of_upper hx hln hl hu hlu⟩
  · exact .inl ⟨by simp, interiorEntry_of_lower hx hl hun hu hlu⟩
  · cases hw : (u - l).isFinite
    · exact .inr ⟨⟨rfl, rfl, rfl⟩, _, _, interiorEntry_of_overflow hl hu hlu hw⟩
    · exact .inl ⟨fun _ _ => rfl, interiorEntry_of_width hx hl hu hlu hw⟩

/-- A coordinate fails only on a refused clamp, whose lower end is not below its upper one. -/
theorem interiorEntry_eq_error {err : FitError} (h : interiorEntry x l u = .error err) :
    ∃ lo hi, err = .reversedClamp lo hi ∧ ¬lo ≤ hi := by
  unfold interiorEntry at h
  rcases Except.bind_eq_error.1 h with h | ⟨xi, -, h⟩
  · exact ⟨_, _, clampChecked_eq_error h⟩
  · split at h
    · dsimp only at h
      split at h
      · exact ⟨_, _, clampChecked_eq_error h⟩
      · cases h
    all_goals cases h

/-! ### The whole start -/

theorem Check.thetaInput_finite {t : Vec} {dim : Nat} (h : Check.thetaInput t dim = .ok ()) :
    ∀ v ∈ t, v.isFinite = true := by
  unfold Check.thetaInput at h
  split at h
  · cases h
  · split at h
    · cases h
    · exact Check.firstNonFinite_eq_none ‹_›

theorem Vec.entry_mem {v : Vec} {i : Nat} (hi : i < v.size) : v.entry i ∈ v := by
  simp [Vec.entry, hi]

namespace Problem

/-- A reachable problem has one pair of bounds per free parameter, numbers and in order. -/
theorem Reachable.freeBounds {p : Problem} (hp : p.Reachable) :
    p.lb.size = p.dim ∧ ∀ c < p.dim, (p.lb.entry c).isNaN = false ∧
      (p.ub.entry c).isNaN = false ∧ p.lb.entry c ≤ p.ub.entry c := by
  have hlen := hp.fixedOK.length_freeIndices
  refine ⟨by simp [lb, reduce, hlen], fun c hc => ?_⟩
  obtain ⟨i, hi⟩ : ∃ i, p.freeIndices[c]? = some i :=
    ⟨_, List.getElem?_eq_getElem (by omega)⟩
  have hbox := BoxAt.of_checkBounds hp.checkBounds (getElem?_freeIndices.1 hi).1
  have hl : p.lb.entry c = p.lbFull.entry i := by simp [lb, reduce, Vec.entry, hi]
  have hu : p.ub.entry c = p.ubFull.entry i := by simp [ub, reduce, Vec.entry, hi]
  rw [hl, hu]
  exact ⟨hbox.lb_num, hbox.ub_num, hbox.le⟩

/-- What the start of a bounded run does with a problem and a start vector. -/
structure StartLaws (p : Problem) (x0 : Vec) : Prop where
  /-- The start is moved inside the box exactly when no free parameter with two finite bounds
  has a width too large for a double. -/
  ok_iff : (∃ y, interiorStart x0 p.lb p.ub = .ok y) ↔
    ∀ i < p.dim, (p.lb.entry i).isFinite = true → (p.ub.entry i).isFinite = true →
      (p.ub.entry i - p.lb.entry i).isFinite = true
  /-- A start moved inside has one entry per free parameter, each within its bounds. -/
  inside : ∀ y, interiorStart x0 p.lb p.ub = .ok y →
    y.size = p.dim ∧ ∀ i < p.dim, p.lb.entry i ≤ y.entry i ∧ y.entry i ≤ p.ub.entry i
  /-- Otherwise a run stops, with any solver and options, on a clamp whose lower end is not below
  its upper one. -/
  refused : ∀ argmin opts, (∃ i < p.dim, (p.lb.entry i).isFinite = true ∧
      (p.ub.entry i).isFinite = true ∧ (p.ub.entry i - p.lb.entry i).isFinite = false) →
    ∃ lo hi, minimizeInBox argmin opts p x0 = .error (.reversedClamp lo hi) ∧ ¬lo ≤ hi

end Problem

section Accepted

variable {p : Problem} {x0 : Vec}

/-- Each coordinate of a start accepted for a reachable problem lands between its bounds, unless
its two bounds are finite and their width overflows, when its clamp is refused. -/
theorem Problem.Reachable.entry_cases (hp : p.Reachable) (hx : Check.thetaInput x0 p.dim = .ok ())
    {i : Nat} (hi : i < p.dim) :
    ((p.lb.entry i).isFinite = true → (p.ub.entry i).isFinite = true →
        (p.ub.entry i - p.lb.entry i).isFinite = true) ∧
        (∃ y, interiorEntry (x0.entry i) (p.lb.entry i) (p.ub.entry i) = .ok y ∧
          p.lb.entry i ≤ y ∧ y ≤ p.ub.entry i) ∨
      ((p.lb.entry i).isFinite = true ∧ (p.ub.entry i).isFinite = true ∧
          (p.ub.entry i - p.lb.entry i).isFinite = false) ∧
        ∃ lo hi, interiorEntry (x0.entry i) (p.lb.entry i) (p.ub.entry i) =
          .error (.reversedClamp lo hi) := by
  obtain ⟨-, hbox⟩ := hp.freeBounds
  obtain ⟨hln, hun, hlu⟩ := hbox i hi
  have hmem : x0.entry i ∈ x0 := Vec.entry_mem (by rw [Check.thetaInput_eq_ok hx]; exact hi)
  exact interiorEntry_cases (Check.thetaInput_finite hx _ hmem) hln hun hlu

/-- The start is moved inside exactly when no free parameter with two finite bounds has a width
that overflows. -/
theorem Problem.Reachable.interiorStart_ok_iff (hp : p.Reachable)
    (hx : Check.thetaInput x0 p.dim = .ok ()) :
    (∃ y, interiorStart x0 p.lb p.ub = .ok y) ↔
      ∀ i < p.dim, (p.lb.entry i).isFinite = true → (p.ub.entry i).isFinite = true →
        (p.ub.entry i - p.lb.entry i).isFinite = true := by
  rw [interiorStart_eq, Check.thetaInput_eq_ok hx]
  constructor
  · rintro ⟨y, hy⟩ i hi hl hu
    obtain ⟨b, -, hb⟩ := (Except.rangeMapM_eq_ok hy).2 i hi
    rcases hp.entry_cases hx hi with ⟨hw, -⟩ | ⟨-, lo, hi', herr⟩
    · exact hw hl hu
    · rw [hb] at herr
      cases herr
  · intro hw
    apply Except.arrayMapM_eq_ok_of
    intro i hmem
    have hi := Array.mem_range.1 hmem
    rcases hp.entry_cases hx hi with ⟨-, y, hy, -⟩ | ⟨⟨hl, hu, hw'⟩, -⟩
    · exact ⟨y, hy⟩
    · rw [hw i hi hl hu] at hw'
      cases hw'

/-- A start moved inside has one entry per free parameter, each between its bounds. -/
theorem Problem.Reachable.interiorStart_inside (hp : p.Reachable)
    (hx : Check.thetaInput x0 p.dim = .ok ()) {y : Vec} (hy : interiorStart x0 p.lb p.ub = .ok y) :
    y.size = p.dim ∧ ∀ i < p.dim, p.lb.entry i ≤ y.entry i ∧ y.entry i ≤ p.ub.entry i := by
  rw [interiorStart_eq, Check.thetaInput_eq_ok hx] at hy
  obtain ⟨hys, hget⟩ := Except.rangeMapM_eq_ok hy
  refine ⟨hys, fun i hi => ?_⟩
  obtain ⟨b, hb, hf⟩ := hget i hi
  have hyi : y.entry i = b := by simp [Vec.entry, hb]
  rcases hp.entry_cases hx hi with ⟨-, y', hy', hmem⟩ | ⟨-, lo, hi', herr⟩
  · rw [hf] at hy'
    cases hy'
    rw [hyi]
    exact hmem
  · rw [hf] at herr
    cases herr

theorem minimizeInBox_of_interiorStart_error (hx : Check.thetaInput x0 p.dim = .ok ())
    (hdim : p.dim ≠ 0) {err : FitError} (herr : interiorStart x0 p.lb p.ub = .error err)
    (argmin : Argmin) (opts : MinimizeOptions) : minimizeInBox argmin opts p x0 = .error err := by
  have hdim' : (p.dim == 0) = false := by simpa using hdim
  unfold minimizeInBox
  rw [hx]
  simp only [Except.ok_bind, hdim', Bool.false_eq_true, ↓reduceIte]
  rw [herr]
  rfl

end Accepted

/-- For a problem reachable by any sequence of calls and a start it accepts (one finite entry per
free parameter), the start of a bounded run lands inside the box exactly when every free
parameter with two finite bounds has a width that is a double; when one does not, the run stops
on a refused clamp. -/
theorem interiorStart_within_box {p : Problem} {x0 : Vec} (hp : p.Reachable)
    (hx : Check.thetaInput x0 p.dim = .ok ()) : p.StartLaws x0 := by
  refine ⟨hp.interiorStart_ok_iff hx, fun y hy => hp.interiorStart_inside hx hy,
    fun argmin opts ⟨i, hi, hl, hu, hw⟩ => ?_⟩
  -- the start fails, since the width at `i` overflows, and only on a refused clamp
  obtain ⟨err, herr⟩ : ∃ err, interiorStart x0 p.lb p.ub = .error err := by
    cases h : interiorStart x0 p.lb p.ub with
    | error err => exact ⟨err, rfl⟩
    | ok y => rw [(hp.interiorStart_ok_iff hx).1 ⟨y, h⟩ i hi hl hu] at hw; cases hw
  obtain ⟨lo, hi', rfl, hrev⟩ : ∃ lo hi, err = .reversedClamp lo hi ∧ ¬lo ≤ hi := by
    rw [interiorStart_eq] at herr
    exact Except.arrayMapM_error (fun _ _ h => interiorEntry_eq_error h) herr
  exact ⟨lo, hi', minimizeInBox_of_interiorStart_error hx (by omega) herr argmin opts, hrev⟩

/-- The box `[-1, 1]` with the start `0`. -/
theorem interiorStart_within_unit_box :
    ∃ p : Problem, p.Reachable ∧ Check.thetaInput #[0.0] p.dim = .ok () ∧ p.StartLaws #[0.0] := by
  let flat : Objective := ⟨fun _ => .ok (.ofFloat 0.0), fun _ => .ok #[0.0],
    fun _ => .error .hessianNotImplemented⟩
  have hp : Problem.Reachable { objective := flat, lbFull := #[-1.0], ubFull := #[1.0] } :=
    Problem.Reachable.new flat #[-1.0] #[1.0] rfl
  have hx : Check.thetaInput #[0.0]
      (Problem.dim { objective := flat, lbFull := #[-1.0], ubFull := #[1.0] }) = .ok () := rfl
  exact ⟨_, hp, hx, interiorStart_within_box hp hx⟩

/-- Bounds `±10³⁰⁸`, accepted with the start `0`: their width overflows to `+∞`, and the run
stops on a clamp whose lower end is not below its upper one. -/
theorem widest_box_refused :
    ∃ p : Problem, p.Reachable ∧ Check.thetaInput #[0.0] p.dim = .ok () ∧
      ∃ lo hi, minimizeInBox Lbfgs.argmin {} p #[0.0] = .error (.reversedClamp lo hi) ∧
        ¬lo ≤ hi := by
  let flat : Objective := ⟨fun _ => .ok (.ofFloat 0.0), fun _ => .ok #[0.0],
    fun _ => .error .hessianNotImplemented⟩
  let p : Problem := { objective := flat, lbFull := #[-1e308], ubFull := #[1e308] }
  have hcheck : Problem.checkBounds #[-1e308] #[1e308] = .ok () :=
    Except.toOption_eq_some.1 (by decide +kernel)
  have hp : p.Reachable := Problem.Reachable.new flat #[-1e308] #[1e308] (by
    unfold Problem.new
    rw [hcheck]
    rfl)
  have hrun : (match minimizeInBox Lbfgs.argmin {} p #[0.0] with
      | .error (.reversedClamp lo hi) => !(lo ≤ hi : Bool)
      | _ => false) = true := by
    decide +kernel
  split at hrun
  · rename_i lo hi hmin
    exact ⟨p, hp, rfl, lo, hi, hmin, by simpa using hrun⟩
  · cases hrun

end ProfileLikelihood

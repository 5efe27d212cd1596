import Mathlib
import ProfileLikelihood.Proofs.ProposalShape
import ProfileLikelihood.Proofs.BoundMaps

/-! The step window in exact arithmetic. Over the reals, with validated options, the least
step's factor at one and a nonnegative factor `f` on the greatest step, a proposal from a point
of the box moves the profiled parameter in the walking direction by at least the least step size
or the whole distance to the bound, whichever is less, by at most the larger of the least step
size and `f` times the greatest, and never past the bound. Every candidate is the clip of a step
whose length the search keeps in that range; a jump onto the bound comes only when the bound is
nearer than the least step; and an interpolation lies between two candidates, since the search
stops at the first candidate whose value crosses its target. -/

namespace ProfileLikelihood

open Numeric Float.Model Float.Model.UnpackedFloat Rounding

/-! ### The primitives of a proposal over the reals -/

@[simp] theorem real_zero_lit : (0.0 : ℝ) = 0 := by norm_num

@[simp] theorem real_one_lit : (1.0 : ℝ) = 1 := by norm_num

@[simp] theorem scalar_minNum_eq (a b : ℝ) : Scalar.minNum a b = min a b := rfl

@[simp] theorem scalar_abs_eq (a : ℝ) : Scalar.abs a = |a| := rfl

@[simp] theorem scalar_isFinite_eq (a : ℝ) : Scalar.isFinite a = true := rfl

@[simp] theorem scalar_beq_eq (a b : ℝ) : Scalar.beq a b = decide (a = b) := rfl

theorem scalar_ofFloat_eq (x : Float) : (Scalar.ofFloat x : ℝ) = (ratValue x : ℝ) := rfl

theorem scalar_clamp_eq (x lo hi : ℝ) :
    Scalar.clamp x lo hi = if x < lo then lo else if x > hi then hi else x := rfl

theorem scalar_clamp_mem {x lo hi : ℝ} (h : lo ≤ hi) :
    Scalar.clamp x lo hi ∈ Set.Icc lo hi := by
  rw [scalar_clamp_eq]
  split_ifs with h₁ h₂
  · exact ⟨le_rfl, h⟩
  · exact ⟨h, le_rfl⟩
  · exact ⟨not_lt.1 h₁, not_lt.1 h₂⟩

theorem isFinite_one : (1.0 : Float).isFinite = true := by decide

theorem ratValue_one : ratValue 1.0 = 1 := by
  have hu : (1.0 : Float).toModel.unpack = .finite .positive (2 ^ 52) (-52) (by decide) := rfl
  rw [ratValue, hu]
  simp [value, Sign.apply]
  norm_num

theorem ratValue_neg_one : ratValue (-1.0) = -1 := by
  have hu : (-1.0 : Float).toModel.unpack = .finite .negative (2 ^ 52) (-52) (by decide) := rfl
  rw [ratValue, hu]
  simp [value, Sign.apply]
  norm_num

@[simp] theorem ofFloat_sign_decreasing : (Scalar.ofFloat Direction.decreasing.sign : ℝ) = -1 := by
  simp [scalar_ofFloat_eq, Direction.sign, ratValue_neg_one]

@[simp] theorem ofFloat_sign_increasing : (Scalar.ofFloat Direction.increasing.sign : ℝ) = 1 := by
  simp [scalar_ofFloat_eq, Direction.sign, ratValue_one]

/-! ### Validated options, read as reals -/

/-- The step options read as reals. -/
noncomputable def ProfileOptions.exact (o : ProfileOptions) : StepOptions ℝ :=
  ⟨Scalar.ofFloat o.minStepSize, Scalar.ofFloat o.defaultStepSize, Scalar.ofFloat o.maxStepSize,
    Scalar.ofFloat o.stepSizeFactor, Scalar.ofFloat o.deltaRatioMax,
    Scalar.ofFloat o.magicFactorObjValue, o.regPoints, o.regOrder⟩

/-- The order validation puts on the step sizes and the search's factor. -/
structure StepOptions.Ordered (s : StepOptions ℝ) : Prop where
  min_pos : 0 < s.minStepSize
  min_le_default : s.minStepSize ≤ s.defaultStepSize
  default_le_max : s.defaultStepSize ≤ s.maxStepSize
  one_lt_factor : 1 < s.stepSizeFactor

namespace ProfileOptions

theorem firstViolation_eq_none {o : ProfileOptions} (h : o.firstViolation = none) :
    o.defaultStepSize.isFinite = true ∧ o.minStepSize.isFinite = true ∧
      o.maxStepSize.isFinite = true ∧ o.stepSizeFactor.isFinite = true ∧
      ¬o.minStepSize ≤ 0.0 ∧ ¬o.defaultStepSize < o.minStepSize ∧
      ¬o.maxStepSize < o.defaultStepSize ∧ ¬o.stepSizeFactor ≤ 1.0 ∧ ¬o.regPoints < 2 ∧
      ¬o.regOrder < 1 := by
  unfold firstViolation at h
  dsimp only at h
  split at h
  · cases h
  rename_i hfloats
  have hfin := List.find?_eq_none.1 hfloats
  have hrules := List.find?_eq_none.1 (Option.map_eq_none_iff.1 h)
  simp only [List.mem_cons, List.not_mem_nil, forall_eq_or_imp, Bool.not_eq_true',
    Bool.not_eq_false, decide_eq_true_eq] at hfin hrules
  obtain ⟨hdef, hmin, hmax, hfac, -⟩ := hfin
  obtain ⟨hpos, hdm, hmd, hf, -, -, -, hpts, hord, -⟩ := hrules
  exact ⟨hdef, hmin, hmax, hfac, hpos, hdm, hmd, hf, hpts, hord⟩

/-- Validated options, read as reals, keep their order. -/
theorem exact_ordered {o : ProfileOptions} (h : o.firstViolation = none) : o.exact.Ordered := by
  obtain ⟨hdef, hmin, hmax, hfac, hpos, hdm, hmd, hf, -⟩ := firstViolation_eq_none h
  have hle : ∀ {a b : Float}, a.isFinite = true → b.isFinite = true → ¬b < a →
      (Scalar.ofFloat a : ℝ) ≤ Scalar.ofFloat b := fun ha hb hab => by
    have := not_lt.1 (mt (lt_iff_ratValue_lt hb ha).2 hab)
    simpa [scalar_ofFloat_eq] using (Rat.cast_le (K := ℝ)).2 this
  have hlt : ∀ {a b : Float}, a.isFinite = true → b.isFinite = true → ¬b ≤ a →
      (Scalar.ofFloat a : ℝ) < Scalar.ofFloat b := fun ha hb hab => by
    have := not_le.1 (mt (le_iff_ratValue_le hb ha).2 hab)
    simpa [scalar_ofFloat_eq] using (Rat.cast_lt (K := ℝ)).2 this
  refine ⟨?_, hle hmin hdef hdm, hle hdef hmax hmd, ?_⟩
  · simpa [exact, scalar_ofFloat_eq, ratValue_zero] using hlt isFinite_zero hmin hpos
  · simpa [exact, scalar_ofFloat_eq, ratValue_one] using hlt isFinite_one hfac hf

end ProfileOptions

/-! ### How far a proposal moves the profiled parameter -/

/-- The move of the profiled entry from `x` to `y`, positive in the walking direction. -/
noncomputable def advance (dir : Direction) (par : Nat) (x y : Array ℝ) : ℝ :=
  Scalar.ofFloat dir.sign * (y.getD par 0 - x.getD par 0)

theorem sign_mul_self (dir : Direction) :
    (Scalar.ofFloat dir.sign : ℝ) * Scalar.ofFloat dir.sign = 1 := by
  cases dir <;> simp

theorem Profile.pointZip_getD {α : Type} [OfScientific α] {f : α → α → α} {a b z : Array α}
    {n i : Nat} (dflt : α) (ha : a.size = n) (hb : b.size = n) (hi : i < n)
    (h : Profile.pointZip f a b = .ok z) :
    z.size = n ∧ z.getD i dflt = f (a.getD i dflt) (b.getD i dflt) := by
  unfold Profile.pointZip at h
  rw [if_pos (ha.trans hb.symm)] at h
  cases h
  refine ⟨by simp [ha], ?_⟩
  have hat : ∀ v : Array α, v.size = n →
      v.getD (if v.size = 1 then 0 else i) 0.0 = v.getD i dflt := by
    intro v hv
    split_ifs with h1
    · obtain rfl : i = 0 := by omega
      simp [Array.getD_eq_getD_getElem?, h1]
    · simp [Array.getD_eq_getD_getElem?, hv, hi]
  simp [Array.getD_eq_getD_getElem?, ha, hi, ← hat a ha, ← hat b hb]

namespace Extrapolation

/-- A way of following whose step moves the profiled entry by `d` per unit of its length: a line
of `n` entries with `d` at the profiled one, or fitted trends, which move the profiled entry by
the step itself. -/
def Along (n par : Nat) (d : ℝ) : Extrapolation ℝ → Prop
  | .linear dir => dir.size = n ∧ dir.getD par 0 = d
  | .polynomial _ => True

theorem Along.fits {e : Extrapolation ℝ} {n par : Nat} {d : ℝ} (h : e.Along n par d) :
    e.Fits n := by
  cases e with
  | linear dir => exact h.1
  | polynomial fit => trivial

variable {x z : Array ℝ} {par : Nat} {d h : ℝ}

/-- A step of length `h` along a way of following that moves the profiled entry by `d` per unit
moves it by `d * h`. -/
theorem point_getD {e : Extrapolation ℝ} (he : e.Along x.size par d) (hpar : par < x.size)
    (hz : e.point x par d h = .ok z) :
    z.size = x.size ∧ z.getD par 0 = x.getD par 0 + d * h := by
  cases e with
  | linear dir =>
    obtain ⟨hsize, hd⟩ := he
    obtain ⟨hzs, hze⟩ := Profile.pointZip_getD 0 rfl (by simpa using hsize) hpar hz
    refine ⟨hzs, ?_⟩
    rw [hze, ← hd]
    simp [Array.getD_eq_getD_getElem?, hsize, hpar]
  | polynomial fit =>
    cases hz
    simp [Array.getD_eq_getD_getElem?, hpar]

/-- The unit step along `par`, the way a history follows when it holds the other parameters. -/
theorem unit_along {n : Nat} (hpar : par < n) (d : ℝ) :
    ∃ unit, Profile.pointSet (Array.replicate n (0.0 : ℝ)) par d = .ok unit ∧
      (Extrapolation.linear unit).Along n par d := by
  refine ⟨(Array.replicate n (0.0 : ℝ)).set! par d, by simp [Profile.pointSet, hpar], ?_, ?_⟩
  · simp
  · simp [Array.getD_eq_getD_getElem?, hpar]

/-- Following the last step moves the profiled entry by the walking direction's sign when that
step did not go against it. -/
theorem lastStep_along {last prev unit : Array ℝ} {n : Nat} {dir : Direction}
    (hlast : last.size = n) (hprev : prev.size = n) (hpar : par < n)
    (hunit : (Extrapolation.linear unit).Along n par (Scalar.ofFloat dir.sign))
    (hfwd : 0 ≤ advance dir par prev last) {e : Extrapolation ℝ}
    (h : lastStep last prev unit |last.getD par 0 - prev.getD par 0| = .ok e) :
    e.Along n par (Scalar.ofFloat dir.sign) := by
  unfold lastStep at h
  split at h
  · rename_i hstep
    obtain ⟨span, hspan, h⟩ := Except.bind_eq_ok.1 h
    cases h
    obtain ⟨hss, hse⟩ := Profile.pointZip_getD 0 hlast hprev hpar hspan
    refine ⟨by simp [hss], ?_⟩
    have hne : last.getD par 0 - prev.getD par 0 ≠ 0 := abs_pos.1 (by simpa using hstep)
    have hentry : (span.map (· / |last.getD par 0 - prev.getD par 0|)).getD par 0 =
        span.getD par 0 / |last.getD par 0 - prev.getD par 0| := by
      simp [Array.getD_eq_getD_getElem?, hss, hpar]
    rw [hentry, hse]
    unfold advance at hfwd
    cases dir with
    | decreasing =>
      simp only [ofFloat_sign_decreasing] at hfwd ⊢
      rw [abs_of_nonpos (by linarith), div_neg, div_self hne]
    | increasing =>
      simp only [ofFloat_sign_increasing] at hfwd ⊢
      rw [abs_of_nonneg (by linarith), div_self hne]
  · cases h
    exact hunit

end Extrapolation

namespace Proposer

variable (P : Proposer ℝ)

/-- The distance from `x` to the bound of the profiled parameter that a walk in direction `dir`
approaches. -/
def room (x : Array ℝ) (par : Nat) : Direction → ℝ
  | .decreasing => x.getD par 0 - P.lb.getD par 0
  | .increasing => P.ub.getD par 0 - x.getD par 0

/-- A well-shaped input whose profiled entry lies in its box. -/
structure Inside (x : Array ℝ) (par : Nat) : Prop extends P.Shaped x par where
  lb_le : P.lb.getD par 0 ≤ x.getD par 0
  le_ub : x.getD par 0 ≤ P.ub.getD par 0

/-- The factors of a proposal as the walk first makes it: ordered step options, the least
step's factor at one, and a nonnegative factor on the greatest step. -/
structure Tuned : Prop where
  ordered : P.options.Ordered
  least : P.minStepIncreaseFactor = 1
  reduce_nonneg : 0 ≤ P.maxStepReduceFactor

/-- The least and the greatest advance of a proposal. -/
noncomputable def lowStep (x : Array ℝ) (par : Nat) (dir : Direction) : ℝ :=
  min P.options.minStepSize (P.room x par dir)

noncomputable def highStep : ℝ :=
  max P.options.minStepSize (P.options.maxStepSize * P.maxStepReduceFactor)

/-- A point of the input's length whose profiled entry has moved in the walking direction within
the step window, and not past the bound. -/
structure InWindow (x : Array ℝ) (par : Nat) (dir : Direction) (y : Array ℝ) : Prop where
  size : y.size = x.size
  lower : P.lowStep x par dir ≤ advance dir par x y
  upper : advance dir par x y ≤ P.highStep
  room : advance dir par x y ≤ P.room x par dir

variable {P} {x y z : Array ℝ} {par : Nat} {dir : Direction}

theorem Inside.room_nonneg (hx : P.Inside x par) : 0 ≤ P.room x par dir := by
  cases dir <;> simp only [room] <;> linarith [hx.lb_le, hx.le_ub]

theorem Tuned.minEff_eq (ht : P.Tuned) : P.minEff = P.options.minStepSize := by
  have hle := ht.ordered.min_le_default.trans ht.ordered.default_le_max
  simp [minEff, ht.least, hle]

theorem Tuned.maxEff_eq (ht : P.Tuned) : P.maxEff = P.highStep := by
  rw [maxEff, ht.minEff_eq, scalar_maxNum_eq, max_comm, highStep]

theorem Tuned.lowStep_nonneg (ht : P.Tuned) (hx : P.Inside x par) : 0 ≤ P.lowStep x par dir :=
  le_min ht.ordered.min_pos.le hx.room_nonneg

theorem Tuned.clamp_mem (ht : P.Tuned) (v : ℝ) :
    Scalar.clamp v P.minEff P.maxEff ∈ Set.Icc P.options.minStepSize P.highStep := by
  rw [ht.minEff_eq, ht.maxEff_eq]
  exact scalar_clamp_mem (le_max_left _ _)

theorem clip_getD (hx : P.Inside x par) (hz : z.size = x.size) :
    (P.clip z).getD par 0 = Scalar.clamp (z.getD par 0) (P.lb.getD par 0) (P.ub.getD par 0) := by
  have hlb : par < P.lb.size := hx.lb_size ▸ hx.par_lt
  have hub : par < P.ub.size := hx.ub_size ▸ hx.par_lt
  simp [clip, clipInto, Array.getD_eq_getD_getElem?, hz, hx.par_lt, hlb, hub]

/-- Clipping a point that moved forward cuts its advance at the room. -/
theorem advance_clip (hx : P.Inside x par) (hz : z.size = x.size)
    (hfwd : 0 ≤ advance dir par x z) :
    advance dir par x (P.clip z) = min (advance dir par x z) (P.room x par dir) := by
  have hlb := hx.lb_le
  have hub := hx.le_ub
  unfold advance at hfwd ⊢
  rw [clip_getD hx hz, scalar_clamp_eq]
  cases dir with
  | decreasing =>
    simp only [ofFloat_sign_decreasing, room] at hfwd ⊢
    split_ifs <;> simp only [min_def] <;> split_ifs <;> linarith
  | increasing =>
    simp only [ofFloat_sign_increasing, room] at hfwd ⊢
    split_ifs <;> simp only [min_def] <;> split_ifs <;> linarith

theorem inWindow_clip (hx : P.Inside x par) (ht : P.Tuned) (hz : z.size = x.size)
    (hmem : advance dir par x z ∈ Set.Icc (P.lowStep x par dir) P.highStep) :
    P.InWindow x par dir (P.clip z) := by
  have hfwd : 0 ≤ advance dir par x z := (ht.lowStep_nonneg hx).trans hmem.1
  refine ⟨by rw [size_clipInto, hz], ?_, ?_, ?_⟩ <;> rw [advance_clip hx hz hfwd]
  · exact le_min hmem.1 (min_le_right _ _)
  · exact (min_le_left _ _).trans hmem.2
  · exact min_le_right _ _

/-- A step whose length lies between the least step size and the greatest advance reaches a
candidate in the window. -/
theorem extrapolate_inWindow (hx : P.Inside x par) (ht : P.Tuned) {e : Extrapolation ℝ}
    (he : e.Along x.size par (Scalar.ofFloat dir.sign)) {h : ℝ}
    (hh : h ∈ Set.Icc P.options.minStepSize P.highStep)
    (hc : P.extrapolate e x par (Scalar.ofFloat dir.sign) h = .ok y) :
    P.InWindow x par dir y := by
  obtain ⟨z, hz, hc⟩ := Except.bind_eq_ok.1 hc
  cases hc
  obtain ⟨hsize, hentry⟩ := Extrapolation.point_getD he hx.par_lt hz
  have hadv : advance dir par x z = h := by
    rw [advance, hentry, add_sub_cancel_left, ← mul_assoc, sign_mul_self, one_mul]
  refine inWindow_clip hx ht hsize ?_
  rw [hadv]
  exact ⟨(min_le_left _ _).trans hh.1, hh.2⟩

/-- The interpolation between two points of the window, with a weight in `[0, 1]`, is in the
window. -/
theorem interpolate_inWindow (hx : P.Inside x par) (ht : P.Tuned) {next last : Array ℝ}
    {nextObj lastObj target : ℝ} (hnext : P.InWindow x par dir next)
    (hlast : P.InWindow x par dir last) (hw : |lastObj - target| ≤ |nextObj - lastObj|)
    (h : P.interpolate nextObj lastObj next last target = .ok y) : P.InWindow x par dir y := by
  unfold interpolate at h
  simp only [scalar_abs_eq, scalar_isFinite_eq, scalar_beq_eq, real_zero_lit, Bool.not_true,
    Bool.false_or, decide_eq_true_eq] at h
  split at h
  · cases h
    exact hnext
  rename_i hdelta
  obtain ⟨span, hspan, h⟩ := Except.bind_eq_ok.1 h
  obtain ⟨w, hw', h⟩ := Except.bind_eq_ok.1 h
  cases h
  -- the weight lies in `[0, 1]`, so the advance is a convex combination of the two
  set t := |lastObj - target| / |nextObj - lastObj| with ht_def
  have hpos : 0 < |nextObj - lastObj| := lt_of_le_of_ne (abs_nonneg _) (Ne.symm hdelta)
  have ht0 : 0 ≤ t := div_nonneg (abs_nonneg _) hpos.le
  have ht1 : t ≤ 1 := (div_le_one hpos).2 hw
  obtain ⟨hss, hse⟩ := Profile.pointZip_getD 0 hnext.size hlast.size hx.par_lt hspan
  obtain ⟨hws, hwe⟩ := Profile.pointZip_getD 0 hlast.size (by simpa using hss) hx.par_lt hw'
  have hmap : (span.map (· * t)).getD par 0 = span.getD par 0 * t := by
    simp [Array.getD_eq_getD_getElem?, hss, hx.par_lt]
  have hadv : advance dir par x w =
      (1 - t) * advance dir par x last + t * advance dir par x next := by
    rw [advance, advance, advance, hwe, hmap, hse]
    ring
  refine inWindow_clip hx ht hws ?_
  rw [hadv]
  have hconv := convex_Icc (P.lowStep x par dir) P.highStep ⟨hlast.lower, hlast.upper⟩
    ⟨hnext.lower, hnext.upper⟩ (sub_nonneg.2 ht1) ht0 (sub_add_cancel 1 t)
  simpa only [smul_eq_mul] using hconv

/-! ### The way the other parameters follow -/

/-- The way a history follows moves the profiled entry by the walking direction's sign, when the
profile's last step did not go against the walk. -/
theorem history_along (hx : P.Shaped x par)
    (hlast : 2 ≤ P.xPath.size → 0 ≤ advance dir par (P.xPath.getD (P.xPath.size - 2) #[])
      (P.xPath.getD (P.xPath.size - 1) #[]))
    {follow : Follow} {hist : StepHistory ℝ} (h : P.history x par dir follow = .ok hist) :
    hist.extrapolation.Along x.size par (Scalar.ofFloat dir.sign) := by
  obtain ⟨unit, hunit, hunitAlong⟩ := Extrapolation.unit_along hx.par_lt (Scalar.ofFloat dir.sign)
  unfold history at h
  rw [hunit, Except.ok_bind] at h
  dsimp only at h
  split at h
  · cases h
    exact hunitAlong
  rename_i hn
  have hlastSize := hx.getD_size (P.xPath.size - 1) (by omega)
  have hprevSize := hx.getD_size (P.xPath.size - 2) (by omega)
  rw [Profile.pointEntry_of_lt (hlastSize ▸ hx.par_lt), Except.ok_bind,
    Profile.pointEntry_of_lt (hprevSize ▸ hx.par_lt), Except.ok_bind] at h
  have hline := fun e => Extrapolation.lastStep_along (e := e) hlastSize hprevSize hx.par_lt
    hunitAlong (hlast (by omega))
  cases follow with
  | hold =>
    obtain ⟨e, he, h⟩ := Except.bind_eq_ok.1 h
    cases he
    cases h
    exact hunitAlong
  | lastStep =>
    dsimp only at h
    simp only [Array.getElem_eq_getD (0 : ℝ), scalar_abs_eq] at h
    obtain ⟨e, he, h⟩ := Except.bind_eq_ok.1 h
    cases h
    exact hline e he
  | regression =>
    dsimp only at h
    simp only [Array.getElem_eq_getD (0 : ℝ), scalar_abs_eq] at h
    split at h
    · obtain ⟨e, he, h⟩ := Except.bind_eq_ok.1 h
      cases h
      exact hline e he
    · obtain ⟨r, -, h⟩ := Except.bind_eq_ok.1 h
      cases r with
      | some fit =>
        obtain ⟨e, he, h⟩ := Except.bind_eq_ok.1 h
        cases he
        cases h
        trivial
      | none =>
        obtain ⟨e, he, h⟩ := Except.bind_eq_ok.1 h
        cases h
        exact hline e he

end Proposer

/-! ### The search for the step -/

namespace StepSearch

/-- A value the search has not carried across its target: at or above it for a shrinking search,
at or below it for a growing one. -/
def Uncrossed (s : StepSearch ℝ) (obj : ℝ) : Prop :=
  if s.shrinks then s.target ≤ obj else obj ≤ s.target

variable {s : StepSearch ℝ} {obj lastObj : ℝ}

theorem uncrossed_of_crosses (h : s.crosses obj = false) : s.Uncrossed obj := by
  unfold crosses at h
  unfold Uncrossed
  cases hs : s.shrinks <;> simp only [hs, Bool.false_eq_true, if_true, if_false,
    decide_eq_false_iff_not, not_le] at h ⊢ <;> linarith

/-- From a value that has not crossed the target to one that has, the distance to the target is
at most the whole change: the interpolation's weight is at most one. -/
theorem Uncrossed.abs_le (h : s.Uncrossed lastObj) (hc : s.crosses obj = true) :
    |lastObj - s.target| ≤ |obj - lastObj| := by
  unfold crosses at hc
  unfold Uncrossed at h
  cases hs : s.shrinks <;> simp only [hs, Bool.false_eq_true, if_true, if_false,
    decide_eq_true_eq] at h hc
  · rw [abs_of_nonpos (by linarith), abs_of_nonneg (by linarith)]
    linarith
  · rw [abs_of_nonneg (by linarith), abs_of_nonpos (by linarith)]
    linarith

end StepSearch

namespace Proposer

variable {P : Proposer ℝ} {x y : Array ℝ} {par : Nat} {dir : Direction} {hist : StepHistory ℝ}
  {obj : ℝ}

/-- A search starts on its own side of the target: it shrinks from a first value above the target
and grows from one at or below it. -/
theorem search_uncrossed (ht : P.Tuned) : (P.search x par dir hist obj).Uncrossed obj := by
  have hF := ht.ordered.one_lt_factor
  unfold StepSearch.Uncrossed StepSearch.shrinks search
  dsimp only
  by_cases hobj : obj > P.target hist
  · have hinv : 1 / P.options.stepSizeFactor < 1 := (div_lt_one (by linarith)).2 hF
    simp only [hobj, if_true, real_one_lit, hinv, decide_true]
    exact hobj.le
  · simp only [hobj, if_false, real_one_lit, not_lt.2 hF.le, decide_false, Bool.false_eq_true]
    exact not_lt.1 hobj

/-- A round from a candidate in the window whose value has not crossed the target ends with a
point of the window, or goes on from another such candidate. -/
theorem search_round (hx : P.Inside x par) (ht : P.Tuned)
    (he : hist.extrapolation.Along x.size par (Scalar.ofFloat dir.sign)) {next : Array ℝ}
    {step nextObj : ℝ} (hnext : P.InWindow x par dir next)
    (hobj : (P.search x par dir hist obj).Uncrossed nextObj) {r : Array ℝ ⊕ Array ℝ × ℝ × ℝ}
    (h : (P.search x par dir hist obj).round next step nextObj = .ok r) :
    Sum.elim (P.InWindow x par dir)
      (fun g => P.InWindow x par dir g.1 ∧ (P.search x par dir hist obj).Uncrossed g.2.2) r := by
  obtain ⟨c, hc, hr⟩ := StepSearch.round_eq_ok h
  have hcand : P.InWindow x par dir c := extrapolate_inWindow hx ht he (ht.clamp_mem _) hc
  rcases hr with ⟨-, rfl⟩ | ⟨-, hcross, y, hy, rfl⟩ | ⟨-, hcross, rfl⟩
  · exact hcand
  · exact interpolate_inWindow hx ht hcand hnext (hobj.abs_le hcross) hy
  · exact ⟨hcand, StepSearch.uncrossed_of_crosses hcross⟩

/-- The search from a candidate in the window whose value has not crossed the target comes back, if
it does, with a point of the window. -/
theorem search_run (hx : P.Inside x par) (ht : P.Tuned)
    (he : hist.extrapolation.Along x.size par (Scalar.ofFloat dir.sign)) :
    ∀ {fuel : Nat} {next : Array ℝ} {step nextObj : ℝ}, P.InWindow x par dir next →
      (P.search x par dir hist obj).Uncrossed nextObj →
      (P.search x par dir hist obj).run fuel next step nextObj = .ok y → P.InWindow x par dir y
  | 0, _, _, _, _, _, h => by cases h
  | fuel + 1, next, step, nextObj, hnext, hobj, h => by
    obtain ⟨r, hr, h⟩ := Except.bind_eq_ok.1 h
    have hround := search_round hx ht he hnext hobj hr
    cases r with
    | inl y' =>
      cases h
      exact hround
    | inr g => exact search_run hx ht he hround.1 hround.2 h

/-! ### Every way of proposing -/

/-- An adaptive step jumps onto the bound it walks toward only when that bound is nearer than the
least step, and then moves by the whole room. -/
theorem jumpBound_eq_some_room {b : ℝ}
    (h : P.jumpBound x par dir = .ok (some b)) :
    Scalar.ofFloat dir.sign * (b - x.getD par 0) = P.room x par dir ∧
      P.room x par dir < P.options.minStepSize := by
  unfold jumpBound at h
  obtain ⟨v, hv, h⟩ := Except.bind_eq_ok.1 h
  have hv' : x.getD par 0 = v := by
    rw [Array.getD_eq_getD_getElem?, Profile.pointEntry_eq_ok hv]
    rfl
  subst hv'
  cases dir with
  | decreasing =>
    obtain ⟨l, hl, h⟩ := Except.bind_eq_ok.1 h
    have hl' : P.lb.getD par 0 = l := by
      rw [Array.getD_eq_getD_getElem?, Profile.pointEntry_eq_ok hl]
      rfl
    subst hl'
    split at h
    · rename_i hreach
      cases h
      simp only [room, ofFloat_sign_decreasing] at hreach ⊢
      constructor <;> linarith
    · cases h
  | increasing =>
    obtain ⟨u, hu, h⟩ := Except.bind_eq_ok.1 h
    have hu' : P.ub.getD par 0 = u := by
      rw [Array.getD_eq_getD_getElem?, Profile.pointEntry_eq_ok hu]
      rfl
    subst hu'
    split at h
    · rename_i hreach
      cases h
      simp only [room, ofFloat_sign_increasing] at hreach ⊢
      constructor <;> linarith
    · cases h

theorem fixedStep_inWindow (hx : P.Inside x par) (ht : P.Tuned)
    (h : P.fixedStep x par dir = .ok y) : P.InWindow x par dir y := by
  have hpar : par < x.size := hx.par_lt
  rw [fixedStep, Profile.pointEntry_of_lt hx.par_lt, Except.ok_bind] at h
  cases h
  -- a fixed step has length `max (default · f) min`, inside the range of the search's steps
  set len := Scalar.maxNum (P.options.defaultStepSize * P.maxStepReduceFactor)
    P.options.minStepSize with hlen
  have hmin : P.options.minStepSize ≤ len := le_max_right _ _
  have hmax : len ≤ P.highStep :=
    max_le ((mul_le_mul_of_nonneg_right ht.ordered.default_le_max ht.reduce_nonneg).trans
      (le_max_right _ _)) (le_max_left _ _)
  have hadv : advance dir par x (x.set! par (x[par] + Scalar.ofFloat dir.sign * len)) = len := by
    simp only [advance, Array.getElem_eq_getD (0 : ℝ)]
    rw [Array.set!_eq_setIfInBounds]
    simp only [Array.getD_eq_getD_getElem?, Array.getElem?_setIfInBounds_self_of_lt hx.par_lt,
      Option.getD_some]
    rw [add_sub_cancel_left, ← mul_assoc, sign_mul_self, one_mul]
  refine inWindow_clip hx ht (by simp) ?_
  rw [hadv]
  exact ⟨(min_le_left _ _).trans hmin, hmax⟩

theorem adaptiveStep_inWindow (hx : P.Inside x par) (ht : P.Tuned)
    (hlast : 2 ≤ P.xPath.size → 0 ≤ advance dir par (P.xPath.getD (P.xPath.size - 2) #[])
      (P.xPath.getD (P.xPath.size - 1) #[]))
    {follow : Follow} (h : P.adaptiveStep x par dir follow = .ok y) : P.InWindow x par dir y := by
  obtain ⟨hist, hh, -⟩ := Except.bind_eq_ok.1 h
  have he := history_along hx.toShaped hlast hh
  obtain ⟨jb, hj⟩ : ∃ b, P.jumpBound x par dir = .ok b := jumpBound_ok hx.toShaped
  cases jb with
  | some b =>
    rw [adaptiveStep_of_jump hh hj] at h
    obtain ⟨z, hz, h⟩ := Except.bind_eq_ok.1 h
    obtain ⟨z', hz', hzsize⟩ : ∃ z', P.extrapolate hist.extrapolation x par
        (Scalar.ofFloat dir.sign) (Scalar.abs (b - x.getD par 0.0)) = .ok z' ∧
        z'.size = x.size := extrapolate_fits he.fits
    obtain rfl : z = z' := Except.ok.inj (hz.symm.trans hz')
    have hpar : par < z.size := hzsize ▸ hx.par_lt
    unfold Profile.pointSet at h
    rw [if_pos hpar] at h
    cases h
    obtain ⟨hroom, hnear⟩ := jumpBound_eq_some_room hj
    have hadv : advance dir par x (z.set! par b) = P.room x par dir := by
      rw [advance, Array.set!_eq_setIfInBounds, Array.getD_eq_getD_getElem?,
        Array.getElem?_setIfInBounds_self_of_lt hpar, Option.getD_some, hroom]
    refine ⟨by simp [hzsize], ?_, ?_, hadv.le⟩ <;> rw [hadv]
    · exact min_le_right _ _
    · exact hnear.le.trans (le_max_left _ _)
  | none =>
    rw [adaptiveStep_of_search hh hj] at h
    obtain ⟨next, hnext, h⟩ := Except.bind_eq_ok.1 h
    exact search_run hx ht he (extrapolate_inWindow hx ht he (ht.clamp_mem _) hnext)
      (search_uncrossed ht) h

end Proposer

/-- In exact arithmetic, with validated options, the least step's factor at one and a nonnegative
factor `f` on the greatest step, every proposal from a well-shaped point whose profiled entry lies
in its box, when the profile's last step did not go against the walk, moves the profiled entry in
the walking direction by at least the least step size or the distance to the bound, whichever is
less, by at most the larger of the least step size and `f` times the greatest step size, and not
past the bound. -/
theorem Proposer.nextGuess_advance_within_window (P : Proposer ℝ) (o : ProfileOptions)
    (x : Array ℝ) (par : Nat) (dir : Direction) (m : NextGuessMethod) {y : Array ℝ}
    (ho : o.firstViolation = none) (hopt : P.options = o.exact)
    (hleast : P.minStepIncreaseFactor = 1) (hreduce : 0 ≤ P.maxStepReduceFactor)
    (hshape : P.Shaped x par) (hlb : P.lb.getD par 0 ≤ x.getD par 0)
    (hub : x.getD par 0 ≤ P.ub.getD par 0)
    (hlast : 2 ≤ P.xPath.size → 0 ≤ advance dir par (P.xPath.getD (P.xPath.size - 2) #[])
      (P.xPath.getD (P.xPath.size - 1) #[]))
    (h : P.nextGuess x par dir m = .ok y) :
    min P.options.minStepSize (P.room x par dir) ≤ advance dir par x y ∧
      advance dir par x y ≤ max P.options.minStepSize
        (P.options.maxStepSize * P.maxStepReduceFactor) ∧
      advance dir par x y ≤ P.room x par dir := by
  have ht : P.Tuned := ⟨hopt ▸ ProfileOptions.exact_ordered ho, hleast, hreduce⟩
  have hx : P.Inside x par := ⟨hshape, hlb, hub⟩
  have hwin : P.InWindow x par dir y := by
    cases m with
    | fixedStep => exact Proposer.fixedStep_inWindow hx ht h
    | adaptiveOrder0 => exact Proposer.adaptiveStep_inWindow hx ht hlast h
    | adaptiveOrder1 => exact Proposer.adaptiveStep_inWindow hx ht hlast h
    | adaptiveRegression => exact Proposer.adaptiveStep_inWindow hx ht hlast h
  exact ⟨hwin.lower, hwin.upper, hwin.room⟩

/-- One parameter in `[0, 1]` at `1/2`, default options: a fixed step up comes back, and moves
within the window. -/
theorem Proposer.nextGuess_advance_within_window_at_middle :
    let P : Proposer ℝ :=
      { options := ProfileOptions.exact {}, xPath := #[#[1 / 2]], fvalPath := #[0], lb := #[0],
        ub := #[1], isFixed := fun _ => false, objective := fun _ => 0, svd := fun _ => none,
        globalOpt := 0, minStepIncreaseFactor := 1, maxStepReduceFactor := 1 }
    ∃ y, P.nextGuess #[1 / 2] 0 .increasing .fixedStep = .ok y ∧
      min P.options.minStepSize (P.room #[1 / 2] 0 .increasing) ≤ advance .increasing 0 #[1 / 2] y ∧
      advance .increasing 0 #[1 / 2] y ≤
        max P.options.minStepSize (P.options.maxStepSize * P.maxStepReduceFactor) ∧
      advance .increasing 0 #[1 / 2] y ≤ P.room #[1 / 2] 0 .increasing := by
  intro P
  have hshape : P.Shaped #[1 / 2] 0 := ⟨by simp, rfl, rfl, by simp [P]⟩
  have h : P.nextGuess #[1 / 2] 0 .increasing .fixedStep = .ok _ := rfl
  exact ⟨_, h, Proposer.nextGuess_advance_within_window P {} #[1 / 2] 0 .increasing .fixedStep
    (by decide) rfl rfl zero_le_one hshape (by simp [P]) (by simp [P]; norm_num)
    (fun h2 => absurd h2 (by simp [P])) h⟩

end ProfileLikelihood

import Mathlib
import ProfileLikelihood.Profile.Basic

/-! The paths of a profile under its two edits. Appending points extends every path at its end
and leaves the optimum's index alone; reversing reverses every path. Walking down is reversing,
appending and reversing back: it puts the new points in front, the last one found first, and
moves the optimum's index past them. The evaluation count adds up the counts of the points
appended in machine words, so it is their sum only while that sum stays below `2 ^ 64`. -/

namespace ProfileLikelihood.Profile

/-- The profile with the points `pts` appended in order. -/
def pushAll (p : Profile) (pts : List ProfilePoint) : Profile := pts.foldl push p

@[simp] theorem pushAll_nil (p : Profile) : p.pushAll [] = p := rfl

@[simp] theorem pushAll_cons (p : Profile) (pt : ProfilePoint) (pts : List ProfilePoint) :
    p.pushAll (pt :: pts) = (p.push pt).pushAll pts := rfl

/-- One of the parallel paths of a profile, with the field of a point it records: appending a
point extends it by that field, reversing the profile reverses it, and the profile's label does
not enter it. -/
structure Path (α : Type) where
  get : Profile → Array α
  field : ProfilePoint → α
  get_push : ∀ p pt, get (p.push pt) = (get p).push (field pt)
  get_flip : ∀ p, get p.flip = (get p).reverse
  get_label : ∀ p i m, get { p with iPar := i, message := m } = get p

namespace Path

def x : Path Point := ⟨xPath, ProfilePoint.x, fun _ _ => rfl, fun _ => rfl, fun _ _ _ => rfl⟩

def fval : Path Numeric.Double :=
  ⟨fvalPath, ProfilePoint.fval, fun _ _ => rfl, fun _ => rfl, fun _ _ _ => rfl⟩

def ratio : Path Numeric.Double :=
  ⟨ratioPath, ProfilePoint.ratio, fun _ _ => rfl, fun _ => rfl, fun _ _ _ => rfl⟩

def gradnorm : Path Numeric.Double :=
  ⟨gradnormPath, ProfilePoint.gradnorm, fun _ _ => rfl, fun _ => rfl, fun _ _ _ => rfl⟩

def converged : Path Bool :=
  ⟨convergedPath, ProfilePoint.converged, fun _ _ => rfl, fun _ => rfl, fun _ _ _ => rfl⟩

def time : Path Numeric.Double :=
  ⟨timePath, ProfilePoint.time, fun _ _ => rfl, fun _ => rfl, fun _ _ _ => rfl⟩

variable {α : Type} (path : Path α)

theorem get_pushAll (p : Profile) (pts : List ProfilePoint) :
    (path.get (p.pushAll pts)).toList = (path.get p).toList ++ pts.map path.field := by
  induction pts generalizing p with
  | nil => simp
  | cons pt pts ih =>
    rw [pushAll_cons, ih, path.get_push]
    simp

theorem get_flip_pushAll_flip (p : Profile) (pts : List ProfilePoint) :
    (path.get (p.flip.pushAll pts).flip).toList =
      (pts.map path.field).reverse ++ (path.get p).toList := by
  rw [path.get_flip, Array.toList_reverse, get_pushAll, path.get_flip, Array.toList_reverse]
  simp

theorem get_walked (p : Profile) (down up : List ProfilePoint) :
    (path.get ((p.flip.pushAll down).flip.pushAll up)).toList =
      (down.map path.field).reverse ++ (path.get p).toList ++ up.map path.field := by
  rw [get_pushAll, get_flip_pushAll_flip]

theorem get_flip_pushAll_front (p : Profile) (pts : List ProfilePoint) (h : (path.get p).size ≠ 0) :
    (path.get (p.flip.pushAll pts))[0]? = (path.get p).back? := by
  have hl := path.get_pushAll p.flip pts
  rw [path.get_flip] at hl
  have hpos : 0 < (path.get p).reverse.toList.length := by simp; omega
  rw [← Array.getElem?_toList, hl, List.getElem?_append_left hpos, Array.getElem?_toList,
    Array.getElem?_reverse' (j := (path.get p).size - 1) (by omega), Array.back?_eq_getElem?]

end Path

@[simp] theorem size_flip (p : Profile) : p.flip.size = p.size := by
  simp [size, flip]

@[simp] theorem size_push (p : Profile) (pt : ProfilePoint) : (p.push pt).size = p.size + 1 := by
  simp [size, push]

@[simp] theorem size_new (i : Nat) (pt : ProfilePoint) : (Profile.new i pt).size = 1 := rfl

theorem size_pushAll (p : Profile) (pts : List ProfilePoint) :
    (p.pushAll pts).size = p.size + pts.length := by
  have h := congrArg List.length (Path.x.get_pushAll p pts)
  simpa [size, Path.x] using h

@[simp] theorem optimumIndex_pushAll (p : Profile) (pts : List ProfilePoint) :
    (p.pushAll pts).optimumIndex = p.optimumIndex := by
  induction pts generalizing p with
  | nil => rfl
  | cons pt pts ih => rw [pushAll_cons, ih]; rfl

@[simp] theorem optimumIndex_push (p : Profile) (pt : ProfilePoint) :
    (p.push pt).optimumIndex = p.optimumIndex := rfl

theorem optimumIndex_flip (p : Profile) :
    p.flip.optimumIndex =
      if p.size = 0 then p.optimumIndex else p.size.toUInt64 - 1 - p.optimumIndex := rfl

/-- Walking down moves the optimum's index past the new points. -/
theorem optimumIndex_flip_pushAll_flip (p : Profile) (pts : List ProfilePoint)
    (h : pts ≠ [] → p.size ≠ 0) :
    ((p.flip.pushAll pts).flip).optimumIndex = p.optimumIndex + pts.length.toUInt64 := by
  by_cases hp : p.size = 0
  · have hpts : pts = [] := Classical.byContradiction fun hne => h hne hp
    subst hpts
    rw [pushAll_nil, optimumIndex_flip, optimumIndex_flip, size_flip, if_pos hp, if_pos hp]
    simp
  · have hsize : (p.flip.pushAll pts).size ≠ 0 := by
      rw [size_pushAll, size_flip]
      omega
    have hadd : (p.size + pts.length).toUInt64 = p.size.toUInt64 + pts.length.toUInt64 :=
      UInt64.ofNat_add _ _
    rw [optimumIndex_flip, if_neg hsize, optimumIndex_pushAll, optimumIndex_flip, if_neg hp,
      size_pushAll, size_flip, hadd]
    -- both reversals count the index from the other end, in machine words
    grind


attribute [ext] Profile

/-! ### Profiles built by appending and reversing -/

/-- The indices of the half-open range `[r.1, r.2)`. -/
def indicesIn (r : Nat × Nat) : List Nat := List.range' r.1 (r.2 - r.1)

/-- The profiles a walk builds: a single point, then any sequence of appends and reversals. -/
inductive Built : Profile → Prop
  | new (i : Nat) (pt : ProfilePoint) : Built (Profile.new i pt)
  | push {p : Profile} (pt : ProfilePoint) : Built p → p.size + 1 < UInt64.size → Built (p.push pt)
  | flip {p : Profile} : Built p → Built p.flip

/-- What holds of every built profile: the six paths have one length `n`, at least one and below
`2 ^ 64`, and the optimum's index is below `n`. -/
structure Aligned (p : Profile) : Prop where
  fval : p.fvalPath.size = p.size
  ratio : p.ratioPath.size = p.size
  gradnorm : p.gradnormPath.size = p.size
  converged : p.convergedPath.size = p.size
  time : p.timePath.size = p.size
  pos : 0 < p.size
  lt_word : p.size < UInt64.size
  optimum_lt : p.optimumIndex.toNat < p.size

theorem toNat_flipIndex {n : Nat} {k : UInt64} (hn : n < UInt64.size) (hk : k.toNat < n) :
    (n.toUInt64 - 1 - k).toNat = n - 1 - k.toNat := by
  have hs : UInt64.size = 2 ^ 64 := rfl
  have hn' : n.toUInt64.toNat = n := UInt64.toNat_ofNat_of_lt' hn
  have hpred : (n.toUInt64 - 1).toNat = n - 1 := by
    rw [UInt64.toNat_sub_of_le _ _ (by rw [UInt64.le_iff_toNat_le, hn']; simp; omega), hn']
    simp
  rw [UInt64.toNat_sub_of_le _ _ (by rw [UInt64.le_iff_toNat_le, hpred]; omega), hpred]

variable {p : Profile}

theorem Aligned.toNat_optimumIndex_flip (h : p.Aligned) :
    p.flip.optimumIndex.toNat = p.size - 1 - p.optimumIndex.toNat := by
  rw [optimumIndex_flip, if_neg (Nat.pos_iff_ne_zero.1 h.pos)]
  exact toNat_flipIndex h.lt_word h.optimum_lt

theorem Aligned.new (i : Nat) (pt : ProfilePoint) : (Profile.new i pt).Aligned :=
  ⟨rfl, rfl, rfl, rfl, rfl, Nat.one_pos, show 1 < UInt64.size by decide,
    show (0 : UInt64).toNat < 1 by decide⟩

theorem Aligned.push (h : p.Aligned) (pt : ProfilePoint) (hw : p.size + 1 < UInt64.size) :
    (p.push pt).Aligned := by
  have hsize := size_push p pt
  refine ⟨?_, ?_, ?_, ?_, ?_, by omega, by omega, ?_⟩
  · rw [hsize]
    simp [Profile.push, h.fval]
  · rw [hsize]
    simp [Profile.push, h.ratio]
  · rw [hsize]
    simp [Profile.push, h.gradnorm]
  · rw [hsize]
    simp [Profile.push, h.converged]
  · rw [hsize]
    simp [Profile.push, h.time]
  · -- appending leaves the optimum where it was
    rw [hsize]
    have := h.optimum_lt
    exact Nat.lt_succ_of_lt this

theorem Aligned.flip (h : p.Aligned) : p.flip.Aligned := by
  refine ⟨?_, ?_, ?_, ?_, ?_, by simpa using h.pos, by simpa using h.lt_word, ?_⟩
  · rw [size_flip]
    simp [Profile.flip, h.fval]
  · rw [size_flip]
    simp [Profile.flip, h.ratio]
  · rw [size_flip]
    simp [Profile.flip, h.gradnorm]
  · rw [size_flip]
    simp [Profile.flip, h.converged]
  · rw [size_flip]
    simp [Profile.flip, h.time]
  · rw [h.toNat_optimumIndex_flip, size_flip]
    have := h.pos
    omega

theorem Built.aligned (h : p.Built) : p.Aligned := by
  induction h with
  | new i pt => exact .new i pt
  | push pt _ hw ih => exact ih.push pt hw
  | flip _ ih => exact ih.flip

theorem flip_flip (p : Profile) : p.flip.flip = p := by
  have hoi : p.flip.flip.optimumIndex = p.optimumIndex := by
    rw [optimumIndex_flip, optimumIndex_flip, size_flip]
    by_cases h : p.size = 0
    · simp [h]
    · simp only [h, if_false]
      grind
  refine Profile.ext ?_ ?_ ?_ ?_ ?_ ?_ hoi rfl rfl rfl rfl <;> simp [Profile.flip]

theorem Aligned.getElem?_flip_optimum (h : p.Aligned) {α : Type} (path : Path α)
    (hsize : (path.get p).size = p.size) :
    (path.get p.flip)[p.flip.optimumIndex.toNat]? = (path.get p)[p.optimumIndex.toNat]? := by
  have := h.optimum_lt
  rw [path.get_flip, h.toNat_optimumIndex_flip, Array.getElem?_reverse (by omega), hsize]
  congr 1
  omega

/-- The points before the optimum, the optimum and the points after it are, in order, all the
points. -/
theorem Aligned.ranges_partition (h : p.Aligned) :
    List.range p.size =
      indicesIn p.decreasingRange ++ p.optimumIndex.toNat :: indicesIn p.increasingRange := by
  have hk := h.optimum_lt
  have hs : UInt64.size = 2 ^ 64 := rfl
  have hnext : (p.optimumIndex + 1).toNat = p.optimumIndex.toNat + 1 := by
    have := h.lt_word
    rw [UInt64.toNat_add]
    simp
    omega
  simp only [indicesIn, decreasingRange, increasingRange, hnext, Nat.sub_zero,
    Nat.min_eq_left (Nat.succ_le_of_lt hk), Nat.succ_eq_add_one]
  rw [List.range_eq_range', ← List.range'_succ]
  have happ := @List.range'_append 0 p.optimumIndex.toNat
    (p.size - (p.optimumIndex.toNat + 1) + 1) 1
  simp only [Nat.zero_add, Nat.one_mul] at happ
  rw [happ]
  congr 1
  omega

theorem pushAll_totals (q r : Profile) (pts : List ProfilePoint) (hn : q.nFval = r.nFval)
    (ht : q.timeTotal = r.timeTotal) :
    (q.pushAll pts).nFval = (r.pushAll pts).nFval ∧
      (q.pushAll pts).timeTotal = (r.pushAll pts).timeTotal := by
  induction pts generalizing q r with
  | nil => exact ⟨hn, ht⟩
  | cons pt pts ih =>
    exact ih (q.push pt) (r.push pt) (by simp [push, hn]) (by simp [push, ht])

@[simp] theorem iPar_pushAll (q : Profile) (pts : List ProfilePoint) :
    (q.pushAll pts).iPar = q.iPar := by
  induction pts generalizing q with
  | nil => rfl
  | cons pt pts ih => rw [pushAll_cons, ih]; rfl

@[simp] theorem message_pushAll (q : Profile) (pts : List ProfilePoint) :
    (q.pushAll pts).message = q.message := by
  induction pts generalizing q with
  | nil => rfl
  | cons pt pts ih => rw [pushAll_cons, ih]; rfl

theorem Path.get_flip_pushAll_flip_eq {α : Type} (path : Path α) (q : Profile)
    (pts : List ProfilePoint) :
    path.get (q.flip.pushAll pts).flip = (pts.map path.field).reverse.toArray ++ path.get q :=
  Array.toList_inj.1 (by simp [path.get_flip_pushAll_flip])

/-- Walking down as a whole profile: reversing, appending `pts` and reversing back puts the
points in front of every path, the last one first, and moves the optimum's index past them;
the counts and times add up as appending them would. -/
theorem flip_pushAll_flip (q : Profile) (pts : List ProfilePoint) (h : pts ≠ [] → q.size ≠ 0) :
    (q.flip.pushAll pts).flip = { q.pushAll pts with
      xPath := (pts.map (·.x)).reverse.toArray ++ q.xPath,
      fvalPath := (pts.map (·.fval)).reverse.toArray ++ q.fvalPath,
      ratioPath := (pts.map (·.ratio)).reverse.toArray ++ q.ratioPath,
      gradnormPath := (pts.map (·.gradnorm)).reverse.toArray ++ q.gradnormPath,
      convergedPath := (pts.map (·.converged)).reverse.toArray ++ q.convergedPath,
      timePath := (pts.map (·.time)).reverse.toArray ++ q.timePath,
      optimumIndex := q.optimumIndex + pts.length.toUInt64 } := by
  obtain ⟨hn, ht⟩ := pushAll_totals q.flip q pts rfl rfl
  apply Profile.ext
  · exact Path.x.get_flip_pushAll_flip_eq q pts
  · exact Path.fval.get_flip_pushAll_flip_eq q pts
  · exact Path.ratio.get_flip_pushAll_flip_eq q pts
  · exact Path.gradnorm.get_flip_pushAll_flip_eq q pts
  · exact Path.converged.get_flip_pushAll_flip_eq q pts
  · exact Path.time.get_flip_pushAll_flip_eq q pts
  · exact optimumIndex_flip_pushAll_flip q pts h
  · simp [Profile.flip]
  · exact hn
  · exact ht
  · simp [Profile.flip]

/-- The laws of a profile's bookkeeping under appending and reversing. -/
structure FlipLaws (p : Profile) : Prop where
  /-- The six paths have one length `n ≥ 1` and the optimum's index is below `n`. -/
  aligned : p.Aligned
  /-- Reversing is an involution. -/
  flip_flip : p.flip.flip = p
  /-- Reversing keeps every path of the profile's length on the optimum. -/
  optimum_kept : ∀ {α : Type} (path : Path α), (path.get p).size = p.size →
    (path.get p.flip)[p.flip.optimumIndex.toNat]? = (path.get p)[p.optimumIndex.toNat]?
  /-- The points before the optimum, the optimum and those after it are, in order, all the
  points. -/
  ranges : List.range p.size =
    indicesIn p.decreasingRange ++ p.optimumIndex.toNat :: indicesIn p.increasingRange
  /-- Reversing, appending and reversing back prepends the points, the last one first, and
  moves the optimum's index past them. -/
  walk_down : ∀ pts : List ProfilePoint, (p.flip.pushAll pts).flip = { p.pushAll pts with
      xPath := (pts.map (·.x)).reverse.toArray ++ p.xPath,
      fvalPath := (pts.map (·.fval)).reverse.toArray ++ p.fvalPath,
      ratioPath := (pts.map (·.ratio)).reverse.toArray ++ p.ratioPath,
      gradnormPath := (pts.map (·.gradnorm)).reverse.toArray ++ p.gradnormPath,
      convergedPath := (pts.map (·.converged)).reverse.toArray ++ p.convergedPath,
      timePath := (pts.map (·.time)).reverse.toArray ++ p.timePath,
      optimumIndex := p.optimumIndex + pts.length.toUInt64 }

/-- Every profile built by appending and reversing keeps the laws of its bookkeeping. -/
theorem Built.flip_laws (h : p.Built) : p.FlipLaws :=
  have ha := h.aligned
  { aligned := ha
    flip_flip := flip_flip p
    optimum_kept := fun path hsize => ha.getElem?_flip_optimum path hsize
    ranges := ha.ranges_partition
    walk_down := fun pts => flip_pushAll_flip p pts fun _ => Nat.pos_iff_ne_zero.1 ha.pos }

/-- A profile walked down one point and up one point: three points, the optimum in the middle. -/
theorem flip_laws_of_walked_both_ways :
    ∃ p : Profile, p.Built ∧ p.size = 3 ∧ p.optimumIndex = 1 ∧ p.FlipLaws := by
  let pt : ProfilePoint := { x := #[], fval := .ofFloat 0.0 }
  have hb : (((Profile.new 0 pt).flip.push pt).flip.push pt).Built :=
    .push pt (.flip (.push pt (.flip (.new 0 pt)) (by simp; decide))) (by simp; decide)
  refine ⟨_, hb, by simp, ?_, Built.flip_laws hb⟩
  simp only [optimumIndex_push, optimumIndex_flip, size_flip, size_push, size_new]
  decide

/-! ### Evaluation counts -/

/-- A call on a profile once it is made: appending a point, or reversing it. -/
inductive Edit where
  | append (pt : ProfilePoint)
  | flip

/-- The profile after one call. -/
def Edit.run (p : Profile) : Edit → Profile
  | .append pt => p.push pt
  | .flip => p.flip

/-- The point a call appends, if it appends one. -/
def Edit.point? : Edit → Option ProfilePoint
  | .append pt => some pt
  | .flip => none

/-- The profile of parameter `i` made from the point `pt`, then edited by `es` in order. -/
def build (i : Nat) (pt : ProfilePoint) (es : List Edit) : Profile :=
  es.foldl Edit.run (Profile.new i pt)

theorem nFval_run (p : Profile) (e : Edit) :
    (e.run p).nFval.toNat =
      (p.nFval.toNat + (e.point?.map (·.nFval.toNat)).getD 0) % 2 ^ 64 := by
  cases e with
  | append pt => simp [Edit.run, Edit.point?, push, UInt64.toNat_add]
  | flip => simp [Edit.run, Edit.point?, Profile.flip, Nat.mod_eq_of_lt p.nFval.toNat_lt]

theorem nFval_foldl_run (p : Profile) (es : List Edit) :
    (es.foldl Edit.run p).nFval.toNat =
      (p.nFval.toNat + ((es.filterMap Edit.point?).map (·.nFval.toNat)).sum) % 2 ^ 64 := by
  induction es generalizing p with
  | nil => simp [Nat.mod_eq_of_lt p.nFval.toNat_lt]
  | cons e es ih =>
    rw [List.foldl_cons, ih, nFval_run, Nat.mod_add_mod]
    cases e <;> simp [Edit.point?, List.filterMap_cons, Nat.add_assoc]

/-- The count of a profile built by appending and reversing is the sum of the counts of its
points taken modulo `2 ^ 64`: it is that sum exactly when the sum is below `2 ^ 64`. -/
theorem build_nFval_wraps (i : Nat) (pt : ProfilePoint) (es : List Edit) :
    let total := ((pt :: es.filterMap Edit.point?).map (·.nFval.toNat)).sum
    (build i pt es).nFval.toNat = total % 2 ^ 64 ∧
      ((build i pt es).nFval.toNat = total ↔ total < 2 ^ 64) := by
  intro total
  have hmod : (build i pt es).nFval.toNat = total % 2 ^ 64 := by
    rw [build, nFval_foldl_run]
    rfl
  refine ⟨hmod, ⟨fun h => ?_, fun h => hmod.trans (Nat.mod_eq_of_lt h)⟩⟩
  rw [← h]
  exact (build i pt es).nFval.toNat_lt

/-- A seed that has used up every count but one, and one more evaluation appended: the total
wraps around to zero. -/
theorem build_nFval_overflows :
    (build 0 { x := #[], fval := .ofFloat 0.0, nFval := 18446744073709551615 }
      [.append { x := #[], fval := .ofFloat 0.0, nFval := 1 }]).nFval.toNat ≠
      18446744073709551615 + 1 := by
  decide

end ProfileLikelihood.Profile

import ProfileLikelihood.Numeric.Vector
import ProfileLikelihood.Numeric.Double
import ProfileLikelihood.Error

/-!
Profiles. A profile of parameter `i` is a path of points, each a full parameter vector with
the objective value there, its likelihood ratio to the best fit, the gradient norm, whether the
fit converged, its time and evaluation count. One point is marked as the optimum; the points
before it were found walking down in parameter `i`, those after it walking up. A profile is
walked in one direction at a time by appending at its end, so walking down means reversing it
first (which moves the optimum's index to its place counted from the other end) and reversing
it back after. The optimum's index is a machine word: counting it from the other end wraps
around when it lies past the end, and reversing twice restores it. The evaluation counts are
machine words as well, so a profile's total wraps around past `2 ^ 64 - 1`. Points, values,
ratios, gradient norms and times are doubles that keep the sign of a NaN, since a profile
echoes the NaNs it is given and those its arithmetic makes.
-/

namespace ProfileLikelihood

/-- The direction of a walk in the profiled parameter. -/
inductive Direction where
  | decreasing
  | increasing
deriving DecidableEq, Repr

namespace Direction

/-- `-1` for walking down, `1` for walking up. -/
def sign : Direction → Float
  | decreasing => -1.0
  | increasing => 1.0

/-- The name of a direction. -/
def name : Direction → String
  | decreasing => "Decreasing"
  | increasing => "Increasing"

end Direction

abbrev Point := Array Numeric.Double

/-- One point of a profile. -/
structure ProfilePoint where
  x : Point
  fval : Numeric.Double
  ratio : Numeric.Double := .ofFloat 1.0
  gradnorm : Numeric.Double := .ofFloat Numeric.nan
  converged : Bool := true
  time : Numeric.Double := .ofFloat 0.0
  nFval : UInt64 := 0

/-- A profile: parallel paths of the points' fields, the optimum's index and totals. -/
structure Profile where
  xPath : Array Point
  fvalPath : Array Numeric.Double
  ratioPath : Array Numeric.Double
  gradnormPath : Array Numeric.Double
  convergedPath : Array Bool
  timePath : Array Numeric.Double
  optimumIndex : UInt64 := 0
  iPar : Nat
  nFval : UInt64
  timeTotal : Numeric.Double
  message : String := ""

namespace Profile

/-- The profile of parameter `i` holding the single point `pt`. -/
def new (i : Nat) (pt : ProfilePoint) : Profile :=
  { xPath := #[pt.x], fvalPath := #[pt.fval], ratioPath := #[pt.ratio],
    gradnormPath := #[pt.gradnorm], convergedPath := #[pt.converged], timePath := #[pt.time],
    iPar := i, nFval := pt.nFval, timeTotal := pt.time }

def size (p : Profile) : Nat := p.xPath.size

/-- The profile with `pt` appended at its end. -/
def push (p : Profile) (pt : ProfilePoint) : Profile :=
  { p with
    xPath := p.xPath.push pt.x, fvalPath := p.fvalPath.push pt.fval,
    ratioPath := p.ratioPath.push pt.ratio, gradnormPath := p.gradnormPath.push pt.gradnorm,
    convergedPath := p.convergedPath.push pt.converged, timePath := p.timePath.push pt.time,
    nFval := p.nFval + pt.nFval, timeTotal := p.timeTotal.add pt.time }

/-- The profile in reverse order, the optimum's index counted from the other end in machine
words. -/
def flip (p : Profile) : Profile :=
  { p with
    xPath := p.xPath.reverse, fvalPath := p.fvalPath.reverse, ratioPath := p.ratioPath.reverse,
    gradnormPath := p.gradnormPath.reverse, convergedPath := p.convergedPath.reverse,
    timePath := p.timePath.reverse,
    optimumIndex := if p.size = 0 then p.optimumIndex else p.size.toUInt64 - 1 - p.optimumIndex }

def lastX? (p : Profile) : Option Point := p.xPath.back?

section Points

variable {α : Type}

/-- Entry `i` of the point `x`; a point too short for it stops the computation. -/
def pointEntry (x : Array α) (i : Nat) : Except ProfileError α :=
  if h : i < x.size then .ok x[i] else .error (.indexOutOfBounds i x.size)

/-- `x` with entry `i` replaced by `v`; a point too short for it stops the computation. -/
def pointSet (x : Array α) (i : Nat) (v : α) : Except ProfileError (Array α) :=
  if i < x.size then .ok (x.set! i v) else .error (.indexOutOfBounds i x.size)

/-- `f` entrywise on two points broadcast to a common length: their length when they agree, else
the other's length when one has a single entry, which then stands for every entry. -/
def pointZip [OfScientific α] (f : α → α → α) (a b : Array α) : Except ProfileError (Array α) :=
  let at_ (v : Array α) (i : Nat) := v.getD (if v.size = 1 then 0 else i) 0.0
  let zip (n : Nat) := (Array.range n).map fun i => f (at_ a i) (at_ b i)
  if a.size = b.size then .ok (zip a.size)
  else if a.size = 1 then .ok (zip b.size)
  else if b.size = 1 then .ok (zip a.size)
  else .error (.incompatibleLengths a.size b.size)

end Points

def parValues? (p : Profile) : Option Point := p.xPath.mapM (·[p.iPar]?)

/-- The path as a matrix with one column per point, if all points have the same length. -/
def xPathMatrix? (p : Profile) : Option (Array (Array Numeric.Double)) :=
  let dim := (p.xPath[0]?.map (·.size)).getD 0
  if p.xPath.all (·.size == dim) then
    some ((Array.range dim).map fun r => p.xPath.map (Numeric.Double.entry · r))
  else none

def decreasingRange (p : Profile) : Nat × Nat := (0, p.optimumIndex.toNat)

/-- The indices of the points after the optimum, `[optimum + 1, size)`, empty past the end;
the successor is taken in machine words, so the largest index is followed by `0`. -/
def increasingRange (p : Profile) : Nat × Nat := (min (p.optimumIndex + 1).toNat p.size, p.size)

end Profile

end ProfileLikelihood

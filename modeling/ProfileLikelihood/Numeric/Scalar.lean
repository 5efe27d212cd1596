import ProfileLikelihood.Numeric.Double

/-!
The number systems the library's generic computations are written over: arithmetic, order,
decimal literals, the exponential and the logarithm with their forms accurate near zero, the
larger and the smaller of two values ignoring a first one that is not a number, the clamp into
an interval, absolute values, integer powers, whether a value is a number and finite, equality,
doubles and counts read as values, and the machine epsilon. Doubles run the computations, with
the C library's `exp` and `log` and this library's `log1p`, `expm1`, `maxNum`, `minNum`, `powi`
and `clamp`, as `Float` or as `Double` when the sign of a NaN matters; another instance reads the
same expressions in its own arithmetic.
-/

namespace ProfileLikelihood.Numeric

/-- What the generic computations compute with. -/
class Scalar (α : Type) extends Add α, Sub α, Mul α, Div α, Neg α, LT α, LE α, OfScientific α where
  decLt : DecidableRel fun a b : α => a < b
  decLe : DecidableRel fun a b : α => a ≤ b
  exp : α → α
  log : α → α
  /-- `log (1 + x)`. -/
  log1p : α → α
  /-- `exp x - 1`. -/
  expm1 : α → α
  /-- The larger of two values; the second when the first is not a number. -/
  maxNum : α → α → α
  /-- The smaller of two values; the second when the first is not a number. -/
  minNum : α → α → α
  /-- `x` moved into `[lo, hi]`. -/
  clamp : α → α → α → α
  abs : α → α
  /-- `x ^ n`. -/
  powi : α → Nat → α
  isNaN : α → Bool
  isFinite : α → Bool
  /-- Equality of numbers, under which `0.0` and `-0.0` agree and a NaN equals nothing. -/
  beq : α → α → Bool
  /-- A double read as a value. -/
  ofFloat : Float → α
  /-- A count read as a value. -/
  ofNat : Nat → α
  /-- The gap between `1` and the next double. -/
  epsilon : α

instance Scalar.instDecidableLt {α : Type} [Scalar α] : DecidableRel fun a b : α => a < b :=
  Scalar.decLt

instance Scalar.instDecidableLe {α : Type} [Scalar α] : DecidableRel fun a b : α => a ≤ b :=
  Scalar.decLe

instance : Scalar Float where
  decLt := Float.decLt
  decLe := Float.decLe
  exp := Float.exp
  log := Float.log
  log1p := log1p
  expm1 := expm1
  maxNum := maxNum
  minNum := minNum
  clamp := clamp
  abs := Float.abs
  powi := powi
  isNaN := Float.isNaN
  isFinite := Float.isFinite
  beq a b := a == b
  ofFloat x := x
  ofNat n := n.toFloat
  epsilon := epsilon

namespace Double

instance : LT Double := ⟨fun a b => a.float < b.float⟩
instance : LE Double := ⟨fun a b => a.float ≤ b.float⟩

/-- Doubles compute as their `Float`s, each NaN signed by the rule of `Double.result`. -/
instance : Scalar Double where
  decLt a b := Float.decLt a.float b.float
  decLe a b := Float.decLe a.float b.float
  exp := map Float.exp
  log := map Float.log
  log1p := map Numeric.log1p
  expm1 := map Numeric.expm1
  maxNum a b := if a.isNaN then b else if b.float > a.float then b else a
  minNum a b := if a.isNaN then b else if b.float < a.float then b else a
  clamp x lo hi := x.clamp lo.float hi.float
  abs := abs
  powi x n := map (Numeric.powi · n) x
  isNaN := isNaN
  isFinite x := x.float.isFinite
  beq a b := a.float == b.float
  ofFloat := ofFloat
  ofNat n := ofFloat n.toFloat
  epsilon := ofFloat Numeric.epsilon

end Double

end ProfileLikelihood.Numeric

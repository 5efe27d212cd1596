import ProfileLikelihood.Numeric.Vector
import ProfileLikelihood.Numeric.Scalar

/-!
Maps between a bounded coordinate and the real line. A coordinate with two finite bounds goes
through the logistic function, one with a single finite bound through softplus, and an
unbounded one stays as it is. The maps are monotone, so a direction means the same in both
coordinates. The scalar functions guard against overflow: softplus and its inverse are the
identity above 20, the logistic function never evaluates `exp` of a large positive number,
and the logit clamps its argument to `[10⁻¹⁰, 1 - 10⁻¹⁰]`. The maps are written over any
`Scalar`: doubles run them, and the same expressions read in exact arithmetic over the reals.
-/

namespace ProfileLikelihood

open Numeric

/-- How one coordinate is mapped to the real line, by which of its bounds are finite. -/
inductive Transform (α : Type) where
  | free
  | lower (lb : α)
  | upper (ub : α)
  | interval (lb ub : α)
deriving Repr

section Maps

variable {α : Type} [Scalar α]

def logitEps : α := 1e-10

/-- `log (1 + exp x)`, or `x` above 20. -/
def softplus (x : α) : α :=
  if x > 20.0 then x else Scalar.log1p (Scalar.exp x)

/-- `log (exp x - 1)`, or `x` above 20. -/
def softplusInv (x : α) : α :=
  if x > 20.0 then x else Scalar.log (Scalar.expm1 x)

/-- `1 / (1 + exp (-x))`, written as `e / (1 + e)` with `e = exp x` for negative `x`. -/
def logistic (x : α) : α :=
  if x ≥ 0.0 then 1.0 / (1.0 + Scalar.exp (-x))
  else
    let e := Scalar.exp x
    e / (1.0 + e)

/-- `log (p / (1 - p))` with `p` clamped to `[10⁻¹⁰, 1 - 10⁻¹⁰]`. -/
def logit (p : α) : α :=
  let p := Scalar.clamp p logitEps (1.0 - logitEps)
  Scalar.log (p / (1.0 - p))

end Maps

namespace Transform

/-- The map for the bounds `[lb, ub]`. -/
def ofBounds (lb ub : Float) : Transform Float :=
  match lb.isFinite, ub.isFinite with
  | true, true => .interval lb ub
  | true, false => .lower lb
  | false, true => .upper ub
  | false, false => .free

variable {α : Type} [Scalar α]

/-- From the real line into the bounds. -/
def toBounded : Transform α → α → α
  | free, z => z
  | lower lb, z => lb + softplus z
  | upper ub, z => ub - softplus z
  | interval lb ub, z => lb + (ub - lb) * logistic z

/-- From the bounds onto the real line; points at or past a single bound are first moved
`10⁻¹⁰` inside, and an empty interval maps everything to `0`. -/
def toUnbounded : Transform α → α → α
  | free, x => x
  | lower lb, x => softplusInv (Scalar.maxNum (x - lb) logitEps)
  | upper ub, x => softplusInv (Scalar.maxNum (ub - x) logitEps)
  | interval lb ub, x =>
    let width := ub - lb
    if width ≤ 0.0 then 0.0 else logit ((x - lb) / width)

/-- The derivative of `toBounded` at `z`. -/
def derivative : Transform α → α → α
  | free, _ => 1.0
  | lower _, z => logistic z
  | upper _, z => -logistic z
  | interval lb ub, z =>
    let s := logistic z
    (ub - lb) * s * (1.0 - s)

/-- The name of the kind of map. -/
def kindName : Transform α → String
  | free => "Free"
  | lower _ => "Lower"
  | upper _ => "Upper"
  | interval _ _ => "Interval"

end Transform

end ProfileLikelihood

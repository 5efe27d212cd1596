import ProfileLikelihood.Error
import ProfileLikelihood.Stats.ChiSquared
import ProfileLikelihood.Numeric.Double
import ProfileLikelihood.Numeric.Scalar

/-!
Confidence intervals from a profile. The interval runs from the first to the last point whose
likelihood ratio reaches the level, widened on each side to where the straight line through
that point and its outer neighbour meets the level (an end point of the profile stays as it
is). The interval is written over any `Scalar`, so that it reads in exact arithmetic too;
`approximateDouble` finds the same ends on doubles whose NaN keeps its sign. The level for a
coverage `alpha` is `exp (-q / 2)`, `q` the chi-squared quantile.
-/

namespace ProfileLikelihood.Interval

/-- Where an end of the interval lies: on a profile point, or where the straight line through
an inner point and its outer neighbour meets the level. -/
inductive Bound where
  | point (i : Nat)
  | crossing (inner outer : Nat)

/-- Why no interval can be read off a profile: it has no points or not one ratio per point, or
no ratio reaches the level. -/
inductive Failure (α : Type) where
  | invalidInput (xs ratios : Nat)
  | noPointAboveRatio (c : α)

/-- The error reported for a failure on doubles. -/
def Failure.toProfileError : Failure Float → ProfileError
  | .invalidInput xs ratios => .invalidCiInput xs ratios
  | .noPointAboveRatio c => .noPointAboveRatio c

section Scalar

variable {α : Type} [Numeric.Scalar α]

/-- `x_out + (c - r_out) / (r_in - r_out) * (x_in - x_out)`: where the line through the
outer and the inner point reaches the level `c`. -/
def levelCrossing (c xIn rIn xOut rOut : α) : α :=
  xOut + (c - rOut) / (rIn - rOut) * (xIn - xOut)

/-- The ends of the interval of the points whose ratio is at least `c`: the first and the last
such point, each moved out to the crossing with its outer neighbour unless it ends the profile. -/
def bounds (n : Nat) (ratios : Array α) (c : α) : Except (Failure α) (Bound × Bound) := do
  if n = 0 || n ≠ ratios.size then
    throw (.invalidInput n ratios.size)
  let above := fun (r : α) => decide (r ≥ c)
  match ratios.findIdx? above, (ratios.toList.zipIdx.filter (above ·.1)).getLast? with
  | some l, some (_, u) =>
    return (if l = 0 then .point 0 else .crossing l (l - 1),
      if u = n - 1 then .point u else .crossing u (u + 1))
  | _, _ => throw (.noPointAboveRatio c)

/-- The position of an end on the profile `xs` with ratios `ratios`. -/
def Bound.value (xs ratios : Array α) (c : α) : Bound → α
  | .point i => xs.getD i 0.0
  | .crossing i o =>
    levelCrossing c (xs.getD i 0.0) (ratios.getD i 0.0) (xs.getD o 0.0) (ratios.getD o 0.0)

/-- The interval of the points with ratio at least `c`, interpolated outward. -/
def approximate (xs ratios : Array α) (c : α) : Except (Failure α) (α × α) := do
  let (l, u) ← bounds xs.size ratios c
  return (l.value xs ratios c, u.value xs ratios c)

end Scalar

/-- The position of an end, with the sign of a NaN. -/
def Bound.double (xs ratios : Array Numeric.Double) (c : Numeric.Double) : Bound → Numeric.Double
  | .point i => xs.getD i (.ofFloat 0.0)
  | .crossing i o =>
    let get := fun (v : Array Numeric.Double) (k : Nat) => v.getD k (.ofFloat 0.0)
    let (xIn, rIn, xOut, rOut) := (get xs i, get ratios i, get xs o, get ratios o)
    ((xIn.sub xOut).mul ((c.sub rOut).div (rIn.sub rOut))).add xOut

/-- `approximate` on doubles whose NaN keeps its sign. -/
def approximateDouble (xs ratios : Array Numeric.Double) (c : Numeric.Double) :
    Except ProfileError (Numeric.Double × Numeric.Double) := do
  let (l, u) ← (bounds xs.size (ratios.map (·.float)) c.float).mapError Failure.toProfileError
  return (l.double xs ratios c, u.double xs ratios c)

/-- The likelihood-ratio level of a chi-squared test at coverage `alpha` with `df` degrees of
freedom, from the chi-squared distributions `chi`; `alpha` must lie strictly between 0 and 1 and
`df` must make a distribution. -/
def chi2Ratio (chi : Stats.ChiSquaredFamily) (alpha df : Float) : Except ProfileError Float :=
  if !(alpha > 0.0 && alpha < 1.0) || !chi.accepts df then .error (.invalidChi2 alpha df)
  else match chi.quantile df alpha with
    | none => .error (.unboundedChi2 df)
    | some q => .ok (-q / 2.0).exp

end ProfileLikelihood.Interval

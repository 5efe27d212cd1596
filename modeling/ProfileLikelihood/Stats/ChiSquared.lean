import ProfileLikelihood.Stats.Gamma

/-!
Chi-squared distributions. The library takes them from a statistics library, as the check on the
degrees of freedom and the quantile function. This library's own has its distribution function
through `P(df/2, x/2)`, and its quantile by bisection. The bisection starts from `[-2, 2]`, doubles an end while the
distribution function has not yet crossed the level there, then halves the bracket sixteen
times and answers its midpoint. The quantile is therefore a dyadic number near the true one,
not the nearest double; the likelihood-ratio threshold `exp (-q / 2)` inherits that.
-/

namespace ProfileLikelihood.Stats

/-- The chi-squared distribution with `df` degrees of freedom. -/
structure ChiSquared where
  df : Float

namespace ChiSquared

/-- A distribution exists when its gamma shape `df / 2` is positive. -/
def new? (df : Float) : Option ChiSquared :=
  let shape := df / 2.0
  if shape.isNaN || shape ≤ 0.0 then none else some ⟨df⟩

/-- The distribution function. -/
def cdf (d : ChiSquared) (x : Float) : Float :=
  if x ≤ 0.0 then 0.0
  else if x.isInf then 1.0
  else gammaLr (d.df / 2.0) (x * 0.5)

/-- Doubles `b` while `keep b` holds, at most `fuel` times. -/
def widen (keep : Float → Bool) : Nat → Float → Float
  | 0, b => b
  | fuel + 1, b => if keep b then widen keep fuel (b + b) else b

/-- `n` halvings of the bracket `[lo, hi]` around the level `p`; the midpoint at the end. -/
def bisect (d : ChiSquared) (p : Float) : Nat → Float → Float → Float
  | 0, lo, hi => (hi + lo) / 2.0
  | n + 1, lo, hi =>
    let mid := (hi + lo) / 2.0
    if d.cdf mid ≥ p then bisect d p n lo mid else bisect d p n mid hi

/-- The quantile at level `p`, for `0 < p < 1`. -/
def quantile (d : ChiSquared) (p : Float) : Float :=
  let lo := widen (fun b => d.cdf b > p) 2000 (-2.0)
  let hi := widen (fun b => d.cdf b < p) 2000 2.0
  bisect d p 16 lo hi

end ChiSquared

/-- The chi-squared distributions of a statistics library: whether `df` degrees of freedom make
one, and its quantile at a level, none when the library cannot evaluate it. -/
structure ChiSquaredFamily where
  accepts : Float → Bool
  quantile : Float → Float → Option Float

/-- This library's chi-squared distributions; infinitely many degrees of freedom make one whose
quantile cannot be evaluated. -/
def ChiSquaredFamily.reference : ChiSquaredFamily where
  accepts df := (ChiSquared.new? df).isSome
  quantile df p := if df.isInf then none else (ChiSquared.new? df).map (·.quantile p)

end ProfileLikelihood.Stats

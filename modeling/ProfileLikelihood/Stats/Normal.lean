import ProfileLikelihood.Numeric.Vector
import ProfileLikelihood.Numeric.Double

/-!
Normal distributions. The library takes them from a statistics library, as the check on a mean
and a deviation and the log-density of the distribution they make. This library's own accept a
mean that is a number with a positive deviation, and compute `-d² / 2 - log √(2π) - log σ` with
`d = (x - μ) / σ` for a given logarithm.
-/

namespace ProfileLikelihood.Stats

/-- The normal distributions of a statistics library: whether a mean and a deviation make one,
and the log-density at `x` of the one they make. -/
structure NormalFamily where
  accepts : Float → Float → Bool
  lnPdf : Float → Float → Numeric.Double → Numeric.Double

def lnSqrt2Pi : Float := 0.91893853320467274178032973640561763986139747363778

/-- The log-density at `x` of the normal distribution with mean `mu` and deviation `sigma`, with
`log` the logarithm; a NaN `x` passes its sign on. -/
def normalLnPdf (log : Float → Float) (mu sigma : Float) (x : Numeric.Double) : Numeric.Double :=
  let d := (x - .ofFloat mu) / .ofFloat sigma
  let half : Numeric.Double := -0.5
  half * d * d - .ofFloat lnSqrt2Pi - .ofFloat (log sigma)

/-- This library's normal distributions, with `log` the logarithm. -/
def NormalFamily.reference (log : Float → Float) : NormalFamily where
  accepts mu sigma := !(mu.isNaN || sigma.isNaN || sigma ≤ 0.0)
  lnPdf := normalLnPdf log

end ProfileLikelihood.Stats

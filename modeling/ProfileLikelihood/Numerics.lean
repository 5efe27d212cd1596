import ProfileLikelihood.Derivative.FiniteDiff
import ProfileLikelihood.Numeric.SymmetricEigen
import ProfileLikelihood.Stats.Normal

/-!
The numerical libraries a Gaussian approximation is computed with, each a parameter: the C
library's `exp` and `log`, a statistics library's normal distributions, an eigendecomposition of
symmetric matrices (none when it does not end) and the finite-difference Hessians of a gradient.
-/

namespace ProfileLikelihood

/-- The numerical libraries of a Gaussian approximation. -/
structure Numerics where
  libm : Numeric.Libm
  normal : Stats.NormalFamily
  eigen : Mat → Option Numeric.SymmetricEigen
  hessians : FiniteDiff.Hessians

/-- This library's own, with the system's `exp` and `log`. -/
def Numerics.reference : Numerics where
  libm := .system
  normal := .reference Float.log
  eigen := Numeric.SymmetricEigen.ofMatrix
  hessians := .reference

end ProfileLikelihood

import ProfileLikelihood.Error
import ProfileLikelihood.Numeric.Vector
import ProfileLikelihood.Numeric.Double

/-!
An objective: a value on full parameter vectors, and optionally a gradient and a Hessian.
A missing derivative answers `gradientNotImplemented` or `hessianNotImplemented`, which
callers replace by finite differences. A Hessian comes with its number of columns, so that one
without rows still has a shape to check. The value reads and answers doubles that keep the sign
of a NaN, which is part of what an evaluation answers.
-/

namespace ProfileLikelihood

/-- A function to minimise, with whatever derivatives it knows. -/
structure Objective where
  value : Array Numeric.Double → Except FitError Numeric.Double
  gradient : Vec → Except FitError Vec := fun _ => .error .gradientNotImplemented
  hessian : Vec → Except FitError Mat.Sized := fun _ => .error .hessianNotImplemented

/-- A value function on plain numbers, its answer read as a plain number, the sign of a NaN
dropped. -/
def Objective.numeric (f : Array Numeric.Double → Except FitError Numeric.Double) (x : Vec) :
    Except FitError Float :=
  (f (x.map .ofFloat)).map (·.float)

end ProfileLikelihood

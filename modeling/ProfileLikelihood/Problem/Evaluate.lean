import ProfileLikelihood.Problem.Basic
import ProfileLikelihood.Derivative.FiniteDiff

/-!
Evaluating a problem's objective on full vectors, with fallbacks for missing derivatives:
a missing gradient becomes forward differences of the value; a missing Hessian becomes
differences of the analytic gradient when there is one, else second differences of values.
-/

namespace ProfileLikelihood.Problem

/-- The objective value at a full vector of the right length, as the objective answers it. -/
def evaluate (p : Problem) (x : Array Numeric.Double) : Except FitError Numeric.Double := do
  if x.size ≠ p.dimFull then throw (.thetaLengthMismatch p.dimFull x.size)
  p.objective.value x

/-- The objective value at a full vector of the right length, as a number. -/
def value (p : Problem) (x : Vec) : Except FitError Float := Objective.numeric p.evaluate x

/-- The gradient at a full vector: the analytic one, checked, or forward differences of the
value when the objective has none. -/
def gradient (p : Problem) (x : Vec) : Except FitError Vec :=
  match p.objective.gradient x with
  | .ok g => do Check.gradient g p.dimFull; return g
  | .error .gradientNotImplemented => FiniteDiff.gradient p.value x
  | .error e => .error e

/-- The Hessian at a full vector: the analytic one, checked; else differences of the
analytic gradient by the finite-difference library `fd` (failing gradients read as NaN); else
second differences of values (failing values read as NaN). -/
def hessian (p : Problem) (fd : FiniteDiff.Hessians) (x : Vec) : Except FitError Mat :=
  match p.objective.hessian x with
  | .ok h => do Check.hessianSized h p.dimFull; return h.rows
  | .error .hessianNotImplemented =>
    match p.objective.gradient x with
    | .ok _ =>
      let g := FiniteDiff.lenientGradient p.objective.gradient fun y =>
        Array.replicate y.size Numeric.nan
      FiniteDiff.hessianOfGradient fd g x
    | .error .gradientNotImplemented =>
      FiniteDiff.hessianOfValues (FiniteDiff.lenient (Objective.numeric p.objective.value)) x
    | .error e => .error e
  | .error e => .error e

end ProfileLikelihood.Problem

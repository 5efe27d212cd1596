import ProfileLikelihood.Minimize.Argmin
import ProfileLikelihood.Validation

/-!
The result of one local minimisation: the full parameter vector found, its cost, whether the
run converged and why it stopped, the iteration and evaluation counts, and the norm of the last
gradient. A run that gave up is an error, not a result; a result always has a finite point and
a finite cost.
-/

namespace ProfileLikelihood

/-- How often the cost and the gradient were evaluated; the gradient count is absent when the
gradient was never asked for. -/
structure Evaluations where
  cost : Nat
  gradient : Option Nat := none
deriving Repr, DecidableEq

/-- The result of one local minimisation. -/
structure Outcome where
  thetaHat : Vec
  value : Float
  converged : Bool
  status : String
  iterations : Nat
  evaluations : Evaluations
  gradNorm : Option Float
  hess : Option Mat := none

namespace Outcome

/-- A result at a point that needed no iterations, after one evaluation of the cost. -/
def atPoint (theta : Vec) (value : Float) (status : String) : Except FitError Outcome := do
  let theta ← Check.thetaHat (some theta)
  Check.value value
  return { thetaHat := theta, value, converged := true, status, iterations := 0,
           evaluations := { cost := 1 }, gradNorm := none }

/-- The result of a finished run whose best point maps to `theta` in full coordinates. -/
def ofRun (theta : Option Vec) (value : Float) (t : Termination) (iterations : Nat)
    (evaluations : Evaluations) (grad : Option Vec) : Except FitError Outcome := do
  if let .exit text := t then throw (.solver "solver exit" text)
  let theta ← Check.thetaHat theta
  Check.value value
  return { thetaHat := theta, value, converged := t.isConverged, status := t.text, iterations,
           evaluations, gradNorm := grad.map Vec.norm }

def nFval (o : Outcome) : Nat := o.evaluations.cost

end Outcome

end ProfileLikelihood

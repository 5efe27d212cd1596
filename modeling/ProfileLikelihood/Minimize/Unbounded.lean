import ProfileLikelihood.Problem.Evaluate
import ProfileLikelihood.Transform

/-!
A problem seen in unbounded coordinates: each free parameter goes through the transform of its
bounds, so an unconstrained minimiser can work on the real line. A point `z` maps to the full
vector of the problem by the transforms, a clamp into the bounds (against rounding) and the
fixed values. The cost is the objective there, which must be finite; the gradient is the
analytic one times the derivatives of the transforms, or else central differences of the
cost, or, when those fail or are not finite, forward differences.
-/

namespace ProfileLikelihood

/-- A problem with the transforms of its free parameters. -/
structure Unbounded where
  problem : Problem
  transforms : Array (Transform Float)

namespace Unbounded

/-- The transforms from the free parameters' bounds. -/
def ofProblem (p : Problem) : Unbounded :=
  ⟨p, Array.zipWith Transform.ofBounds p.lb p.ub⟩

def toBounded (u : Unbounded) (z : Vec) : Vec := Array.zipWith (fun zi t => t.toBounded zi) z u.transforms

/-- Unbounded coordinates from free parameters. -/
def toUnbounded (u : Unbounded) (x : Vec) : Vec :=
  Array.zipWith (fun xi t => t.toUnbounded xi) x u.transforms

/-- The full parameter vector of the point `z`. -/
def fullVector (u : Unbounded) (z : Vec) : Except FitError Vec :=
  let x := u.toBounded z
  let clamped := Array.zipWith (fun xi (l, h) => Numeric.clamp xi l h) x (Array.zip u.problem.lb u.problem.ub)
  u.problem.fullVector clamped

/-- The objective at the point `z`, required to be finite. -/
def cost (u : Unbounded) (z : Vec) : Except FitError Float := do
  let v ← u.problem.value (← u.fullVector z)
  if v.isFinite then return v else throw (.nonFiniteCost v)

/-- The gradient at the point `z` in unbounded coordinates. -/
def gradient (u : Unbounded) (z : Vec) : Except FitError Vec := do
  let x ← u.fullVector z
  match u.problem.objective.gradient x with
  | .ok g =>
    Check.gradient g u.problem.dimFull
    let gFree ← u.problem.reducedVector g
    return Array.zipWith (fun gi (zi, t) => gi * t.derivative zi) gFree (Array.zip z u.transforms)
  | .error .gradientNotImplemented =>
    match FiniteDiff.centralCapturing u.cost z with
    | .ok g =>
      match Check.gradient g z.size with
      | .ok () => return g
      | .error _ => FiniteDiff.gradient u.cost z
    | .error e => if e.stops then throw e else FiniteDiff.gradient u.cost z
  | .error e => throw e

end Unbounded

end ProfileLikelihood

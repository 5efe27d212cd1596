import ProfileLikelihood.Minimize.Unbounded
import ProfileLikelihood.Minimize.Options
import ProfileLikelihood.Minimize.Outcome

/-!
Minimisation in a box. The start must have one finite entry per free parameter. With no free
parameter the objective is evaluated once at the fixed values. Otherwise the start is moved a
thousandth of the box (or of `max(1, |bound|)` for a half-open box) away from every finite
bound, mapped to unbounded coordinates, and, when a gradient tolerance is set and the gradient
there is already below it, returned as it is. Else the L-BFGS solver, a parameter, runs with the
chosen line search, and its best point is mapped back into the box.
-/

namespace ProfileLikelihood

/-- How far a start is pulled inside its box, relative to the box's width. -/
def startMargin : Float := 1e-3

/-- `x` clamped into `[lo, hi]`; bounds out of order, or not numbers, stop the computation. -/
def clampChecked (x lo hi : Float) : Except FitError Float :=
  if lo ≤ hi then .ok (Numeric.clamp x lo hi) else .error (.reversedClamp lo hi)

/-- The start `x` clamped into `[lb, ub]` and kept `startMargin` inside every finite bound. -/
def interiorStart (x lb ub : Vec) : Except FitError Vec :=
  (Array.range x.size).mapM fun i => do
    let l := lb.entry i
    let u := ub.entry i
    let xi ← clampChecked (x.entry i) l u
    match l.isFinite, u.isFinite with
    | true, true =>
      let m := startMargin * (u - l)
      if m > 0.0 then clampChecked xi (l + m) (u - m) else pure xi
    | true, false => pure (Numeric.maxNum xi (l + startMargin * Numeric.maxNum l.abs 1.0))
    | false, true => pure (Numeric.minNum xi (u - startMargin * Numeric.maxNum u.abs 1.0))
    | false, false => pure xi

namespace Unbounded

def oracle (u : Unbounded) : Oracle := ⟨u.cost, u.gradient⟩

end Unbounded

namespace MinimizeOptions

/-- The L-BFGS settings: memory seven and tolerances `√ε` and `ε` unless given. -/
def settings (o : MinimizeOptions) : Lbfgs.Settings :=
  { memory := o.lbfgsMem.getD 7, tolGrad := o.tols.tolGrad.getD Numeric.sqrtEpsilon,
    tolCost := o.tols.tolCost.getD Numeric.epsilon, maxIters := o.tols.maxIter }

end MinimizeOptions

/-- The start as the result, when a gradient tolerance is set and the gradient there is already
below it; nothing when the search has to run. -/
def earlyExit (opts : MinimizeOptions) (u : Unbounded) (z0 : Vec) :
    Except FitError (Option Outcome) :=
  match opts.tols.tolGrad with
  | none => pure none
  | some tol => do
    let value ← u.cost z0
    let gn := (← u.gradient z0).norm
    if gn < tol then
      let o ← Outcome.atPoint (← u.fullVector z0) value "Gradient tolerance met at start"
      pure (some { o with gradNorm := some gn })
    else pure none

/-- The solver `argmin` run from `z0` with the options' line search and settings; its best
point is mapped back into the box. -/
def runLbfgs (argmin : Argmin) (opts : MinimizeOptions) (u : Unbounded) (z0 : Vec) :
    Except FitError Outcome := do
  let r ← argmin opts.lineSearch opts.settings u.oracle z0
  let theta ← r.bestPoint.mapM u.fullVector
  Outcome.ofRun theta r.bestCost r.termination r.iterations
    { cost := r.costCalls, gradient := some r.gradientCalls } r.gradient

/-- Bounded L-BFGS by the solver `argmin` from the free parameters `x0` of the problem `p`. -/
def minimizeInBox (argmin : Argmin) (opts : MinimizeOptions) (p : Problem) (x0 : Vec) :
    Except FitError Outcome := do
  Check.thetaInput x0 p.dim
  if p.dim == 0 then
    let x ← p.fullVector x0
    let v ← p.value x
    Outcome.atPoint x v "No free parameters"
  else
    let u := Unbounded.ofProblem p
    let z0 := u.toUnbounded (← interiorStart x0 p.lb p.ub)
    match ← earlyExit opts u z0 with
    | some o => return o
    | none => runLbfgs argmin opts u z0

end ProfileLikelihood

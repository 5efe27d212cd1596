import ProfileLikelihood.Minimize.LineSearch.Basic
import ProfileLikelihood.Minimize.Options

/-!
The L-BFGS solver a bounded minimisation hands its problem to. It is a parameter: given the line
search to use, its settings, the cost and gradient in unbounded coordinates and a start, it
reports its best point and cost, why it stopped and what it spent, or the error that ended the
run. The law assumed of it is that the best cost it reports is the cost of its best point.
-/

namespace ProfileLikelihood

/-- Why a run stopped. -/
inductive Termination where
  | converged
  | maxIters
  | targetCost
  /-- The solver gave up for the reason given. -/
  | exit (text : String)
deriving Repr

namespace Termination

/-- The reason as text. -/
def text : Termination → String
  | converged => "Solver converged"
  | maxIters => "Maximum number of iterations reached"
  | targetCost => "Target cost value reached"
  | exit t => t

/-- Whether the reason counts as convergence. -/
def isConverged : Termination → Bool
  | converged | targetCost => true
  | _ => false

end Termination

/-- The settings of a run. -/
structure Lbfgs.Settings where
  memory : Nat
  tolGrad : Float
  tolCost : Float
  maxIters : Option Nat

/-- What a finished run reports; no best point when no cost improved on `+∞`. -/
structure Argmin.Report where
  bestPoint : Option Vec
  bestCost : Float
  termination : Termination
  iterations : Nat
  costCalls : Nat
  gradientCalls : Nat
  gradient : Option Vec

abbrev Argmin := LineSearchKind → Lbfgs.Settings → Oracle → Vec → Except FitError Argmin.Report

/-- The best cost a solver reports is the cost of its best point. -/
def Argmin.Honest (argmin : Argmin) : Prop :=
  ∀ ls cfg o z0 r z, argmin ls cfg o z0 = .ok r → r.bestPoint = some z → o.cost z = .ok r.bestCost

end ProfileLikelihood

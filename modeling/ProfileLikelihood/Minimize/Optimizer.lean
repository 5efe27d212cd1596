import ProfileLikelihood.Minimize.Bounded

/-!
Local optimizers. A call may depend on the calls made before it on the same copy of the
optimizer (a counter of calls, say), so an optimizer is what a call returns given those earlier
calls, together with the calls made so far; every task of a fit or a profile walk works on its
own copy. Besides bounded L-BFGS there are two that do not search: one reports its start point
as the optimum, failing or not converging on chosen calls, and one always fails.
-/

namespace ProfileLikelihood

/-- A local optimizer: what a call minimising `p` from the free parameters `x0` returns after
the earlier calls on the same copy (newest first), and the calls made so far. -/
structure Optimizer where
  call : List (Problem × Vec) → Problem → Vec → Except FitError Outcome
  calls : List (Problem × Vec) := []

namespace Optimizer

/-- Minimise the problem `p` from `x0`; the optimizer afterwards. -/
def minimize (opt : Optimizer) (p : Problem) (x0 : Vec) : Except FitError Outcome × Optimizer :=
  (opt.call opt.calls p x0, { opt with calls := (p, x0) :: opt.calls })

/-- Bounded L-BFGS by the solver `argmin` with the options `opts`. -/
def lbfgs (argmin : Argmin) (opts : MinimizeOptions) : Optimizer where
  call _ := minimizeInBox argmin opts

/-- The start point as an outcome: its full vector and value after one evaluation. -/
def startOutcome (p : Problem) (x0 : Vec) : Except FitError Outcome := do
  let x ← p.fullVector x0
  let v ← p.value x
  Outcome.atPoint x v "start point"

/-- The start point as the optimum, counting calls from one: call `k` fails when listed in
`fails`, and does not converge when listed in `unconv` or when `conv` is false. -/
def atStart (conv : Bool) (fails unconv : List Nat) : Optimizer where
  call earlier p x0 :=
    let k := earlier.length + 1
    if fails.contains k then .error (.objectiveFailed "scripted failure")
    else startOutcome p x0 |>.map fun o => { o with converged := conv && !unconv.contains k }

/-- Every call fails. -/
def broken : Optimizer where
  call _ _ _ := .error (.objectiveFailed "broken")

end Optimizer

end ProfileLikelihood

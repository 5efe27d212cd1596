import ProfileLikelihood.Engine
import ProfileLikelihood.Minimize.Optimizer
import ProfileLikelihood.Minimize.Ranking

/-!
Fits from several starts. Each start is a full parameter vector; its free part is handed to a
fresh copy of the optimizer, so every start sees the optimizer in the state it was given in.
Starts that fail are left out of the ranking, and when every start fails the fit fails with
their number; a failure that stops the computation is not left out but passed on.
-/

namespace ProfileLikelihood

/-- The fit from start `id` at the full vector `x0`. -/
def fitFrom (p : Problem) (opt : Optimizer) (id : Nat) (x0 : Vec) : Except FitError Fit := do
  let xFree ← p.reducedVector x0
  let o ← (opt.minimize p xFree).1
  return Fit.ofOutcome id x0 o

/-- The ranking with a start's fit added when it has one. -/
def Ranking.addOutput (r : Ranking) : Except FitError Fit → Except FitError Ranking
  | .ok f => pure (r.append f)
  | .error e => if e.stops then throw e else pure r

/-- The ranking with the fit from start `id` at `x0` added when it succeeds. -/
def Ranking.addStart (p : Problem) (opt : Optimizer) (r : Ranking) :
    Nat × Vec → Except FitError Ranking
  | (id, x0) => r.addOutput (fitFrom p opt id x0)

/-- The ranking of the fits from `starts` that succeed; a failure that stops the computation
stops it here too. -/
def multistart (p : Problem) (opt : Optimizer) (starts : List Vec) : Except FitError Ranking := do
  let r ← ((List.range starts.length).zip starts).foldlM (Ranking.addStart p opt) {}
  if r.isEmpty then throw (.allStartsFailed starts.length) else return r

/-- The task of one start: its position, the problem and the optimizer, each the task's own
copy, and the full start vector. -/
structure OptimizerTask where
  id : Nat
  problem : Problem
  optimizer : Optimizer
  x0 : Vec

/-- The fit a start's task finds. -/
def OptimizerTask.run (t : OptimizerTask) : Except FitError Fit :=
  fitFrom t.problem t.optimizer t.id t.x0

/-- One task per start, in order, each given `p` and `opt` as they are before any task runs. -/
def startTasks (p : Problem) (opt : Optimizer) (starts : List Vec) : List OptimizerTask :=
  ((List.range starts.length).zip starts).map fun (id, x0) => ⟨id, p, opt, x0⟩

/-- Fits from several starts with their tasks run on the engine `eng`, a pool finishing them in
the order `sched` gives; the outputs are ranked in task order. -/
def multistartOn (eng : Engine) (sched : Scheduler) (p : Problem) (opt : Optimizer)
    (starts : List Vec) : Except FitError Ranking := do
  let r ← (eng.execute sched OptimizerTask.run (startTasks p opt starts)).foldlM
    Ranking.addOutput {}
  if r.isEmpty then throw (.allStartsFailed starts.length) else return r

end ProfileLikelihood

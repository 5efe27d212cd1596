import ProfileLikelihood.Error

/-!
Where independent tasks run: one after another, or on a pool of threads. A task owns
everything it reads, so running it is a function of the task alone. A pool's threads finish
the tasks of a batch in an order of their own; each output is put back at its task's position,
so results come back in task order either way and the choice never changes an answer. Only a
pool of zero threads is refused.
-/

namespace ProfileLikelihood

/-- How independent tasks are run. -/
inductive Engine where
  /-- One after another on the calling thread. -/
  | single
  /-- On a pool of the given number of threads, or of the machine's size. -/
  | pool (threads : Option Nat)
deriving DecidableEq, Repr

/-- A pool engine; zero threads is an error. -/
def Engine.pool? (threads : Option Nat) : Except EngineError Engine :=
  match threads with
  | some 0 => .error (.invalidThreadCount 0)
  | t => .ok (.pool t)

/-- The order in which a pool's threads finish a batch of `n` tasks, for every `n`: a permutation
of the tasks' positions. -/
structure Scheduler where
  order : Nat → List Nat
  perm : ∀ n, (order n).Perm (List.range n)

namespace Scheduler

def inOrder : Scheduler := ⟨List.range, fun _ => List.Perm.refl _⟩

def reversed : Scheduler := ⟨fun n => (List.range n).reverse, fun _ => List.reverse_perm _⟩

end Scheduler

variable {α β : Type}

/-- A pool's output buffer: one slot per task, each filled with its task's output as the task
finishes, in the order `order`. -/
def collect (run : α → β) (tasks : List α) (order : List Nat) : List (Option β) :=
  order.foldl (fun buf k => buf.set k ((tasks[k]?).map run)) (List.replicate tasks.length none)

/-- The outputs of a batch of tasks, each run by `run`. -/
def Engine.execute (eng : Engine) (sched : Scheduler) (run : α → β) (tasks : List α) : List β :=
  match eng with
  | .single => tasks.map run
  | .pool _ => (collect run tasks (sched.order tasks.length)).filterMap id

end ProfileLikelihood

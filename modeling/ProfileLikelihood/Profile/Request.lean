import ProfileLikelihood.Engine
import ProfileLikelihood.Estimation
import ProfileLikelihood.Profile.Walk

/-!
Profiling a fitted estimation. A request names the parameters (all free ones by default, each
once, in increasing order), the fit whose optimum seeds the profiles, the list to write into
(a new one by default) and how to walk. The best fit's value is the reference for likelihood
ratios. A parameter with a stored profile in the target list continues from it. Fixed
parameters are skipped with a warning; every other parameter is profiled by its own task with
its own copy of the optimizer, and a task that fails leaves its slot as it was.
-/

namespace ProfileLikelihood

open Numeric

/-- What to profile and how. -/
structure ProfileRequest where
  profileIndex : Option (List Nat) := none
  profileList : Option Nat := none
  resultIndex : Nat := 0
  method : NextGuessMethod := .adaptiveOrder1
  options : ProfileOptions := {}

/-- The one-point profile of parameter `i` at a fit's optimum. -/
def Fit.seedProfile (f : Fit) (i : Nat) (globalOpt : Double) : Profile :=
  Profile.new i {
    x := f.x
    fval := f.fval
    ratio := (globalOpt.sub f.fval).map Float.exp
    gradnorm := f.gradNorm.getD (.ofFloat nan)
    converged := f.converged }

def sortDedup (xs : List Nat) : List Nat := (xs.mergeSort (· ≤ ·)).eraseDups

/-- A request checked against the problem and the fits: the validated options, the best fit's
value as the reference for ratios, every free requested parameter with its seed, and a warning
for every fixed one, in increasing parameter order. -/
structure ProfilePlan where
  options : ProfileOptions
  globalOpt : Double
  seeds : Array (Nat × Profile)
  skipped : Array ProfileWarning

namespace ProfileRequest

/-- The parameters to profile: those named, or every free one, sorted and each once. -/
def indices (r : ProfileRequest) (p : Problem) : List Nat :=
  sortDedup (r.profileIndex.getD p.freeIndices)

/-- The profile stored for parameter `i` in the target list, if the request names one. -/
def stored (r : ProfileRequest) (e : Estimation) (i : Nat) : Except ProfileError (Option Profile) :=
  match r.profileList with
  | some k => e.profiles.get i k
  | none => pure none

/-- The plan with parameter `i` added: a warning when it is fixed, else its seed, the profile
stored for it or, when there is none, the one-point profile at the start fit. -/
def addSeed (r : ProfileRequest) (p : Problem) (e : Estimation) (start : Fit) (globalOpt : Double) :
    Array (Nat × Profile) × Array ProfileWarning → Nat →
      Except ProfileError (Array (Nat × Profile) × Array ProfileWarning)
  | (ts, ws), i => do
    if p.isFixed i then return (ts, ws.push (.fixedParameterSkipped i))
    let stored ← r.stored e i
    return (ts.push (i, stored.getD (start.seedProfile i globalOpt)), ws)

/-- The request checked against `p` and `e`, in order: valid options, a best and a start fit, a
start of the problem's length, a target list of that length, parameters in range. -/
def check (r : ProfileRequest) (p : Problem) (e : Estimation) :
    Except ProfileError (ProfileOptions × Fit × Fit) := do
  let o ← r.options.validate
  let some best := e.fits.best? | throw .missingOptimizeResult
  let some start := e.fits.get? r.resultIndex
    | throw (.invalidResultIndex r.resultIndex e.fits.size)
  if start.x.size ≠ p.dimFull then throw (.dimensionMismatch p.dimFull start.x.size)
  if let some k := r.profileList then
    let l ← e.profiles.list k
    if l.size ≠ p.dimFull then throw (.dimensionMismatch p.dimFull l.size)
  if let some i := (r.indices p).find? (· ≥ p.dimFull) then
    throw (.parameterIndexOutOfRange i p.dimFull)
  return (o, best, start)

/-- The plan of a request, made before anything is written: the checks, then the seeds and
warnings of the parameters in order. -/
def plan (r : ProfileRequest) (p : Problem) (e : Estimation) : Except ProfileError ProfilePlan := do
  let (o, best, start) ← r.check p e
  let (seeds, skipped) ← (r.indices p).foldlM (r.addSeed p e start best.fval) (#[], #[])
  return ⟨o, best.fval, seeds, skipped⟩

/-- The store to write into and the index of the list written: the named list, or a new list
of `dim` empty slots. -/
def target (r : ProfileRequest) (s : ProfileStore) (dim : Nat) : ProfileStore × Nat :=
  match r.profileList with
  | some k => (s, k)
  | none => s.appendEmpty dim

end ProfileRequest

namespace ProfilePlan

/-- A task's output: its profile written into list `k` when it found one, and its warnings
added; a failure that stops the computation is passed on. -/
def write (k : Nat) : ProfileStore × Array ProfileWarning → Except ProfileError IndexedProfile →
    Except ProfileError (ProfileStore × Array ProfileWarning)
  | (st, ws), out => do
    let t ← out
    let st ← match t.profile with
      | some prof => st.set k t.index prof
      | none => pure st
    return (st, ws ++ t.warnings)

/-- The task of parameter `i` from `start` run, and its output written into list `k`. -/
def step (plan : ProfilePlan) (p : Problem) (opt : Optimizer) (method : NextGuessMethod) (k : Nat)
    (acc : ProfileStore × Array ProfileWarning) : Nat × Profile →
      Except ProfileError (ProfileStore × Array ProfileWarning)
  | (i, start) =>
    write k acc
      (profileTask { par := i, options := plan.options, method, globalOpt := plan.globalOpt } p opt
        start)

/-- The plan's tasks run in order on the store, writing into list `k`; the store afterwards and
the warnings, the skipped parameters' first. -/
def run (plan : ProfilePlan) (p : Problem) (opt : Optimizer) (method : NextGuessMethod)
    (store : ProfileStore) (k : Nat) : Except ProfileError (ProfileStore × Array ProfileWarning) :=
  plan.seeds.foldlM (plan.step p opt method k) (store, plan.skipped)

end ProfilePlan

/-- The task of one parameter: how to walk, the problem and the optimizer, each the task's own
copy, and the profile it starts from. -/
structure ProfilerTask where
  settings : WalkSettings
  problem : Problem
  optimizer : Optimizer
  seed : Profile

/-- The profile a parameter's task finds. -/
def ProfilerTask.run (t : ProfilerTask) : Except ProfileError IndexedProfile :=
  profileTask t.settings t.problem t.optimizer t.seed

/-- One task per seed of the plan, in order, each given `p` and `opt` as they are before any
task runs. -/
def ProfilePlan.tasks (plan : ProfilePlan) (p : Problem) (opt : Optimizer)
    (method : NextGuessMethod) : List ProfilerTask :=
  plan.seeds.toList.map fun (i, start) =>
    ⟨{ par := i, options := plan.options, method, globalOpt := plan.globalOpt }, p, opt, start⟩

/-- Profile the requested parameters of `p`, writing into the estimation's store. -/
def parameterProfile (p : Problem) (e : Estimation) (opt : Optimizer) (r : ProfileRequest) :
    Except ProfileError (Estimation × Nat × Array ProfileWarning) := do
  let plan ← r.plan p e
  let (store, k) := r.target e.profiles p.dimFull
  let (store, warnings) ← plan.run p opt r.method store k
  return ({ e with profiles := store }, k, warnings)

/-- Profiling with the tasks run on the engine `eng`, a pool finishing them in the order
`sched` gives; the outputs are written in task order once all have come back. -/
def parameterProfileOn (eng : Engine) (sched : Scheduler) (p : Problem) (e : Estimation)
    (opt : Optimizer) (r : ProfileRequest) :
    Except ProfileError (Estimation × Nat × Array ProfileWarning) := do
  let plan ← r.plan p e
  let (store, k) := r.target e.profiles p.dimFull
  let outputs := eng.execute sched ProfilerTask.run (plan.tasks p opt r.method)
  let (store, warnings) ← outputs.foldlM (ProfilePlan.write k) (store, plan.skipped)
  return ({ e with profiles := store }, k, warnings)

end ProfileLikelihood

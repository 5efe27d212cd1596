import ProfileLikelihood.Minimize.Argmin
import ProfileLikelihood.Minimize.LineSearch.MoreThuente
import ProfileLikelihood.Minimize.LineSearch.HagerZhang

/-!
Limited-memory BFGS, the solver `argmin` that bounded minimisation is run with. The direction is
minus the gradient times the inverse Hessian estimate of the two-loop recursion over the last `m`
steps `s` and gradient changes `y`, scaled by `s·y / y·y` of the newest pair. A line search along
it gives the next point. A run stops on a small gradient norm, a small change of cost, the
iteration cap, or a failed line search, whose text becomes the reason unless it stops the whole
computation. The best point is the first one of least cost.
-/
namespace ProfileLikelihood

namespace Lbfgs

/-- The state of a run after an iteration. -/
structure Iterate where
  point : Vec
  cost : Float
  prevCost : Float
  gradient : Vec
  bestPoint : Vec
  bestCost : Float
  iterations : Nat
  costCalls : Nat
  gradientCalls : Nat
  /-- The recent pairs of step and gradient change, oldest first. -/
  history : List (Vec × Vec)

/-- The search direction `-H g` by the two-loop recursion over `history`, oldest first. -/
def direction (history : List (Vec × Vec)) (g : Vec) : Vec :=
  let gamma := match history.getLast? with
    | some (s, y) => s.dot y / y.dot y
    | none => 1.0
  let (q, coeffs) := history.reverse.foldl (fun (q, acc) (s, y) =>
      let rho := 1.0 / y.dot s
      let a := s.dot q * rho
      (q.sub (y.scale a), (a, rho) :: acc)) (g, ([] : List (Float × Float)))
  let r := (history.zip coeffs).foldl (fun r ((s, y), (a, rho)) =>
      let beta := y.dot r * rho
      r.add (s.scale (a - beta))) (q.scale gamma)
  r.map (fun v => -v)

/-- The state after the first evaluation at `z0`. -/
def start (o : Oracle) (z0 : Vec) : Except FitError Iterate := do
  let c ← o.cost z0
  let g ← o.gradient z0
  let improves := c < Numeric.inf
  return { point := z0, cost := c, prevCost := Numeric.inf, gradient := g,
           bestPoint := if improves then z0 else #[],
           bestCost := if improves then c else Numeric.inf,
           iterations := 0, costCalls := 1, gradientCalls := 1, history := [] }

/-- The reason to stop before another iteration, if there is one. -/
def Iterate.stopReason (cfg : Settings) (st : Iterate) : Option Termination :=
  if st.gradient.norm < cfg.tolGrad then some .converged
  else if (st.prevCost - st.cost).abs < cfg.tolCost then some .converged
  else if cfg.maxIters.any (st.iterations ≥ ·) then some .maxIters
  else if st.cost ≤ -Numeric.inf then some .targetCost
  else none

/-- The state after moving to `x` with cost `c` and gradient `g`. -/
def Iterate.moveTo (st : Iterate) (x : Vec) (c : Float) (g : Vec) : Iterate :=
  let better := c < st.bestCost
  { st with
    point := x, cost := c, prevCost := st.cost, gradient := g,
    bestPoint := if better then x else st.bestPoint,
    bestCost := if better then c else st.bestCost,
    iterations := st.iterations + 1 }

abbrev LineSearch := Oracle → Ray → Except SearchFailure Landing

/-- One iteration: the next state, or the reason the line search gave up. -/
def Iterate.advance (search : LineSearch) (o : Oracle) (cfg : Settings) (st : Iterate) :
    Except FitError (Iterate ⊕ Termination) :=
  let d := direction st.history st.gradient
  match search o ⟨st.point, st.cost, st.gradient, d⟩ with
  | .error (.evaluation e) =>
    if e.stops then .error e
    else .ok (.inr (.exit ("Line search terminated with: '" ++ e.message ++ "'")))
  | .error f => .ok (.inr (.exit ("Line search terminated with: '" ++ f.message ++ "'")))
  | .ok land => do
    let kept := if st.history.length ≥ cfg.memory then st.history.drop 1 else st.history
    let g ← o.gradient land.point
    let st := { st with
      costCalls := st.costCalls + land.costCalls,
      gradientCalls := st.gradientCalls + land.gradientCalls + 1,
      history := kept ++ [(land.point.sub st.point, g.sub st.gradient)] }
    return .inl (st.moveTo land.point land.cost g)

/-- Iterations from `st` until a reason to stop, at most `fuel` of them. -/
def Iterate.run (search : LineSearch) (o : Oracle) (cfg : Settings) :
    Nat → Iterate → Except FitError (Iterate × Termination)
  | 0, st => .ok (st, .maxIters)
  | fuel + 1, st =>
    match st.stopReason cfg with
    | some t => .ok (st, t)
    | none => do
      match ← st.advance search o cfg with
      | .inl next => Iterate.run search o cfg fuel next
      | .inr t => return (st, t)

def uncappedBudget : Nat := 1000000

/-- A run of L-BFGS from `z0`: its last state and why it stopped. -/
def minimize (search : LineSearch) (o : Oracle) (cfg : Settings) (z0 : Vec) :
    Except FitError (Iterate × Termination) := do
  let st ← start o z0
  st.run search o cfg ((cfg.maxIters.getD uncappedBudget) + 1)

/-- The line search a kind names. -/
def searchOf : LineSearchKind → LineSearch
  | .moreThuente => moreThuente
  | .hagerZhang => hagerZhang

def historySlotBytes : Nat := 48

/-- Whether room for a history of `memory` pairs can be reserved: a reservation may not exceed
`2 ^ 63 - 1` bytes, the largest size an allocation can have. -/
def historyFits (memory : Nat) : Bool := memory * historySlotBytes ≤ Nat.pow 2 63 - 1

/-- This library's L-BFGS as a solver: room for the history is reserved, then `minimize` runs
with the named line search. -/
def argmin : Argmin := fun ls cfg o z0 => do
  unless historyFits cfg.memory do throw (.historyTooLarge cfg.memory)
  let (st, t) ← minimize (searchOf ls) o cfg z0
  return { bestPoint := if st.bestPoint.isEmpty then none else some st.bestPoint,
           bestCost := st.bestCost, termination := t, iterations := st.iterations,
           costCalls := st.costCalls, gradientCalls := st.gradientCalls,
           gradient := some st.gradient }

end Lbfgs

end ProfileLikelihood

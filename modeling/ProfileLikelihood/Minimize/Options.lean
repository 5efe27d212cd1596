import ProfileLikelihood.Validation
import ProfileLikelihood.Text

/-!
Options of a minimisation: stopping tolerances, the line search and the L-BFGS memory.
At least one stopping rule must be given; given tolerances must be finite and positive
(the cost tolerance is checked before the gradient tolerance), and a maximum number of
iterations must be positive, as must a memory.
-/

namespace ProfileLikelihood

/-- When to stop: a small gradient, a small change of cost, or an iteration count. -/
structure Tolerances where
  tolGrad : Option Float := some 1e-6
  tolCost : Option Float := some 1e-12
  maxIter : Option Nat := some 300

/-- Checked tolerances. -/
def Tolerances.new (tolGrad tolCost : Option Float) (maxIter : Option Nat) :
    Except FitError Tolerances := do
  if tolGrad.isNone && tolCost.isNone && maxIter.isNone then throw .noTolerancesProvided
  Check.tolCost tolCost
  Check.tolGrad tolGrad
  if maxIter == some 0 then
    throw (.invalidMaxIter 0 "Maximum iterations must be greater than zero.")
  return { tolGrad, tolCost, maxIter }

/-- The line search of L-BFGS. -/
inductive LineSearchKind where
  | moreThuente
  | hagerZhang
deriving DecidableEq, Repr

namespace LineSearchKind

/-- A line search by name, in any case. -/
def ofName (name : String) : Except FitError LineSearchKind :=
  match Text.lower name with
  | "morethuente" => .ok .moreThuente
  | "hagerzhang" => .ok .hagerZhang
  | _ => .error (.invalidLineSearch name
      "Valid options are case insensitive 'MoreThuente' or 'HagerZhang'.")

/-- The name of a line search. -/
def name : LineSearchKind → String
  | moreThuente => "MoreThuente"
  | hagerZhang => "HagerZhang"

end LineSearchKind

/-- Everything a minimisation is configured with. -/
structure MinimizeOptions where
  tols : Tolerances := {}
  lineSearch : LineSearchKind := .moreThuente
  verbose : Bool := false
  lbfgsMem : Option Nat := none

/-- Checked options: a given memory must be positive. -/
def MinimizeOptions.new (tols : Tolerances) (lineSearch : LineSearchKind) (verbose : Bool)
    (lbfgsMem : Option Nat) : Except FitError MinimizeOptions :=
  if lbfgsMem == some 0 then .error (.invalidLbfgsMem 0 "L-BFGS memory must be greater than zero.")
  else .ok { tols, lineSearch, verbose, lbfgsMem }

end ProfileLikelihood

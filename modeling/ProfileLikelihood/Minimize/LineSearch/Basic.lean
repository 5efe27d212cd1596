import ProfileLikelihood.Numeric.Vector
import ProfileLikelihood.Error

/-!
What a line search works with. It is handed a ray (a start point with its cost and gradient,
and a direction), may evaluate the cost and the gradient anywhere through an oracle, and
lands on a point with its cost, reporting how many evaluations of each kind it made. It fails
when an evaluation fails or when the direction does not descend; the failure's text is what
the minimiser reports when it stops on it.
-/

namespace ProfileLikelihood

/-- The cost and gradient of a smooth problem, either of which may fail. -/
structure Oracle where
  cost : Vec → Except FitError Float
  gradient : Vec → Except FitError Vec

/-- A start point, its cost and gradient, and the direction to search along. -/
structure Ray where
  origin : Vec
  cost : Float
  gradient : Vec
  direction : Vec

namespace Ray

def point (r : Ray) (t : Float) : Vec := r.origin.axpy t r.direction

def slope (r : Ray) : Float := r.gradient.dot r.direction

end Ray

/-- Where a line search stopped, with its evaluation counts. -/
structure Landing where
  point : Vec
  cost : Float
  costCalls : Nat
  gradientCalls : Nat

/-- Why a line search gave up. -/
inductive SearchFailure where
  /-- An evaluation of the cost or gradient failed. -/
  | evaluation (e : FitError)
  /-- A condition of the method was violated. -/
  | conditionViolated (text : String)
  /-- A parameter of the method was out of range. -/
  | invalidParameter (text : String)
  /-- The method reached a state it cannot continue from. -/
  | potentialBug (text : String)

namespace SearchFailure

/-- Text quoted with its special characters escaped, as the method's own messages show. -/
def quoted (s : String) : String :=
  let body := s.foldl (fun acc c =>
    if c == '"' then acc ++ "\\\"" else if c == '\\' then acc ++ "\\\\"
    else if c == '\n' then acc ++ "\\n" else acc.push c) ""
  "\"" ++ body ++ "\""

/-- The failure as text. -/
def message : SearchFailure → String
  | evaluation e => e.message
  | conditionViolated t => "Condition violated: " ++ quoted t
  | invalidParameter t => "Invalid parameter: " ++ quoted t
  | potentialBug t => "Potential bug: " ++ quoted t

end SearchFailure

/-- An evaluation failure as a line-search failure. -/
def liftEval {α : Type} (r : Except FitError α) : Except SearchFailure α :=
  r.mapError .evaluation

end ProfileLikelihood

import ProfileLikelihood.Profile.Basic

/-!
What a profile run reports without failing: a fixed parameter it skipped, a walk cut short
because every try of a step failed, a walk stopped at its step budget, and a parameter whose
profiling failed with the reason given.
-/

namespace ProfileLikelihood

/-- A note on a profile run. -/
inductive ProfileWarning where
  | fixedParameterSkipped (index : Nat)
  | partialProfile (index : Nat) (direction : Direction) (tries : Nat)
  | stepCapReached (index : Nat) (direction : Direction) (maxWalkSteps : Nat)
  | taskFailed (index : Nat) (reason : String)

namespace ProfileWarning

/-- The parameter the note is about. -/
def index : ProfileWarning → Nat
  | fixedParameterSkipped i | partialProfile i _ _ | stepCapReached i _ _ | taskFailed i _ => i

/-- The note as text. -/
def text : ProfileWarning → String
  | fixedParameterSkipped i => s!"Parameter {i} is fixed and was not profiled"
  | partialProfile i d t =>
    s!"Profile of parameter {i} truncated ({d.name}): step failed {t} times"
  | stepCapReached i d m => s!"Profile of parameter {i} stopped ({d.name}) after {m} steps"
  | taskFailed i r => s!"Profiling parameter {i} failed: {r}"

end ProfileWarning

end ProfileLikelihood

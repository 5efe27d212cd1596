import ProfileLikelihood.Profile.Guess
import ProfileLikelihood.Profile.Warning
import ProfileLikelihood.Minimize.Optimizer

/-!
Walking a profile. From the walking end, a step proposes the next point, fixes the profiled
parameter there and refits the others; a step that fails (an error, no convergence or a
non-finite value) is retried with the greatest step halved, up to the try budget. A walk stops
at the bound it walks toward, or, unless the whole path is wanted, once the likelihood ratio
has fallen below its floor; it also stops, with a warning, when a step fails every try or the
step budget is spent.

A profiling task walks down from the seed, then up, frees the profiled parameter again and
reports how many warnings it met. Its failure is reported as a warning, not an error, except a
failure that stops the whole computation: that one is passed on from any fit or step.

The optimizer is threaded through every fit, so one whose state counts its calls keeps counting
across steps, tries and both directions.
-/

namespace ProfileLikelihood

open Numeric

/-- What a walk needs besides its state. -/
structure WalkSettings where
  par : Nat
  options : ProfileOptions
  method : NextGuessMethod
  globalOpt : Double
  svd : SvdLibrary Double := .reference

/-- A walk in progress: the profile, the problem with the profiled parameter where the last fit
fixed it, the optimizer and the warnings so far. -/
structure WalkState where
  profile : Profile
  problem : Problem
  optimizer : Optimizer
  warnings : Array ProfileWarning := #[]

namespace WalkSettings

/-- Whether a walk from `x` stops: at or past the bound it walks toward, or, unless the whole path
is wanted, when the last ratio is below `ratioMin`. -/
def stopsAt (s : WalkSettings) (x : Point) (prof : Profile) (p : Problem) (dir : Direction) :
    Except ProfileError Bool := do
  if s.par ≥ x.size then throw (.indexOutOfBounds s.par x.size)
  let xPar := (Double.entry x s.par).float
  let bound ← match dir with
    | .decreasing => Profile.pointEntry p.lbFull s.par
    | .increasing => Profile.pointEntry p.ubFull s.par
  let atBound := match dir with
    | .decreasing => xPar ≤ bound
    | .increasing => xPar ≥ bound
  if s.options.wholePath then return atBound
  else return atBound || (prof.ratioPath.back?.map (·.float)).getD 1.0 < s.options.ratioMin

/-- The profile point of a fit that converged to a finite value. -/
def pointOf (s : WalkSettings) (o : Outcome) : ProfilePoint :=
  { x := Double.ofFloats o.thetaHat, fval := .ofFloat o.value, ratio := (s.globalOpt.sub o.value).map Float.exp,
    gradnorm := .ofFloat (o.gradNorm.getD nan), converged := o.converged,
    nFval := o.nFval.toUInt64 }

/-- One step from `x`: at most `tries` fits, the greatest step scaled by `reduce`, halved after
each failed try. -/
def step (s : WalkSettings) (x : Point) (prof : Profile) (dir : Direction) :
    Nat → Float → Problem → Optimizer →
      Except ProfileError (Option ProfilePoint × Problem × Optimizer)
  | 0, _, p, opt => .ok (none, p, opt)
  | tries + 1, reduce, p, opt => do
    let c : GuessContext := ⟨s.options, prof, p, s.globalOpt.float, 1.0, reduce, s.svd⟩
    let next ← c.nextGuess x s.par dir s.method
    let p ← (p.fix [s.par] [(← Profile.pointEntry next s.par).float]).mapError .optimization
    let x0 ← (p.reducedVector (Double.floats next)).mapError .optimization
    match opt.minimize p x0 with
    | (.ok o, opt) =>
      if o.converged && o.value.isFinite then return (some (s.pointOf o), p, opt)
      else s.step x prof dir tries (reduce * 0.5) p opt
    | (.error e, opt) =>
      if e.stops then throw (.optimization e) else s.step x prof dir tries (reduce * 0.5) p opt

/-- Walk until a stop rule holds, after `taken` steps so far; `fuel` bounds the iterations. -/
def walkFrom (s : WalkSettings) (dir : Direction) : Nat → Nat → WalkState →
    Except ProfileError WalkState
  | 0, _, w => .ok w
  | fuel + 1, taken, w =>
    match w.profile.lastX? with
    | none => .ok w
    | some x => do
      if ← s.stopsAt x w.profile w.problem dir then return w
      else if taken ≥ s.options.maxWalkSteps then
        .ok { w with warnings := w.warnings.push (.stepCapReached s.par dir s.options.maxWalkSteps) }
      else do
        match ← s.step x w.profile dir s.options.maxTries 1.0 w.problem w.optimizer with
        | (some pt, p, opt) =>
          s.walkFrom dir fuel (taken + 1) { w with profile := w.profile.push pt, problem := p, optimizer := opt }
        | (none, p, opt) =>
          .ok { w with
            problem := p,
            optimizer := opt,
            warnings := w.warnings.push (.partialProfile s.par dir s.options.maxTries) }

/-- A walk in direction `dir` from the end of the state's profile. -/
def walk (s : WalkSettings) (dir : Direction) (w : WalkState) : Except ProfileError WalkState :=
  s.walkFrom dir (s.options.maxWalkSteps + 1) 0 w

end WalkSettings

/-- A profile of one parameter and the warnings met, or none when the task failed. -/
structure IndexedProfile where
  index : Nat
  profile : Option Profile
  warnings : Array ProfileWarning

/-- The message of a finished profile. -/
def completionMessage (nWarnings : Nat) : String :=
  if nWarnings = 0 then "Profile completed"
  else s!"Profile completed with {nWarnings} warning(s)"

/-- Walk down, then up, free the parameter again and label the profile. -/
def runTask (s : WalkSettings) (p : Problem) (opt : Optimizer) (seed : Profile) :
    Except ProfileError (Profile × Array ProfileWarning) := do
  let w ← s.walk .decreasing { profile := seed.flip, problem := p, optimizer := opt }
  let w ← s.walk .increasing { w with profile := w.profile.flip }
  if w.problem.isFixed s.par then
    let _ ← (w.problem.unfix [s.par]).mapError .optimization
  let prof := { w.profile with iPar := s.par, message := completionMessage w.warnings.size }
  return (prof, w.warnings)

/-- The profile of parameter `s.par` from `seed`; a failure becomes a warning, unless it stops
the whole computation. -/
def profileTask (s : WalkSettings) (p : Problem) (opt : Optimizer) (seed : Profile) :
    Except ProfileError IndexedProfile :=
  match runTask s p opt seed with
  | .ok (prof, ws) => .ok ⟨s.par, some prof, ws⟩
  | .error e => if e.stops then .error e else .ok ⟨s.par, none, #[.taskFailed s.par e.message]⟩

end ProfileLikelihood

import ProfileLikelihood.Profile.Options
import ProfileLikelihood.Profile.Regression
import ProfileLikelihood.Problem.Evaluate

/-!
Proposals for the next point of a profile walk. Given the walking end of a profile, a proposal
is the full parameter vector where the next constrained fit starts.

A fixed step moves the profiled parameter alone by a constant. The adaptive steps aim for an
objective increase of `-ln(1 - δ)`, with `δ = deltaRatioMax`, plus a damping share of the
current distance to the optimum. They start from the last step's length, clamped to the
admissible range, and grow or shrink it geometrically until the objective crosses the target
or the step reaches the end of the range, then interpolate linearly between the last two
candidates. A step that rounding leaves where it was makes the search repeat itself for ever.
The other parameters follow the step: held (order 0), along the last step (order 1) or along
fitted polynomial trends (regression). When even the smallest step leaves the box, the proposal
jumps onto the bound.

Every proposal is clipped into the box or put on a bound, though a clip leaves a NaN as it is.
Points of a profile may differ in length: vectors combine by broadcasting, and an entry that is
missing, or lengths that do not broadcast, stop the computation.

A proposal is written over any `Scalar` (`Proposer`), with the objective and the decomposition
that fits trends as parameters: doubles run it, the objective's failures and NaNs read as `+∞`
(`GuessContext`), and the reals read it in exact arithmetic.
-/

namespace ProfileLikelihood

open Numeric

/-- The step sizes and the regression settings of the profile options, as values. -/
structure StepOptions (α : Type) where
  minStepSize : α
  defaultStepSize : α
  maxStepSize : α
  stepSizeFactor : α
  deltaRatioMax : α
  magicFactorObjValue : α
  regPoints : Nat
  regOrder : Nat

/-- Everything a proposal reads besides the current point: the step options, the profile's
points and values with its walking end last, the box, which parameters are fixed, the objective,
the decomposition that fits trends, the optimum's value, and the factors on the least and the
greatest step (a walk lowers the latter after failed steps). -/
structure Proposer (α : Type) where
  options : StepOptions α
  xPath : Array (Array α)
  fvalPath : Array α
  lb : Array α
  ub : Array α
  isFixed : Nat → Bool
  objective : Array α → α
  svd : SvdLibrary α
  globalOpt : α
  minStepIncreaseFactor : α
  maxStepReduceFactor : α

/-- How the other parameters follow a step of the profiled one. -/
inductive Extrapolation (α : Type) where
  /-- Along a direction whose profiled entry is `±1`. -/
  | linear (dir : Array α)
  /-- Along fitted polynomial trends. -/
  | polynomial (fit : RegressionFit α)

/-- What the profile so far suggests: a first step length, how the other parameters follow and
how far the walking end is above the optimum. -/
structure StepHistory (α : Type) where
  stepSize : α
  extrapolation : Extrapolation α
  deltaObj : α

/-- How the non-profiled parameters follow an adaptive step. -/
inductive Follow where
  | hold
  | lastStep
  | regression

variable {α : Type} [Scalar α]

namespace Extrapolation

/-- The point a step of length `h` in direction `d` from `x` reaches, before any clip. -/
def point (e : Extrapolation α) (x : Array α) (par : Nat) (d h : α) :
    Except ProfileError (Array α) :=
  match e with
  | .linear dir => Profile.pointZip (· + ·) x (dir.map (· * h))
  | .polynomial fit =>
    let t := d * h
    pure <| x.mapIdx fun j v =>
      if j = par then x.getD par 0.0 + t else (fit.predict? j t).getD v

/-- Following the last step: the move from the previous point to the last, per unit of the
profiled parameter's move `step`; along the axis `unit` when that move is not positive. -/
def lastStep (last prev unit : Array α) (step : α) : Except ProfileError (Extrapolation α) :=
  if step > 0.0 then do return .linear ((← Profile.pointZip (· - ·) last prev).map (· / step))
  else pure (.linear unit)

end Extrapolation

/-- Every coordinate clamped into the box `[lb, ub]`; a NaN stays as it is. -/
def clipInto (lb ub x : Array α) : Array α :=
  x.mapIdx fun i v =>
    if i < lb.size ∧ i < ub.size then Scalar.clamp v (lb.getD i 0.0) (ub.getD i 0.0) else v

namespace Proposer

variable (P : Proposer α)

abbrev clip (x : Array α) : Array α := clipInto P.lb P.ub x

/-- The point a step of length `h` in direction `d` from `x` reaches, clipped into the box. -/
def extrapolate (e : Extrapolation α) (x : Array α) (par : Nat) (d h : α) :
    Except ProfileError (Array α) := do
  return P.clip (← e.point x par d h)

/-- A step of the profiled parameter alone, of length `max(default · reduce, min)`. -/
def fixedStep (x : Array α) (par : Nat) (dir : Direction) : Except ProfileError (Array α) := do
  let h := Scalar.maxNum (P.options.defaultStepSize * P.maxStepReduceFactor)
    P.options.minStepSize
  let v ← Profile.pointEntry x par
  return P.clip (x.set! par (v + Scalar.ofFloat dir.sign * h))

/-- The history of the walk: with fewer than two points, the default step along the axis;
otherwise the last step's length in the profiled parameter, the follow rule, and the last
value's excess over the optimum. -/
def history (x : Array α) (par : Nat) (dir : Direction) (follow : Follow) :
    Except ProfileError (StepHistory α) := do
  let n := P.xPath.size
  let unit ← Profile.pointSet (Array.replicate x.size 0.0) par (Scalar.ofFloat dir.sign)
  if n < 2 then return ⟨P.options.defaultStepSize, .linear unit, 0.0⟩
  let last := P.xPath.getD (n - 1) #[]
  let prev := P.xPath.getD (n - 2) #[]
  let step := Scalar.abs ((← Profile.pointEntry last par) - (← Profile.pointEntry prev par))
  let deltaObj := P.fvalPath.getD (n - 1) 0.0 - P.globalOpt
  let linear := Extrapolation.lastStep last prev unit step
  let extrapolation ← match follow with
    | .hold => pure (.linear unit)
    | .lastStep => linear
    | .regression =>
      if n < 3 then linear
      else
        match ← RegressionFit.new? P.svd P.xPath par P.lb.size P.isFixed P.options.regPoints
            P.options.regOrder with
        | some fit => pure (.polynomial fit)
        | none => linear
  return ⟨step, extrapolation, deltaObj⟩

/-- The candidate between `last` and `next` where the objective, read as linear in between,
meets the target; `next` itself when the weight is not finite or the values agree. -/
def interpolate (nextObj lastObj : α) (next last : Array α) (target : α) :
    Except ProfileError (Array α) := do
  let delta := Scalar.abs (nextObj - lastObj)
  let weight := Scalar.abs (lastObj - target) / delta
  if !Scalar.isFinite weight || Scalar.beq delta 0.0 then return next
  let span ← Profile.pointZip (· - ·) next last
  return P.clip (← Profile.pointZip (· + ·) last (span.map (· * weight)))

/-- The least step of an adaptive search: the least step size scaled by its factor, but never
above the greatest step size. -/
def minEff : α :=
  Scalar.minNum (P.options.minStepSize * P.minStepIncreaseFactor) P.options.maxStepSize

/-- The greatest step of an adaptive search: the greatest step size scaled by its factor, but
never below the least step. -/
def maxEff : α := Scalar.maxNum (P.options.maxStepSize * P.maxStepReduceFactor) P.minEff

/-- The bound an adaptive step from `x` jumps onto: the one it walks toward, when even the least
step size would pass it. -/
def jumpBound (x : Array α) (par : Nat) (dir : Direction) : Except ProfileError (Option α) := do
  let reach := (← Profile.pointEntry x par) + Scalar.ofFloat dir.sign * P.options.minStepSize
  match dir with
  | .decreasing =>
    let lb ← Profile.pointEntry P.lb par
    return if reach < lb then some lb else none
  | .increasing =>
    let ub ← Profile.pointEntry P.ub par
    return if reach > ub then some ub else none

/-- The objective value an adaptive step aims at: the last value of the profile plus
`-ln(1 - δ)`, plus a damping share of the last value's excess over the optimum. -/
def target (h : StepHistory α) : α :=
  let fvalLast := P.fvalPath.back?.getD P.globalOpt
  fvalLast - Scalar.log (1.0 - P.options.deltaRatioMax) + P.options.magicFactorObjValue * h.deltaObj

end Proposer

/-- The geometric search for the step whose objective crosses `target`. -/
structure StepSearch (α : Type) where
  proposer : Proposer α
  x : Array α
  par : Nat
  d : α
  extrapolation : Extrapolation α
  minEff : α
  maxEff : α
  adapt : α
  target : α

namespace StepSearch

variable (s : StepSearch α)

def shrinks : Bool := s.adapt < 1.0

/-- The next step: scaled by the search's factor, within the admissible range. -/
def scale (step : α) : α := Scalar.clamp (step * s.adapt) s.minEff s.maxEff

/-- Whether a step has reached the end of the admissible range the search moves toward. -/
def atEnd (step : α) : Bool :=
  (s.shrinks && Scalar.beq step s.minEff) || (!s.shrinks && Scalar.beq step s.maxEff)

/-- Whether an objective value is across the target, in the direction the search moves: at or
below it for a shrinking search, at or above it for a growing one. -/
def crosses (obj : α) : Bool :=
  if s.shrinks then s.target ≥ obj else s.target ≤ obj

/-- One round of the search from the last candidate, its step and its value. -/
def round (next : Array α) (step nextObj : α) :
    Except ProfileError (Array α ⊕ Array α × α × α) := do
  let step := s.scale step
  let cand ← s.proposer.extrapolate s.extrapolation s.x s.par s.d step
  if s.atEnd step then return .inl cand
  let candObj := s.proposer.objective cand
  if s.crosses candObj then
    return .inl (← s.proposer.interpolate candObj nextObj cand next s.target)
  else return .inr (cand, step, candObj)

/-- Rounds until one ends the search, at most `fuel` of them; a search still going when they
are spent never ends. -/
def run : Nat → Array α → α → α → Except ProfileError (Array α)
  | 0, _, _, _ => throw .endlessSearch
  | fuel + 1, next, step, nextObj => do
    match ← s.round next step nextObj with
    | .inl y => return y
    | .inr (cand, step, candObj) => run fuel cand step candObj

end StepSearch

/-- The rounds one search may take: as many as there are bit patterns of a double. -/
def searchBudget : Nat := Nat.pow 2 64

namespace Proposer

variable (P : Proposer α)

/-- The search of an adaptive step from `x` whose first candidate has the value `nextObj`: it
shrinks the step when that value is above the target, and grows it otherwise. -/
def search (x : Array α) (par : Nat) (dir : Direction) (h : StepHistory α) (nextObj : α) :
    StepSearch α :=
  let adapt := if nextObj > P.target h then 1.0 / P.options.stepSizeFactor
    else P.options.stepSizeFactor
  ⟨P, x, par, Scalar.ofFloat dir.sign, h.extrapolation, P.minEff, P.maxEff, adapt, P.target h⟩

/-- An adaptive step from `x`, the other parameters following as `follow` says. -/
def adaptiveStep (x : Array α) (par : Nat) (dir : Direction) (follow : Follow) :
    Except ProfileError (Array α) := do
  let h ← P.history x par dir follow
  let d := Scalar.ofFloat dir.sign
  match ← P.jumpBound x par dir with
  | some b =>
    let reached ← P.extrapolate h.extrapolation x par d (Scalar.abs (b - x.getD par 0.0))
    Profile.pointSet reached par b
  | none =>
    let step := Scalar.clamp h.stepSize P.minEff P.maxEff
    let next ← P.extrapolate h.extrapolation x par d step
    let nextObj := P.objective next
    (P.search x par dir h nextObj).run searchBudget next step nextObj

/-- The proposal after `x` by the given method. -/
def nextGuess (x : Array α) (par : Nat) (dir : Direction) :
    NextGuessMethod → Except ProfileError (Array α)
  | .fixedStep => P.fixedStep x par dir
  | .adaptiveOrder0 => P.adaptiveStep x par dir .hold
  | .adaptiveOrder1 => P.adaptiveStep x par dir .lastStep
  | .adaptiveRegression => P.adaptiveStep x par dir .regression

end Proposer

/-- The objective at `x`, with a failure or NaN read as `+∞`. -/
def Problem.valueOrInf (p : Problem) (x : Point) : Double :=
  match p.evaluate x with
  | .ok v => if v.isNaN then .ofFloat inf else v
  | .error _ => .ofFloat inf

/-- The step options as doubles. -/
def ProfileOptions.steps (o : ProfileOptions) : StepOptions Double :=
  ⟨o.minStepSize, o.defaultStepSize, o.maxStepSize, o.stepSizeFactor, o.deltaRatioMax,
    o.magicFactorObjValue, o.regPoints, o.regOrder⟩

/-- A proposal in doubles: the options, the profile with its walking end last, the problem with
the profiled parameter fixed, the optimum's value, the factors on the least and the greatest
step, and the decomposition that fits trends. -/
structure GuessContext where
  options : ProfileOptions
  profile : Profile
  problem : Problem
  globalOpt : Float
  minStepIncreaseFactor : Float := 1.0
  maxStepReduceFactor : Float := 1.0
  svd : SvdLibrary Double := .reference

/-- The proposer a context describes. -/
def GuessContext.proposer (c : GuessContext) : Proposer Double where
  options := c.options.steps
  xPath := c.profile.xPath
  fvalPath := c.profile.fvalPath
  lb := Double.ofFloats c.problem.lbFull
  ub := Double.ofFloats c.problem.ubFull
  isFixed := c.problem.isFixed
  objective := c.problem.valueOrInf
  svd := c.svd
  globalOpt := .ofFloat c.globalOpt
  minStepIncreaseFactor := .ofFloat c.minStepIncreaseFactor
  maxStepReduceFactor := .ofFloat c.maxStepReduceFactor

/-- The proposal after `x` by the given method, in doubles. -/
def GuessContext.nextGuess (c : GuessContext) (x : Point) (par : Nat) (dir : Direction)
    (m : NextGuessMethod) : Except ProfileError Point :=
  c.proposer.nextGuess x par dir m

end ProfileLikelihood

import ProfileLikelihood.Estimation
import ProfileLikelihood.Numerics
import ProfileLikelihood.Problem.Evaluate
import ProfileLikelihood.Profile.Warning

/-!
Gaussian approximations of profiles. Near the optimum the objective is treated as a quadratic
form, so each free parameter's profile is approximated by a normal log-density centred at the
fit, with the variance read off the pseudo-inverse of the Hessian (its eigenvalues at most
`1e-12` count as zero). The profile is sampled at evenly spaced points across the parameter's
bounds, which must therefore be finite; its optimum is the sample of greatest density, the last
one on a tie. The Hessian, its eigendecomposition, the densities and the ratios come from the
numerical libraries given as `Numerics`.
-/

namespace ProfileLikelihood

open Numeric

def eigenCutoff : Float := 1e-12

/-- The diagonal of the pseudo-inverse of the symmetrised matrix `(H + Hᵀ) / 2`, by its
eigendecomposition `eigen`. -/
def pinvDiagonal (eigen : Mat → Option SymmetricEigen) (h : Mat) : Except ProfileError Vec :=
  let n := h.size
  if n = 0 then .error .emptyEigenproblem
  else
    let sym := Mat.build n n fun r c => 0.5 * (h.entry r c + h.entry c r)
    match eigen sym with
    | none => .error .endlessDecomposition
    | some e =>
      .ok <| (Array.range n).map fun i =>
        ((List.range n).filter (e.values.entry · > eigenCutoff)).foldl (fun acc k =>
          let q := e.vectors.entry i k
          acc + q * q / e.values.entry k) (-0.0)

/-- `n` evenly spaced points from `a` toward `b`: `a + k (b - a) / (n - 1)`. -/
def linspace (a b : Float) (n : Nat) : Array Double :=
  let step := if n > 1 then (b - a) / (n - 1).toFloat else 0.0
  (Array.range n).map fun k => .ofFloat a + .ofFloat step * .ofFloat k.toFloat

/-- The index of the greatest value in the total order of doubles, the last one on a tie. -/
def lastArgMax (v : Array Double) : Nat :=
  (List.range v.size).foldl (fun best k =>
    if (Double.entry v best).totalLe (Double.entry v k) then k else best) 0

/-- The Gaussian profile of parameter `i` around `xHat` with the given variance, on `nSteps`
points across its bounds. -/
def gaussianProfile (p : Problem) (xHat : Point) (i : Nat) (variance : Float) (nSteps : Nat)
    (lib : Numerics) : Except ProfileError Profile := do
  let mu := (Double.entry xHat i).float
  let sigma := variance.sqrt
  if !lib.normal.accepts mu sigma then throw (.nonPositiveVariance i variance)
  let xs := linspace (p.lbFull.entry i) (p.ubFull.entry i) nSteps
  let logPdf := xs.map (lib.normal.lnPdf mu sigma)
  let best := lastArgMax logPdf
  let top := Double.entry logPdf best
  return {
    xPath := xs.map fun x => xHat.set! i x
    fvalPath := logPdf.map (-·)
    ratioPath := logPdf.map fun l => (l - top).map lib.libm.exp
    gradnormPath := Array.replicate nSteps (.ofFloat nan)
    convergedPath := Array.replicate nSteps true
    timePath := Array.replicate nSteps (.ofFloat 0.0)
    optimumIndex := best.toUInt64
    iPar := i
    nFval := 0
    timeTotal := .ofFloat 0.0
    message := "Gaussian approximation" }

/-- The requested parameter `i` added to the targets with its free index, or, when it is fixed, to
the warnings for skipped parameters. -/
def classifyTarget (p : Problem) :
    Array (Nat × Nat) × Array ProfileWarning → Nat →
      Except ProfileError (Array (Nat × Nat) × Array ProfileWarning)
  | (ts, ws), i => do
    if i ≥ p.dimFull then throw (.parameterIndexOutOfRange i p.dimFull)
    match p.freeIndexOf i with
    | some free =>
      let lb := p.lbFull.entry i
      let ub := p.ubFull.entry i
      if !lb.isFinite || !ub.isFinite then throw (.nonFiniteBounds i lb ub)
      return (ts.push (i, free), ws)
    | none => return (ts, ws.push (ProfileWarning.fixedParameterSkipped i))

/-- The variances of the free parameters at the fit `start`: the diagonal of the pseudo-inverse
of the reduced Hessian, the one stored with the fit or else the problem's own at its optimum. -/
def approximationVariances (p : Problem) (start : Fit) (lib : Numerics) :
    Except ProfileError Vec := do
  let hess ← match start.hess with
    | some h => pure h
    | none => (p.hessian lib.hessians (Double.floats start.x)).mapError .optimization
  pinvDiagonal lib.eigen (← (p.reducedMatrix hess).mapError .optimization)

/-- The checks of a request, in order: at least two steps, a fit to start from and at the index
given, with one entry per parameter, and the named list, if any, present. -/
def approximationStart (p : Problem) (e : Estimation) (profileList : Option Nat)
    (resultIndex nSteps : Nat) : Except ProfileError Fit := do
  if nSteps < 2 then throw (.invalidStepCount nSteps)
  if e.fits.isEmpty then throw .missingOptimizeResult
  let some start := e.fits.get? resultIndex | throw (.invalidResultIndex resultIndex e.fits.size)
  if start.x.size ≠ p.dimFull then throw (.dimensionMismatch p.dimFull start.x.size)
  if let some k := profileList then
    let _ ← e.profiles.list k
  return start

/-- The Gaussian profile of the target parameter `i`, whose free index is `free`, around `x`,
after checking that its variance is positive and finite. -/
def approximateTarget (p : Problem) (x : Point) (variances : Vec) (nSteps : Nat)
    (lib : Numerics) : Nat × Nat → Except ProfileError Profile
  | (i, free) => do
    let v := variances.entry free
    if !(v > 0.0) || !v.isFinite then throw (.nonPositiveVariance i v)
    gaussianProfile p x i v nSteps lib

/-- The Gaussian profiles a request asks for, all computed before anything is written: the checks
of the request, then the requested parameters (all free ones by default) in order, each a target or
a skipped fixed one, then one profile per target around fit `resultIndex`. -/
def approximationPlan (p : Problem) (e : Estimation) (profileIndex : Option (List Nat))
    (profileList : Option Nat) (resultIndex nSteps : Nat) (lib : Numerics) :
    Except ProfileError (Array Profile × Array ProfileWarning) := do
  let start ← approximationStart p e profileList resultIndex nSteps
  let (targets, warnings) ← (profileIndex.getD p.freeIndices).foldlM (classifyTarget p) (#[], #[])
  let variances ← approximationVariances p start lib
  let profiles ← targets.mapM (approximateTarget p start.x variances nSteps lib)
  return (profiles, warnings)

/-- Gaussian profiles of the requested parameters written into list `profileList`, or into a new
list of one empty slot per parameter. -/
def approximateProfiles (p : Problem) (e : Estimation) (profileIndex : Option (List Nat))
    (profileList : Option Nat) (resultIndex nSteps : Nat) (lib : Numerics) :
    Estimation × Except ProfileError (Nat × Array ProfileWarning) :=
  match approximationPlan p e profileIndex profileList resultIndex nSteps lib with
  | .error err => (e, .error err)
  | .ok (profiles, warnings) =>
    let (store, k) := match profileList with
      | some k => (e.profiles, k)
      | none => e.profiles.appendEmpty p.dimFull
    let (store, failure) := store.setEach k profiles.toList
    ({ e with profiles := store }, match failure with
      | none => .ok (k, warnings)
      | some err => .error err)

end ProfileLikelihood

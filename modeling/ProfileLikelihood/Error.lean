import ProfileLikelihood.Decimal.Text

/-!
The causes of failure, in three families: fitting (`FitError`: derivatives, options, the
objective, the problem's bookkeeping and the solver), profiling (`ProfileError`: options,
requests, intervals, or a wrapped `FitError`) and the execution engine (`EngineError`). Each
family has one `message` function holding all of its wording.
-/

namespace ProfileLikelihood

/-- Why evaluating, validating or minimising failed. -/
inductive FitError where
  | gradientNotImplemented
  | hessianNotImplemented
  | gradientDimMismatch (expected found : Nat)
  | invalidGradient (index : Nat) (value : Float) (reason : String)
  | invalidTolGrad (tol : Float) (reason : String)
  | invalidTolCost (tol : Float) (reason : String)
  | invalidMaxIter (maxIter : Nat) (reason : String)
  | noTolerancesProvided
  | invalidLineSearch (name reason : String)
  | invalidLbfgsMem (mem : Nat) (reason : String)
  | nonFiniteCost (value : Float)
  | objectiveFailed (text : String)
  | invalidThetaHat (index : Nat) (value : Float) (reason : String)
  | missingThetaHat
  | allStartsFailed (nStarts : Nat)
  | boundsDimMismatch (lb ub : Nat)
  | invalidBounds (index : Nat) (lb ub : Float)
  | indexOutOfRange (index dim : Nat)
  | fixedValuesMismatch (indices values : Nat)
  | invalidFixedValue (index : Nat) (value : Float)
  | thetaLengthMismatch (expected actual : Nat)
  | invalidThetaInput (index : Nat) (value : Float)
  | solver (kind text : String)
  | hessianDimMismatch (expected rows cols : Nat)
  | invalidHessian (row col : Nat) (value : Float)
  /-- A Hessian by differences of gradients met a gradient of the wrong length; there is no
  way to go on, and the whole computation stops. -/
  | misshapenGradient (expected found : Nat)
  /-- A formula read an entry past the end of its vector; the whole computation stops. -/
  | indexOutOfBounds (index size : Nat)
  /-- A value was clamped into bounds that are out of order or not numbers; the whole
  computation stops. -/
  | reversedClamp (lo hi : Float)
  /-- The history of an L-BFGS run was given more pairs than memory can be addressed for; the
  whole computation stops. -/
  | historyTooLarge (memory : Nat)
deriving Inhabited

namespace FitError

/-- The text of a fitting failure. -/
def message : FitError → String
  | gradientNotImplemented => "Gradient not implemented"
  | hessianNotImplemented => "Hessian not implemented"
  | gradientDimMismatch e f => s!"Gradient has {f} entries, expected {e}"
  | invalidGradient i v r => s!"Gradient entry {i} is {v.toMessage}: {r}"
  | invalidTolGrad t r => s!"Gradient tolerance {t.toMessage}: {r}"
  | invalidTolCost t r => s!"Cost tolerance {t.toMessage}: {r}"
  | invalidMaxIter m r => s!"max_iter {m}: {r}"
  | noTolerancesProvided => "At least one of tol_grad, tol_cost, max_iter must be set"
  | invalidLineSearch n r => s!"Line search '{n}': {r}"
  | invalidLbfgsMem m r => s!"L-BFGS memory {m}: {r}"
  | nonFiniteCost v => s!"Objective returned non-finite value {v.toMessage}"
  | objectiveFailed t => s!"Objective evaluation failed: {t}"
  | invalidThetaHat i v r => s!"Optimum entry {i} is {v.toMessage}: {r}"
  | missingThetaHat => "Solver finished without a best parameter vector"
  | allStartsFailed n => s!"All {n} optimizer starts failed"
  | boundsDimMismatch l u => s!"Lower bounds have {l} entries, upper bounds {u}"
  | invalidBounds i l u => s!"Bounds [{l.toMessage}, {u.toMessage}] of parameter {i} need lb <= ub"
  | indexOutOfRange i d => s!"Parameter index {i} out of range for dimension {d}"
  | fixedValuesMismatch i v => s!"Got {i} fixed indices but {v} fixed values"
  | invalidFixedValue i v => s!"Fixed value {v.toMessage} of parameter {i} must be finite"
  | thetaLengthMismatch e a => s!"Parameter vector has {a} entries, expected {e}"
  | invalidThetaInput i v => s!"Start vector entry {i} is {v.toMessage}, must be finite"
  | solver k t => s!"Solver error ({k}): {t}"
  | hessianDimMismatch e r c => s!"Hessian is {r}x{c}, expected {e}x{e}"
  | invalidHessian r c v => s!"Hessian entry ({r}, {c}) is {v.toMessage}, must be finite"
  | misshapenGradient e f => s!"Gradient of length {f} cannot be differenced in dimension {e}"
  | indexOutOfBounds i n => s!"index out of bounds: the len is {n} but the index is {i}"
  | reversedClamp l h => s!"min > max, or either was NaN. min = {l.toMessage}, max = {h.toMessage}"
  | historyTooLarge m => s!"capacity overflow for a history of {m} pairs"

/-- Whether the failure stops the whole computation: no caller reports it, retries or reads it
as NaN. -/
def stops : FitError → Bool
  | misshapenGradient .. | indexOutOfBounds .. | reversedClamp .. | historyTooLarge .. => true
  | _ => false

end FitError

/-- Why a profiling request failed before or around its tasks. -/
inductive ProfileError where
  | invalidOption (name : String) (value : Float) (reason : String)
  | invalidNextGuessMethod (name : String)
  | missingOptimizeResult
  | invalidResultIndex (index len : Nat)
  | invalidProfileList (index len : Nat)
  | parameterIndexOutOfRange (index dim : Nat)
  | dimensionMismatch (expected found : Nat)
  | invalidStepCount (nSteps : Nat)
  | nonFiniteBounds (index : Nat) (lb ub : Float)
  | nonPositiveVariance (index : Nat) (value : Float)
  | invalidCiInput (xs ratios : Nat)
  | noPointAboveRatio (confidenceRatio : Float)
  | invalidChi2 (alpha df : Float)
  /-- The chi-squared distribution function with infinitely many degrees of freedom has no
  value to search; the whole computation stops. -/
  | unboundedChi2 (df : Float)
  /-- A profile point has no entry for the profiled parameter; the whole computation stops. -/
  | indexOutOfBounds (index size : Nat)
  /-- The eigenvalues of an empty matrix were asked for; the whole computation stops. -/
  | emptyEigenproblem
  /-- Two profile points of lengths that do not broadcast were combined; the whole computation
  stops. -/
  | incompatibleLengths (a b : Nat)
  /-- A step-size search that never ends; the whole computation does not end. -/
  | endlessSearch
  /-- A matrix decomposition that never ends; the whole computation does not end. -/
  | endlessDecomposition
  /-- The rank of a decomposition was asked for below a cut-off that is not a non-negative
  number; the whole computation stops. -/
  | negativeRankCutoff
  | optimization (err : FitError)
deriving Inhabited

namespace ProfileError

/-- The text of a profiling failure; every one starts with `Profiling Error: `. -/
def message : ProfileError → String
  | invalidOption n v r => s!"Profiling Error: invalid option {n} = {v.toMessage}: {r}"
  | invalidNextGuessMethod n =>
    s!"Profiling Error: unknown next guess method '{n}', expected one of fixed_step, " ++
      "adaptive_step_order_0, adaptive_step_order_1, adaptive_step_regression"
  | missingOptimizeResult =>
    "Profiling Error: an optimization result is required to start profiling"
  | invalidResultIndex i l =>
    s!"Profiling Error: result index {i} out of range for {l} optimization results"
  | invalidProfileList i l => s!"Profiling Error: profile list {i} out of range for {l} lists"
  | parameterIndexOutOfRange i d =>
    s!"Profiling Error: parameter index {i} out of range for dimension {d}"
  | dimensionMismatch e f => s!"Profiling Error: dimension mismatch, expected {e}, found {f}"
  | invalidStepCount n => s!"Profiling Error: need at least 2 steps, got {n}"
  | nonFiniteBounds i l u =>
    s!"Profiling Error: bounds [{l.toMessage}, {u.toMessage}] of parameter {i} must be " ++
      "finite for an approximate profile"
  | nonPositiveVariance i v =>
    s!"Profiling Error: approximate variance of parameter {i} is {v.toMessage}, must be positive"
  | invalidCiInput x r =>
    s!"Profiling Error: need non-empty xs and ratios of equal length, got {x} and {r}"
  | noPointAboveRatio c => s!"Profiling Error: no profile point has ratio >= {c.toMessage}"
  | invalidChi2 a d =>
    s!"Profiling Error: invalid chi-squared quantile request (alpha = {a.toMessage}, df = {d.toMessage})"
  | unboundedChi2 d =>
    s!"Profiling Error: the chi-squared distribution function is undefined for df = {d.toMessage}"
  | indexOutOfBounds i n => s!"index out of bounds: the len is {n} but the index is {i}"
  | emptyEigenproblem =>
    "Unable to compute the symmetric tridiagonal decomposition of an empty matrix."
  | incompatibleLengths a b => s!"could not broadcast vectors of lengths {a} and {b}"
  | endlessSearch => "the step-size search does not end"
  | endlessDecomposition => "the matrix decomposition does not end"
  | negativeRankCutoff => "SVD rank: the epsilon must be non-negative."
  | optimization e => s!"Profiling Error: {e.message}"

/-- Whether the failure stops the whole computation, as `FitError.stops`. -/
def stops : ProfileError → Bool
  | unboundedChi2 .. | indexOutOfBounds .. | emptyEigenproblem | incompatibleLengths ..
  | endlessSearch | endlessDecomposition | negativeRankCutoff => true
  | optimization e => e.stops
  | _ => false

end ProfileError

/-- Why an execution engine could not be set up. -/
inductive EngineError where
  | invalidThreadCount (nThreads : Nat)
deriving Inhabited

/-- The text of an engine failure. -/
def EngineError.message : EngineError → String
  | .invalidThreadCount n => s!"Engine Error: invalid thread count {n}, must be positive"

end ProfileLikelihood

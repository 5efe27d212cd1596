import ProfileLikelihood.Minimize.Outcome
import ProfileLikelihood.Numeric.Double

/-!
Local fits and their ranking. A fit records where a local minimisation started and ended,
its value and how it ended, in doubles that keep the sign of a NaN. A ranking keeps fits ordered by value in the total order of
doubles (`-NaN < -∞ < … < -0.0 < 0.0 < … < ∞ < NaN`, a NaN placed by its sign bit); fits of
equal value keep the order in which they were added, because adding a fit appends it and sorts
stably.
-/

namespace ProfileLikelihood

/-- One local fit. -/
structure Fit where
  id : Nat
  x : Array Numeric.Double
  fval : Numeric.Double
  x0 : Array Numeric.Double
  hess : Option Mat := none
  gradNorm : Option Numeric.Double := none
  nFval : Nat := 0
  nIter : Nat := 0
  converged : Bool := true
  message : String := ""

/-- The fit of start `id` from the full start `x0` that ended in `o`. -/
def Fit.ofOutcome (id : Nat) (x0 : Vec) (o : Outcome) : Fit :=
  { id, x := Numeric.Double.ofFloats o.thetaHat, fval := .ofFloat o.value, x0 := Numeric.Double.ofFloats x0, hess := o.hess, gradNorm := o.gradNorm.map .ofFloat,
    nFval := o.nFval, nIter := o.iterations, converged := o.converged, message := o.status }

/-- Fits ordered by value, equal values in the order they were added. -/
structure Ranking where
  fits : List Fit := []

namespace Ranking

/-- The fits sorted stably by value. -/
def sort (r : Ranking) : Ranking :=
  ⟨r.fits.mergeSort fun a b => a.fval.totalLe b.fval⟩

def append (r : Ranking) (f : Fit) : Ranking := sort ⟨r.fits ++ [f]⟩

def size (r : Ranking) : Nat := r.fits.length

def isEmpty (r : Ranking) : Bool := r.fits.isEmpty

def get? (r : Ranking) (i : Nat) : Option Fit := r.fits[i]?

def best? (r : Ranking) : Option Fit := r.fits.head?

def fvals (r : Ranking) : List Numeric.Double := r.fits.map (·.fval)

end Ranking

end ProfileLikelihood

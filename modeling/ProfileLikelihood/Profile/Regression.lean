import ProfileLikelihood.Numeric.Scalar
import ProfileLikelihood.Numeric.Svd
import ProfileLikelihood.Profile.Basic

/-!
Polynomial trends along a profile. Each free parameter other than the profiled one is fitted,
by least squares, as a polynomial in the profiled parameter's offset `t` from the profile's last
point, using the trailing points of the profile. The offsets are divided by their largest
magnitude so that the powers stay comparable; the degree is lowered while the design matrix is
rank deficient, and a fit whose coefficients are not all finite counts as no fit.

The least-squares solutions come from a singular value decomposition library, a parameter
(`SvdLibrary`): a decomposition that does not end does not let the fit end. The fit is written
over any `Scalar`: doubles run it with this library's decomposition, and the reals read it in
exact arithmetic.
-/

namespace ProfileLikelihood

open Numeric

/-- What a singular value decomposition gives a least-squares fit: the singular values, and the
solution `V Σ⁺ Uᵀ b` of a system, singular values at most a cut-off counting as zero. -/
structure SvdSolver (α : Type) where
  values : Array α
  solve : Array α → α → Array α

/-- A singular value decomposition library: the decomposition of a matrix given by its rows,
none when the decomposition does not end. -/
abbrev SvdLibrary (α : Type) := Array (Array α) → Option (SvdSolver α)

/-- This library's decomposition (`Numeric.Svd`) on the numbers of doubles. -/
def SvdLibrary.reference : SvdLibrary Double := fun a =>
  (Svd.ofMatrix (a.map Double.floats)).map fun s =>
    ⟨Double.ofFloats s.values, fun b eps => Double.ofFloats (s.solve (Double.floats b) eps.float)⟩

variable {α : Type} [Scalar α]

/-- The design of a polynomial fit of degree `degree` at the abscissae `us`: row `r` holds the
powers `1, uᵣ, …, uᵣ^degree`. -/
def design (us : Array α) (degree : Nat) : Array (Array α) :=
  us.map fun u => (Array.range (degree + 1)).map (Scalar.powi u)

/-- The cut-off below which a singular value of a design with `rows` rows counts as zero:
`σ_max · rows · ε`. -/
def rankCutoff (values : Array α) (rows : Nat) : α :=
  let svMax := match values.toList with
    | [] => 0.0
    | v :: vs => vs.foldl Scalar.maxNum v
  svMax * Scalar.ofNat rows * Scalar.epsilon

/-- The number of singular values above `eps`; a cut-off that is not a non-negative number stops
the computation. -/
def rankAbove (values : Array α) (eps : α) : Except ProfileError Nat :=
  if eps ≥ 0.0 then .ok (values.toList.filter (· > eps)).length else .error .negativeRankCutoff

/-- One least-squares attempt with a polynomial of degree `degree` through `(us, ys)`: the
coefficients, lowest power first, when the design has full column rank (none if one is not finite),
or the rank when it is lower. -/
def fitAttempt (svd : SvdLibrary α) (us ys : Array α) (degree : Nat) :
    Except ProfileError (Option (Array α) ⊕ Nat) := do
  let some s := svd (design us degree) | throw .endlessDecomposition
  let eps := rankCutoff s.values us.size
  let rank ← rankAbove s.values eps
  if rank = 0 then return .inl none
  else if rank < degree + 1 then return .inr rank
  else
    let c := s.solve ys eps
    return .inl (if c.all Scalar.isFinite then some c else none)

/-- Attempts from degree `degree` down, at most `fuel` of them, each retry at degree
`rank - 1` for the rank the last attempt reported. -/
def retryDegree (attempt : Nat → Except ProfileError (Option (Array α) ⊕ Nat)) :
    Nat → Nat → Except ProfileError (Option (Array α))
  | 0, _ => .ok none
  | fuel + 1, degree => do
    match ← attempt degree with
    | .inl fit => return fit
    | .inr rank => retryDegree attempt fuel (rank - 1)

/-- The least-squares polynomial through `(us, ys)` of degree at most `degree`, lowering the degree
to `rank - 1` while the design is rank deficient. -/
def fitPolynomial (svd : SvdLibrary α) (us ys : Array α) (degree : Nat) :
    Except ProfileError (Option (Array α)) :=
  retryDegree (fitAttempt svd us ys) (degree + 1) degree

/-- Fitted trends: per parameter the coefficients in the scaled offset, none for the profiled
and the fixed parameters, and the scale of the offsets. -/
structure RegressionFit (α : Type) where
  coeffs : Array (Option (Array α))
  scale : α

namespace RegressionFit

/-- The points a fit reads: the last `min(n, regPoints)` of the `n` points. -/
def window (xPath : Array (Array α)) (regPoints : Nat) : Array (Array α) :=
  xPath.extract (xPath.size - min xPath.size regPoints) xPath.size

/-- The offsets of parameter `par` on the window from its value at the last point. -/
def offsets (xPath : Array (Array α)) (par regPoints : Nat) : Except ProfileError (Array α) := do
  let anchor := (xPath.getD (xPath.size - 1) #[]).getD par 0.0
  (window xPath regPoints).mapM fun x => do return (← Profile.pointEntry x par) - anchor

def spread (ts : Array α) : α := ts.foldl (fun acc t => Scalar.maxNum acc (Scalar.abs t)) 0.0

/-- The trends of parameter `par` along the path `xPath` on its last `min(n, regPoints)` points,
with degree `min(regOrder, n / 2)`, for every free parameter of the `dimFull` (those `isFixed` does
not name); none when the offsets do not spread, the degree is zero or some free parameter has no
fit. -/
def new? (svd : SvdLibrary α) (xPath : Array (Array α)) (par dimFull : Nat)
    (isFixed : Nat → Bool) (regPoints regOrder : Nat) :
    Except ProfileError (Option (RegressionFit α)) := do
  let degree := min regOrder (xPath.size / 2)
  let ts ← offsets xPath par regPoints
  let scale := spread ts
  if scale ≤ 0.0 || !Scalar.isFinite scale || degree == 0 then return none
  let us := ts.map (· / scale)
  let coeffs ← (List.range dimFull).foldlM (fun acc j => do
    match acc with
    | none => return none
    | some cs =>
      if j == par || isFixed j then return some (cs.push none)
      let ys ← (window xPath regPoints).mapM (Profile.pointEntry · j)
      return (← fitPolynomial svd us ys degree).map fun c => cs.push (some c)) (some #[])
  return coeffs.map (⟨·, scale⟩)

/-- The trend of parameter `j` at offset `t`, by Horner's rule from the highest power. -/
def predict? (f : RegressionFit α) (j : Nat) (t : α) : Option α := do
  let c ← (f.coeffs[j]?).bind id
  let u := t / f.scale
  return c.foldr (fun ck acc => acc * u + ck) 0.0

end RegressionFit

end ProfileLikelihood

import ProfileLikelihood.Error
import ProfileLikelihood.Numeric.Vector

/-!
Checks on what goes into and comes out of a minimisation. Every check that scans entries
reports the first offending one (row-major for matrices), so a message names one coordinate;
a length or shape check comes before any scan.
-/

namespace ProfileLikelihood.Check

/-- The first entry that is NaN or infinite, with its index. -/
def firstNonFinite (v : Vec) : Option (Nat × Float) :=
  (v.toList.zipIdx).findSome? fun (x, i) => if x.isFinite then none else some (i, x)

/-- What is wrong with an optional tolerance: it must be finite and positive when given. -/
def toleranceProblem : Option Float → Option (Float × String)
  | some t =>
    if !t.isFinite then some (t, "Tolerance must be finite.")
    else if t ≤ 0.0 then some (t, "Tolerance must be positive.")
    else none
  | none => none

/-- An optional gradient tolerance. -/
def tolGrad (t : Option Float) : Except FitError Unit :=
  match toleranceProblem t with
  | some (t, r) => .error (.invalidTolGrad t r)
  | none => .ok ()

/-- An optional cost tolerance. -/
def tolCost (t : Option Float) : Except FitError Unit :=
  match toleranceProblem t with
  | some (t, r) => .error (.invalidTolCost t r)
  | none => .ok ()

/-- A gradient: length `dim`, then finite entries. -/
def gradient (g : Vec) (dim : Nat) : Except FitError Unit :=
  if g.size ≠ dim then .error (.gradientDimMismatch dim g.size)
  else match firstNonFinite g with
    | some (i, v) => .error (.invalidGradient i v "Gradient elements must be finite.")
    | none => .ok ()

/-- A solver's best point: present, then finite. -/
def thetaHat : Option Vec → Except FitError Vec
  | none => .error .missingThetaHat
  | some t => match firstNonFinite t with
    | some (i, v) => .error (.invalidThetaHat i v "Parameter estimates must be finite.")
    | none => .ok t

/-- An objective value must be finite. -/
def value (v : Float) : Except FitError Unit :=
  if v.isFinite then .ok () else .error (.nonFiniteCost v)

/-- A start vector: length `dim`, then finite entries. -/
def thetaInput (t : Vec) (dim : Nat) : Except FitError Unit :=
  if t.size ≠ dim then .error (.thetaLengthMismatch dim t.size)
  else match firstNonFinite t with
    | some (i, v) => .error (.invalidThetaInput i v)
    | none => .ok ()

/-- A Hessian: `dim × dim`, then finite entries in row-major order. -/
def hessianSized (h : Mat.Sized) (dim : Nat) : Except FitError Unit :=
  if h.rows.size ≠ dim ∨ h.cols ≠ dim then .error (.hessianDimMismatch dim h.rows.size h.cols)
  else
    let bad := (h.rows.toList.zipIdx).findSome? fun (row, i) =>
      (firstNonFinite row).map fun (j, v) => (i, j, v)
    match bad with
    | some (i, j, v) => .error (.invalidHessian i j v)
    | none => .ok ()

def hessian (h : Mat) (dim : Nat) : Except FitError Unit := hessianSized h.sized dim

end ProfileLikelihood.Check

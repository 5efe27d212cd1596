import ProfileLikelihood.Validation

/-!
Finite differences. Gradients of a value: forward, `(f (x + h eᵢ) - f x) / h`, and central,
`(f (x + h eᵢ) - f (x - h eᵢ)) / 2h`, with `h = √ε`. Hessians of a gradient come from a
finite-difference library (`Hessians`; this library's own by central and forward differences,
made symmetric by averaging transposed entries): central first, forward when the central one is
not finite. Hessians of a value alone: second differences with the relative step
`ε^¼ max(|xᵢ|, 1)`.

A value that fails counts as NaN, and the first failure in evaluation order is reported
afterwards (`forwardCapturing`, `centralCapturing`). A failure that stops the computation is
never read as NaN: it is passed on, ahead of any other (`lenient`, `firstFailure`).
-/

namespace ProfileLikelihood.FiniteDiff

def step : Float := Numeric.sqrtEpsilon

def valueStep : Float := Float.ofBits 0x3F20000000000000

def shift (x : Vec) (i : Nat) (d : Float) : Vec := x.modify i (· + d)

/-- The points where a forward difference evaluates, in order: `x`, then `x + h eᵢ`. -/
def forwardPoints (x : Vec) : List Vec :=
  x :: (List.range x.size).map fun i => shift x i step

/-- The points where a central difference evaluates, in order: `x + h eᵢ`, `x - h eᵢ`, … -/
def centralPoints (x : Vec) : List Vec :=
  (List.range x.size).flatMap fun i => [shift x i step, shift x i (-step)]

/-- Forward differences of a value. -/
def forward (f : Vec → Float) (x : Vec) : Vec :=
  let f0 := f x
  (Array.range x.size).map fun i => (f (shift x i step) - f0) / step

/-- Central differences of a value. -/
def central (f : Vec → Float) (x : Vec) : Vec :=
  (Array.range x.size).map fun i =>
    (f (shift x i step) - f (shift x i (-step))) / (2.0 * step)

/-- A failing value read as NaN. -/
def orNaN (f : Vec → Except FitError Float) (x : Vec) : Float :=
  match f x with
  | .ok v => v
  | .error _ => Numeric.nan

/-- A value read leniently: a failure counts as NaN, except one that stops the computation,
which is passed on. -/
def lenient (f : Vec → Except FitError Float) (x : Vec) : Except FitError Float :=
  match f x with
  | .ok v => .ok v
  | .error e => if e.stops then .error e else .ok Numeric.nan

/-- A gradient read leniently: a failure gives `fallback x`, except one that stops the
computation, which is passed on. -/
def lenientGradient (g : Vec → Except FitError Vec) (fallback : Vec → Vec) (x : Vec) :
    Except FitError Vec :=
  match g x with
  | .ok v => .ok v
  | .error e => if e.stops then .error e else .ok (fallback x)

/-- The failure to report from evaluations at `pts`: the first one that stops the computation,
else the first in order. -/
def firstFailure (f : Vec → Except FitError Float) (pts : List Vec) : Option FitError :=
  let failures := pts.filterMap fun p => match f p with
    | .ok _ => none
    | .error e => some e
  failures.find? (·.stops) <|> failures.head?

/-- Forward differences of a value that may fail: the first failure, else the differences. -/
def forwardCapturing (f : Vec → Except FitError Float) (x : Vec) : Except FitError Vec :=
  match firstFailure f (forwardPoints x) with
  | some e => .error e
  | none => .ok (forward (orNaN f) x)

/-- Central differences of a value that may fail: the first failure, else the differences. -/
def centralCapturing (f : Vec → Except FitError Float) (x : Vec) : Except FitError Vec :=
  match firstFailure f (centralPoints x) with
  | some e => .error e
  | none => .ok (central (orNaN f) x)

/-- A forward-difference gradient of a value that may fail, checked as a gradient. -/
def gradient (f : Vec → Except FitError Float) (x : Vec) : Except FitError Vec := do
  let g ← forwardCapturing f x
  Check.gradient g x.size
  return g

/-- Each entry and its transpose replaced by their mean, `(mᵢⱼ + mⱼᵢ) / 2`, row by row above
the diagonal. -/
def symmetrize (m : Mat) : Mat :=
  let n := m.size
  (List.range n).foldl (fun m i =>
    (List.range (n - (i + 1))).foldl (fun m k =>
      let j := i + 1 + k
      let t := (m.entry i j + m.entry j i) / 2.0
      (m.modify i (·.set! j t)).modify j (·.set! i t)) m) m

/-- Each entry and its transpose replaced by `½ (mᵢⱼ + mⱼᵢ)`, row by row below the
diagonal. -/
def symmetrizeBelow (m : Mat) : Mat :=
  let n := m.size
  (List.range n).foldl (fun m i =>
    (List.range i).foldl (fun m j =>
      let t := 0.5 * (m.entry i j + m.entry j i)
      (m.modify i (·.set! j t)).modify j (·.set! i t)) m) m

/-- Row `i` of a difference Hessian from the gradients `gp` and `gm`, divided by `d`;
a gradient of the wrong length stops the computation. -/
def differenceRow (n : Nat) (gp gm : Vec) (d : Float) : Except FitError Vec :=
  if gp.size ≠ n then .error (.misshapenGradient n gp.size)
  else if gm.size ≠ n then .error (.misshapenGradient n gm.size)
  else .ok (Array.zipWith (fun a b => (a - b) / d) gp gm)

/-- The central-difference Hessian of a gradient, made symmetric: a row per coordinate and a
column per entry of the gradient at `x`, which is evaluated first. -/
def centralHessian (g : Vec → Except FitError Vec) (x : Vec) : Except FitError Mat.Sized := do
  let n := x.size
  let g0 ← g x
  let rows ← (List.range n).mapM fun i => do
    differenceRow n (← g (shift x i step)) (← g (shift x i (-step))) (2.0 * step)
  return ⟨symmetrize rows.toArray, g0.size⟩

/-- The forward-difference Hessian of a gradient, made symmetric, shaped as `centralHessian`. -/
def forwardHessian (g : Vec → Except FitError Vec) (x : Vec) : Except FitError Mat.Sized := do
  let n := x.size
  let g0 ← g x
  let rows ← (List.range n).mapM fun i => do differenceRow n (← g (shift x i step)) g0 step
  return ⟨symmetrize rows.toArray, g0.size⟩

/-- The central and forward finite-difference Hessians of a gradient that a library computes. -/
structure Hessians where
  central : (Vec → Except FitError Vec) → Vec → Except FitError Mat.Sized
  forward : (Vec → Except FitError Vec) → Vec → Except FitError Mat.Sized

def Hessians.reference : Hessians := ⟨centralHessian, forwardHessian⟩

/-- The Hessian of a gradient from the library `fd`: central differences when finite, else forward
differences (which must then pass the check), averaged across the diagonal once more. -/
def hessianOfGradient (fd : Hessians) (g : Vec → Except FitError Vec) (x : Vec) :
    Except FitError Mat := do
  let n := x.size
  let c ← fd.central g x
  match Check.hessianSized c n with
  | .ok () => return symmetrizeBelow c.rows
  | .error _ =>
    let f ← fd.forward g x
    Check.hessianSized f n
    return symmetrizeBelow f.rows

/-- `f` at `x` moved by the given offsets, one coordinate after another. -/
def shifted (f : Vec → Except FitError Float) (x : Vec) (offsets : List (Nat × Float)) :
    Except FitError Float :=
  f (offsets.foldl (fun x (k, d) => shift x k d) x)

/-- The Hessian from values alone: the diagonal by `(f (x + hᵢ eᵢ) - 2 f x + f (x - hᵢ eᵢ)) / hᵢ²`
and each entry below it by the four-point rule `(f₊₊ - f₊₋ - f₋₊ + f₋₋) / 4 hᵢ hⱼ`, copied across
the diagonal, then checked. -/
def hessianOfValues (f : Vec → Except FitError Float) (x : Vec) : Except FitError Mat := do
  let n := x.size
  let hs : Vec := x.map fun t => valueStep * Numeric.maxNum t.abs 1.0
  let f0 ← f x
  let m ← (List.range n).foldlM (fun m i => do
    let hi := hs.entry i
    let dii := ((← shifted f x [(i, hi)]) - 2.0 * f0 + (← shifted f x [(i, -hi)])) / (hi * hi)
    let m := m.modify i (·.set! i dii)
    (List.range i).foldlM (fun m j => do
      let hj := hs.entry j
      let v := ((← shifted f x [(i, hi), (j, hj)]) - (← shifted f x [(i, hi), (j, -hj)])
        - (← shifted f x [(i, -hi), (j, hj)]) + (← shifted f x [(i, -hi), (j, -hj)]))
        / (4.0 * hi * hj)
      return (m.modify i (·.set! j v)).modify j (·.set! i v)) m) (Mat.fill n n 0.0)
  Check.hessian m n
  return m

end ProfileLikelihood.FiniteDiff

import ProfileLikelihood.Objective.Basic

/-!
A catalogue of test objectives: quadratic forms, the Rosenbrock valley, a double well, an
exponential-decay least-squares fit and linear functions. Each can be told to fail or to give
NaN on part of the space, and each derivative can be switched to missing, failing, NaN or of
the wrong length, so that every fallback and check of the library can be driven. Sums run left
to right from `0.0`, in the order written.
-/

namespace ProfileLikelihood.Objective

open Numeric (Double)

/-- The formula of a catalogue objective. -/
inductive Formula where
  /-- `f0 + ½ Σᵢ Σⱼ (xᵢ - cᵢ) Aᵢⱼ (xⱼ - cⱼ)`. -/
  | quadratic (c : Array Double) (a : Array (Array Double)) (f0 : Double)
  /-- `Σᵢ b (xᵢ₊₁ - xᵢ²)² + (a - xᵢ)²`. -/
  | rosenbrock (a b : Double) (dim : Nat)
  /-- `(x₀² - 1)² + x₀ / 10 + Σ_{i ≥ 1} xᵢ²`. -/
  | doubleWell (dim : Nat)
  /-- `½ Σₖ ((yₖ - x₀ exp (-x₁ tₖ)) / σ)²`. -/
  | expDecay (ts ys : Array Double) (sigma : Double)
  /-- `f0 + Σᵢ gᵢ xᵢ`. -/
  | linear (g : Array Double) (f0 : Double)

/-- How a derivative of a catalogue objective behaves. -/
inductive Mode where
  | ok | missing | wrongDim | nan | fail
deriving DecidableEq, Repr

/-- A half-space test on one coordinate: hit when `x[index] > gt` or `x[index] < lt`. -/
structure Condition where
  index : Nat
  gt : Option Float := none
  lt : Option Float := none

/-- Whether `x` meets the condition; a coordinate past the end never does. -/
def Condition.hit (c : Condition) (x : Vec) : Bool :=
  match x[c.index]? with
  | none => false
  | some v => c.gt.any (fun g => v > g) || c.lt.any (fun l => v < l)

/-- A catalogue objective with its failure regions and derivative modes. -/
structure Spec where
  formula : Formula
  grad : Mode := .ok
  hess : Mode := .missing
  failWhen : List Condition := []
  nanWhen : List Condition := []

namespace Formula

/-- The number of parameters. -/
def dim : Formula → Nat
  | quadratic c _ _ => c.size
  | rosenbrock _ _ n => n
  | doubleWell n => n
  | expDecay _ _ _ => 2
  | linear g _ => g.size

/-- Sums `f i` for `i` in `0 .. n`, from the left, starting at `s`. -/
def sumFrom {α : Type} [Add α] (s : α) (n : Nat) (f : Nat → α) : α :=
  (List.range n).foldl (fun acc i => acc + f i) s

/-- The objective value, as a double whose NaN keeps its sign. -/
def value (x : Array Double) : Formula → Double
  | quadratic c a f0 =>
    let n := c.size
    let s := (List.range n).foldl (fun acc i =>
      (List.range n).foldl (fun acc j =>
        acc + (at_ x i - at_ c i) * at_ (a.getD i #[]) j * (at_ x j - at_ c j)) acc)
      (d 0.0)
    d 0.5 * s + f0
  | rosenbrock a b n =>
    sumFrom (d 0.0) (n - 1) fun i =>
      let u := at_ x (i + 1) - at_ x i * at_ x i
      let v := a - at_ x i
      v * v + b * u * u
  | doubleWell n =>
    let x0 := at_ x 0
    let w := x0 * x0 - d 1.0
    (List.range (n - 1)).foldl (fun s i => s + at_ x (i + 1) * at_ x (i + 1))
      (w * w + d 0.1 * x0)
  | expDecay ts ys sigma =>
    let s := (List.range ts.size).foldl (fun s k =>
      let r := (at_ ys k - at_ x 0 * (-at_ x 1 * at_ ts k).map Float.exp) / sigma
      r * r + s) (d 0.0)
    d 0.5 * s
  | linear g f0 =>
    (List.range g.size).foldl (fun s i =>
      let t := at_ g i * at_ x i
      if i % 2 = 0 then s + t else t + s) f0
where
  /-- A number of the formula as a double. -/
  d (v : Float) : Double := .ofFloat v
  /-- Entry `i`, or `0` past the end. -/
  at_ (v : Array Double) (i : Nat) : Double := Double.entry v i

/-- The analytic gradient, where the formula has one. -/
def gradient (x : Vec) : Formula → Vec
  | quadratic c a _ =>
    let n := c.size
    let (c, a) : Vec × Mat := (Double.floats c, a.map Double.floats)
    (Array.range n).map fun i =>
      sumFrom 0.0 n fun j => 0.5 * (a.entry i j + a.entry j i) * (x.entry j - c.entry j)
  | rosenbrock a b n =>
    let (a, b) := (a.float, b.float)
    (List.range (n - 1)).foldl (fun g i =>
      let u := x.entry (i + 1) - x.entry i * x.entry i
      let g := g.modify i (· + (-4.0 * b * x.entry i * u - 2.0 * (a - x.entry i)))
      g.modify (i + 1) (· + 2.0 * b * u)) (Vec.zeros n)
  | doubleWell n =>
    (Array.range n).map fun i =>
      if i = 0 then 4.0 * x.entry 0 * (x.entry 0 * x.entry 0 - 1.0) + 0.1 else 2.0 * x.entry i
  | expDecay ts ys sigma =>
    let (ts, ys, sigma) : Vec × Vec × Float := (Double.floats ts, Double.floats ys, sigma.float)
    (List.range ts.size).foldl (fun g k =>
      let e := Float.exp (-(x.entry 1) * ts.entry k)
      let r := (ys.entry k - x.entry 0 * e) / sigma
      #[g.entry 0 + -r * e / sigma, g.entry 1 + r * x.entry 0 * ts.entry k * e / sigma]) #[0.0, 0.0]
  | linear g _ => Double.floats g

/-- The analytic Hessian; `none` for the decay fit, which has none. -/
def hessian (x : Vec) : Formula → Option Mat
  | quadratic c a _ =>
    let a : Mat := a.map Double.floats
    some (Mat.build c.size c.size fun i j => 0.5 * (a.entry i j + a.entry j i))
  | rosenbrock _ b n =>
    let b := b.float
    some <| (List.range (n - 1)).foldl (fun h i =>
      let xi := x.entry i
      let off := -4.0 * b * xi
      let h := h.modify i (·.modify i (· + (12.0 * b * xi * xi - 4.0 * b * x.entry (i + 1) + 2.0)))
      let h := h.modify (i + 1) (·.modify (i + 1) (· + 2.0 * b))
      let h := h.modify i (·.modify (i + 1) (· + off))
      h.modify (i + 1) (·.modify i (· + off))) (Mat.fill n n 0.0)
  | doubleWell n =>
    some <| Mat.build n n fun i j =>
      if i ≠ j then 0.0 else if i = 0 then 12.0 * x.entry 0 * x.entry 0 - 4.0 else 2.0
  | expDecay _ _ _ => none
  | linear g _ => some (Mat.fill g.size g.size 0.0)

/-- The first coordinate the formula reads past the end of `x`, if any. -/
def overreach (x : Vec) : Formula → Option Nat
  | doubleWell _ => if x.size = 0 then some 0 else none
  | rosenbrock _ _ n => if n = 0 then some 1 else none
  | _ => none

end Formula

namespace Spec

/-- The checks every evaluation makes first: the length, then the failure regions. -/
def precheck (s : Spec) (x : Vec) : Except FitError Unit :=
  if x.size ≠ s.formula.dim then .error (.objectiveFailed "wrong dimension")
  else if s.failWhen.any (·.hit x) then .error (.objectiveFailed "outside domain")
  else .ok ()

/-- Evaluating the formula at `x` is possible: it reads no coordinate past the end. -/
def reach (s : Spec) (x : Vec) : Except FitError Unit :=
  match s.formula.overreach x with
  | some i => .error (.indexOutOfBounds i x.size)
  | none => .ok ()

/-- The value: NaN inside a NaN region, else the formula. -/
def value (s : Spec) (x : Array Double) : Except FitError Double := do
  let xs := Double.floats x
  s.precheck xs
  if s.nanWhen.any (·.hit xs) then return .ofFloat Numeric.nan
  s.reach xs
  return s.formula.value x

/-- The gradient, by its mode. -/
def gradient (s : Spec) (x : Vec) : Except FitError Vec :=
  match s.grad with
  | .missing => .error .gradientNotImplemented
  | .fail => .error (.objectiveFailed "gradient failed")
  | mode => do
    s.precheck x
    let n := s.formula.dim
    match mode with
    | .wrongDim => return Vec.zeros (n + 1)
    | .nan => return Array.replicate n Numeric.nan
    | _ => do s.reach x; return s.formula.gradient x

/-- The Hessian, by its mode. -/
def hessian (s : Spec) (x : Vec) : Except FitError Mat.Sized :=
  match s.hess with
  | .missing => .error .hessianNotImplemented
  | .fail => .error (.objectiveFailed "hessian failed")
  | mode => do
    s.precheck x
    let n := s.formula.dim
    match mode with
    | .wrongDim => return Mat.fillSized n (n + 1) 0.0
    | .nan => return Mat.fillSized n n Numeric.nan
    | _ =>
      match s.formula.hessian x with
      | some h => do s.reach x; return ⟨h, n⟩
      | none => throw .hessianNotImplemented

/-- The catalogue objective as an objective of the library. -/
def toObjective (s : Spec) : Objective where
  value := s.value
  gradient := s.gradient
  hessian := s.hessian

end Spec

end ProfileLikelihood.Objective

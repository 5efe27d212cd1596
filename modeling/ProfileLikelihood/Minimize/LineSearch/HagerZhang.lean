import ProfileLikelihood.Minimize.LineSearch.Basic

/-!
The line search of Hager and Zhang, on the bracket `[ε, 1]` with a first trial at `1`. Each
round takes a double secant step on the bracket: a secant point updates it, and when that point
became an end, a second secant through the old and new end updates it again. When the bracket
did not shrink to `0.66` of its length, its midpoint updates it once more. An update keeps a
point inside the bracket as the new upper end when the slope there is not negative, as the
new lower end when the cost there is at most `f(0) + 10⁻⁶ |f(0)|`, and otherwise bisects
(with weight `½`) between the lower end and that point until one of the first two cases holds.

The best point is the one of least cost among the two ends and the first trial, later ones
winning ties. The search stops when the best point meets the Wolfe conditions,
`f(t) - f(0) < 0.1 t f'(0)` and `f'(t) > 0.9 f'(0)`, or the approximate Wolfe conditions
`0.9 f'(0) ≤ f'(t) ≤ -0.8 f'(0)` and `f(t) ≤ f(0) + 10⁻⁶ |f(0)|`.
-/

namespace ProfileLikelihood

namespace HagerZhang

/-- A step with the cost and the slope of the cost there. -/
structure Point where
  step : Float
  value : Float
  slope : Float

def delta : Float := 0.1

def sigma : Float := 0.9

def epsilon : Float := 1e-6

/-- The weight of bisection when an update has to search inside the bracket. -/
def theta : Float := 0.5

def gamma : Float := 0.66

def stepMin : Float := Numeric.epsilon

def stepMax : Float := 1.0

def firstStep : Float := 1.0

/-- The most evaluations in one bisection, and the most rounds of one search. -/
def budget : Nat := 10000

/-- What every step of a search refers to. -/
structure Context where
  oracle : Oracle
  ray : Ray
  /-- The cost at the origin. -/
  finit : Float
  /-- The slack `ε |f(0)|` of the cost. -/
  slack : Float

abbrev Probe := StateT Nat (Except SearchFailure)

/-- The cost and slope at step `t`. -/
def probe (c : Context) (t : Float) : Probe Point := do
  modify (· + 1)
  let x := c.ray.point t
  let f ← liftEval (c.oracle.cost x)
  let g ← liftEval (c.oracle.gradient x)
  return ⟨t, f, c.ray.direction.dot g⟩

/-- The failure of an update that met none of its cases. -/
def unreachable : SearchFailure :=
  .potentialBug "HagerZhangLineSearch: Reached unreachable point in `update` method."

/-- Bisection between the lower end `a` and a point `b` of negative slope and too high a cost,
until a point of non-negative slope, which becomes the upper end. -/
def bisect (c : Context) : Nat → Point → Point → Probe (Point × Point)
  | 0, _, _ => throw unreachable
  | fuel + 1, a, b => do
    let d ← probe c ((1.0 - theta) * a.step + theta * b.step)
    if d.slope ≥ 0.0 then return (a, d)
    else if d.slope < 0.0 then
      if d.value ≤ c.finit + c.slack then bisect c fuel d b else bisect c fuel a d
    else bisect c fuel a b

/-- The bracket `[a, b]` updated by the point `p`. -/
def update (c : Context) (a b p : Point) : Probe (Point × Point) :=
  if p.step ≤ a.step || p.step ≥ b.step then pure (a, b)
  else if p.slope ≥ 0.0 then pure (a, p)
  else if p.slope < 0.0 && p.value ≤ c.finit + c.slack then pure (p, b)
  else if p.slope < 0.0 && p.value > c.finit + c.slack then bisect c budget a p
  else throw unreachable

/-- The step where the secant of the slopes through `a` and `b` vanishes. -/
def secant (a b : Point) : Float :=
  (a.step * b.slope - b.step * a.slope) / (b.slope - a.slope)

/-- The double secant step on the bracket `[a, b]`. -/
def secant2 (c : Context) (a b : Point) : Probe (Point × Point) := do
  let p ← probe c (secant a b)
  let (a', b') ← update c a b p
  let near (u v : Float) : Bool := (u - v).abs < Numeric.epsilon
  if near p.step a'.step || near p.step b'.step then
    let t := if near p.step a'.step then secant a a' else secant b b'
    let q ← probe c t
    update c a' b' q
  else return (a', b')

/-- One round: a double secant step, then a bisection when the bracket did not shrink enough. -/
def round (c : Context) (a b : Point) : Probe (Point × Point) := do
  let (a', b') ← secant2 c a b
  if b'.step - a'.step > gamma * (b.step - a.step) then
    let p ← probe c ((a'.step + b'.step) / 2.0)
    update c a' b' p
  else return (a', b')

/-- The point of least cost among `a`, `b` and `t`, later ones winning ties; `prev` when
the costs cannot be compared. -/
def best (a b t prev : Point) : Point :=
  let r := if a.value ≤ b.value && a.value ≤ t.value then a else prev
  let r := if b.value ≤ a.value && b.value ≤ t.value then b else r
  if t.value ≤ a.value && t.value ≤ b.value then t else r

/-- Whether the best point ends the search, given the slope `dginit` at the origin. -/
def accepts (c : Context) (dginit : Float) (p : Point) : Bool :=
  (p.value - c.finit < delta * p.step * dginit && p.slope > sigma * dginit)
    || ((2.0 * delta - 1.0) * dginit ≥ p.slope && p.slope ≥ sigma * dginit
      && p.value ≤ c.finit + c.slack)

/-- Rounds on the bracket `[a, b]` until the best point is accepted. -/
def rounds (c : Context) (dginit : Float) (first : Point) :
    Nat → Point → Point → Point → Probe Point
  | 0, _, _, _ => throw (.potentialBug "HagerZhangLineSearch: no acceptable step within the round budget")
  | fuel + 1, a, b, p =>
    if accepts c dginit p then pure p
    else do
      let (a', b') ← round c a b
      rounds c dginit first fuel a' b' (best a' b' first p)

end HagerZhang

/-- The Hager–Zhang line search along `ray`. -/
def hagerZhang (o : Oracle) (ray : Ray) : Except SearchFailure Landing := do
  let c : HagerZhang.Context := ⟨o, ray, ray.cost, HagerZhang.epsilon * ray.cost.abs⟩
  let search : HagerZhang.Probe HagerZhang.Point := do
    let a ← HagerZhang.probe c HagerZhang.stepMin
    let b ← HagerZhang.probe c HagerZhang.stepMax
    let first ← HagerZhang.probe c HagerZhang.firstStep
    let start := HagerZhang.best a b first ⟨0.0, Numeric.inf, Numeric.nan⟩
    HagerZhang.rounds c ray.slope first HagerZhang.budget a b start
  let (p, calls) ← search.run 0
  return ⟨ray.point p.step, p.value, calls, calls⟩

end ProfileLikelihood

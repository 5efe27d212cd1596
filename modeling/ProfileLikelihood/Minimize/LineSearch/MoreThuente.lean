import ProfileLikelihood.Minimize.LineSearch.Basic

/-!
The line search of Moré and Thuente. It looks for a step `t` along a descent direction with
sufficient decrease, `f(t) ≤ f(0) + 10⁻⁴ t f'(0)`, and small slope, `|f'(t)| ≤ 0.9 |f'(0)|`.
The first trial is `t = 1`. Each new trial comes from the cubic and quadratic models through the
best step so far and the current one (`nextStep`), kept inside an interval of uncertainty
that widens by a factor four until the minimum is bracketed and shrinks afterwards. While no
step has both decreased the cost and flattened the slope, a trial that lacks sufficient
decrease but whose cost is no higher than the value recorded for the previous trial has its
models fitted to the cost less the sufficient-decrease line; the value recorded for a trial is
the one its update worked with, so a shifted update records the shifted cost, and before the
first trial nothing is recorded (not a number). After a shifted update each end of the interval
moves to its new step but keeps the cost and slope it held before, raised by the line at the new
step and by the line's slope. The search stops at the first acceptable step, or when the
interval is too short, or at the bounds `√ε` and `∞` of the step. It fails when a cost or a
slope has overflowed into a cubic model: when a case that fits a cubic finds its `θ` not
finite. The case of a higher cost reports this in its own words (`cubicOverflow`), the others
alike (`modelOverflow`). Ends of the interval that are not finite are no failure by themselves:
an unbracketed step past a steeper slope fits no cubic and goes on.
-/

namespace ProfileLikelihood

namespace MoreThuente

/-- A step length with the cost and the slope of the cost there. -/
structure Trial where
  step : Float
  value : Float
  slope : Float

def ftol : Float := 1e-4

def gtol : Float := 0.9

/-- The relative length at which the interval of uncertainty counts as closed. -/
def xtol : Float := 1e-10

/-- How far past the current step an unbracketed interval reaches, in steps. -/
def extrapolation : Float := 4.0

def stepMin : Float := Numeric.sqrtEpsilon

def stepMax : Float := Numeric.inf

/-- The scale of the cubic model: the largest of `θ` and the two slopes, as signed numbers. -/
def scaleOf (a b c : Float) : Float :=
  Numeric.maxNum (Numeric.maxNum a b) c

/-- The cubic's `θ` through the trials `x` and `p`. -/
def theta (x p : Trial) : Float :=
  3.0 * (x.value - p.value) / (p.step - x.step) + x.slope + p.slope

/-- A higher cost than at the best step: the minimum is bracketed. -/
def higherValueStep (x p : Trial) : Option Float :=
  let th := theta x p
  if !th.isFinite then none
  else
    let s := scaleOf th x.slope p.slope
    let g := s * ((th / s) * (th / s) - (x.slope / s) * (p.slope / s)).sqrt
    let g := if p.step < x.step then -g else g
    let r := ((g - x.slope) + th) / (((g - x.slope) + g) + p.slope)
    let cubic := x.step + r * (p.step - x.step)
    let quad := x.step +
      ((x.slope / ((x.value - p.value) / (p.step - x.step) + x.slope)) / 2.0) * (p.step - x.step)
    some (if (cubic - x.step).abs < (quad - x.step).abs then cubic else cubic + (quad - cubic) / 2.0)

/-- A lower cost with a slope of the opposite sign: the minimum is bracketed. -/
def oppositeSlopeStep (x p : Trial) : Option Float :=
  let th := theta x p
  if !th.isFinite then none
  else
  let s := scaleOf th x.slope p.slope
  let g := s * ((th / s) * (th / s) - (x.slope / s) * (p.slope / s)).sqrt
  let g := if p.step > x.step then -g else g
  let r := ((g - p.slope) + th) / (((g - p.slope) + g) + x.slope)
  let cubic := p.step + r * (x.step - p.step)
  let secant := p.step + (p.slope / (p.slope - x.slope)) * (x.step - p.step)
  some (if (cubic - p.step).abs > (secant - p.step).abs then cubic else secant)

/-- A lower cost, a slope of the same sign and smaller magnitude. -/
def smallerSlopeStep (x p : Trial) (bracketed : Bool) (lo hi : Float) : Option Float :=
  let th := theta x p
  if !th.isFinite then none
  else
  let s := scaleOf th x.slope p.slope
  let g := s * (Numeric.maxNum 0.0 ((th / s) * (th / s) - (x.slope / s) * (p.slope / s))).sqrt
  let g := if p.step > x.step then -g else g
  let r := ((g - p.slope) + th) / ((g + (x.slope - p.slope)) + g)
  let cubic :=
    if r < 0.0 && g != 0.0 then p.step + r * (x.step - p.step)
    else if p.step > x.step then hi else lo
  let secant := p.step + (p.slope / (p.slope - x.slope)) * (x.step - p.step)
  some <| if bracketed then (if (p.step - cubic).abs < (p.step - secant).abs then cubic else secant)
  else (if (p.step - cubic).abs > (p.step - secant).abs then cubic else secant)

/-- A lower cost, a slope of the same sign that does not shrink. -/
def steeperStep (y p : Trial) (bracketed : Bool) (lo hi stx : Float) : Option Float :=
  if bracketed then
    let th := 3.0 * (p.value - y.value) / (y.step - p.step) + y.slope + p.slope
    if !th.isFinite then none
    else
    let s := scaleOf th y.slope p.slope
    let g := s * ((th / s) * (th / s) - (y.slope / s) * (p.slope / s)).sqrt
    let g := if p.step > y.step then -g else g
    let r := ((g - p.slope) + th) / (((g - p.slope) + g) + y.slope)
    some (p.step + r * (y.step - p.step))
  else some (if p.step > stx then hi else lo)

/-- What one update of the interval of uncertainty gives: its two ends, the next step,
whether the minimum is bracketed, and which of the four cases applied (`0` when the trial
was not usable). -/
structure Update where
  best : Trial
  other : Trial
  step : Float
  bracketed : Bool
  info : Nat

def cubicOverflow : String := "MoreThuenteLineSearch: NaN or Inf encountered during iteration"

def modelOverflow : String := "`MoreThuenteLineSearch`: NaN or Inf encountered during iteration"

/-- The step of a case, or the case's failure when it has none. -/
def fitOr (msg : String) : Option Float → Except String Float
  | some v => .ok v
  | none => .error msg

/-- The next trial step from the best step `x`, the other end `y` and the current trial `p`,
within `[lo, hi]`, and the new interval; the failure's text when the case's cubic has no finite
`θ`. -/
def nextStep (x y p : Trial) (bracketed : Bool) (lo hi : Float) : Except String Update :=
  if (bracketed && (p.step ≤ Numeric.minNum x.step y.step || p.step ≥ Numeric.maxNum x.step y.step))
      || x.slope * (p.step - x.step) ≥ 0.0 || hi < lo then
    .ok ⟨x, y, p.step, bracketed, 0⟩
  else do
    let sgnd := p.slope * (x.slope / x.slope.abs)
    let (stpf, brackt, bound, info) ←
      if p.value > x.value then (fitOr cubicOverflow (higherValueStep x p)).map (·, true, true, 1)
      else if sgnd < 0.0 then (fitOr modelOverflow (oppositeSlopeStep x p)).map (·, true, false, 2)
      else if p.slope.abs < x.slope.abs then
        (fitOr modelOverflow (smallerSlopeStep x p bracketed lo hi)).map (·, bracketed, true, 3)
      else (fitOr modelOverflow (steeperStep y p bracketed lo hi x.step)).map (·, bracketed, false, 4)
    let (x', y') :=
      if p.value > x.value then (x, p) else (p, if sgnd < 0.0 then x else y)
    let stpf := Numeric.maxNum lo (Numeric.minNum hi stpf)
    let reach := x'.step + 0.66 * (y'.step - x'.step)
    let stp :=
      if brackt && bound then
        (if y'.step > x'.step then Numeric.minNum stpf reach else Numeric.maxNum stpf reach)
      else stpf
    return ⟨x', y', stp, brackt, info⟩

/-- The state of a search between evaluations. -/
structure Search where
  best : Trial
  other : Trial
  step : Float
  bracketed : Bool
  firstStage : Bool
  info : Nat
  width : Float
  width1 : Float
  /-- The cost the last update worked with: the trial's cost, or that cost less the
  sufficient-decrease line when the update was shifted. -/
  lastValue : Float

/-- The search before its first trial, from the cost and slope at the origin. -/
def Search.start (finit dginit : Float) : Search :=
  let origin : Trial := ⟨0.0, finit, dginit⟩
  { best := origin, other := origin, step := 1.0, bracketed := false, firstStage := true,
    info := 1, width := stepMax - stepMin, width1 := 2.0 * (stepMax - stepMin),
    lastValue := Numeric.nan }

/-- The interval of uncertainty: the bracket, or from the best step to four steps past the
current one. -/
def Search.interval (s : Search) : Float × Float :=
  if s.bracketed then
    (Numeric.minNum s.best.step s.other.step, Numeric.maxNum s.best.step s.other.step)
  else (s.best.step, s.step + extrapolation * (s.step - s.best.step))

/-- The interval update for a trial with cost `f` and slope `dg`: on the cost less the
sufficient-decrease line while in the first stage when the cost lacks sufficient decrease but is no
higher than the value recorded for the previous trial, else on the cost itself. -/
def Search.update (s : Search) (f dg dginit dgtest ftest1 lo hi : Float) :
    Except SearchFailure Search := do
  let stage1 := s.firstStage && !(f ≤ ftest1 && dg ≥ Numeric.minNum ftol gtol * dginit)
  let modified := stage1 && f ≤ s.lastValue && f > ftest1
  let fitted :=
    if modified then
      let shift (t : Trial) : Trial := ⟨t.step, t.value - t.step * dgtest, t.slope - dgtest⟩
      (nextStep (shift s.best) (shift s.other) ⟨s.step, f - s.step * dgtest, dg - dgtest⟩
        s.bracketed lo hi).map fun u =>
          let raise (held t : Trial) : Trial :=
            ⟨t.step, held.value + t.step * dgtest, held.slope + dgtest⟩
          { u with best := raise s.best u.best, other := raise s.other u.other }
    else nextStep s.best s.other ⟨s.step, f, dg⟩ s.bracketed lo hi
  let u ← fitted.mapError .conditionViolated
  let s' := { s with
    best := u.best, other := u.other, step := u.step, bracketed := u.bracketed,
    firstStage := stage1, info := u.info,
    lastValue := if modified then f - s.step * dgtest else f }
  if s'.bracketed then
    let span := (s'.other.step - s'.best.step).abs
    let step := if span ≥ 0.66 * s'.width1 then
      s'.best.step + 0.5 * (s'.other.step - s'.best.step) else s'.step
    return { s' with step := step, width1 := s'.width, width := span }
  else return s'

/-- Whether the trial at step `stp` with cost `f` and slope `dg` ends the search: it is
acceptable, or the interval has closed, or the step lies within `ε` of a bound it cannot leave
(never the infinite one, whose distance is not finite), or the last update could not use its
trial. -/
def Search.finished (s : Search) (stp f dg dginit dgtest ftest1 lo hi : Float) : Bool :=
  (s.bracketed && (stp ≤ lo || stp ≥ hi)) || s.info == 0
    || ((stp - stepMax).abs < Numeric.epsilon && f ≤ ftest1 && dg ≤ dgtest)
    || ((stp - stepMin).abs < Numeric.epsilon && (f > ftest1 || dg ≥ dgtest))
    || (s.bracketed && hi - lo ≤ xtol * hi)
    || (f ≤ ftest1 && dg.abs ≤ gtol * (-dginit))

/-- Trials from the state `s`, at most `fuel` of them; `calls` counts those made so far. -/
def Search.run (o : Oracle) (ray : Ray) (finit dginit : Float) :
    Nat → Nat → Search → Except SearchFailure Landing
  | 0, _, _ => .error (.potentialBug "MoreThuente: no acceptable step within the trial budget")
  | fuel + 1, calls, s => do
    let dgtest := ftol * dginit
    let (lo, hi) := s.interval
    let stp := Numeric.minNum (Numeric.maxNum s.step stepMin) stepMax
    let stp :=
      if (s.bracketed && (stp ≤ lo || stp ≥ hi)) || (s.bracketed && hi - lo ≤ xtol * hi)
          || s.info == 0 then s.best.step
      else stp
    let x := ray.point stp
    let f ← liftEval (o.cost x)
    let g ← liftEval (o.gradient x)
    let dg := ray.direction.dot g
    let ftest1 := finit + stp * dgtest
    if s.finished stp f dg dginit dgtest ftest1 lo hi then
      return ⟨x, f, calls + 1, calls + 1⟩
    else
      Search.run o ray finit dginit fuel (calls + 1)
        (← { s with step := stp }.update f dg dginit dgtest ftest1 lo hi)

def trialBudget : Nat := 10000

end MoreThuente

/-- The Moré–Thuente line search along `ray`; the direction must descend. -/
def moreThuente (o : Oracle) (ray : Ray) : Except SearchFailure Landing :=
  let dginit := ray.slope
  if dginit ≥ 0.0 then
    .error (.conditionViolated
      "`MoreThuenteLineSearch`: Search direction must be a descent direction.")
  else
    (MoreThuente.Search.start ray.cost dginit).run o ray ray.cost dginit MoreThuente.trialBudget 0

end ProfileLikelihood

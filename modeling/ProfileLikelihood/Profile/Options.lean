import ProfileLikelihood.Error
import ProfileLikelihood.Text

/-!
Options of a profile walk, and the rule that accepts them. The rule checks, in order: the
seven real options are finite; `min_step_size > 0`; `min ≤ default ≤ max` for the step sizes;
`step_size_factor > 1`; `delta_ratio_max` and `ratio_min` lie in `(0, 1)`;
`magic_factor_obj_value` lies in `[0, 1)`; at least two regression points and order one; and
positive step and try budgets. The first rule broken is reported.
-/

namespace ProfileLikelihood

/-- How a profile walk steps, when it stops and how hard it tries. -/
structure ProfileOptions where
  defaultStepSize : Float := 0.01
  minStepSize : Float := 0.001
  maxStepSize : Float := 1.0
  stepSizeFactor : Float := 1.25
  deltaRatioMax : Float := 0.1
  ratioMin : Float := 0.145
  regPoints : Nat := 10
  regOrder : Nat := 4
  wholePath : Bool := false
  magicFactorObjValue : Float := 0.5
  maxWalkSteps : Nat := 10000
  maxTries : Nat := 10

namespace ProfileOptions

/-- The first rule the options break, as an error. -/
def firstViolation (o : ProfileOptions) : Option ProfileError :=
  let floats := [("default_step_size", o.defaultStepSize), ("min_step_size", o.minStepSize),
    ("max_step_size", o.maxStepSize), ("step_size_factor", o.stepSizeFactor),
    ("delta_ratio_max", o.deltaRatioMax), ("ratio_min", o.ratioMin),
    ("magic_factor_obj_value", o.magicFactorObjValue)]
  let rules : List (Bool × String × Float × String) := [
    (o.minStepSize ≤ 0.0, "min_step_size", o.minStepSize, "must be positive"),
    (o.defaultStepSize < o.minStepSize, "default_step_size", o.defaultStepSize,
      "must not be smaller than min_step_size"),
    (o.maxStepSize < o.defaultStepSize, "max_step_size", o.maxStepSize,
      "must not be smaller than default_step_size"),
    (o.stepSizeFactor ≤ 1.0, "step_size_factor", o.stepSizeFactor, "must exceed 1"),
    (o.deltaRatioMax ≤ 0.0 || o.deltaRatioMax ≥ 1.0, "delta_ratio_max", o.deltaRatioMax,
      "must lie in (0, 1)"),
    (o.ratioMin ≤ 0.0 || o.ratioMin ≥ 1.0, "ratio_min", o.ratioMin, "must lie in (0, 1)"),
    (o.magicFactorObjValue < 0.0 || o.magicFactorObjValue ≥ 1.0, "magic_factor_obj_value",
      o.magicFactorObjValue, "must lie in [0, 1)"),
    (o.regPoints < 2, "reg_points", Float.ofNat o.regPoints, "must be at least 2"),
    (o.regOrder < 1, "reg_order", Float.ofNat o.regOrder, "must be at least 1"),
    (o.maxWalkSteps == 0, "max_walk_steps", 0.0, "must be positive"),
    (o.maxTries == 0, "max_tries", 0.0, "must be positive")]
  match floats.find? (fun (_, v) => !v.isFinite) with
  | some (n, v) => some (.invalidOption n v "must be finite")
  | none => (rules.find? (·.1)).map fun (_, n, v, r) => .invalidOption n v r

/-- The options if they keep every rule. -/
def validate (o : ProfileOptions) : Except ProfileError ProfileOptions :=
  match o.firstViolation with
  | some e => .error e
  | none => .ok o

end ProfileOptions

/-- How the next start of a profile walk is proposed. -/
inductive NextGuessMethod where
  /-- Move the profiled parameter by a constant step. -/
  | fixedStep
  /-- Adapt the step, hold the other parameters. -/
  | adaptiveOrder0
  /-- Adapt the step, extrapolate the others along the last step. -/
  | adaptiveOrder1
  /-- Adapt the step, extrapolate the others by least-squares polynomials. -/
  | adaptiveRegression
deriving DecidableEq, Repr

namespace NextGuessMethod

/-- The name of a method. -/
def name : NextGuessMethod → String
  | fixedStep => "fixed_step"
  | adaptiveOrder0 => "adaptive_step_order_0"
  | adaptiveOrder1 => "adaptive_step_order_1"
  | adaptiveRegression => "adaptive_step_regression"

/-- A method by name, in any case. -/
def ofName (s : String) : Except ProfileError NextGuessMethod :=
  match Text.lower s with
  | "fixed_step" => .ok .fixedStep
  | "adaptive_step_order_0" => .ok .adaptiveOrder0
  | "adaptive_step_order_1" => .ok .adaptiveOrder1
  | "adaptive_step_regression" => .ok .adaptiveRegression
  | _ => .error (.invalidNextGuessMethod s)

end NextGuessMethod

end ProfileLikelihood

import ProfileLikelihood.Numeric.Vector

/-!
The log-gamma function by the Lanczos approximation (`r = 10.900511`, eleven coefficients,
with the reflection formula below `½`) and the regularised lower incomplete gamma function
`P(a, x)`: its power series when `x ≤ 1` or `x ≤ a`, else one minus the continued fraction of
the upper function, both stopped at relative change `10⁻¹⁵`.
-/

namespace ProfileLikelihood.Stats

def lnPi : Float := 1.1447298858494001741434273513530587116472948129153

def ln2SqrtEOverPi : Float := 0.6207822376352452223455184457816472122518527279025978

def pi : Float := 3.14159265358979323846264338327950288

def eConst : Float := 2.71828182845904523536028747135266250

def lanczosR : Float := 10.900511

/-- The coefficients of the Lanczos approximation. -/
def lanczosCoeffs : Vec := #[
  2.48574089138753565546e-5,
  1.05142378581721974210,
  -3.45687097222016235469,
  4.51227709466894823700,
  -2.98285225323576655721,
  1.05639711577126713077,
  -1.95428773191645869583e-1,
  1.70970543404441224307e-2,
  -5.71926117404305781283e-4,
  4.63399473359905636708e-6,
  -2.71994908488607703910e-9]

/-- `log Γ(x)`. -/
def lnGamma (x : Float) : Float :=
  let d0 := lanczosCoeffs.entry 0
  if x < 0.5 then
    let s := (List.range 10).foldl (fun s k =>
      s + lanczosCoeffs.entry (k + 1) / (Float.ofNat (k + 1) - x)) d0
    lnPi - (pi * x).sin.log - s.log - ln2SqrtEOverPi -
      (0.5 - x) * ((0.5 - x + lanczosR) / eConst).log
  else
    let s := (List.range 10).foldl (fun s k =>
      s + lanczosCoeffs.entry (k + 1) / (x + Float.ofNat (k + 1) - 1.0)) d0
    s.log + ln2SqrtEOverPi + (x - 0.5) * ((x - 0.5 + lanczosR) / eConst).log

/-- Whether `|a - b| < acc`, or both are the same infinity. -/
def almostEq (a b acc : Float) : Bool :=
  if a.isInf && b.isInf then a == b else (a - b).abs < acc

def defaultAcc : Float := 0.0000000000000011102230246251565

/-- The power series of `P(a, x)`, summed until a term is at most `10⁻¹⁵` of the sum. -/
def gammaSeries (a x : Float) : Nat → Float → Float → Float → Float
  | 0, _, _, ans => ans
  | fuel + 1, r, c, ans =>
    let r := r + 1.0
    let c := c * (x / r)
    let ans := ans + c
    if c / ans ≤ 1e-15 then ans else gammaSeries a x fuel r c ans

/-- The continued fraction of the upper function, with rescaling when the terms grow. -/
def gammaFraction (x : Float) : Nat → Float → Float → Nat → Float → Float → Float → Float →
    Float → Float
  | 0, _, _, _, _, _, _, _, ans => ans
  | fuel + 1, y, z, c, p3, q3, p2, q2, ans =>
    let y := y + 1.0
    let z := z + 2.0
    let c := c + 1
    let yc := y * Float.ofNat c
    let p := p2 * z - p3 * yc
    let q := q2 * z - q3 * yc
    let (p3, p2, q3, q2) := (p2, p, q2, q)
    let big : Float := 4503599627370496.0
    let bigInv : Float := 2.22044604925031308085e-16
    let (p3, p2, q3, q2) :=
      if p.abs > big then (p3 * bigInv, p2 * bigInv, q3 * bigInv, q2 * bigInv)
      else (p3, p2, q3, q2)
    if q != 0.0 then
      let next := p / q
      let err := ((ans - next) / next).abs
      if err ≤ 1e-15 then next
      else gammaFraction x fuel y z c p3 q3 p2 q2 next
    else gammaFraction x fuel y z c p3 q3 p2 q2 ans

/-- The regularised lower incomplete gamma function `P(a, x)` for `a, x > 0`. -/
def gammaLr (a x : Float) : Float :=
  if a.isNaN || x.isNaN then Numeric.nan
  else if almostEq a 0.0 defaultAcc then 1.0
  else if almostEq x 0.0 defaultAcc then 0.0
  else
    let ax := a * x.log - x - lnGamma a
    if ax < -709.78271289338399 then (if a < x then 1.0 else 0.0)
    else if x ≤ 1.0 || x ≤ a then
      ax.exp * gammaSeries a x 100000 a 1.0 1.0 / a
    else
      let y := 1.0 - a
      let z := x + y + 1.0
      let ans := gammaFraction x 100000 y z 0 1.0 x (x + 1.0) (z * x) ((x + 1.0) / (z * x))
      1.0 - ax.exp * ans

end ProfileLikelihood.Stats

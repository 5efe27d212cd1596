import ProfileLikelihood.Numeric.Fused

/-!
Elementary functions on doubles that the C library provides beside `exp` and `log`:
`log1p` and `expm1`, computed by the classic argument reductions and minimax polynomials
with the operations in the library's order, each product-and-sum that the library fuses
rounded once (`fma`), so results agree bit for bit with the library on processors with fused
multiply-add; and integer powers by repeated squaring. The library's `exp` and `log` themselves
are the platform's: a definition whose laws rest on their values takes them as a `Libm`.
-/

namespace ProfileLikelihood.Numeric

def epsilon : Float := Float.ofBits 0x3CB0000000000000

def sqrtEpsilon : Float := Float.ofBits 0x3E50000000000000

def nan : Float := Float.ofBits 0x7FF8000000000000

def inf : Float := Float.ofBits 0x7FF0000000000000

def highWord (x : Float) : Nat := (x.toBits >>> 32).toNat

/-- The high 32 bits of a double read as a signed 32-bit number. -/
def highWordSigned (x : Float) : Int :=
  let h := highWord x
  if h ≥ Nat.pow 2 31 then (h : Int) - Int.pow 2 32 else h

/-- The double with its high 32 bits replaced by `h` (taken modulo `2 ^ 32`). -/
def withHighWord (x : Float) (h : Int) : Float :=
  let hi : UInt64 := (h % Int.pow 2 32).toNat.toUInt64
  Float.ofBits ((hi <<< 32) ||| (x.toBits &&& 0xFFFFFFFF))

/-- Truncation toward zero of a double of moderate size. -/
def truncInt (v : Float) : Int :=
  if v ≥ 0 then (v.floor.toUInt64.toNat : Int) else -((-v).floor.toUInt64.toNat : Int)

/-- `x ^ n` by squaring: the factor for bit `i` of `n` is `x ^ (2 ^ i)`, multiplied in from the
lowest bit up. -/
def powi (x : Float) (n : Nat) : Float :=
  go x n 1
where
  go (a : Float) (b : Nat) (r : Float) : Float :=
    let r := if b % 2 = 1 then r * a else r
    if h : b / 2 = 0 then r else go (a * a) (b / 2) r
  termination_by b
  decreasing_by omega

/-- The larger of two doubles, ignoring a NaN first argument: `b` if `a` is NaN, else `b` when
`b > a`, else `a` (so ties, `-0.0` against `0.0` included, keep `a`). -/
def maxNum (a b : Float) : Float := if a.isNaN then b else if b > a then b else a

/-- The smaller of two doubles, ignoring a NaN first argument, ties keeping `a`. -/
def minNum (a b : Float) : Float := if a.isNaN then b else if b < a then b else a

/-- The key of the total order on doubles, from a bit pattern: the bits with the sign bit
flipped when it is clear and every bit flipped when it is set, so that comparing keys as
unsigned words orders `-NaN < -∞ < … < -0.0 < 0.0 < … < ∞ < NaN`. -/
def totalKeyOfBits (b : UInt64) : UInt64 :=
  if b >>> 63 == 1 then ~~~b else b ||| 0x8000000000000000

def totalKey (x : Float) : UInt64 := totalKeyOfBits x.toBits

def totalLe (a b : Float) : Bool := totalKey a ≤ totalKey b

/-- The sign of a double: `1` for `+0.0` and above, `-1` for `-0.0` and below, NaN for NaN. -/
def signum (x : Float) : Float :=
  if x.isNaN then x else if x.toBits >>> 63 == 1 then -1.0 else 1.0

/-- `√(x² + y²)` without spurious overflow or underflow: the larger magnitude `a` and the smaller
`b` are scaled by `2⁻⁶⁰⁰` or `2⁶⁰⁰` when `a > 2⁵¹¹` or `b < 2⁻⁵¹¹`, `a + b` is returned when
`b ≤ 2⁻⁵⁴ a`, and otherwise the rounded root is corrected by one step of the identity
`h² = a² + b²` evaluated with the error of `h` split off. -/
def hypot (x y : Float) : Float :=
  if !x.isFinite || !y.isFinite then
    if x.isInf || y.isInf then inf else x + y
  else
    let x := x.abs
    let y := y.abs
    let ax := if x < y then y else x
    let ay := if x < y then x else y
    let kernel (ax ay : Float) : Float :=
      let h := (ax * ax + ay * ay).sqrt
      let (t1, t2) :=
        if h ≤ 2.0 * ay then
          let delta := h - ay
          (ax * (2.0 * delta - ax), (delta - 2.0 * (ax - ay)) * delta)
        else
          let delta := h - ax
          (2.0 * delta * (ax - 2.0 * ay), (4.0 * delta - ay) * ay + delta * delta)
      h - (t1 + t2) / (2.0 * h)
    let scale : Float := Float.ofBits 0x1A70000000000000
    let large : Float := Float.ofBits 0x5FE0000000000000
    let tiny : Float := Float.ofBits 0x2000000000000000
    let eps54 : Float := Float.ofBits 0x3C90000000000000
    if ax > large then
      if ay ≤ ax * eps54 then ax + ay else kernel (ax * scale) (ay * scale) / scale
    else if ay < tiny then
      if ax ≥ ay / eps54 then ax + ay else kernel (ax / scale) (ay / scale) * scale
    else if ay ≤ ax * eps54 then ax + ay
    else kernel ax ay

/-- `x` moved into `[lo, hi]`: `lo` below it, `hi` above it; NaN stays NaN. -/
def clamp (x lo hi : Float) : Float := if x < lo then lo else if x > hi then hi else x

section Log1p

private def ln2Hi : Float := 6.93147180369123816490e-01
private def ln2Lo : Float := 1.90821492927058770002e-10
private def lp1 : Float := 6.666666666666735130e-01
private def lp2 : Float := 3.999999999940941908e-01
private def lp3 : Float := 2.857142874366239149e-01
private def lp4 : Float := 2.222219843214978396e-01
private def lp5 : Float := 1.818357216161805012e-01
private def lp6 : Float := 1.531383769920937332e-01
private def lp7 : Float := 1.479819860511658591e-01

/-- The last step of `log1p`: `k ln 2 + log (1 + f) + c`, where `1 + f` is the reduced
argument, `hu` is zero when `|f| < 2 ^ -20` and `c` corrects the rounding of `1 + x`. -/
private def log1pTail (k : Int) (f c : Float) (hu : Nat) : Float :=
  let kf := Float.ofInt k
  let hfsq := 0.5 * f * f
  if hu = 0 then
    if f == 0 then
      if k = 0 then 0 else fma kf ln2Hi (fma kf ln2Lo c)
    else
      let r := fma (-f) 0.66666666666666666 1.0 * hfsq
      if k = 0 then f - r else fma kf ln2Hi (-((r - fma kf ln2Lo c) - f))
  else
    let s := f / (f + 2.0)
    let z := s * s
    let z2 := z * z
    let z4 := z2 * z2
    let z6 := z2 * z4
    let r := fma z6 (fma z lp7 lp6) (fma z4 (fma z lp5 lp4) (fma z lp1 (z2 * fma z lp3 lp2)))
    let w := (r + hfsq) * s
    if k = 0 then f - (hfsq - w)
    else fma kf ln2Hi (-((hfsq - (fma kf ln2Lo c + w)) - f))

/-- The reduction `1 + x = 2 ^ k (1 + f)` with `√2/2 ≤ 1 + f < √2`, then the tail. -/
private def log1pReduced (x : Float) (hx : Int) : Float :=
  let (u, k, c) :=
    if hx < 0x43400000 then
      let u := 1.0 + x
      let k : Int := ((highWord u / Nat.pow 2 20 : Nat) : Int) - 1023
      let c := if k > 0 then 1.0 - (u - x) else x - (u - 1.0)
      (u, k, c / u)
    else (x, ((highWord x / Nat.pow 2 20 : Nat) : Int) - 1023, 0.0)
  let hu : Nat := highWord u % Nat.pow 2 20
  if hu < 0x6a09e then
    log1pTail k (withHighWord u ((hu + 0x3ff00000 : Nat) : Int) - 1.0) c hu
  else
    log1pTail (k + 1) (withHighWord u ((hu + 0x3fe00000 : Nat) : Int) - 1.0) c
      ((0x00100000 - hu) / 4)

/-- `log (1 + x)`, accurate also for small `x`. -/
def log1p (x : Float) : Float :=
  let hx := highWordSigned x
  let ax := highWord x % Nat.pow 2 31
  if hx < 0x3FDA827A then
    if ax ≥ 0x3ff00000 then
      if x == -1.0 then -(1.0 / 0.0) else (x - x) / (x - x)
    else if ax < 0x3e200000 then
      if ax < 0x3c900000 then x else fma (-(x * x)) 0.5 x
    else if hx > 0 ∨ hx < -1076707644 then
      log1pTail 0 x 0.0 1
    else log1pReduced x hx
  else if hx ≥ 0x7ff00000 then x + x
  else log1pReduced x hx

end Log1p

section Expm1

private def invLn2 : Float := 1.44269504088896338700e+00
private def q1 : Float := -3.33333333333331316428e-02
private def q2 : Float := 1.58730158725481460165e-03
private def q3 : Float := -7.93650757867487942473e-05
private def q4 : Float := 4.00821782732936239552e-06
private def q5 : Float := -2.01099218183624371326e-07
private def expHuge : Float := 1.0e+300
private def expTiny : Float := 1.0e-300
private def overflowThreshold : Float := 7.09782712893383973096e+02

/-- Adds `k` to the binary exponent of `y` through its high word. -/
private def addExponent (y : Float) (k : Int) : Float :=
  withHighWord y ((highWord y : Int) + k * Int.pow 2 20)

/-- `expm1` on the reduced argument `x = hi - lo` with correction `c`, for `exp x * 2 ^ k - 1`. -/
private def expm1Reduced (x c : Float) (k : Int) : Float :=
  let hfx := x * 0.5
  let hxs := x * hfx
  let h2 := hxs * hxs
  let h4 := h2 * h2
  let rr := fma h4 (fma hxs q5 q4) (fma h2 (fma hxs q3 q2) (fma hxs q1 1.0))
  let t := fma (-rr) hfx 3.0
  let e := (rr - t) / fma (-x) t 6.0 * hxs
  if k = 0 then x - fma e x (-hxs)
  else
    let e := fma (e - c) x (-c) - hxs
    if k = -1 then fma 0.5 (x - e) (-0.5)
    else if k = 1 then
      if x < -0.25 then (e - (x + 0.5)) * -2.0 else fma (x - e) 2.0 1.0
    else if k ≤ -2 ∨ k > 56 then addExponent (1.0 - (e - x)) k - 1.0
    else if k < 20 then
      let t := withHighWord 1.0 (0x3ff00000 - (0x200000 / Nat.pow 2 k.toNat : Nat))
      addExponent (t - (e - x)) k
    else
      let t := withHighWord 1.0 ((0x3ff - k) * Int.pow 2 20)
      addExponent (x - (e + t) + 1.0) k

/-- `exp x - 1`, accurate also for small `x`. -/
def expm1 (x : Float) : Float :=
  let neg := x.toBits >>> 63 == 1
  let hx := highWord x % Nat.pow 2 31
  if hx ≥ 0x4043687A ∧ (hx ≥ 0x7ff00000 ∨ (hx ≥ 0x40862E42 ∧ x > overflowThreshold) ∨ neg) then
    if hx ≥ 0x7ff00000 then
      if x.isNaN then x + x else if neg then -1.0 else x
    else if neg then expTiny - 1.0
    else expHuge * expHuge
  else if hx > 0x3fd62e42 then
    let (hi, lo, k) :=
      if hx < 0x3FF0A2B2 then
        if neg then (x + ln2Hi, -ln2Lo, (-1 : Int)) else (x - ln2Hi, ln2Lo, (1 : Int))
      else
        let k := truncInt (invLn2 * x + (if neg then -0.5 else 0.5))
        let t := Float.ofInt k
        (fma (-t) ln2Hi x, t * ln2Lo, k)
    let xr := hi - lo
    expm1Reduced xr ((hi - xr) - lo) k
  else if hx < 0x3c900000 then x
  else expm1Reduced x 0.0 0

end Expm1

/-- The exponential and the natural logarithm of doubles. -/
structure Libm where
  exp : Float → Float
  log : Float → Float

def Libm.system : Libm := ⟨Float.exp, Float.log⟩

end ProfileLikelihood.Numeric

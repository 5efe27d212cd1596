/-!
The fused multiply-add `a * b + c` with a single rounding. The product and the sum are formed
exactly, as an integer times a power of two, and rounded once to the nearest double, a tie
going to the even significand (`roundScaled`). Special values follow the operation's rules: an
infinite factor or a NaN makes the result that of the unfused expression, a finite product
added to an infinite `c` gives `c`, and an exact zero is negative only when the product and
`c` are both negative zeros.
-/

namespace ProfileLikelihood.Numeric

/-- A finite double as `(negative, m, e)` with magnitude `m * 2 ^ e`: the significand with its
hidden bit, and the exponent of its last place. -/
def decodeFinite (x : Float) : Bool × Nat × Int :=
  let b := x.toBits
  let ef := ((b >>> 52) &&& 0x7FF).toNat
  let frac := (b &&& 0xFFFFFFFFFFFFF).toNat
  (b >>> 63 == 1,
    if ef = 0 then (frac, -1074) else (frac + Nat.pow 2 52, (ef : Int) - 1075))

/-- `m / 2 ^ s` rounded to the nearest integer, a tie to the even one. -/
def shiftRoundEven (m s : Nat) : Nat :=
  if s = 0 then m
  else
    let q := m / Nat.pow 2 s
    let r := m % Nat.pow 2 s
    let half := Nat.pow 2 (s - 1)
    if r > half ∨ (r = half ∧ q % 2 = 1) then q + 1 else q

/-- The double nearest to `±m * 2 ^ e`, a tie to the even significand: infinite beyond the largest
double and subnormal below the smallest normal one. -/
def roundScaled (neg : Bool) (m : Nat) (e : Int) : Float :=
  let sign : UInt64 := if neg then 0x8000000000000000 else 0
  if m = 0 then Float.ofBits sign
  else
    let qe : Int := max ((Nat.log2 m : Int) + e - 52) (-1074)
    let q :=
      if qe ≤ e then m * Nat.pow 2 (e - qe).toNat else shiftRoundEven m (qe - e).toNat
    let (q, qe) := if q = Nat.pow 2 53 then (Nat.pow 2 52, qe + 1) else (q, qe)
    if qe + 1075 > 2046 then Float.ofBits (sign ||| 0x7FF0000000000000)
    else Float.ofBits (sign ||| ((qe + 1074).toNat * Nat.pow 2 52 + q).toUInt64)

/-- `a * b + c` rounded once. -/
def fma (a b c : Float) : Float :=
  if a.isNaN || b.isNaN || c.isNaN || a.isInf || b.isInf then a * b + c
  else if c.isInf then c
  else
    let (na, ma, ea) := decodeFinite a
    let (nb, mb, eb) := decodeFinite b
    let (nc, mc, ec) := decodeFinite c
    let ep := ea + eb
    let e := min ep ec
    let p : Int := ((ma * mb * Nat.pow 2 (ep - e).toNat : Nat) : Int)
    let s : Int := ((mc * Nat.pow 2 (ec - e).toNat : Nat) : Int)
    let v := (if na != nb then -p else p) + (if nc then -s else s)
    if v = 0 then
      if p = 0 && s = 0 && na != nb && nc then Float.ofBits 0x8000000000000000 else 0.0
    else roundScaled (v < 0) v.natAbs e

end ProfileLikelihood.Numeric

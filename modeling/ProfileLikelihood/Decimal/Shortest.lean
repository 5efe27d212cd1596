/-!
Shortest decimal digits of a binary64 value.

A finite nonzero double `m * 2 ^ e` reads back from every real strictly inside the interval
halfway to its two neighbours (and from the ends too when `m` is even, since ties go to the
even mantissa). `Binary.shortest` returns the decimal `d * 10 ^ k` with the fewest significant
digits inside that interval and, of two such decimals, the one nearer the value; an exact tie
goes to the even `d`. All arithmetic is exact, on `Nat`.
-/

namespace ProfileLikelihood.Decimal

/-- The decimal `digits * 10 ^ exponent`. -/
structure Scientific where
  digits : Nat
  exponent : Int
deriving Repr, BEq, DecidableEq

/-- A finite positive double as `mant * 2 ^ exp`; `narrowBelow` says the value is the
first of its binade, so its lower neighbour is half as far as its upper one. -/
structure Binary where
  mant : Nat
  exp : Int
  narrowBelow : Bool
deriving Repr

namespace Binary

/-- The magnitude of a double read off its bit pattern. -/
def ofBits (bits : UInt64) : Binary :=
  let frac := (bits &&& 0xFFFFFFFFFFFFF).toNat
  let biased := ((bits >>> 52) &&& 0x7FF).toNat
  if biased = 0 then ⟨frac, -1074, false⟩
  else ⟨frac + Nat.pow 2 52, (biased : Int) - 1075, frac = 0 && biased > 1⟩

end Binary

/-- Compares `a * 10 ^ k` with `b * 2 ^ f`, exactly. -/
def cmpDecBin (a : Nat) (k : Int) (b : Nat) (f : Int) : Ordering :=
  compare (a * Nat.pow 10 k.toNat * Nat.pow 2 (-f).toNat)
    (b * Nat.pow 2 f.toNat * Nat.pow 10 (-k).toNat)

def log10Floor (n : Nat) : Nat :=
  if h : n < 10 then 0 else log10Floor (n / 10) + 1
termination_by n
decreasing_by omega

/-- `⌊log₁₀ (num / den)⌋` for positive `num` and `den`. -/
def log10Ratio (num den : Nat) : Int :=
  if den ≤ num then (log10Floor (num / den) : Int)
  else
    let c := (den + num - 1) / num
    let j := if c ≤ 1 then 0 else log10Floor (c - 1) + 1
    Int.negOfNat j

/-- Strips trailing zeros of the digit string, raising the exponent. -/
def Scientific.normalize (s : Scientific) : Scientific :=
  if h : s.digits ≠ 0 ∧ s.digits % 10 = 0 then
    Scientific.normalize ⟨s.digits / 10, s.exponent + 1⟩
  else s
termination_by s.digits
decreasing_by omega

namespace Binary

/-- Whether `d * 10 ^ k` lies in the interval of reals that round to this value. -/
def accepts (b : Binary) (d : Nat) (k : Int) : Bool :=
  let inclusive := b.mant % 2 == 0
  let low := 4 * b.mant - (if b.narrowBelow then 1 else 2)
  let high := 4 * b.mant + 2
  let aboveLow := match cmpDecBin d k low (b.exp - 2) with
    | .gt => true
    | .eq => inclusive
    | .lt => false
  let belowHigh := match cmpDecBin d k high (b.exp - 2) with
    | .lt => true
    | .eq => inclusive
    | .gt => false
  aboveLow && belowHigh

/-- `⌊log₁₀ v⌋` for the value `v`. -/
def decimalExponent (b : Binary) : Int :=
  log10Ratio (b.mant * Nat.pow 2 b.exp.toNat) (Nat.pow 2 (-b.exp).toNat)

/-- The best decimal with `n` significant digits that reads back, if one does. -/
def candidate (b : Binary) (n : Nat) : Option Scientific :=
  let k := b.decimalExponent - (n : Int) + 1
  let num := b.mant * Nat.pow 2 b.exp.toNat * Nat.pow 10 (-k).toNat
  let den := Nat.pow 2 (-b.exp).toNat * Nat.pow 10 k.toNat
  let lo := num / den
  if num % den = 0 then some ⟨lo, k⟩
  else
    match b.accepts lo k, b.accepts (lo + 1) k with
    | true, true =>
      match cmpDecBin (2 * lo + 1) k b.mant (b.exp + 1) with
      | .lt => some ⟨lo + 1, k⟩
      | .gt => some ⟨lo, k⟩
      | .eq => some ⟨if lo % 2 = 0 then lo else lo + 1, k⟩
    | true, false => some ⟨lo, k⟩
    | false, true => some ⟨lo + 1, k⟩
    | false, false => none

/-- The first digit count from 1 to 17 with a decimal that reads back; 17 digits always do. -/
def shortest (b : Binary) : Scientific :=
  let found := (List.range 17).findSome? fun i => b.candidate (i + 1)
  (found.getD ⟨b.mant, 0⟩).normalize

end Binary

/-- The shortest decimal of the magnitude of a finite nonzero double. -/
def shortestOf (x : Float) : Scientific :=
  (Binary.ofBits x.toBits).shortest

end ProfileLikelihood.Decimal

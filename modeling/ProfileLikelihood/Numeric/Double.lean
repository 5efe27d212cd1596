import ProfileLikelihood.Numeric.Elementary

/-!
Doubles with the sign of a NaN kept. `Float` gives every NaN one bit pattern, but the program
tells the two signs apart: in the total order of doubles a NaN with its sign bit set comes
before `-∞` and one without comes after `∞`, and each prints with its sign. A `Double` is a
`Float` with that sign beside it.

Results follow the rule of the hardware the program runs on: an invalid operation on numbers
(`∞ - ∞`, `0 · ∞`, the logarithm of a negative number) gives a NaN with its sign bit set, and
an operand that is not a number passes through with its own sign, the first such operand when
there are several (`Double.result`). Which operand is first is part of how an expression is
evaluated: `add`, `sub`, `mul` and `div` take a NaN from their left operand first. Negation flips
the sign bit, a NaN's as well.
-/

namespace ProfileLikelihood.Numeric

/-- A double: a `Float`, and for a NaN whether its sign bit is set. -/
structure Double where
  float : Float
  /-- Whether the value is a NaN with its sign bit set; ignored for a number. -/
  negNaN : Bool := false
deriving DecidableEq

namespace Double

def ofFloat (x : Float) : Double := ⟨x, false⟩

instance : Coe Float Double := ⟨ofFloat⟩

instance : OfScientific Double := ⟨fun m s e => ofFloat (OfScientific.ofScientific m s e)⟩

def negativeNaN : Double := ⟨nan, true⟩

def isNaN (d : Double) : Bool := d.float.isNaN

/-- The bit pattern: `0xFFF8000000000000` for a NaN with its sign bit set, `0x7FF8000000000000`
for any other NaN, and the `Float`'s own bits for a number. -/
def toBits (d : Double) : UInt64 :=
  if d.isNaN then (if d.negNaN then 0xFFF8000000000000 else 0x7FF8000000000000)
  else d.float.toBits

/-- The key of the total order on doubles, `-NaN < -∞ < … < -0.0 < 0.0 < … < ∞ < NaN`. -/
def totalKey (d : Double) : UInt64 := totalKeyOfBits d.toBits

def totalLe (a b : Double) : Bool := a.totalKey ≤ b.totalKey

/-- The result `r` computed from `operands`, listed in the order they enter: a NaN takes the
sign of the first operand that is not a number, and has its sign bit set when every operand is
a number. -/
def result (operands : List Double) (r : Float) : Double :=
  if r.isNaN then
    match operands.find? (·.isNaN) with
    | some d => ⟨r, d.negNaN⟩
    | none => ⟨r, true⟩
  else ⟨r, false⟩

def map (f : Float → Float) (x : Double) : Double := result [x] (f x.float)

/-- An operation on two doubles, its NaN signed by `result` with the operands in the order
given: the first one that is not a number passes through. -/
def map2 (f : Float → Float → Float) (a b : Double) : Double :=
  let r := f a.float b.float
  if r.isNaN then
    if a.isNaN then ⟨r, a.negNaN⟩ else if b.isNaN then ⟨r, b.negNaN⟩ else ⟨r, true⟩
  else ⟨r, false⟩

def add (a b : Double) : Double := map2 (· + ·) a b

def sub (a b : Double) : Double := map2 (· - ·) a b

def mul (a b : Double) : Double := map2 (· * ·) a b

def div (a b : Double) : Double := map2 (· / ·) a b

def neg (a : Double) : Double := if a.isNaN then ⟨a.float, !a.negNaN⟩ else ⟨-a.float, false⟩

def abs (a : Double) : Double := ⟨a.float.abs, false⟩

/-- `x` moved into `[lo, hi]`: `lo` when below it, `hi` when above it, else `x` itself, a NaN
included. -/
def clamp (x : Double) (lo hi : Float) : Double :=
  if x.float < lo then ofFloat lo else if x.float > hi then ofFloat hi else x

def entry (v : Array Double) (i : Nat) : Double := v.getD i (ofFloat 0.0)

/-- The numbers of an array of doubles as `Float`s, the signs of NaNs dropped. -/
def floats (v : Array Double) : Array Float := v.map (·.float)

def ofFloats (v : Array Float) : Array Double := v.map ofFloat

instance : Add Double := ⟨add⟩
instance : Sub Double := ⟨sub⟩
instance : Mul Double := ⟨mul⟩
instance : Div Double := ⟨div⟩
instance : Neg Double := ⟨neg⟩

end Double

end ProfileLikelihood.Numeric

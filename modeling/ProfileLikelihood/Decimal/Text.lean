import ProfileLikelihood.Decimal.Shortest
import ProfileLikelihood.Numeric.Double

/-!
Text of a double in a given layout: the shortest digits of `Decimal.Shortest`, placed either
positionally or as `d.ddde<exp>`, with the layout's own spelling of zero, NaN and infinity.
Two layouts are used: `Layout.message`, for numbers inside messages (always positional, no
fraction on whole numbers), and `Layout.json`, for numbers in data (positional for moderate
exponents, a `.0` on whole numbers).
-/

namespace ProfileLikelihood.Decimal

/-- How a layout writes a double. -/
structure Layout where
  /-- Whether a number whose decimal point falls after `p` digits is written positionally. -/
  positional : Int → Bool
  /-- Whether a whole number keeps a `.0`. -/
  pointZero : Bool
  /-- The text of NaN, by its sign bit. -/
  nan : Bool → String
  /-- The text of an infinity, by its sign. -/
  infinity : Bool → String

/-- Numbers inside messages: always positional, whole numbers bare, `NaN`, `inf`, `-inf`. -/
def Layout.message : Layout where
  positional _ := true
  pointZero := false
  nan _ := "NaN"
  infinity neg := if neg then "-inf" else "inf"

/-- Numbers in data: positional when the point falls after -4 to 16 digits, else
`d.ddde<exp>`; whole numbers keep `.0`; NaN and infinities by name, signed. -/
def Layout.json : Layout where
  positional p := decide (-5 < p ∧ p ≤ 16)
  pointZero := true
  nan neg := if neg then "-NaN" else "NaN"
  infinity neg := if neg then "-Infinity" else "Infinity"

def zeros (n : Nat) : String := String.ofList (List.replicate n '0')

/-- The digits `ds` with the decimal point after `p` of them. -/
def placePoint (l : Layout) (ds : String) (p : Int) : String :=
  let n := ds.length
  if p ≤ 0 then "0." ++ zeros (-p).toNat ++ ds
  else if p < n then
    String.ofList (ds.toList.take p.toNat) ++ "." ++ String.ofList (ds.toList.drop p.toNat)
  else ds ++ zeros (p.toNat - n) ++ (if l.pointZero then ".0" else "")

/-- The digits `ds` as `d.ddd` times ten to `p - 1`. -/
def withExponent (ds : String) (p : Int) : String :=
  let cs := ds.toList
  let mant := match cs with
    | [] => "0"
    | [d] => String.singleton d
    | d :: rest => String.singleton d ++ "." ++ String.ofList rest
  mant ++ "e" ++ toString (p - 1)

/-- The text of a double in a layout. -/
def render (l : Layout) (x : Float) : String :=
  let neg := x.toBits >>> 63 == 1
  if x.isNaN then l.nan neg
  else if x.isInf then l.infinity neg
  else
    let sign := if neg then "-" else ""
    if x == 0 then sign ++ placePoint l "0" 1
    else
      let s := shortestOf x
      let ds := toString s.digits
      let p := s.exponent + ds.length
      sign ++ (if l.positional p then placePoint l ds p else withExponent ds p)

end ProfileLikelihood.Decimal

namespace Float

def toMessage (x : Float) : String := ProfileLikelihood.Decimal.render .message x

def toJsonText (x : Float) : String := ProfileLikelihood.Decimal.render .json x

end Float

namespace ProfileLikelihood.Numeric.Double

/-- A double as a data value, a NaN with its sign. -/
def toJsonText (d : Double) : String :=
  if d.isNaN then Decimal.Layout.json.nan d.negNaN else d.float.toJsonText

end ProfileLikelihood.Numeric.Double

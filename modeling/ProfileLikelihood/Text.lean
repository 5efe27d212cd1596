/-!
Case folding of names. Names of options are matched after lower-casing every character;
the characters whose lower case is an ASCII letter are the ASCII capitals and the Kelvin sign
`K` (U+212A), so for names made of ASCII words the fold below decides the same matches as a
full Unicode fold.
-/

namespace ProfileLikelihood.Text

/-- The lower case of a character, where it is an ASCII letter; other characters stay. -/
def lowerChar (c : Char) : Char :=
  if c.isUpper then c.toLower else if c.val = 0x212A then 'k' else c

def lower (s : String) : String := String.ofList (s.toList.map lowerChar)

end ProfileLikelihood.Text

/-
  WebBaseline.Text.FormText

  Texts as they stand in the query of a web address: letters, digits and four
  signs as they are, a blank as a plus sign, every other byte in hexadecimal.
-/

import WebBaseline.Numeric.Hex

namespace WebBaseline.Text

open WebBaseline.Numeric (upperHexDigit)

/-- Whether a byte stands for itself. -/
def standsInQuery (c : Char) : Bool :=
  c.isAlphanum || c == '*' || c == '-' || c == '.' || c == '_'

/-- A byte in a query. -/
def queryByte (b : UInt8) : List Char :=
  let n := b.toNat
  if n == 32 then ['+']
  else if standsInQuery (Char.ofNat n) then [Char.ofNat n]
  else ['%', upperHexDigit (n / 16), upperHexDigit (n % 16)]

/-- A text in a query. -/
def queryText (s : String) : String := String.ofList (s.toUTF8.toList.flatMap queryByte)

end WebBaseline.Text

/-
  WebBaseline.Toml.Value

  TOML values. Numbers with a fraction, dates and times are known to be such,
  but not told apart.
-/

namespace WebBaseline.Toml

/-- A TOML value. -/
inductive Value where
  | text (s : String)
  | integer (i : Int)
  | boolean (b : Bool)
  /-- A number with a fraction or an exponent, a date or a time. -/
  | other
  | list (items : List Value)
  | table (entries : List (String × Value))
  deriving BEq, Repr, Inhabited

namespace Value

/-- The bounds of an integer. -/
def minInteger : Int := -9223372036854775808

/-- The greatest integer. -/
def maxInteger : Int := 9223372036854775807

/-- The text of a value that is one. -/
def text? : Value → Option String
  | text s => some s
  | _ => none

/-- The truth value of a value that is one. -/
def boolean? : Value → Option Bool
  | boolean b => some b
  | _ => none

/-- An integer that is not negative. -/
def nat? : Value → Option Nat
  | integer (.ofNat n) => some n
  | _ => none

/-- A list of texts. -/
def texts? : Value → Option (List String)
  | list items => items.mapM text?
  | _ => none

/-- Whether a value is a list or a table that holds nothing. -/
def isVoid : Value → Bool
  | list [] => true
  | table [] => true
  | _ => false

end Value

end WebBaseline.Toml

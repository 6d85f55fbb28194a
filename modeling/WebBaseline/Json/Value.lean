/-
  WebBaseline.Json.Value

  JSON values. Objects keep their members in the order written, repeated names
  included. Integers beyond 64 bits, and numbers written with a fraction or an
  exponent, keep the text they were written with.
-/

import WebBaseline.Decimal.Digits

namespace WebBaseline.Json

/-- A JSON value. -/
inductive Value where
  | null
  | bool (b : Bool)
  /-- A whole number of at most 64 bits, signed or unsigned. -/
  | int (n : Int)
  /-- Any other number, as written. -/
  | real (written : String)
  | str (s : String)
  /-- A text with half of a surrogate pair in it, which stands for no text. -/
  | unpaired
  | arr (items : List Value)
  | obj (members : List (String × Value))
  deriving BEq, Repr, Inhabited

namespace Value

/-- The least whole number that counts as an integer. -/
def minInt : Int := -9223372036854775808

/-- The greatest whole number that counts as an integer. -/
def maxInt : Int := 18446744073709551615

mutual

/-- How many arrays and objects lie inside one another, at most. -/
def depth : Value → Nat
  | arr items => depthOfItems items + 1
  | obj members => depthOfMembers members + 1
  | _ => 0

/-- The depth of the deepest item. -/
def depthOfItems : List Value → Nat
  | [] => 0
  | v :: vs => max (depth v) (depthOfItems vs)

/-- The depth of the deepest member. -/
def depthOfMembers : List (String × Value) → Nat
  | [] => 0
  | (_, v) :: ms => max (depth v) (depthOfMembers ms)

end

/-! ## Values that can be held in full -/

/-- Whether a number lies below the greatest double, half a last place included:
    whether `0.DIGITS * 10 ^ magnitude` does. -/
def belowGreatest (ds : List Char) (magnitude : Int) : Bool :=
  let shift := magnitude - ds.length
  let n := Decimal.ofDigits ds
  decide (n * Nat.pow 10 shift.toNat <
    (Nat.pow 2 1024 - Nat.pow 2 970) * Nat.pow 10 (-shift).toNat)

/-- Whether a number, as written, rounds to a finite double. -/
def isFinite (written : String) : Bool :=
  let cs := written.toList.filter (fun c => c != '-' && c != '+')
  let mantissa := cs.takeWhile (fun c => c != 'e' && c != 'E')
  let negative := written.toList.any (fun c => c == 'e' || c == 'E') &&
    (written.toList.dropWhile (fun c => c != 'e' && c != 'E')).contains '-'
  let power : Int := Decimal.ofDigits (cs.drop (mantissa.length + 1))
  let whole := mantissa.takeWhile Char.isDigit
  let all := mantissa.filter Char.isDigit
  let ds := all.dropWhile (· == '0')
  let magnitude := (whole.length : Int) - (all.length - ds.length : Nat) +
    (if negative then -power else power)
  ds.isEmpty || magnitude ≤ 300 || (magnitude ≤ 310 && belowGreatest ds magnitude)

mutual

/-- Whether every text in the value is a text and every number finite. -/
def isSound : Value → Bool
  | unpaired => false
  | real written => isFinite written
  | arr items => itemsSound items
  | obj members => membersSound members
  | _ => true

/-- Whether all items are sound. -/
def itemsSound : List Value → Bool
  | [] => true
  | v :: vs => isSound v && itemsSound vs

/-- Whether all members are sound. -/
def membersSound : List (String × Value) → Bool
  | [] => true
  | (_, v) :: ms => isSound v && membersSound ms

end

/-- How many arrays and objects a text may hold inside one another. -/
def maxDepth : Nat := 127

/-- Any value, read inside `outer` arrays and objects. -/
def any? (outer : Nat) (v : Value) : Option Value :=
  if outer + v.depth ≤ maxDepth ∧ v.isSound then some v else none

end Value

end WebBaseline.Json

/-
  WebBaseline.Toml.Bare

  Values without quotes or brackets: truth values, integers, numbers with a
  fraction, dates and times.
-/

import WebBaseline.Calendar.Date
import WebBaseline.Json.Value
import WebBaseline.Numeric.Hex
import WebBaseline.Toml.Value

namespace WebBaseline.Toml

open WebBaseline.Numeric (hexVal?)

/-! ## Digits -/

/-- Digits with single underscores between them, without these. -/
def grouped? (isDigit : Char → Bool) : List Char → Option (List Char)
  | [] => none
  | [c] => if isDigit c then some [c] else none
  | c :: '_' :: rest => if isDigit c then (grouped? isDigit rest).map (c :: ·) else none
  | c :: rest => if isDigit c then (grouped? isDigit rest).map (c :: ·) else none

/-- Decimal digits that make a whole number: no zero stands in front of others. -/
def whole? (cs : List Char) : Option (List Char) :=
  match grouped? Char.isDigit cs with
  | some ('0' :: _ :: _) => none
  | ds => ds

/-- Whether digits in some base have single underscores between them; their number. -/
def inBase? (base : Nat) (cs : List Char) : Option Nat :=
  let isDigit := fun c => (hexVal? c).any (· < base)
  (grouped? isDigit cs).map (fun ds =>
    ds.foldl (fun n c => base * n + (hexVal? c).getD 0) 0)

/-! ## Integers -/

/-- A sign, and what follows it. -/
def signed : List Char → Bool × List Char
  | '-' :: cs => (true, cs)
  | '+' :: cs => (false, cs)
  | cs => (false, cs)

/-- The integer of a text. -/
def integer? (cs : List Char) : Option Int :=
  match cs with
  | '0' :: 'x' :: rest => (inBase? 16 rest).map Int.ofNat
  | '0' :: 'o' :: rest => (inBase? 8 rest).map Int.ofNat
  | '0' :: 'b' :: rest => (inBase? 2 rest).map Int.ofNat
  | _ =>
    let (negative, ds) := signed cs
    (whole? ds).map (fun ds =>
      let n : Int := Decimal.ofDigits ds
      if negative then -n else n)

/-! ## Numbers with a fraction or an exponent -/

/-- Whether an exponent without its mark is one. -/
def isExponent (cs : List Char) : Bool := (grouped? Char.isDigit (signed cs).2).isSome

/-- Whether a text without its sign is a number with a fraction, an exponent or
    both. -/
def isFraction (cs : List Char) : Bool :=
  let mantissa := cs.takeWhile (fun c => c != 'e' && c != 'E')
  let exponent := cs.drop mantissa.length
  let whole := mantissa.takeWhile (· != '.')
  let fraction := mantissa.drop whole.length
  (whole? whole).isSome && !(fraction.isEmpty && exponent.isEmpty) &&
    (fraction.isEmpty || (grouped? Char.isDigit (fraction.drop 1)).isSome) &&
    (exponent.isEmpty || isExponent (exponent.drop 1))

/-- Whether a text is a number other than an integer. One beyond the greatest
    double is none, unless it is negative. -/
def isReal (cs : List Char) : Bool :=
  let (negative, ds) := signed cs
  ds == ['i', 'n', 'f'] || ds == ['n', 'a', 'n'] ||
    (isFraction ds && (negative ||
      Json.Value.isFinite (String.ofList (ds.filter (· != '_')))))

/-! ## Dates and times -/

/-- The number of two digits. -/
def twoDigits? (a b : Char) : Option Nat :=
  if a.isDigit && b.isDigit then some (Decimal.ofDigits [a, b]) else none

/-- Whether two digits make a number that is not too great. -/
def upTo (limit : Nat) (a b : Char) : Bool := (twoDigits? a b).any (· ≤ limit)

/-- Whether a text is a date. -/
def isDate : List Char → Bool
  | [a, b, c, d, '-', m, n, '-', x, y] =>
    [a, b, c, d].all Char.isDigit &&
      (match twoDigits? m n, twoDigits? x y with
      | some month, some day =>
        decide (Calendar.IsDay (Decimal.ofDigits [a, b, c, d]) month day)
      | _, _ => false)
  | _ => false

/-- Whether a text is how far a clock lies from the time of reference. -/
def isOffset : List Char → Bool
  | [] => true
  | ['Z'] => true
  | ['z'] => true
  | [s, a, b, ':', c, d] => (s == '+' || s == '-') && upTo 23 a b && upTo 59 c d
  | _ => false

/-- Whether a text is a time, with an offset or without. -/
def isTime (offset : Bool) : List Char → Bool
  | a :: b :: ':' :: c :: d :: ':' :: e :: f :: rest =>
    upTo 23 a b && upTo 59 c d && upTo 60 e f &&
      (match rest with
      | '.' :: more =>
        let ds := more.takeWhile Char.isDigit
        !ds.isEmpty && (if offset then isOffset (more.drop ds.length)
          else (more.drop ds.length).isEmpty)
      | more => if offset then isOffset more else more.isEmpty)
  | _ => false

/-- Whether a text is a date, a time, or both with a letter between. -/
def isMoment (cs : List Char) : Bool :=
  isDate cs || isTime false cs ||
    (match cs.drop 10 with
    | t :: time => (t == 'T' || t == 't') && isDate (cs.take 10) && isTime true time
    | [] => false)

/-! ## Values -/

/-- The value of a text without quotes. -/
def bareValue? (cs : List Char) : Option Value :=
  if cs = "true".toList then some (.boolean true)
  else if cs = "false".toList then some (.boolean false)
  else
    match integer? cs with
    | some i =>
      if Value.minInteger ≤ i ∧ i ≤ Value.maxInteger then some (.integer i) else none
    | none => if isReal cs || isMoment cs then some .other else none

/-- Whether a character may stand in a value without quotes. -/
def isBareChar (c : Char) : Bool :=
  c.isAlphanum || c == '+' || c == '-' || c == '_' || c == '.' || c == ':'

/-- A value without quotes, and what follows it. A date may be followed by a
    blank and a time. -/
def bare? (cs : List Char) : Option (Value × List Char) :=
  let token := cs.takeWhile isBareChar
  let rest := cs.drop token.length
  match rest with
  | ' ' :: more =>
    let time := more.takeWhile isBareChar
    if isDate token && !time.isEmpty then
      if isTime true time then some (.other, more.drop time.length) else none
    else (bareValue? token).map (fun v => (v, rest))
  | _ => (bareValue? token).map (fun v => (v, rest))

end WebBaseline.Toml

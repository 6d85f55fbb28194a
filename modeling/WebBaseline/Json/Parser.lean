/-
  WebBaseline.Json.Parser

  Reads JSON text: one value, with blanks around it and nothing after it.
-/

import WebBaseline.Decimal.Digits
import WebBaseline.Json.Value
import WebBaseline.Numeric.Hex

namespace WebBaseline.Json

open WebBaseline.Numeric (hexVal?)

/-! ## Blanks -/

/-- The four blanks of JSON. -/
def isBlank (c : Char) : Bool := c == ' ' || c == '\t' || c == '\n' || c == '\r'

/-- The text without blanks at the front. -/
def skipBlanks (cs : List Char) : List Char := cs.dropWhile isBlank

/-! ## Texts -/

/-- The number of four hexadecimal digits. -/
def hex4 (a b c d : Char) : Option Nat :=
  match hexVal? a, hexVal? b, hexVal? c, hexVal? d with
  | some w, some x, some y, some z => some (((w * 16 + x) * 16 + y) * 16 + z)
  | _, _, _, _ => none

/-- The character of a one-letter escape. -/
def shortEscape (c : Char) : Option Char :=
  match c with
  | '\x22' => some '\x22'
  | '\\' => some '\\'
  | '/' => some '/'
  | 'b' => some '\x08'
  | 'f' => some '\x0c'
  | 'n' => some '\n'
  | 'r' => some '\r'
  | 't' => some '\t'
  | _ => none

/-- Numbers of the first and of the second half of a surrogate pair. -/
def isHighSurrogate (n : Nat) : Bool := 0xD800 ≤ n && n ≤ 0xDBFF

/-- Code units that end a pair. -/
def isLowSurrogate (n : Nat) : Bool := 0xDC00 ≤ n && n ≤ 0xDFFF

/-- The character of a surrogate pair. -/
def pairedChar (high low : Nat) : Char :=
  Char.ofNat (0x10000 + (high - 0xD800) * 0x400 + (low - 0xDC00))

/-- The rest of a text after its opening quote: the numbers of its characters,
    escapes undone, and what follows its closing quote. -/
def textBody : List Char → Option (List Nat × List Char)
  | [] => none
  | '\x22' :: rest => some ([], rest)
  | '\\' :: 'u' :: a :: b :: c :: d :: rest =>
    match hex4 a b c d with
    | none => none
    | some n => (textBody rest).map (fun r => (n :: r.1, r.2))
  | '\\' :: c :: rest =>
    match shortEscape c with
    | some e => (textBody rest).map (fun r => (e.toNat :: r.1, r.2))
    | none => none
  | c :: rest =>
    if c.toNat < 32 ∨ c = '\\' then none
    else (textBody rest).map (fun r => (c.toNat :: r.1, r.2))

/-- The characters of numbers, surrogate pairs made one. Half of a pair alone
    is no character. -/
def characters? : List Nat → Option (List Char)
  | [] => some []
  | [n] => if isHighSurrogate n || isLowSurrogate n then none else some [Char.ofNat n]
  | n :: m :: ns =>
    if isHighSurrogate n then
      if isLowSurrogate m then (characters? ns).map (pairedChar n m :: ·) else none
    else if isLowSurrogate n then none
    else (characters? (m :: ns)).map (Char.ofNat n :: ·)

/-! ## Numbers -/

/-- The fraction at the front, if there is one; a point needs a digit after it. -/
def fraction : List Char → Option (List Char × List Char)
  | '.' :: cs =>
    let (ds, rest) := Decimal.spanDigits cs
    if ds.isEmpty then none else some ('.' :: ds, rest)
  | cs => some ([], cs)

/-- The exponent at the front, if there is one; its mark needs a digit after it. -/
def exponent : List Char → Option (List Char × List Char)
  | c :: cs =>
    if c == 'e' || c == 'E' then
      let (sign, cs) := match cs with
        | s :: cs' => if s == '+' || s == '-' then ([s], cs') else ([], cs)
        | [] => ([], [])
      let (ds, rest) := Decimal.spanDigits cs
      if ds.isEmpty then none else some (c :: (sign ++ ds), rest)
    else some ([], c :: cs)
  | [] => some ([], [])

/-- A whole number as a value: an integer if it fits into 64 bits. A zero with a
    sign is not one. -/
def wholeValue (negative : Bool) (ds : List Char) : Value :=
  let n := Decimal.ofDigits ds
  let i : Int := if negative then -(n : Int) else n
  if (negative && n == 0) || i < Value.minInt || Value.maxInt < i then
    .real (String.ofList ((if negative then ['-'] else []) ++ ds))
  else .int i

/-- The number at the front, without its sign. -/
def unsignedNumber (negative : Bool) (cs : List Char) : Option (Value × List Char) :=
  let (ds, rest) := Decimal.spanDigits cs
  match ds with
  | [] => none
  | '0' :: _ :: _ => none
  | _ =>
    match fraction rest with
    | none => none
    | some (frac, rest) =>
      match exponent rest with
      | none => none
      | some (exp, rest) =>
        if frac.isEmpty && exp.isEmpty then some (wholeValue negative ds, rest)
        else
          some (.real (String.ofList ((if negative then ['-'] else []) ++ ds ++ frac ++ exp)), rest)

/-! ## Values -/

/-- The rest of the text after a fixed beginning. -/
def after? (start : String) (cs : List Char) : Option (List Char) :=
  if start.toList.isPrefixOf cs then some (cs.drop start.length) else none

mutual

/-- The value at the front, reading at most `fuel` values inside one another or
    in a row. -/
def value : Nat → List Char → Option (Value × List Char)
  | 0, _ => none
  | fuel + 1, cs =>
    match skipBlanks cs with
    | [] => none
    | '\x7b' :: rest =>
      match skipBlanks rest with
      | '\x7d' :: rest => some (.obj [], rest)
      | rest => (membersFrom fuel rest).map (fun r => (.obj r.1, r.2))
    | '[' :: rest =>
      match skipBlanks rest with
      | ']' :: rest => some (.arr [], rest)
      | rest => (itemsFrom fuel rest).map (fun r => (.arr r.1, r.2))
    | '\x22' :: rest =>
      (textBody rest).map (fun r => (match characters? r.1 with
        | some s => .str (String.ofList s)
        | none => .unpaired, r.2))
    | '-' :: rest => unsignedNumber true rest
    | 't' :: rest => (after? "rue" rest).map (fun r => (.bool true, r))
    | 'f' :: rest => (after? "alse" rest).map (fun r => (.bool false, r))
    | 'n' :: rest => (after? "ull" rest).map (fun r => (.null, r))
    | rest => unsignedNumber false rest

/-- The items of an array up to its closing bracket. -/
def itemsFrom : Nat → List Char → Option (List Value × List Char)
  | 0, _ => none
  | fuel + 1, cs =>
    match value fuel cs with
    | none => none
    | some (v, rest) =>
      match skipBlanks rest with
      | ',' :: rest => (itemsFrom fuel rest).map (fun r => (v :: r.1, r.2))
      | ']' :: rest => some ([v], rest)
      | _ => none

/-- The members of an object up to its closing brace. -/
def membersFrom : Nat → List Char → Option (List (String × Value) × List Char)
  | 0, _ => none
  | fuel + 1, cs =>
    match skipBlanks cs with
    | '\x22' :: rest =>
      match textBody rest with
      | some (units, rest) =>
        match characters? units, skipBlanks rest with
        | some name, ':' :: rest =>
          match value fuel rest with
          | none => none
          | some (v, rest) =>
            let member := (String.ofList name, v)
            match skipBlanks rest with
            | ',' :: rest => (membersFrom fuel rest).map (fun r => (member :: r.1, r.2))
            | '\x7d' :: rest => some ([member], rest)
            | _ => none
        | _, _ => none
      | none => none
    | _ => none

end

/-- The value that a text holds. -/
def parse (text : String) : Option Value :=
  let cs := text.toList
  match value (cs.length + 1) cs with
  | some (v, rest) => if (skipBlanks rest).isEmpty then some v else none
  | none => none

end WebBaseline.Json

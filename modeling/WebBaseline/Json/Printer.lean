/-
  WebBaseline.Json.Printer

  Writes JSON text: compactly on one line, or with every item on a line of its
  own, two blanks deeper than what holds it.
-/

import WebBaseline.Decimal.Digits
import WebBaseline.Json.Value
import WebBaseline.Numeric.Hex

namespace WebBaseline.Json

open WebBaseline.Numeric (lowerHexDigit)

/-- A character inside a quoted text. Quotes, backslashes and control characters
    are escaped, all else stands for itself. -/
def escapeChar (c : Char) : List Char :=
  match c with
  | '\x22' => ['\\', '\x22']
  | '\\' => ['\\', '\\']
  | '\x08' => ['\\', 'b']
  | '\x0c' => ['\\', 'f']
  | '\n' => ['\\', 'n']
  | '\r' => ['\\', 'r']
  | '\t' => ['\\', 't']
  | c =>
    if c.toNat < 32 then
      ['\\', 'u', '0', '0', lowerHexDigit (c.toNat / 16), lowerHexDigit (c.toNat % 16)]
    else [c]

/-- A quoted text. -/
def quoteChars (cs : List Char) : List Char := '\x22' :: (cs.flatMap escapeChar ++ ['\x22'])

namespace Value

mutual

/-- The value on one line, without blanks. -/
def compactChars : Value → List Char
  | null => "null".toList
  | bool true => "true".toList
  | bool false => "false".toList
  | int n => Decimal.intChars n
  | real s => s.toList
  | str s => quoteChars s.toList
  | unpaired => quoteChars ['\ufffd']
  | arr [] => ['[', ']']
  | arr (v :: vs) => '[' :: (compactChars v ++ compactItems vs)
  | obj [] => ['\x7b', '\x7d']
  | obj ((k, v) :: ms) =>
    '\x7b' :: (quoteChars k.toList ++ ':' :: (compactChars v ++ compactMembers ms))

/-- Further items of an array and its closing bracket. -/
def compactItems : List Value → List Char
  | [] => [']']
  | v :: vs => ',' :: (compactChars v ++ compactItems vs)

/-- Further members of an object and its closing brace. -/
def compactMembers : List (String × Value) → List Char
  | [] => ['\x7d']
  | (k, v) :: ms => ',' :: (quoteChars k.toList ++ ':' :: (compactChars v ++ compactMembers ms))

end

/-- A new line with twice as many blanks as the depth. -/
def newline (depth : Nat) : List Char := '\n' :: List.replicate (2 * depth) ' '

mutual

/-- The value with every item on a line of its own, at a depth. -/
def prettyChars (depth : Nat) : Value → List Char
  | null => "null".toList
  | bool true => "true".toList
  | bool false => "false".toList
  | int n => Decimal.intChars n
  | real s => s.toList
  | str s => quoteChars s.toList
  | unpaired => quoteChars ['\ufffd']
  | arr [] => ['[', ']']
  | arr (v :: vs) =>
    '[' :: (newline (depth + 1) ++ prettyChars (depth + 1) v ++ prettyItems depth vs)
  | obj [] => ['\x7b', '\x7d']
  | obj ((k, v) :: ms) =>
    '\x7b' :: (newline (depth + 1) ++ quoteChars k.toList ++ ':' :: ' ' ::
      (prettyChars (depth + 1) v ++ prettyMembers depth ms))

/-- Further items of an array at a depth and its closing bracket. -/
def prettyItems (depth : Nat) : List Value → List Char
  | [] => newline depth ++ [']']
  | v :: vs => ',' :: (newline (depth + 1) ++ prettyChars (depth + 1) v ++ prettyItems depth vs)

/-- Further members of an object at a depth and its closing brace. -/
def prettyMembers (depth : Nat) : List (String × Value) → List Char
  | [] => newline depth ++ ['\x7d']
  | (k, v) :: ms =>
    ',' :: (newline (depth + 1) ++ quoteChars k.toList ++ ':' :: ' ' ::
      (prettyChars (depth + 1) v ++ prettyMembers depth ms))

end

/-- The value on one line. -/
def compact (v : Value) : String := String.ofList v.compactChars

/-- The value over many lines. -/
def pretty (v : Value) : String := String.ofList (v.prettyChars 0)

end Value

end WebBaseline.Json

/-
  WebBaseline.Toml.Writer

  Writes pairs of keys and values as TOML, a pair a line. A list of more than
  one item stands on several lines, one for each item.
-/

import WebBaseline.Decimal.Digits
import WebBaseline.Toml.Quoted
import WebBaseline.Toml.Value

namespace WebBaseline.Toml

/-- A value of a setting. -/
inductive Plain where
  | text (s : String)
  | integer (i : Int)
  | boolean (b : Bool)
  | texts (items : List String)
  deriving DecidableEq, Repr, Inhabited

namespace Plain

/-- A list of texts. -/
def listChars (items : List String) : List Char :=
  match items with
  | [] => ['[', ']']
  | [s] => '[' :: (quote s.toList ++ [']'])
  | items =>
    '[' :: '\n' :: (items.flatMap (fun s =>
      [' ', ' ', ' ', ' '] ++ quote s.toList ++ [',', '\n']) ++ [']'])

/-- A value as it is written. -/
def chars : Plain → List Char
  | text s => quote s.toList
  | integer i => Decimal.intChars i
  | boolean true => "true".toList
  | boolean false => "false".toList
  | texts items => listChars items

/-- Whether a value can be written at all: an integer must fit into 64 bits. -/
def fits : Plain → Bool
  | integer i => decide (Value.minInteger ≤ i ∧ i ≤ Value.maxInteger)
  | _ => true

end Plain

/-- A key and its value on a line. -/
def pairChars (p : String × Plain) : List Char :=
  p.1.toList ++ [' ', '=', ' '] ++ p.2.chars ++ ['\n']

/-- A document of pairs, unless a value cannot be written. -/
def write? (pairs : List (String × Plain)) : Option String :=
  if pairs.all (fun p => p.2.fits) then some (String.ofList (pairs.flatMap pairChars)) else none

end WebBaseline.Toml

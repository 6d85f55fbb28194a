/-
  WebBaseline.Markup.Pattern

  The two patterns by which markup is read, and all their hits in a line. A
  pattern is tried at every place from the left; after a hit the search goes on
  behind it, so hits do not overlap.
-/

import WebBaseline.Text.Blank
import WebBaseline.Text.Letters

namespace WebBaseline.Markup

/-- What a pattern hit: the name in it and all of the text that it covers. -/
structure Hit where
  name : List Char
  whole : List Char
  deriving DecidableEq, Repr, Inhabited

/-- Tries a pattern at the front of a text. -/
abbrev Pattern := List Char → Option Hit

/-! ## Opening tags -/

/-- What follows a tag's name up to and with the closing angle bracket: either
    the bracket at once, or a blank and anything else before it. -/
def tagEnd? : List Char → Option (List Char)
  | [] => none
  | '>' :: _ => some ['>']
  | c :: cs =>
    if Text.isBlank c then
      match cs.dropWhile (· ≠ '>') with
      | '>' :: _ => some (c :: (cs.takeWhile (· ≠ '>') ++ ['>']))
      | _ => none
    else none

/-- An opening tag on a single line. -/
def openingTag : Pattern
  | '<' :: cs =>
    match cs.takeWhile Text.isWordChar with
    | [] => none
    | name => (tagEnd? (cs.drop name.length)).map (fun rest => ⟨name, '<' :: (name ++ rest)⟩)
  | _ => none

/-! ## Attributes -/

/-- Characters of attribute names. -/
def isNameChar (c : Char) : Bool := Text.isWordChar c || c == '-'

/-- Either kind of quote. -/
def isQuote (c : Char) : Bool := c == '\x22' || c == '\x27'

/-- A value between quotes of either kind, without quotes inside. -/
def quotedValue? : List Char → Option (List Char)
  | [] => none
  | open_ :: cs =>
    if isQuote open_ then
      let inside := cs.takeWhile (fun c => !isQuote c)
      match cs.drop inside.length with
      | close :: _ => some (open_ :: (inside ++ [close]))
      | [] => none
    else none

/-- A value up to a blank or a closing angle bracket. -/
def plainValue? (cs : List Char) : Option (List Char) :=
  match cs.takeWhile (fun c => c != '>' && !Text.isBlank c) with
  | [] => none
  | value => some value

/-- The equals sign and the value after an attribute's name, if they are there. -/
def assigned : List Char → List Char
  | '=' :: cs =>
    match (quotedValue? cs).or (plainValue? cs) with
    | some value => '=' :: value
    | none => []
  | _ => []

/-- An attribute's name, and its value if one is assigned. -/
def assignment : Pattern := fun cs =>
  match cs.takeWhile isNameChar with
  | [] => none
  | name => some ⟨name, name ++ assigned (cs.drop name.length)⟩

/-! ## All hits -/

/-- The hits in a text with the byte column of each. `passing` characters belong
    to the hit before. -/
def hitsFrom (p : Pattern) : Nat → Nat → List Char → List (Nat × Hit)
  | _, _, [] => []
  | passing + 1, column, c :: cs => hitsFrom p passing (column + c.utf8Size) cs
  | 0, column, c :: cs =>
    match p (c :: cs) with
    | some hit =>
      (column, hit) :: hitsFrom p (hit.whole.length - 1) (column + c.utf8Size) cs
    | none => hitsFrom p 0 (column + c.utf8Size) cs

/-- The hits in a line, with the byte column where each starts, from one. -/
def hits (p : Pattern) (line : List Char) : List (Nat × Hit) := hitsFrom p 0 1 line

end WebBaseline.Markup

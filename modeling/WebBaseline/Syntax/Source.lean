/-
  WebBaseline.Syntax.Source

  A source text laid out for reading: its characters in order, the texts
  between two offsets, and the place (line and byte column) of an offset.
-/

namespace WebBaseline.Syntax

/-! ## Places -/

/-- A place in a text. Lines and columns count from one; a column counts the
    UTF-8 bytes since the line began. -/
structure Place where
  line : Nat
  column : Nat
  deriving DecidableEq, Repr, Inhabited

namespace Place

/-- The place where every text begins. -/
def origin : Place := ⟨1, 1⟩

/-- The place after one more character. -/
def after (p : Place) (c : Char) : Place :=
  if c = '\n' then ⟨p.line + 1, 1⟩ else ⟨p.line, p.column + c.utf8Size⟩

/-- The place that follows the given characters, read from the origin. -/
def ofChars (before : List Char) : Place :=
  before.foldl after origin

end Place

/-! ## Sources -/

/-- A text with its characters at hand. Offsets count characters. -/
structure Source where
  chars : Array Char

namespace Source

/-- The source of a text. -/
def ofString (text : String) : Source := ⟨text.toList.toArray⟩

/-- The text from `start` up to, not including, `stop`. -/
def slice (src : Source) (start stop : Nat) : String :=
  String.ofList (src.chars.extract start stop).toList

/-- The place of the character at `offset`. -/
def place (src : Source) (offset : Nat) : Place :=
  Place.ofChars (src.chars.extract 0 offset).toList

end Source

end WebBaseline.Syntax

/-
  WebBaseline.Syntax.Scan

  Small lexical readers: fixed texts, runs of a class of characters, and
  ways to combine them.
-/

import WebBaseline.Syntax.Rule

namespace WebBaseline.Syntax.Scan

/-! ## Fixed texts -/

/-- The offset after the given characters, if they stand at `i`. -/
def afterChars? (chars : Array Char) : List Char → Nat → Option Nat
  | [], i => some i
  | c :: cs, i => if chars[i]? == some c then afterChars? chars cs (i + 1) else none

/-- Exactly this text. -/
def text (s : String) : Scan :=
  let cs := s.toList
  fun chars i => afterChars? chars cs i

/-! ## Runs -/

/-- The end of the run of characters of a class that starts at `i`, at most `fuel` long. -/
def runEnd (chars : Array Char) (cls : Char → Bool) : Nat → Nat → Nat
  | 0, i => i
  | fuel + 1, i =>
    match chars[i]? with
    | some c => if cls c then runEnd chars cls fuel (i + 1) else i
    | none => i

/-- The end of the longest run of characters of a class from `i`. -/
def endOf (chars : Array Char) (cls : Char → Bool) (i : Nat) : Nat :=
  runEnd chars cls (chars.size - i) i

/-- One or more characters of a class. -/
def run1 (cls : Char → Bool) : Scan := fun chars i =>
  let j := endOf chars cls i
  if i < j then some j else none

/-- One character of a class. -/
def one (cls : Char → Bool) : Scan := fun chars i =>
  match chars[i]? with
  | some c => if cls c then some (i + 1) else none
  | none => none

/-- One character of the first class, then any number of the second. -/
def headed (head tail : Char → Bool) : Scan := fun chars i =>
  match one head chars i with
  | some j => some (endOf chars tail j)
  | none => none

/-! ## Combinations -/

/-- The first reader that reads. -/
def either (a b : Scan) : Scan := fun chars i =>
  match a chars i with
  | some j => some j
  | none => b chars i

/-- One reader after the other. -/
def andThen (a b : Scan) : Scan := fun chars i =>
  match a chars i with
  | some j => b chars j
  | none => none

/-- The reader, or nothing read. -/
def orNothing (a : Scan) : Scan := fun chars i => some ((a chars i).getD i)

/-- The longer of what two readers read. -/
def longer (a b : Scan) : Scan := fun chars i =>
  match a chars i, b chars i with
  | some j, some k => some (max j k)
  | some j, none => some j
  | none, k => k

/-- The end of the text. -/
def atEnd : Scan := fun chars i => if chars.size ≤ i then some i else none

/-- The offset after the first occurrence of the characters at or after `i`. -/
def pastNext? (chars : Array Char) (cs : List Char) : Nat → Nat → Option Nat
  | 0, _ => none
  | fuel + 1, i =>
    match afterChars? chars cs i with
    | some j => some j
    | none => pastNext? chars cs fuel (i + 1)

/-- Everything from an opening text through the next closing text. -/
def delimited (opening closing : String) : Scan :=
  let o := opening.toList
  let c := closing.toList
  fun chars i =>
    match afterChars? chars o i with
    | some j => pastNext? chars c (chars.size + 1 - j) j
    | none => none

end WebBaseline.Syntax.Scan

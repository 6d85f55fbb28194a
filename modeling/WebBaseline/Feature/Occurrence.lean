/-
  WebBaseline.Feature.Occurrence

  Where a source uses a feature, and lists of such uses without repeats.
-/

namespace WebBaseline.Feature

/-- A use of a feature in a source. Lines and columns count from one. -/
structure Occurrence where
  identifier : String
  line : Option Nat := none
  column : Option Nat := none
  context : Option String := none
  deriving DecidableEq, Repr, Inhabited

namespace Occurrence

/-- A use at a known place, with the text it was read from. -/
def located (identifier : String) (line column : Nat) (context : String) : Occurrence :=
  ⟨identifier, some line, some column, some context⟩

/-- Two occurrences name the same feature at the same place. -/
def same (a b : Occurrence) : Bool :=
  a.identifier == b.identifier && a.line == b.line && a.column == b.column

/-- The occurrences in order, each one that was already there left out. `seen`
    holds the ones kept so far. -/
def distinctFrom (seen : List Occurrence) : List Occurrence → List Occurrence
  | [] => []
  | o :: os =>
    if seen.any (same o) then distinctFrom seen os else o :: distinctFrom (o :: seen) os

/-- The first occurrence of each feature at each place, in order. -/
def distinct (os : List Occurrence) : List Occurrence := distinctFrom [] os

end Occurrence

end WebBaseline.Feature

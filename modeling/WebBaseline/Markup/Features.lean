/-
  WebBaseline.Markup.Features

  The features that markup uses: elements, then attributes, each line by line.
  No document is built, so comments and plain text count as well.
-/

import WebBaseline.Feature.Catalog
import WebBaseline.Feature.Occurrence
import WebBaseline.Markup.Pattern
import WebBaseline.Text.Lines
import WebBaseline.Text.Lowercase

namespace WebBaseline.Markup

open WebBaseline.Feature

/-- A kind of thing to look for: its pattern, the names that count, and how the
    features are called. -/
structure Quarry where
  pattern : Pattern
  counts : String → Bool
  family : String

/-- Elements, by their opening tags. -/
def elements : Quarry := ⟨openingTag, Catalog.isElement, "html-element-"⟩

/-- Attributes, wherever something looks like one. -/
def attributes : Quarry := ⟨assignment, Catalog.isAttribute, "html-attribute-"⟩

/-- What a hit shows. -/
def hitOccurrence? (q : Quarry) (line column : Nat) (hit : Hit) : Option Occurrence :=
  let name := Text.lowercase (String.ofList hit.name)
  if q.counts name then
    some (.located (q.family ++ name) line column (String.ofList hit.whole))
  else none

/-- What a line shows. -/
def lineOccurrences (q : Quarry) (number : Nat) (line : List Char) : List Occurrence :=
  (hits q.pattern line).filterMap (fun h => hitOccurrence? q number h.1 h.2)

/-- What lines show, the first of them having the given number. -/
def occurrencesFrom (q : Quarry) (number : Nat) : List (List Char) → List Occurrence
  | [] => []
  | l :: ls => lineOccurrences q number l ++ occurrencesFrom q (number + 1) ls

/-- All occurrences of one kind of thing. -/
def occurrences (q : Quarry) (text : String) : List Occurrence :=
  occurrencesFrom q 1 (Text.lines text.toList)

/-- The features of markup: elements first, then attributes. -/
def features (text : String) : List Occurrence :=
  Occurrence.distinct (occurrences elements text ++ occurrences attributes text)

end WebBaseline.Markup

/-
  WebBaseline.Stylesheet.Features

  The features that a stylesheet uses: pseudo classes and elements in selector
  lists, properties with the functions in their values, and at-rules, in three
  passes over the tree. A fault in a selector list hides the pseudo selectors of
  that list, a fault in a declaration hides its functions; no fault hides more.
-/

import WebBaseline.Feature.Occurrence
import WebBaseline.Stylesheet.Grammar
import WebBaseline.Syntax.Cursor

namespace WebBaseline.Stylesheet

open WebBaseline.Syntax
open WebBaseline.Feature

/-- The first child of a kind. -/
def childOf? (t : ParseTree Kind) (kind : Kind) : Option (ParseTree Kind) :=
  t.childOf? (· == kind)

/-- An occurrence at the start of a node. -/
def occurrenceAt (src : Source) (t : ParseTree Kind) (identifier context : String) : Occurrence :=
  let place := t.place src
  .located identifier place.line place.column context

/-! ## Pseudo selectors -/

/-- The colon or double colon of a pseudo selector, and the name that follows it. -/
def pseudoName? (src : Source) : List (ParseTree Kind) → Option (ParseTree Kind × String)
  | [] => none
  | c :: cs =>
    if c.kind == .colon || c.kind == .doubleColon then
      match cs.find? (fun d => d.kind.isNamed) with
      | none => none
      | some d =>
        let name := Text.trim (d.text src)
        if name.isEmpty then none else some (c, name)
    else pseudoName? src cs

/-- What a single selector shows. -/
def pseudoOccurrences (src : Source) (t : ParseTree Kind) : List Occurrence :=
  match t.kind with
  | .pseudoClass | .pseudoElement =>
    match pseudoName? src t.children with
    | some (marker, name) =>
      [occurrenceAt src marker ("css-pseudo-" ++ name) (marker.text src ++ name)]
    | none => []
  | _ => []

/-- What the selector list of a rule set shows, if it has no flaw. -/
def selectorOccurrences (src : Source) (t : ParseTree Kind) : List Occurrence :=
  if t.kind == .ruleSet then
    match childOf? t .selectors with
    | some selectors =>
      if selectors.isFlawed then [] else selectors.nodes.flatMap (pseudoOccurrences src)
    | none => []
  else []

/-! ## Declarations -/

/-- The offset behind the colon, and the offset where the last child after it
    ends that is no semicolon. -/
def valueBounds? : List (ParseTree Kind) → Option (Nat × Nat)
  | [] => none
  | c :: cs =>
    if c.kind == .colon then
      match (cs.filter (fun d => d.kind != .semicolon)).getLast? with
      | some d => some (c.stop, d.stop)
      | none => none
    else valueBounds? cs

/-- The text of a declaration's value. -/
def declarationValue (src : Source) (t : ParseTree Kind) : String :=
  match valueBounds? t.children with
  | some (start, stop) => Text.trim (src.slice start stop)
  | none => ""

/-- What a node in a value shows, if it is a function. -/
def functionOccurrences (src : Source) (t : ParseTree Kind) : List Occurrence :=
  if t.kind == .call then
    match childOf? t .functionName with
    | some f =>
      let name := f.text src
      [occurrenceAt src t ("css-function-" ++ name) (name ++ "()")]
    | none => []
  else []

/-- What a declaration shows: its property, then the functions in its value,
    these only where the declaration has no flaw. -/
def declarationOccurrences (src : Source) (t : ParseTree Kind) : List Occurrence :=
  if t.kind == .declaration then
    match childOf? t .propertyName with
    | none => []
    | some p =>
      let property := Text.trim (p.text src)
      if property.isEmpty then []
      else
        occurrenceAt src t ("css-property-" ++ property)
            (property ++ ": " ++ declarationValue src t) ::
          (if t.isFlawed then [] else t.nodes.flatMap (functionOccurrences src))
  else []

/-! ## At-rules -/

/-- What an at-rule shows: its keyword. -/
def atRuleOccurrences (src : Source) (t : ParseTree Kind) : List Occurrence :=
  if t.kind == .atRule then
    match t.children with
    | [] => []
    | k :: _ =>
      match (k.text src).toList with
      | '@' :: c :: cs =>
        let name := String.ofList (c :: cs)
        [occurrenceAt src t ("css-at-rule-" ++ name) ("@" ++ name)]
      | _ => []
  else []

/-! ## Whole stylesheets -/

/-- What a whole tree shows: pseudo selectors, then declarations, then at-rules,
    without repeats. A tree whose root is flawed shows nothing. -/
def treeFeatures (src : Source) (t : ParseTree Kind) : List Occurrence :=
  if t.flaw.isSome then []
  else
    Occurrence.distinct
      (t.nodes.flatMap (selectorOccurrences src) ++
        t.nodes.flatMap (declarationOccurrences src) ++
        t.nodes.flatMap (atRuleOccurrences src))

/-- The features of a stylesheet's text. -/
def features (text : String) : List Occurrence :=
  let src := Source.ofString text
  match parse? src with
  | some t => treeFeatures src t
  | none => []

end WebBaseline.Stylesheet

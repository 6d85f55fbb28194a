/-
  WebBaseline.Script.Features

  The features that a script uses: members of global objects, calls of global
  functions, and constructions. A script that does not follow the grammar
  shows none.
-/

import WebBaseline.Feature.Catalog
import WebBaseline.Feature.Occurrence
import WebBaseline.Script.Grammar
import WebBaseline.Syntax.Cursor
import WebBaseline.Text.Lowercase

namespace WebBaseline.Script

open WebBaseline.Syntax
open WebBaseline.Feature

/-! ## Names of values -/

/-- The text without a beginning, if it has that beginning. -/
def dropStart? (start s : String) : Option String :=
  if s.startsWith start then some (s.drop start.length).toString else none

/-- The text without `window.` in front. -/
def withoutWindow (path : String) : String := (dropStart? "window." path).getD path

/-- The dotted path of a member access. A property that is computed or private
    ends the path before it; what does not start at a plain name has no path. -/
def memberPath? (src : Source) : ParseTree Kind → Option String
  | .node kind _ _ _ _ children => pathOf kind children children
where
  /-- The path of a node from its children; the search for the object goes
      through `rest`. -/
  pathOf (kind : Kind) (children : List (ParseTree Kind)) : List (ParseTree Kind) → Option String
    | [] => none
    | c :: cs =>
      if c.part == some .object then
        let property :=
          (children.find? (fun p => p.part == some .property)).filter
            (fun p => kind == .member && p.kind == .propertyName)
        match c.kind, property with
        | .identifier, some p => some (c.text src ++ "." ++ p.text src)
        | .member, some p => (memberPath? src c).map (fun path => path ++ "." ++ p.text src)
        | .identifier, none => some (c.text src)
        | _, _ => none
      else pathOf kind children cs

/-- The name of what is called or constructed. -/
def valueName? (src : Source) (t : ParseTree Kind) : Option String :=
  match t.kind with
  | .identifier => some (t.text src)
  | .member => memberPath? src t
  | _ => none

/-! ## Occurrences by node -/

/-- An occurrence at the start of a node. -/
def occurrenceAt (src : Source) (t : ParseTree Kind) (identifier context : String) : Occurrence :=
  let place := t.place src
  .located identifier place.line place.column context

/-- What a member access or subscript shows: a member of `navigator`, then a
    member of `window` or a global by its path, or else the global it reads from. -/
def memberOccurrences (src : Source) (t : ParseTree Kind) : List Occurrence :=
  match memberPath? src t with
  | none => []
  | some path =>
    let ofNavigator :=
      match dropStart? "navigator." path with
      | some rest => [occurrenceAt src t ("navigator-" ++ rest) path]
      | none => []
    let ofGlobal :=
      if path.startsWith "window." || Catalog.isGlobal path then
        [occurrenceAt src t (withoutWindow path) path]
      else
        match t.child? .object with
        | some object =>
          if object.kind == .identifier && Catalog.isGlobal (object.text src) then
            [occurrenceAt src t (object.text src) path]
          else []
        | none => []
    ofNavigator ++ ofGlobal

/-- What a call shows: a global function, called by itself or through `window`. -/
def callOccurrences (src : Source) (t : ParseTree Kind) : List Occurrence :=
  match (t.child? .callee).bind (valueName? src) with
  | none => []
  | some path =>
    let name := withoutWindow path
    if Catalog.isCall name then [occurrenceAt src t name (name ++ "()")] else []

/-- What a construction shows: its constructor, in lower case. -/
def constructionOccurrences (src : Source) (t : ParseTree Kind) : List Occurrence :=
  match (t.child? .constructed).bind (valueName? src) with
  | none => []
  | some name =>
    if Catalog.isConstructor name then
      [occurrenceAt src t (Text.lowercase name) ("new " ++ name ++ "()")]
    else []

/-- What a single node shows. -/
def nodeOccurrences (src : Source) (t : ParseTree Kind) : List Occurrence :=
  match t.kind with
  | .member | .subscript => memberOccurrences src t
  | .call => callOccurrences src t
  | .construction => constructionOccurrences src t
  | _ => []

/-! ## Whole scripts -/

/-- What a whole tree shows, in the order of its nodes and without repeats. -/
def treeFeatures (src : Source) (t : ParseTree Kind) : List Occurrence :=
  Occurrence.distinct (t.nodes.flatMap (nodeOccurrences src))

/-- The features of a script's text. -/
def features (d : Dialect) (text : String) : List Occurrence :=
  let src := Source.ofString text
  match parse? d src with
  | some t => treeFeatures src t
  | none => []

end WebBaseline.Script

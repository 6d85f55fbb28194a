/-
  WebBaseline.Toml.Reader

  Reads TOML documents: lines with headers, lines with a key and a value, blank
  lines and comments.
-/

import WebBaseline.Toml.Bare
import WebBaseline.Toml.Quoted
import WebBaseline.Toml.Table

namespace WebBaseline.Toml

/-! ## Blanks and comments -/

/-- Blanks inside a line. -/
def isBlank (c : Char) : Bool := c == ' ' || c == '\t'

/-- The text without blanks at the front. -/
def skipBlanks (cs : List Char) : List Char := cs.dropWhile isBlank

/-- The text without a comment at the front. -/
def skipComment : List Char → List Char
  | '#' :: cs => cs.dropWhile isPlain
  | cs => cs

/-- What follows the end of a line, after blanks and a comment. -/
def lineEnd? (cs : List Char) : Option (List Char) :=
  match skipComment (skipBlanks cs) with
  | [] => some []
  | '\n' :: rest => some rest
  | '\r' :: '\n' :: rest => some rest
  | _ => none

/-- The text without blanks, comments and ends of lines at the front; a comment
    must go on to the end of its line. -/
def skipLines : Nat → List Char → List Char
  | 0, cs => cs
  | fuel + 1, cs =>
    match skipBlanks cs with
    | '\n' :: rest => skipLines fuel rest
    | '\r' :: '\n' :: rest => skipLines fuel rest
    | '#' :: rest =>
      match rest.dropWhile isPlain with
      | '\n' :: more => skipLines fuel more
      | '\r' :: '\n' :: more => skipLines fuel more
      | more => more
    | rest => rest

/-! ## Keys -/

/-- How many keys may stand with dots between, and how many lists and tables
    inside one another, exclusively. -/
def nestingLimit : Nat := 80

/-- Whether a character may stand in a key without quotes. -/
def isKeyChar (c : Char) : Bool := c.isAlphanum || c == '-' || c == '_'

/-- A single key. -/
def simpleKey? (cs : List Char) : Option (String × List Char) :=
  match shortQuoted? cs with
  | some (key, rest) => some (String.ofList key, rest)
  | none =>
    let key := cs.takeWhile isKeyChar
    if key.isEmpty then none else some (String.ofList key, cs.drop key.length)

/-- Keys with dots between, and blanks around each. -/
def keysFrom : Nat → List Char → Option (List String × List Char)
  | 0, _ => none
  | fuel + 1, cs =>
    match simpleKey? (skipBlanks cs) with
    | none => none
    | some (key, rest) =>
      match skipBlanks rest with
      | '.' :: more => (keysFrom fuel more).map (fun r => (key :: r.1, r.2))
      | rest => some ([key], rest)

/-- The keys at the front of a text. -/
def keys? (cs : List Char) : Option (List String × List Char) := keysFrom (nestingLimit - 1) cs

/-! ## Values -/

/-- The table of pairs in braces. -/
def inlineTable? (pairs : List (List String × Value)) : Option Value :=
  (pairs.foldlM (fun entries p => addPair p.1 p.2 false entries) []).map (fun entries =>
    .table (entriesToValues entries))

mutual

/-- The value at the front, inside `depth` lists and tables. -/
def valueFrom : Nat → Nat → List Char → Option (Value × List Char)
  | 0, _, _ => none
  | fuel + 1, depth, cs =>
    match cs with
    | '[' :: rest =>
      if nestingLimit ≤ depth + 1 then none
      else (itemsFrom fuel (depth + 1) rest).map (fun r => (.list r.1, r.2))
    | '\x7b' :: rest =>
      if nestingLimit ≤ depth + 1 then none
      else
        match skipBlanks rest with
        | '\x7d' :: rest => some (.table [], rest)
        | rest =>
          (pairsFrom fuel (depth + 1) rest).bind (fun r =>
            (inlineTable? r.1).map (fun v => (v, r.2)))
    | '\x22' :: _ => (quoted? cs).map (fun r => (.text (String.ofList r.1), r.2))
    | '\x27' :: _ => (quoted? cs).map (fun r => (.text (String.ofList r.1), r.2))
    | _ => bare? cs

/-- The items of a list up to its closing bracket. -/
def itemsFrom : Nat → Nat → List Char → Option (List Value × List Char)
  | 0, _, _ => none
  | fuel + 1, depth, cs =>
    match skipLines cs.length cs with
    | ']' :: rest => some ([], rest)
    | rest =>
      match valueFrom fuel depth rest with
      | none => none
      | some (v, rest) =>
        match skipLines rest.length rest with
        | ',' :: rest => (itemsFrom fuel depth rest).map (fun r => (v :: r.1, r.2))
        | ']' :: rest => some ([v], rest)
        | _ => none

/-- The pairs of a table up to its closing brace. -/
def pairsFrom : Nat → Nat → List Char → Option (List (List String × Value) × List Char)
  | 0, _, _ => none
  | fuel + 1, depth, cs =>
    match keys? cs with
    | some (keys, '=' :: rest) =>
      match valueFrom fuel depth (skipBlanks rest) with
      | none => none
      | some (v, rest) =>
        match skipBlanks rest with
        | ',' :: rest => (pairsFrom fuel depth rest).map (fun r => ((keys, v) :: r.1, r.2))
        | '\x7d' :: rest => some ([(keys, v)], rest)
        | _ => none
    | _ => none

end

/-- The value at the front of a text. -/
def value? (cs : List Char) : Option (Value × List Char) := valueFrom (cs.length + 1) 0 cs

/-! ## Lines -/

/-- The header at the front, without its opening brackets. -/
def headerFrom (listed : Bool) (cs : List Char) : Option (Statement × List Char) :=
  match keys? cs with
  | some (keys, ']' :: rest) =>
    match listed, rest with
    | false, rest => some (.header false keys, rest)
    | true, ']' :: rest => some (.header true keys, rest)
    | true, _ => none
  | _ => none

/-- The statement at the front, and what follows it on its line. -/
def statement? : List Char → Option (Statement × List Char)
  | '[' :: '[' :: rest => headerFrom true rest
  | '[' :: rest => headerFrom false rest
  | cs =>
    match keys? cs with
    | some (keys, '=' :: rest) =>
      (value? (skipBlanks rest)).map (fun r => (.pair keys r.1, r.2))
    | _ => none

/-- The statements of a text, reading at most `fuel` lines. -/
def statementsFrom : Nat → List Char → Option (List Statement)
  | 0, _ => none
  | fuel + 1, cs =>
    match skipBlanks cs with
    | [] => some []
    | '\n' :: rest => statementsFrom fuel rest
    | '\r' :: '\n' :: rest => statementsFrom fuel rest
    | '#' :: rest => (lineEnd? ('#' :: rest)).bind (statementsFrom fuel)
    | c :: rest =>
      match statement? (c :: rest) with
      | none => none
      | some (s, rest) =>
        ((lineEnd? rest).bind (statementsFrom fuel)).map (fun ss => s :: ss)

/-- A text without a byte order mark at its front. -/
def withoutMark : List Char → List Char
  | '\ufeff' :: cs => cs
  | cs => cs

/-- The top table of a document. -/
def parse (text : String) : Option (List (String × Value)) :=
  let cs := withoutMark text.toList
  (statementsFrom (cs.length + 1) cs).bind (fun statements =>
    (gather [] statements []).map entriesToValues)

end WebBaseline.Toml

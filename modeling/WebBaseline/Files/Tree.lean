/-
  WebBaseline.Files.Tree

  Files, links and directories inside one another. A place is the list of names
  that leads to an entry from the top; `at?` reads the entry there, `change`
  writes it.
-/

import WebBaseline.Data.KeyMap
import WebBaseline.Files.Path

namespace WebBaseline.Files

/-- An entry of a directory. -/
inductive Node where
  /-- A file with its bytes, and when it was written. -/
  | file (content : ByteArray) (written : Nat)
  /-- A link to another path. -/
  | link (target : Path)
  | directory (entries : List (String × Node))
  deriving Inhabited

/-- The names that lead to an entry. -/
abbrev Place := List String

namespace Node

/-- Whether an entry is a directory. -/
def isDirectory : Node → Bool
  | directory _ => true
  | _ => false

/-- Whether an entry is a file. -/
def isFile : Node → Bool
  | file _ _ => true
  | _ => false

/-- The bytes of a file. -/
def content? : Node → Option ByteArray
  | file content _ => some content
  | _ => none

/-- The entries of a directory; nothing else has any. -/
def entries : Node → List (String × Node)
  | directory es => es
  | _ => []

/-- The entry of a directory under a name. -/
def entry? (n : Node) (name : String) : Option Node := n.entries.lookup name

/-- The entry at a place. -/
def at? : Node → Place → Option Node
  | n, [] => some n
  | n, name :: rest => (n.entry? name).bind (fun m => at? m rest)

mutual

/-- The files of a tree that is found at a place, each with its place. -/
def filesFrom (p : Place) : Node → List (Place × ByteArray)
  | file content _ => [(p, content)]
  | link _ => []
  | directory es => filesAmong p es

/-- The files in and below the entries of a directory. -/
def filesAmong (p : Place) : List (String × Node) → List (Place × ByteArray)
  | [] => []
  | (name, n) :: rest => filesFrom (p ++ [name]) n ++ filesAmong p rest

end

/-- All files of a tree. -/
def files (n : Node) : List (Place × ByteArray) := n.filesFrom []

/-! ## Changes -/

/-- Directory entries with a new entry under a name, or without one. -/
def changeEntry (name : String) (new : Option Node) (es : List (String × Node)) :
    List (String × Node) :=
  match new with
  | some n => Data.KeyMap.put name n es
  | none => es.filter (fun e => e.1 != name)

/-- The tree with a new entry at a place, or without one. A place whose
    directory is not there changes nothing. -/
def change (new : Option Node) : Place → Node → Node
  | [name], directory es => directory (changeEntry name new es)
  | name :: rest, directory es =>
    match es.lookup name with
    | some n => directory (changeEntry name (some (change new rest n)) es)
    | none => directory es
  | _, n => n

theorem lookup_changeEntry (name other : String) (new : Option Node)
    (es : List (String × Node)) :
    (changeEntry name new es).lookup other = if other = name then new else es.lookup other := by
  cases new with
  | some n => exact Data.KeyMap.lookup_put name other n es
  | none => exact Data.KeyMap.lookup_filter_ne name other es

@[simp] theorem at?_nil (n : Node) : n.at? [] = some n := rfl

theorem at?_cons (t : Node) (name : String) (p : Place) :
    t.at? (name :: p) = (t.entry? name).bind (fun n => n.at? p) := rfl

theorem at?_directory_cons (es : List (String × Node)) (name : String) (p : Place) :
    (directory es).at? (name :: p) = (es.lookup name).bind (fun n => n.at? p) := rfl

theorem at?_append (n : Node) (p q : Place) :
    n.at? (p ++ q) = (n.at? p).bind (fun m => m.at? q) := by
  induction p generalizing n with
  | nil => rfl
  | cons name rest ih =>
    rw [List.cons_append, at?, at?]
    cases n.entry? name with
    | none => rfl
    | some m => exact ih m

end Node

end WebBaseline.Files

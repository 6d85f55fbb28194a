/-
  WebBaseline.Toml.Table

  Tables that are being put together from headers and pairs. No key is given
  twice, and a table that a header or braces have completed takes nothing more
  through dotted keys.
-/

import WebBaseline.Data.KeyMap
import WebBaseline.Toml.Value

namespace WebBaseline.Toml

/-- What a table holds under a key. -/
inductive Item where
  | value (v : Value)
  /-- A table. It is open if only what lies in it has been named so far, and
      dotted if that was done by a dotted key. -/
  | table (isOpen dotted : Bool) (entries : List (String × Item))
  /-- The tables of a list, the last one first. -/
  | tables (all : List (List (String × Item)))
  deriving Inhabited

/-- The entries of a table that is being put together. -/
abbrev Entries := List (String × Item)

/-! ## Descending -/

/-- Changes the table that keys lead to, and makes those on the way that are
    missing. Dotted keys do not lead into tables that are complete. `change` is
    told whether the table is a dotted one. -/
def descend (byDots : Bool) (change : Bool → Entries → Option Entries) :
    List String → Bool → Entries → Option Entries
  | [], dotted, entries => change dotted entries
  | key :: keys, _, entries =>
    match entries.lookup key with
    | none =>
      (descend byDots change keys byDots []).map (fun es =>
        Data.KeyMap.put key (.table true byDots es) entries)
    | some (.value _) => none
    | some (.table isOpen dotted es) =>
      if byDots && !isOpen then none
      else
        (descend byDots change keys dotted es).map (fun es =>
          Data.KeyMap.put key (.table isOpen dotted es) entries)
    | some (.tables []) => none
    | some (.tables (last :: others)) =>
      (descend byDots change keys false last).map (fun es =>
        Data.KeyMap.put key (.tables (es :: others)) entries)

/-! ## Pairs -/

/-- The table with a new entry, unless the key is taken. -/
def addEntry (key : String) (item : Item) (entries : Entries) : Option Entries :=
  match entries.lookup key with
  | none => some (Data.KeyMap.put key item entries)
  | some _ => none

/-- The table with a value under keys. Keys with dots between lead into tables
    made by such keys only. -/
def addPair (keys : List String) (v : Value) (dotted : Bool) (entries : Entries) :
    Option Entries :=
  let path := keys.dropLast
  let key := keys.getLast?.getD ""
  descend true (fun dotted es =>
    if dotted == path.isEmpty then none else addEntry key (.value v) es) path dotted entries

/-! ## Headers -/

/-- The table with a new table under a key, complete from now on. -/
def openTable (key : String) (entries : Entries) : Option Entries :=
  match entries.lookup key with
  | none => some (Data.KeyMap.put key (.table false false []) entries)
  | some (.table true false es) => some (Data.KeyMap.put key (.table false false es) entries)
  | some _ => none

/-- The table with one more table in the list under a key. -/
def openListed (key : String) (entries : Entries) : Option Entries :=
  match entries.lookup key with
  | none => some (Data.KeyMap.put key (.tables [[]]) entries)
  | some (.tables all) => some (Data.KeyMap.put key (.tables ([] :: all)) entries)
  | some _ => none

/-- The table with a new table where the keys of a header lead. -/
def addHeader (listed : Bool) (keys : List String) (entries : Entries) : Option Entries :=
  let key := keys.getLast?.getD ""
  descend false (fun _ es => if listed then openListed key es else openTable key es)
    keys.dropLast false entries

/-! ## Statements -/

/-- A line of a document that says something. -/
inductive Statement where
  | header (listed : Bool) (keys : List String)
  | pair (keys : List String) (v : Value)
  deriving Inhabited

/-- The entries that statements make, given the header that is in force. -/
def gather : List String → List Statement → Entries → Option Entries
  | _, [], entries => some entries
  | _, .header listed keys :: rest, entries =>
    (addHeader listed keys entries).bind (gather keys rest)
  | header, .pair keys v :: rest, entries =>
    (descend false (addPair keys v) header false entries).bind (gather header rest)

/-! ## Values -/

mutual

/-- An item as a value. -/
def Item.toValue : Item → Value
  | .value v => v
  | .table _ _ entries => .table (entriesToValues entries)
  | .tables all => .list (tablesToValues all).reverse

/-- Entries as values. -/
def entriesToValues : List (String × Item) → List (String × Value)
  | [] => []
  | (key, item) :: rest => (key, item.toValue) :: entriesToValues rest

/-- Tables as values. -/
def tablesToValues : List (List (String × Item)) → List Value
  | [] => []
  | entries :: rest => .table (entriesToValues entries) :: tablesToValues rest

end

end WebBaseline.Toml

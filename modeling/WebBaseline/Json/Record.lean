/-
  WebBaseline.Json.Record

  Records in JSON: an object with known names, or an array with the fields in
  their order. Names that are not known are passed over; a known name given
  twice is refused. A field may be required, optional (absent or null), or
  have a value to fall back on when it is absent.
-/

import WebBaseline.Json.Value

namespace WebBaseline.Json

/-- The fields of a record that is being read. -/
structure Record where
  /-- Whether the fields were given by their order. -/
  positional : Bool
  fields : List (String × Value)

namespace Record

/-- Whether a name occurs twice. -/
def repeats : List String → Bool
  | [] => false
  | n :: ns => ns.contains n || repeats ns

/-- A value as a record with the given field names, in order. -/
def ofValue? (names : List String) : Value → Option Record
  | .obj members =>
    let known := members.filter (fun m => names.contains m.1)
    if repeats (known.map Prod.fst) then none else some ⟨false, known⟩
  | .arr items =>
    if names.length < items.length then none else some ⟨true, names.zip items⟩
  | _ => none

/-- The value of a field, if it is given. -/
def field? (r : Record) (name : String) : Option Value := r.fields.lookup name

/-- A field that must be given. -/
def required {α : Type} (r : Record) (name : String) (read : Value → Option α) : Option α :=
  (r.field? name).bind read

/-- A field that may be null, or absent where the fields are named. -/
def optional {α : Type} (r : Record) (name : String) (read : Value → Option α) :
    Option (Option α) :=
  match r.field? name with
  | none => if r.positional then none else some none
  | some .null => some none
  | some v => (read v).map some

/-- A field with a value to fall back on when it is absent. -/
def orElse {α : Type} (r : Record) (name : String) (fallback : α) (read : Value → Option α) :
    Option α :=
  match r.field? name with
  | none => some fallback
  | some v => read v

/-- A field that may be null or absent, also where the fields are given by order. -/
def optionalOrElse {α : Type} (r : Record) (name : String) (read : Value → Option α) :
    Option (Option α) :=
  match r.field? name with
  | none => some none
  | some .null => some none
  | some v => (read v).map some

end Record

namespace Value

/-! ## Plain values -/

/-- The text of a value that is one. -/
def text? : Value → Option String
  | .str s => some s
  | _ => none

/-- The truth value of a value that is one. -/
def bool? : Value → Option Bool
  | .bool b => some b
  | _ => none

/-- A natural number below a bound. -/
def natBelow? (bound : Nat) : Value → Option Nat
  | .int (.ofNat n) => if n < bound then some n else none
  | _ => none

/-- A natural number of at most 64 bits. -/
def count? : Value → Option Nat := natBelow? UInt64.size

/-- A list, item by item. -/
def list? {α : Type} (read : Value → Option α) : Value → Option (List α)
  | .arr items => items.mapM read
  | _ => none

/-- The members of an object, each read by its value. -/
def members? {α : Type} (read : Value → Option α) : Value → Option (List (String × α))
  | .obj members => members.mapM (fun m => (read m.2).map (fun a => (m.1, a)))
  | _ => none

/-- One of a few names: a text, or an object with that name alone and null. -/
def variant? {α : Type} (named : String → Option α) : Value → Option α
  | .str s => named s
  | .obj [(s, .null)] => named s
  | _ => none

/-- A field that is written only if it is there. -/
def given {α : Type} (name : String) (write : α → Value) : Option α → List (String × Value)
  | none => []
  | some a => [(name, write a)]

end Value

end WebBaseline.Json

/-
  WebBaseline.Proofs.Json.Record

  Records that are written as objects are read back.

    * `Inverse` says of a way to read values that it undoes a way to write them;
    * an object whose names are some of the known ones, in their order, is read
      as just its members (`Record.ofValue?_obj`);
    * a field that is written only if it is there is read as what it was
      (`Record.optional_eq`).
-/

import WebBaseline.Data.KeyMap
import WebBaseline.Json.Record
import WebBaseline.Proofs.Json.RoundTrip

namespace WebBaseline.Json

variable {α : Type}

/-- Reading undoes writing, and what is written is exact and never null. -/
structure Inverse (write : α → Value) (read : Value → Option α) : Prop where
  read_write : ∀ a, read (write a) = some a
  exact_write : ∀ a, (write a).exact = true
  write_ne_null : ∀ a, write a ≠ .null

theorem inverse_text : Inverse Value.str Value.text? where
  read_write _ := rfl
  exact_write _ := rfl
  write_ne_null _ := by simp

/-- A word that stands for one of a few things. -/
theorem inverse_variant {word : α → String} {ofWord? : String → Option α}
    (h : ∀ a, ofWord? (word a) = some a) :
    Inverse (fun a => .str (word a)) (Value.variant? ofWord?) where
  read_write a := h a
  exact_write _ := rfl
  write_ne_null _ := by simp

/-- What is written on one line is read back. -/
theorem Inverse.parse_compact {write : α → Value} {read : Value → Option α}
    (h : Inverse write read) (a : α) : (parse (write a).compact).bind read = some a := by
  rw [Json.parse_compact (h.exact_write a)]
  exact h.read_write a

/-! ## Objects as records -/

namespace Value

theorem exactMembers_append (ms ns : List (String × Value)) :
    exactMembers (ms ++ ns) = (exactMembers ms && exactMembers ns) := by
  induction ms with
  | nil => rfl
  | cons m ms ih =>
    obtain ⟨k, v⟩ := m
    rw [List.cons_append, exactMembers, exactMembers, ih, Bool.and_assoc]

theorem exactMembers_given {write : α → Value} {read : Value → Option α}
    (h : Inverse write read) (name : String) (o : Option α) :
    exactMembers (given name write o) = true := by
  cases o with
  | none => rfl
  | some a => rw [given, exactMembers, h.exact_write, exactMembers, Bool.and_self]

theorem lookup_given (name other : String) (write : α → Value) (o : Option α) :
    (given name write o).lookup other = if other = name then o.map write else none := by
  cases o with
  | none => simp [given]
  | some a =>
    rw [given, Data.KeyMap.lookup_cons_eq_ite]
    rfl

theorem lookup_given_append (name other : String) (write : α → Value) (o : Option α)
    (rest : List (String × Value)) : (given name write o ++ rest).lookup other =
      if other = name then (o.map write).or (rest.lookup other) else rest.lookup other := by
  rw [List.lookup_append, lookup_given]
  split
  · rfl
  · rw [Option.none_or]

theorem names_given (name : String) (write : α → Value) (o : Option α) :
    ((given name write o).map Prod.fst).Sublist [name] := by
  cases o with
  | none => exact List.nil_sublist _
  | some a => exact List.Sublist.refl _

end Value

namespace Record

theorem repeats_eq_false_iff {names : List String} : repeats names = false ↔ names.Nodup := by
  induction names with
  | nil => simp [repeats]
  | cons n ns ih => simp [repeats, ih, List.nodup_cons]

/-- An object with some of the known names, in order, is a record as it is. -/
theorem ofValue?_obj {names : List String} (hnames : names.Nodup)
    {members : List (String × Value)} (h : (members.map Prod.fst).Sublist names) :
    ofValue? names (.obj members) = some ⟨false, members⟩ := by
  have hknown : members.filter (fun m => names.contains m.1) = members := by
    rw [List.filter_eq_self]
    intro m hm
    simpa using h.subset (List.mem_map_of_mem hm)
  rw [ofValue?]
  simp only [hknown, repeats_eq_false_iff.2 (hnames.sublist h), Bool.false_eq_true, if_false]

variable {write : α → Value} {read : Value → Option α}

/-- A field that is written only if it is there. -/
theorem optional_eq (h : Inverse write read) {fields : List (String × Value)} {name : String}
    {o : Option α} (hfield : fields.lookup name = o.map write) :
    optional ⟨false, fields⟩ name read = some o := by
  rw [optional, field?, hfield]
  cases o with
  | none => rfl
  | some a =>
    simp only [Option.map_some]
    split
    · next heq => cases heq
    · next heq => exact absurd (Option.some.inj heq) (h.write_ne_null a)
    · next heq =>
      cases heq
      rw [h.read_write]
      rfl

/-- A field that is always written. -/
theorem required_eq (h : Inverse write read) {fields : List (String × Value)} {name : String}
    {a : α} (hfield : fields.lookup name = some (write a)) :
    required ⟨false, fields⟩ name read = some a := by
  rw [required, field?, hfield]
  exact h.read_write a

end Record

end WebBaseline.Json

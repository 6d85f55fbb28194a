/-
  WebBaseline.Proofs.Baseline.Encoding

  What is known about a feature is read back from its JSON.

    * `KeyMap.ofList_entries`: the entries of a map are the entries of just that
      map;
    * `inverse_info`: reading undoes writing, whichever fields are there.
-/

import WebBaseline.Baseline.Encoding
import WebBaseline.Proofs.Json.Record

namespace WebBaseline.Data.KeyMap

variable {α : Type}

/-- An entry behind all others goes to the end. -/
theorem put_of_lt {key : String} (value : α) {entries : List (String × α)}
    (h : ∀ e ∈ entries, e.1 < key) : put key value entries = entries ++ [(key, value)] := by
  induction entries with
  | nil => rfl
  | cons e rest ih =>
    obtain ⟨k, v⟩ := e
    obtain ⟨hk, hrest⟩ := List.forall_mem_cons.1 h
    have hlt : ¬ key < k := fun hkey => String.lt_irrefl key (String.lt_trans hkey hk)
    have hne : key ≠ k := fun heq => String.lt_irrefl k (heq ▸ hk)
    rw [put, if_neg hlt, if_neg hne, ih hrest]
    rfl

/-- Entries in order are put one behind the other. -/
theorem entries_foldl_insert (m : KeyMap α) (entries : List (String × α))
    (h : InOrder (m.entries ++ entries)) :
    (entries.foldl (fun m e => m.insert e.1 e.2) m).entries = m.entries ++ entries := by
  induction entries generalizing m with
  | nil => simp
  | cons e rest ih =>
    have hlt : ∀ x ∈ m.entries, x.1 < e.1 := fun x hx =>
      (List.pairwise_append.1 h).2.2 x hx e List.mem_cons_self
    have hput : (m.insert e.1 e.2).entries = m.entries ++ [e] := put_of_lt e.2 hlt
    rw [List.foldl_cons, ih (m.insert e.1 e.2) (by rw [hput]; simpa using h), hput]
    simp

theorem ofList_entries (m : KeyMap α) : ofList m.entries = m := by
  have h := entries_foldl_insert empty m.entries m.inOrder
  rw [ofList]
  generalize m.entries.foldl _ empty = n at h ⊢
  obtain ⟨entries, inOrder⟩ := n
  cases h
  rfl

end WebBaseline.Data.KeyMap

namespace WebBaseline.Baseline

open WebBaseline.Data (KeyMap)
open WebBaseline.Json (Inverse Record Value inverse_text inverse_variant)

theorem inverse_status : Inverse Status.toValue Status.ofValue? :=
  inverse_variant Status.ofText?_text

theorem members?_texts (entries : List (String × String)) :
    Value.members? Value.text? (.obj (entries.map (fun e => (e.1, .str e.2)))) = some entries := by
  rw [Value.members?]
  induction entries with
  | nil => rfl
  | cons e rest ih =>
    rw [List.map_cons, List.mapM_cons, ih]
    rfl

theorem exactMembers_texts (entries : List (String × String)) :
    Value.exactMembers (entries.map (fun e => (e.1, .str e.2))) = true := by
  induction entries with
  | nil => rfl
  | cons e rest ih =>
    rw [List.map_cons, Value.exactMembers, ih]
    rfl

theorem inverse_textMap : Inverse textMapToValue textMapOfValue? where
  read_write m := by
    rw [textMapOfValue?, textMapToValue, members?_texts, Option.map_some, KeyMap.ofList_entries]
  exact_write m := by
    rw [textMapToValue, Value.exact]
    exact exactMembers_texts m.entries
  write_ne_null m := by
    rw [textMapToValue]
    simp

namespace Info

/-- The names that fields are written with are known ones, in order. -/
theorem names_fields (info : Info) :
    (info.fields.map Prod.fst).Sublist
      ["status", "lowDate", "highDate", "support", "description", "spec"] := by
  rw [fields, List.map_cons]
  simp only [List.map_append]
  exact ((((Value.names_given "lowDate" _ _).append (Value.names_given "highDate" _ _)).append
    (Value.names_given "support" _ _)).append (Value.names_given "description" _ _)).append
    (Value.names_given "spec" _ _) |>.cons_cons "status"

theorem ofValue?_toValue (info : Info) : ofValue? info.toValue = some info := by
  have status : info.fields.lookup "status" = some info.status.toValue := by simp [fields]
  have lowDate : info.fields.lookup "lowDate" = info.lowDate.map .str := by
    simp [fields, KeyMap.lookup_cons_eq_ite, Value.lookup_given, Value.lookup_given_append]
  have highDate : info.fields.lookup "highDate" = info.highDate.map .str := by
    simp [fields, KeyMap.lookup_cons_eq_ite, Value.lookup_given, Value.lookup_given_append]
  have support : info.fields.lookup "support" = info.support.map textMapToValue := by
    simp [fields, KeyMap.lookup_cons_eq_ite, Value.lookup_given, Value.lookup_given_append]
  have description : info.fields.lookup "description" = info.description.map .str := by
    simp [fields, KeyMap.lookup_cons_eq_ite, Value.lookup_given, Value.lookup_given_append]
  have spec : info.fields.lookup "spec" = info.spec.map .str := by
    simp [fields, KeyMap.lookup_cons_eq_ite, Value.lookup_given, Value.lookup_given_append]
  rw [ofValue?, toValue, Record.ofValue?_obj (by decide) info.names_fields]
  simp only [Option.bind_eq_bind, Option.bind_some,
    Record.required_eq inverse_status status, Record.optional_eq inverse_text lowDate,
    Record.optional_eq inverse_text highDate, Record.optional_eq inverse_textMap support,
    Record.optional_eq inverse_text description, Record.optional_eq inverse_text spec]
  rfl

theorem exact_toValue (info : Info) : info.toValue.exact = true := by
  rw [toValue, Value.exact, fields, Value.exactMembers, inverse_status.exact_write]
  simp only [Value.exactMembers_append, Value.exactMembers_given inverse_text,
    Value.exactMembers_given inverse_textMap, Bool.and_self]

end Info

theorem inverse_info : Inverse Info.toValue Info.ofValue? where
  read_write := Info.ofValue?_toValue
  exact_write := Info.exact_toValue
  write_ne_null info := by
    rw [Info.toValue]
    simp

end WebBaseline.Baseline

/-
  WebBaseline.Proofs.Lookup.Encoding

  A dataset does not depend on the order in which its document lists the features.

    * an object whose keys differ is read as the same map in any order
      (`mapOfValue?_perm`);
    * so documents that are `Relisted` are one dataset (`ofValue?_of_relisted`).
-/

import WebBaseline.Lookup.Encoding
import WebBaseline.Proofs.Data.KeyMap
import WebBaseline.Proofs.Data.Lists

namespace WebBaseline.Lookup

open WebBaseline.Data (KeyMap exists_mapM_perm mapM_eq_some_iff map_filterMap_sublist)
open WebBaseline.Json (Record Value)

variable {α : Type} {read : Value → Option α} {ms ms' : List (String × Value)}

/-! ## Objects as maps -/

theorem keys_sublist_of_members? {es : List (String × α)}
    (h : Value.members? read (.obj ms) = some es) :
    (es.map Prod.fst).Sublist (ms.map Prod.fst) := by
  obtain ⟨-, rfl⟩ := mapM_eq_some_iff.1 h
  refine map_filterMap_sublist ?_
  intro m e he
  obtain ⟨a, -, rfl⟩ := Option.map_eq_some_iff.1 he
  rfl

theorem mapOfValue?_eq_of_perm {es : List (String × α)} (h : ms.Perm ms')
    (hkeys : (ms.map Prod.fst).Nodup) (hes : Value.members? read (.obj ms) = some es) :
    mapOfValue? read (.obj ms) = mapOfValue? read (.obj ms') := by
  obtain ⟨es', hes', hperm⟩ := exists_mapM_perm h hes
  have hes' : Value.members? read (.obj ms') = some es' := hes'
  have hdistinct : (es.map Prod.fst).Nodup := hkeys.sublist (keys_sublist_of_members? hes)
  rw [mapOfValue?, mapOfValue?, hes, hes', Option.map_some, Option.map_some,
    KeyMap.ofList_perm hperm hdistinct]

/-- An object whose keys differ is the same map in any order. -/
theorem mapOfValue?_perm (h : ms.Perm ms') (hkeys : (ms.map Prod.fst).Nodup) :
    mapOfValue? read (.obj ms) = mapOfValue? read (.obj ms') := by
  have hkeys' : (ms'.map Prod.fst).Nodup := (h.map Prod.fst).nodup_iff.1 hkeys
  cases hes : Value.members? read (.obj ms) with
  | some es => exact mapOfValue?_eq_of_perm h hkeys hes
  | none =>
    cases hes' : Value.members? read (.obj ms') with
    | some es' => exact (mapOfValue?_eq_of_perm h.symm hkeys' hes').symm
    | none => rw [mapOfValue?, mapOfValue?, hes, hes']

/-! ## Documents -/

/-- What a record says depends on its one field by what is read there. -/
theorem soleField?_obj_congr {name : String} {v v' : Value} (h : read v = read v')
    (before after : List (String × Value)) :
    soleField? name read (.obj (before ++ (name, v) :: after)) =
      soleField? name read (.obj (before ++ (name, v') :: after)) := by
  -- the two have the same names, so both repeat one or neither does
  have hknown : ∀ w, (before ++ (name, w) :: after).filter (fun m => [name].contains m.1) =
      before.filter (fun m => [name].contains m.1) ++
        (name, w) :: after.filter (fun m => [name].contains m.1) := by
    intro w
    rw [List.filter_append, List.filter_cons_of_pos (by simp)]
  rw [soleField?, soleField?, Record.ofValue?, Record.ofValue?]
  simp only [hknown, List.map_append, List.map_cons]
  split
  · rfl
  · show Record.required _ name read = Record.required _ name read
    rw [Record.required, Record.required, Record.field?, Record.field?]
    simp only [List.lookup_append, KeyMap.lookup_cons_self]
    cases (before.filter (fun m => [name].contains m.1)).lookup name with
    | some u => rfl
    | none => exact h

theorem soleField?_arr_congr {name : String} {v v' : Value} (h : read v = read v') :
    soleField? name read (.arr [v]) = soleField? name read (.arr [v']) := by
  have hfield : ∀ w, soleField? name read (.arr [w]) = read w := by
    intro w
    show ((List.zip [name] [w]).lookup name).bind read = read w
    rw [List.zip_cons_cons, KeyMap.lookup_cons_self]
    rfl
  rw [hfield, hfield, h]

/-- Whether two documents list the same features, with different keys, in
    whatever order: as the field of an object, or in its place. -/
inductive Relisted : Value → Value → Prop
  | named (before after : List (String × Value)) {ms ms' : List (String × Value)}
      (perm : ms.Perm ms') (keys : (ms.map Prod.fst).Nodup) :
      Relisted (.obj (before ++ ("features", .obj ms) :: after))
        (.obj (before ++ ("features", .obj ms') :: after))
  | placed {ms ms' : List (String × Value)} (perm : ms.Perm ms')
      (keys : (ms.map Prod.fst).Nodup) : Relisted (.arr [.obj ms]) (.arr [.obj ms'])

theorem Dataset.ofValue?_eq_map (v : Value) :
    Dataset.ofValue? v =
      (soleField? "features" (mapOfValue? Entry.ofValue?) v).map Dataset.mk := by
  rw [Dataset.ofValue?, soleField?]
  cases Record.ofValue? ["features"] v with
  | none => rfl
  | some r =>
    show (r.required "features" _).bind _ = (r.required "features" _).map _
    rw [Option.map_eq_bind]
    rfl

/-- Documents that list the same features are one dataset. -/
theorem Dataset.ofValue?_of_relisted {v v' : Value} (h : Relisted v v') :
    Dataset.ofValue? v = Dataset.ofValue? v' := by
  rw [Dataset.ofValue?_eq_map, Dataset.ofValue?_eq_map]
  cases h with
  | named before after perm keys =>
    rw [soleField?_obj_congr (mapOfValue?_perm perm keys) before after]
  | placed perm keys =>
    rw [soleField?_arr_congr (mapOfValue?_perm perm keys)]

end WebBaseline.Lookup

/-
  WebBaseline.Proofs.Data.KeyMap

  What a map holds, seen from its entries.

    * what is read under a key is the entry with that key (`get?_eq_some_iff`),
      also in a map built from entries with different keys (`get?_ofList`), in
      whichever order these were given (`ofList_perm`);
    * the first entry that answers a question is the one with the least key among
      those that do (`findSome?_entries_eq_some_iff`).
-/

import WebBaseline.Data.KeyMap

namespace WebBaseline.Data.KeyMap

variable {α β : Type} {key : String} {value : α} {entries xs ys : List (String × α)}

/-! ## Entries and keys -/

theorem nodup_of_inOrder (h : InOrder entries) : (entries.map Prod.fst).Nodup := by
  rw [List.Nodup, List.pairwise_map]
  refine h.imp ?_
  intro a b hlt
  exact String.ne_of_lt hlt

theorem lookup_eq_some_iff_mem (hkeys : (entries.map Prod.fst).Nodup) :
    entries.lookup key = some value ↔ (key, value) ∈ entries := by
  induction entries with
  | nil => simp
  | cons e rest ih =>
    obtain ⟨k, v⟩ := e
    rw [List.map_cons, List.nodup_cons] at hkeys
    rw [lookup_cons_eq_ite, List.mem_cons, Prod.mk.injEq, ← ih hkeys.2]
    by_cases hk : key = k
    · subst hk
      have hrest : rest.lookup key ≠ some value := by
        intro h
        exact hkeys.1 (List.mem_map.2 ⟨(key, value), (ih hkeys.2).1 h, rfl⟩)
      simp [hrest, eq_comm]
    · simp [hk]

theorem get?_eq_some_iff (m : KeyMap α) : m.get? key = some value ↔ (key, value) ∈ m.entries :=
  lookup_eq_some_iff_mem (nodup_of_inOrder m.inOrder)

/-- What holds of all that a map holds can be checked entry by entry. -/
theorem forall_get?_iff (m : KeyMap α) {p : String → α → Prop} :
    (∀ key value, m.get? key = some value → p key value) ↔ ∀ e ∈ m.entries, p e.1 e.2 := by
  simp only [get?_eq_some_iff, Prod.forall]

/-! ## Maps of many entries -/

theorem get?_foldl_insert (hkeys : (entries.map Prod.fst).Nodup) (m : KeyMap α) (key : String) :
    (entries.foldl (fun m e => m.insert e.1 e.2) m).get? key =
      (entries.lookup key).or (m.get? key) := by
  -- the induction is on the entries still to come; `m` is the map of those put in before
  induction entries generalizing m with
  | nil => rfl
  | cons e rest ih =>
    obtain ⟨k, v⟩ := e
    rw [List.map_cons, List.nodup_cons] at hkeys
    rw [List.foldl_cons, ih hkeys.2, get?_insert, lookup_cons_eq_ite]
    by_cases hk : key = k
    · subst hk
      have hrest : rest.lookup key = none := by
        rw [List.lookup_eq_none_iff]
        intro e he
        have hne : key ≠ e.1 := fun heq => hkeys.1 (List.mem_map.2 ⟨e, he, heq.symm⟩)
        simpa using hne
      rw [if_pos rfl, if_pos rfl, hrest]
      rfl
    · rw [if_neg hk, if_neg hk]

theorem get?_ofList (hkeys : (entries.map Prod.fst).Nodup) (key : String) :
    (ofList entries).get? key = entries.lookup key := by
  rw [ofList, get?_foldl_insert hkeys, get?_empty, Option.or_none]

/-- The order of entries does not matter for their map, if no two have one key. -/
theorem ofList_perm (h : xs.Perm ys) (hkeys : (xs.map Prod.fst).Nodup) :
    ofList xs = ofList ys := by
  have hkeys' : (ys.map Prod.fst).Nodup := (h.map Prod.fst).nodup_iff.1 hkeys
  refine ext_get? fun key => ?_
  rw [get?_ofList hkeys, get?_ofList hkeys']
  exact lookup_perm h hkeys key

/-! ## The first answer -/

/-- The first entry that answers is the one with the least key of those that do. -/
theorem findSome?_entries_eq_some_iff (m : KeyMap α) (f : String × α → Option β) {b : β} :
    m.entries.findSome? f = some b ↔
      ∃ key value, m.get? key = some value ∧ f (key, value) = some b ∧
        ∀ other v, m.get? other = some v → other < key → f (other, v) = none := by
  simp only [get?_eq_some_iff]
  have hsorted : InOrder m.entries := m.inOrder
  rw [List.findSome?_eq_some_iff]
  constructor
  · rintro ⟨front, ⟨key, value⟩, back, hsplit, hb, hfront⟩
    rw [hsplit, InOrder, List.pairwise_append, List.pairwise_cons] at hsorted
    obtain ⟨-, ⟨hback, -⟩, -⟩ := hsorted
    refine ⟨key, value, by rw [hsplit]; simp, hb, ?_⟩
    intro other v hmem hlt
    rw [hsplit] at hmem
    rcases List.mem_append.1 hmem with hmem | hmem
    · exact hfront _ hmem
    · -- the entry itself and those behind it have no smaller key
      rcases List.mem_cons.1 hmem with heq | hmem
      · cases heq
        exact absurd hlt (String.lt_irrefl _)
      · exact absurd hlt (String.lt_asymm (hback _ hmem))
  · rintro ⟨key, value, hmem, hb, hsmaller⟩
    obtain ⟨front, back, hsplit⟩ := List.append_of_mem hmem
    refine ⟨front, (key, value), back, hsplit, hb, ?_⟩
    rintro ⟨other, v⟩ hother
    rw [hsplit, InOrder, List.pairwise_append] at hsorted
    have hlt : other < key := hsorted.2.2 _ hother _ List.mem_cons_self
    exact hsmaller other v (by rw [hsplit]; exact List.mem_append_left _ hother) hlt

theorem findSome?_entries_eq_none_iff (m : KeyMap α) (f : String × α → Option β) :
    m.entries.findSome? f = none ↔
      ∀ key value, m.get? key = some value → f (key, value) = none := by
  rw [List.findSome?_eq_none_iff, forall_get?_iff m]

end WebBaseline.Data.KeyMap

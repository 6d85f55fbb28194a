/-
  WebBaseline.Data.KeyMap

  Maps from texts, held as entries in the order of their keys. Two maps that
  hold the same entries are equal.

    * `insert` puts one entry, in place of an older one under the same key;
    * `ofList` puts many, the last one under a key wins;
    * `get?` reads, and tells maps apart (`ext_get?`).
-/

namespace WebBaseline.Data

/-- Entries in the strict order of their keys. -/
def InOrder {α : Type} (entries : List (String × α)) : Prop :=
  entries.Pairwise (fun a b => a.1 < b.1)

/-- A map from texts. -/
structure KeyMap (α : Type) where
  entries : List (String × α)
  inOrder : InOrder entries
  deriving DecidableEq

namespace KeyMap

variable {α β : Type}

/-! ## Order of keys -/

theorem lt_of_not_lt_of_ne {a b : String} (h : ¬ a < b) (hne : a ≠ b) : b < a := by
  refine Decidable.by_contra fun hba => hne ?_
  exact String.le_antisymm (String.not_lt.1 hba) (String.not_lt.1 h)

/-! ## Entries -/

/-- Puts an entry among entries in order. -/
def put (key : String) (value : α) : List (String × α) → List (String × α)
  | [] => [(key, value)]
  | (k, v) :: rest =>
    if key < k then (key, value) :: (k, v) :: rest
    else if key = k then (key, value) :: rest
    else (k, v) :: put key value rest

theorem mem_put {key : String} {value : α} {e : String × α} {entries : List (String × α)}
    (h : e ∈ put key value entries) : e = (key, value) ∨ e ∈ entries := by
  induction entries with
  | nil => simpa [put] using h
  | cons x rest ih =>
    obtain ⟨k, v⟩ := x
    rw [put] at h
    split at h
    · rcases List.mem_cons.1 h with h | h
      · exact Or.inl h
      · exact Or.inr h
    · split at h
      · rcases List.mem_cons.1 h with h | h
        · exact Or.inl h
        · exact Or.inr (List.mem_cons_of_mem _ h)
      · rcases List.mem_cons.1 h with h | h
        · exact Or.inr (h ▸ List.mem_cons_self)
        · exact (ih h).imp id (List.mem_cons_of_mem _)

theorem inOrder_put (key : String) (value : α) {entries : List (String × α)}
    (h : InOrder entries) : InOrder (put key value entries) := by
  induction entries with
  | nil => exact List.pairwise_singleton _ _
  | cons x rest ih =>
    obtain ⟨k, v⟩ := x
    obtain ⟨hk, hrest⟩ := List.pairwise_cons.1 h
    rw [put]
    split
    · next hlt =>
      refine List.pairwise_cons.2 ⟨fun e he => ?_, h⟩
      rcases List.mem_cons.1 he with rfl | he
      · exact hlt
      · exact String.lt_trans hlt (hk e he)
    · next hnlt =>
      split
      · next heq =>
        subst heq
        exact List.pairwise_cons.2 ⟨hk, hrest⟩
      · next hne =>
        refine List.pairwise_cons.2 ⟨fun e he => ?_, ih hrest⟩
        rcases mem_put he with rfl | he
        · exact lt_of_not_lt_of_ne hnlt hne
        · exact hk e he

/-! ## Building -/

/-- The map without entries. -/
def empty : KeyMap α := ⟨[], List.Pairwise.nil⟩

instance : Inhabited (KeyMap α) := ⟨empty⟩

/-- The map with one more entry, or with a new value under an old key. -/
def insert (m : KeyMap α) (key : String) (value : α) : KeyMap α :=
  ⟨put key value m.entries, inOrder_put key value m.inOrder⟩

/-- The map of many entries; the last one under a key wins. -/
def ofList (entries : List (String × α)) : KeyMap α :=
  entries.foldl (fun m e => m.insert e.1 e.2) empty

/-- The map with every value changed. -/
def map (m : KeyMap α) (f : α → β) : KeyMap β :=
  ⟨m.entries.map (fun e => (e.1, f e.2)), by
    have h := m.inOrder
    rw [InOrder] at h ⊢
    exact List.pairwise_map.2 h⟩

/-! ## Reading -/

/-- The value under a key. -/
def get? (m : KeyMap α) (key : String) : Option α := m.entries.lookup key

/-- How many entries there are. -/
def size (m : KeyMap α) : Nat := m.entries.length

/-- Whether there are no entries. -/
def isEmpty (m : KeyMap α) : Bool := m.entries.isEmpty

/-! ## What is read after a change -/

theorem lookup_cons_eq_ite (key k : String) (v : α) (rest : List (String × α)) :
    ((k, v) :: rest).lookup key = if key = k then some v else rest.lookup key := by
  by_cases h : key = k
  · simp [h]
  · have hk : (key == k) = false := by simpa using h
    simp [List.lookup_cons, hk, h]

@[simp] theorem lookup_cons_self (key : String) (value : α) (rest : List (String × α)) :
    ((key, value) :: rest).lookup key = some value := by
  rw [lookup_cons_eq_ite, if_pos rfl]

theorem lookup_put (key other : String) (value : α) (entries : List (String × α)) :
    (put key value entries).lookup other =
      if other = key then some value else entries.lookup other := by
  induction entries with
  | nil => rw [put, lookup_cons_eq_ite]
  | cons x rest ih =>
    obtain ⟨k, v⟩ := x
    rw [put]
    split
    · rw [lookup_cons_eq_ite]
    · split
      · next heq =>
        subst heq
        rw [lookup_cons_eq_ite, lookup_cons_eq_ite]
        split <;> rfl
      · next hne =>
        rw [lookup_cons_eq_ite, lookup_cons_eq_ite, ih]
        by_cases h : other = k
        · subst h
          rw [if_pos rfl, if_pos rfl, if_neg (Ne.symm hne)]
        · rw [if_neg h, if_neg h]

@[simp] theorem get?_empty (key : String) : (empty : KeyMap α).get? key = none := rfl

theorem get?_insert (m : KeyMap α) (key other : String) (value : α) :
    (m.insert key value).get? other = if other = key then some value else m.get? other :=
  lookup_put key other value m.entries

@[simp] theorem get?_insert_self (m : KeyMap α) (key : String) (value : α) :
    (m.insert key value).get? key = some value := by
  simp [get?_insert]

theorem get?_insert_of_ne (m : KeyMap α) {key other : String} (value : α) (h : other ≠ key) :
    (m.insert key value).get? other = m.get? other := by
  simp [get?_insert, h]

theorem lookup_filter_key (p : String → Bool) (key : String) (entries : List (String × α)) :
    (entries.filter (fun e => p e.1)).lookup key =
      if p key then entries.lookup key else none := by
  induction entries with
  | nil => simp
  | cons x rest ih =>
    obtain ⟨k, v⟩ := x
    by_cases hk : p k = true
    · rw [List.filter_cons_of_pos (by simpa using hk), lookup_cons_eq_ite, ih, lookup_cons_eq_ite]
      by_cases h : key = k
      · subst h
        rw [if_pos rfl, if_pos rfl, if_pos hk]
      · rw [if_neg h, if_neg h]
    · rw [List.filter_cons_of_neg (by simpa using hk), ih, lookup_cons_eq_ite]
      by_cases h : key = k
      · subst h
        rw [if_neg hk, if_neg hk]
      · rw [if_neg h]

theorem lookup_filter_ne (key other : String) (entries : List (String × α)) :
    (entries.filter (fun e => e.1 != key)).lookup other =
      if other = key then none else entries.lookup other := by
  rw [lookup_filter_key (· != key)]
  by_cases h : other = key <;> simp [h]

/-- The order of entries does not matter for what is found, if no two have one
    key. -/
theorem lookup_perm {xs ys : List (String × α)} (h : xs.Perm ys) (hkeys : (xs.map Prod.fst).Nodup)
    (key : String) : xs.lookup key = ys.lookup key := by
  induction h with
  | nil => rfl
  | cons x h ih =>
    rw [List.map_cons, List.nodup_cons] at hkeys
    rw [lookup_cons_eq_ite, lookup_cons_eq_ite, ih hkeys.2]
  | swap x y rest =>
    have hne : y.1 ≠ x.1 := by
      intro heq
      rw [List.map_cons, List.map_cons, List.nodup_cons, heq] at hkeys
      exact hkeys.1 List.mem_cons_self
    rw [lookup_cons_eq_ite, lookup_cons_eq_ite, lookup_cons_eq_ite, lookup_cons_eq_ite]
    by_cases hy : key = y.1
    · rw [if_pos hy, if_neg (fun hx => hne (hy.symm.trans hx)), if_pos hy]
    · rw [if_neg hy, if_neg hy]
  | trans h₁ h₂ ih₁ ih₂ =>
    have hmid := (h₁.map Prod.fst).nodup_iff.1 hkeys
    rw [ih₁ hkeys, ih₂ hmid]

/-! ## Equality -/

/-- A key before all others is none of them. -/
theorem lookup_of_forall_lt {key : String} {entries : List (String × α)}
    (h : ∀ e ∈ entries, key < e.1) : entries.lookup key = none := by
  refine List.lookup_eq_none_iff.2 fun e he => ?_
  simpa using String.ne_of_lt (h e he)

/-- Entries in order are known by what can be looked up in them. -/
theorem eq_of_lookup_eq {xs ys : List (String × α)} (hxs : InOrder xs) (hys : InOrder ys)
    (h : ∀ key, xs.lookup key = ys.lookup key) : xs = ys := by
  induction xs generalizing ys with
  | nil =>
    cases ys with
    | nil => rfl
    | cons y ys =>
      have hy := h y.1
      rw [lookup_cons_self] at hy
      cases hy
  | cons x xs ih =>
    obtain ⟨k, v⟩ := x
    obtain ⟨hk, hxs⟩ := List.pairwise_cons.1 hxs
    have hfirst := h k
    rw [lookup_cons_self] at hfirst
    cases ys with
    | nil => cases hfirst
    | cons y ys =>
      obtain ⟨l, w⟩ := y
      obtain ⟨hl, hrest⟩ := List.pairwise_cons.1 hys
      -- the smaller one of two first keys would be in one list only
      have hkl : k = l := by
        refine Decidable.by_contra fun hne => ?_
        by_cases hlt : k < l
        · have hnone : ((l, w) :: ys).lookup k = none :=
            lookup_of_forall_lt (List.forall_mem_cons.2
              ⟨hlt, fun e he => String.lt_trans hlt (hl e he)⟩)
          rw [hnone] at hfirst
          cases hfirst
        · have hlt := lt_of_not_lt_of_ne hlt hne
          have hnone : ((k, v) :: xs).lookup l = none :=
            lookup_of_forall_lt (List.forall_mem_cons.2
              ⟨hlt, fun e he => String.lt_trans hlt (hk e he)⟩)
          have hsecond := h l
          rw [hnone, lookup_cons_self] at hsecond
          cases hsecond
      subst hkl
      rw [lookup_cons_self] at hfirst
      cases hfirst
      have htails : ∀ key, xs.lookup key = ys.lookup key := by
        intro key
        by_cases hkey : key = k
        · subst hkey
          rw [lookup_of_forall_lt hk, lookup_of_forall_lt hl]
        · have hboth := h key
          rwa [lookup_cons_eq_ite, lookup_cons_eq_ite, if_neg hkey, if_neg hkey] at hboth
      exact congrArg ((k, v) :: ·) (ih hxs hrest htails)

/-- Maps that hold the same entries are equal. -/
theorem ext_get? {m n : KeyMap α} (h : ∀ key, m.get? key = n.get? key) : m = n := by
  obtain ⟨xs, hxs⟩ := m
  obtain ⟨ys, hys⟩ := n
  obtain rfl : xs = ys := eq_of_lookup_eq hxs hys h
  rfl

end KeyMap

end WebBaseline.Data

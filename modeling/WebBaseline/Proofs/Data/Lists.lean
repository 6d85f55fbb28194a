/-
  WebBaseline.Proofs.Data.Lists

  Lists that are read item by item, and the ends that are left off them.

    * reading succeeds exactly if every item can be read (`mapM_eq_none_iff`), and
      gives what the items give (`mapM_eq_some_iff`);
    * a list in another order gives the same in another order (`exists_mapM_perm`);
    * the names of what could be read are among the names of all items, in their
      order (`map_filterMap_sublist`), and what could be read shows what the items
      show that it was read off (`flatMap_filterMap`);
    * items show one after the other what each of them shows (`inTurn_iff`);
    * the first item of a list with a property, and what stands behind it, is what is
      found by a test for the property (`find?_eq_some_iff_isFirst`);
    * the front of a list with the first item that passes a test is looked for from left
      to right (`through?`);
    * an item stays in front of the first one that fails a test if it and all before
      it pass (`mem_takeWhile_iff`), so what stays is known from where that one stands
      (`takeWhile_append_cons`, `dropWhile_append_cons`); one more that fails at the end
      changes nothing before it (`takeWhile_concat`, `dropWhile_concat`); of copies in
      front of a list nothing stays (`dropWhile_beq_eq_iff`).
-/

namespace WebBaseline.Data

variable {α β : Type} {f : α → Option β} {as as' : List α} {bs : List β}

theorem mapM_eq_some_iff :
    as.mapM f = some bs ↔ (∀ a ∈ as, ∃ b, f a = some b) ∧ as.filterMap f = bs := by
  induction as generalizing bs with
  | nil => simp
  | cons a as ih =>
    rw [List.mapM_cons, List.forall_mem_cons, List.filterMap_cons]
    cases ha : f a with
    | none => simp
    | some b =>
      constructor
      · intro h
        obtain ⟨_, hfirst, h⟩ := Option.bind_eq_some_iff.1 h
        obtain rfl := Option.some.inj hfirst
        obtain ⟨rest, hrest, hbs⟩ := Option.bind_eq_some_iff.1 h
        obtain ⟨hread, rfl⟩ := ih.1 hrest
        exact ⟨⟨⟨_, rfl⟩, hread⟩, Option.some.inj hbs⟩
      · rintro ⟨⟨-, hread⟩, rfl⟩
        have hrest : as.mapM f = some (as.filterMap f) := ih.2 ⟨hread, rfl⟩
        rw [hrest]
        rfl

theorem mapM_eq_none_iff : as.mapM f = none ↔ ∃ a ∈ as, f a = none := by
  constructor
  · intro h
    refine Classical.byContradiction fun hall => ?_
    have hread : ∀ a ∈ as, ∃ b, f a = some b := by
      intro a ha
      exact Option.ne_none_iff_exists'.1 (fun hnone => hall ⟨a, ha, hnone⟩)
    rw [mapM_eq_some_iff.2 ⟨hread, rfl⟩] at h
    cases h
  · rintro ⟨a, ha, hnone⟩
    cases h : as.mapM f with
    | none => rfl
    | some bs =>
      obtain ⟨b, hb⟩ := (mapM_eq_some_iff.1 h).1 a ha
      rw [hnone] at hb
      cases hb

theorem mapM_congr {g : α → Option β} (h : ∀ a ∈ as, f a = g a) : as.mapM f = as.mapM g := by
  induction as with
  | nil => rfl
  | cons a as ih =>
    rw [List.forall_mem_cons] at h
    rw [List.mapM_cons, List.mapM_cons, h.1, ih h.2]

/-- What a list gives, a list of the same items gives in another order. -/
theorem exists_mapM_perm (h : as.Perm as') (hbs : as.mapM f = some bs) :
    ∃ bs', as'.mapM f = some bs' ∧ bs.Perm bs' := by
  obtain ⟨hread, rfl⟩ := mapM_eq_some_iff.1 hbs
  refine ⟨as'.filterMap f, ?_, h.filterMap f⟩
  exact mapM_eq_some_iff.2 ⟨fun a ha => hread a (h.mem_iff.2 ha), rfl⟩

/-! ## What stays of a list -/

/-- What is left of the names of a list, where each item is read under its own name. -/
theorem map_filterMap_sublist {γ : Type} {g : β → γ} {name : α → γ}
    (h : ∀ a b, f a = some b → g b = name a) :
    ((as.filterMap f).map g).Sublist (as.map name) := by
  induction as with
  | nil => exact List.Sublist.refl _
  | cons a as ih =>
    rw [List.map_cons]
    cases ha : f a with
    | none =>
      rw [List.filterMap_cons_none ha]
      exact ih.cons (name a)
    | some b =>
      rw [List.filterMap_cons_some ha, List.map_cons, h a b ha]
      exact ih.cons_cons (name a)

/-- What the items of a list show, where each is read off an entry. -/
theorem flatMap_filterMap {γ : Type} {g : α → List γ} {h : β → List γ}
    (hitem : ∀ a, g a = (f a).toList.flatMap h) (as : List α) :
    (as.filterMap f).flatMap h = as.flatMap g := by
  induction as with
  | nil => rfl
  | cons a as ih =>
    rw [List.flatMap_cons, hitem a]
    cases ha : f a with
    | none =>
      rw [List.filterMap_cons_none ha, ih]
      rfl
    | some b => rw [List.filterMap_cons_some ha, List.flatMap_cons, ih, Option.toList_some,
        List.flatMap_singleton]

/-! ## What items show in turn -/

/-- What the items of a list show, one after the other. -/
inductive InTurn (Shows : α → List β → Prop) : List α → List β → Prop
  | nil : InTurn Shows [] []
  | cons {a : α} {as : List α} {bs rest : List β} (head : Shows a bs)
      (tail : InTurn Shows as rest) : InTurn Shows (a :: as) (bs ++ rest)

theorem inTurn_iff {Shows : α → List β → Prop} {g : α → List β}
    (h : ∀ a bs, Shows a bs ↔ bs = g a) : InTurn Shows as bs ↔ bs = as.flatMap g := by
  constructor
  · intro hbs
    induction hbs with
    | nil => rfl
    | cons head _ ih => rw [List.flatMap_cons, (h _ _).1 head, ih]
  · rintro rfl
    induction as with
    | nil => exact .nil
    | cons a as ih => exact .cons ((h a _).2 rfl) ih

/-- What an item shows that shows one thing or none. -/
inductive AtMostOne (Shows : α → β → Prop) (a : α) : List β → Prop
  | one {b : β} (shown : Shows a b) : AtMostOne Shows a [b]
  | none (silent : ∀ b, ¬ Shows a b) : AtMostOne Shows a []

theorem atMostOne_iff {Shows : α → β → Prop} {g : α → List β} {a : α}
    (hmem : ∀ b, b ∈ g a ↔ Shows a b) (hone : (g a).length ≤ 1) :
    AtMostOne Shows a bs ↔ bs = g a := by
  constructor
  · rintro (hshown | hsilent)
    · obtain ⟨c, hc⟩ := List.length_eq_one_iff.1
        (Nat.le_antisymm hone (List.length_pos_of_mem ((hmem _).2 hshown)))
      have hb := (hmem _).2 hshown
      rw [hc] at hb ⊢
      rw [List.mem_singleton.1 hb]
    · exact (List.eq_nil_iff_forall_not_mem.2 fun b hb => hsilent b ((hmem b).1 hb)).symm
  · rintro rfl
    cases hg : g a with
    | nil => exact .none fun b hb => by simpa [hg] using (hmem b).2 hb
    | cons b rest =>
      obtain rfl : rest = [] := List.length_eq_zero_iff.1 (by simpa [hg] using hone)
      exact .one ((hmem b).1 (hg ▸ List.mem_singleton_self b))

/-! ## The first item with a property -/

/-- The first item of a list with a property, and the items behind it. -/
inductive IsFirst (p : α → Prop) : List α → α → List α → Prop
  | here {a : α} {as : List α} (holds : p a) : IsFirst p (a :: as) a as
  | later {a b : α} {as rest : List α} (fails : ¬ p b) (tail : IsFirst p as a rest) :
      IsFirst p (b :: as) a rest

namespace IsFirst

variable {p : α → Prop} {a b : α} {rest : List α}

theorem cons_iff_of_holds (hb : p b) : IsFirst p (b :: as) a rest ↔ b = a ∧ as = rest := by
  constructor
  · rintro (- | ⟨hfails, -⟩)
    · exact ⟨rfl, rfl⟩
    · exact absurd hb hfails
  · rintro ⟨rfl, rfl⟩
    exact .here hb

theorem cons_iff_of_fails (hb : ¬ p b) : IsFirst p (b :: as) a rest ↔ IsFirst p as a rest := by
  constructor
  · rintro (hholds | ⟨-, htail⟩)
    · exact absurd hholds hb
    · exact htail
  · exact .later hb

end IsFirst

theorem find?_eq_some_iff_isFirst {p : α → Prop} {test : α → Bool}
    (htest : ∀ a, test a = true ↔ p a) {a : α} :
    as.find? test = some a ↔ ∃ rest, IsFirst p as a rest := by
  induction as with
  | nil =>
    constructor
    · intro h
      cases h
    · rintro ⟨rest, h⟩
      cases h
  | cons b as ih =>
    by_cases hb : p b
    · rw [List.find?_cons_of_pos ((htest b).2 hb), Option.some.injEq]
      simp only [IsFirst.cons_iff_of_holds hb, exists_and_left, exists_eq', and_true]
    · rw [List.find?_cons_of_neg (mt (htest b).1 hb), ih]
      simp only [IsFirst.cons_iff_of_fails hb]

/-! ## Items that pass a test -/

theorem mem_takeWhile_iff {p : α → Bool} {a : α} :
    a ∈ as.takeWhile p ↔
      ∃ front back, as = front ++ a :: back ∧ ∀ x ∈ front ++ [a], p x = true := by
  constructor
  · intro h
    obtain ⟨front, back, hsplit⟩ := List.append_of_mem h
    have hall : ∀ x ∈ as.takeWhile p, p x = true := List.all_eq_true.1 List.all_takeWhile
    refine ⟨front, back ++ as.dropWhile p, ?_, ?_⟩
    · rw [← List.cons_append, ← List.append_assoc, ← hsplit, List.takeWhile_append_dropWhile]
    · intro x hx
      refine hall x ?_
      rw [hsplit, List.append_cons]
      exact List.mem_append_left back hx
  · rintro ⟨front, back, rfl, hall⟩
    rw [List.append_cons, List.takeWhile_append_of_pos hall]
    exact List.mem_append_left _ (List.mem_append_right front List.mem_cons_self)

theorem takeWhile_congr {p q : α → Bool} (h : ∀ a ∈ as, p a = q a) :
    as.takeWhile p = as.takeWhile q := by
  induction as with
  | nil => rfl
  | cons a as ih =>
    rw [List.forall_mem_cons] at h
    rw [List.takeWhile_cons, List.takeWhile_cons, h.1, ih h.2]

/-- What passes a test in front of an item that fails it. -/
theorem takeWhile_append_cons {p : α → Bool} {front back : List α} {a : α}
    (hfront : ∀ x ∈ front, p x = true) (ha : p a = false) :
    (front ++ a :: back).takeWhile p = front := by
  rw [List.takeWhile_append_of_pos hfront, List.takeWhile_cons_of_neg (Bool.eq_false_iff.1 ha),
    List.append_nil]

theorem dropWhile_append_cons {p : α → Bool} {front back : List α} {a : α}
    (hfront : ∀ x ∈ front, p x = true) (ha : p a = false) :
    (front ++ a :: back).dropWhile p = a :: back := by
  rw [List.dropWhile_append_of_pos hfront, List.dropWhile_cons_of_neg (Bool.eq_false_iff.1 ha)]

/-- All items of a list pass a test, or there is a first one that fails it. -/
theorem all_or_exists_first (p : α → Bool) (as : List α) :
    (∀ a ∈ as, p a = true) ∨
      ∃ front a back, as = front ++ a :: back ∧ (∀ x ∈ front, p x = true) ∧ p a = false := by
  induction as with
  | nil => exact Or.inl (fun a ha => absurd ha List.not_mem_nil)
  | cons a as ih =>
    cases ha : p a with
    | false => exact Or.inr ⟨[], a, as, rfl, fun x hx => absurd hx List.not_mem_nil, ha⟩
    | true =>
      rcases ih with hall | ⟨front, b, back, rfl, hfront, hb⟩
      · exact Or.inl (List.forall_mem_cons.2 ⟨ha, hall⟩)
      · exact Or.inr ⟨a :: front, b, back, rfl, List.forall_mem_cons.2 ⟨ha, hfront⟩, hb⟩

theorem takeWhile_concat {p : α → Bool} {a : α} (ha : p a = false) (as : List α) :
    (as ++ [a]).takeWhile p = as.takeWhile p := by
  rcases all_or_exists_first p as with hall | ⟨front, b, back, rfl, hfront, hb⟩
  · rw [takeWhile_append_cons hall ha, ← List.append_nil as, List.takeWhile_append_of_pos hall]
    rfl
  · rw [List.append_assoc, List.cons_append, takeWhile_append_cons hfront hb,
      takeWhile_append_cons hfront hb]

theorem dropWhile_concat {p : α → Bool} {a : α} (ha : p a = false) (as : List α) :
    (as ++ [a]).dropWhile p = as.dropWhile p ++ [a] := by
  rcases all_or_exists_first p as with hall | ⟨front, b, back, rfl, hfront, hb⟩
  · rw [dropWhile_append_cons hall ha, ← List.append_nil as, List.dropWhile_append_of_pos hall]
    rfl
  · rw [List.append_assoc, List.cons_append, dropWhile_append_cons hfront hb,
      dropWhile_append_cons hfront hb, List.cons_append]

/-! ## Up to an item -/

/-- The front of a list with the first item that passes a test, if one does. -/
def through? (stop : α → Bool) : List α → Option (List α)
  | [] => none
  | a :: as => if stop a then some [a] else (through? stop as).map (a :: ·)

theorem through?_eq (stop : α → Bool) (as : List α) :
    through? stop as =
      (as.dropWhile (fun a => !stop a)).head?.map (as.takeWhile (fun a => !stop a) ++ [·]) := by
  induction as with
  | nil => rfl
  | cons a as ih =>
    rw [through?, ih, List.dropWhile_cons, List.takeWhile_cons]
    cases stop a with
    | true => rfl
    | false => exact Option.map_map _ _ _

theorem through?_isPrefix {stop : α → Bool} {front : List α} (h : through? stop as = some front) :
    front <+: as := by
  induction as generalizing front with
  | nil => cases h
  | cons a as ih =>
    rw [through?] at h
    split at h
    · cases h
      exact List.cons_prefix_cons.2 ⟨rfl, List.nil_prefix⟩
    · obtain ⟨rest, hrest, rfl⟩ := Option.map_eq_some_iff.1 h
      exact List.cons_prefix_cons.2 ⟨rfl, ih hrest⟩

theorem through?_append {stop : α → Bool} {front : List α} (hfront : ∀ a ∈ front, stop a = false)
    (back : List α) :
    through? stop (front ++ back) = (through? stop back).map (front ++ ·) := by
  induction front with
  | nil => exact Option.map_id'.symm
  | cons a front ih =>
    rw [List.forall_mem_cons] at hfront
    rw [List.cons_append, through?, hfront.1, if_neg Bool.false_ne_true, ih hfront.2,
      Option.map_map]
    rfl

theorem through?_concat {stop : α → Bool} {a : α} (ha : stop a = false) (as : List α) :
    through? stop (as ++ [a]) = through? stop as := by
  induction as with
  | nil =>
    show (if stop a then some [a] else none) = none
    rw [ha, if_neg Bool.false_ne_true]
  | cons b as ih => rw [List.cons_append, through?, through?, ih]

theorem exists_through? {stop : α → Bool} (h : ∃ a ∈ as, stop a = true) :
    ∃ front, through? stop as = some front ∧ front ≠ [] := by
  obtain ⟨a, ha, hstop⟩ := h
  induction as with
  | nil => cases ha
  | cons b as ih =>
    rw [through?]
    split
    · exact ⟨[b], rfl, List.cons_ne_nil b []⟩
    · rename_i hb
      rcases List.mem_cons.1 ha with rfl | ha
      · exact absurd hstop hb
      · obtain ⟨front, hfront, -⟩ := ih ha
        exact ⟨b :: front, by rw [hfront]; rfl, List.cons_ne_nil b front⟩

/-! ## Copies -/

theorem dropWhile_beq_eq_iff [BEq α] [LawfulBEq α] {a : α} {rest : List α} :
    as.dropWhile (· == a) = rest ↔
      ∃ n, as = List.replicate n a ++ rest ∧ rest.head? ≠ some a := by
  induction as with
  | nil =>
    constructor
    · rintro rfl
      exact ⟨0, rfl, by simp⟩
    · rintro ⟨n, hsplit, -⟩
      exact (List.append_eq_nil_iff.1 hsplit.symm).2.symm
  | cons b as ih =>
    by_cases hb : b = a
    · subst hb
      rw [List.dropWhile_cons_of_pos (by simp), ih]
      constructor
      · rintro ⟨n, rfl, hhead⟩
        exact ⟨n + 1, rfl, hhead⟩
      · rintro ⟨n, hsplit, hhead⟩
        cases n with
        | zero =>
          rw [List.replicate_zero, List.nil_append] at hsplit
          exact absurd (by rw [← hsplit]; rfl) hhead
        | succ n => exact ⟨n, (List.cons.inj hsplit).2, hhead⟩
    · rw [List.dropWhile_cons_of_neg (by simpa using hb)]
      constructor
      · rintro rfl
        exact ⟨0, rfl, by simpa using hb⟩
      · rintro ⟨n, hsplit, -⟩
        cases n with
        | zero => exact hsplit
        | succ n => exact absurd (List.cons.inj hsplit).1 hb

end WebBaseline.Data

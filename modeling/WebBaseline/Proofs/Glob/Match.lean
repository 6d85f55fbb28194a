/-
  WebBaseline.Proofs.Glob.Match

  What shapes stand for, and that matching finds it.

    * `Shape.Takes` says which bytes a shape stands for, by its parts;
    * matching byte by byte finds just the rows of shapes that stand for the
      bytes (`takes_iff`);
    * a text without signs of its own is a pattern of its characters
      (`signs_ordinary`, `tokensOf_ordinary`), and these stand for their bytes
      (`takes_literals`).
-/

import WebBaseline.Proofs.Glob.Bytes

namespace WebBaseline.Glob

/-! ## What shapes stand for -/

/-- Whether a shape stands for some bytes. -/
def Shape.Takes : Shape → List UInt8 → Prop
  | .empty, bs => bs = []
  | .one set, bs => ∃ b, set.has b = true ∧ bs = [b]
  | .many, _ => True
  | .seq s t, bs => ∃ u v, bs = u ++ v ∧ s.Takes u ∧ t.Takes v
  | .alt s t, bs => s.Takes bs ∨ t.Takes bs

/-- Whether shapes in a row stand for some bytes. -/
def TakesRow : List Shape → List UInt8 → Prop
  | [], bs => bs = []
  | s :: next, bs => ∃ u v, bs = u ++ v ∧ s.Takes u ∧ TakesRow next v

theorem takesRow_singleton (s : Shape) (bs : List UInt8) : TakesRow [s] bs ↔ s.Takes bs := by
  constructor
  · rintro ⟨u, v, rfl, hu, rfl⟩
    rwa [List.append_nil]
  · intro h
    exact ⟨bs, [], (List.append_nil bs).symm, h, rfl⟩

/-! ## Matching -/

theorem Shape.skips_iff (s : Shape) : s.skips = true ↔ s.Takes [] := by
  induction s with
  | empty => exact iff_of_true rfl rfl
  | one set => exact iff_of_false Bool.false_ne_true (by simp [Takes])
  | many => exact iff_of_true rfl trivial
  | seq s t ihs iht =>
    rw [skips, Bool.and_eq_true, ihs, iht]
    constructor
    · rintro ⟨hs, ht⟩
      exact ⟨[], [], rfl, hs, ht⟩
    · rintro ⟨u, v, h, hs, ht⟩
      obtain ⟨rfl, rfl⟩ := List.append_eq_nil_iff.1 h.symm
      exact ⟨hs, ht⟩
  | alt s t ihs iht => rw [skips, Bool.or_eq_true, ihs, iht, Takes]

theorem all_skips_iff (row : List Shape) : row.all Shape.skips = true ↔ TakesRow row [] := by
  induction row with
  | nil => exact iff_of_true rfl rfl
  | cons s next ih =>
    rw [List.all_cons, Bool.and_eq_true, Shape.skips_iff, ih]
    constructor
    · rintro ⟨hs, hnext⟩
      exact ⟨[], [], rfl, hs, hnext⟩
    · rintro ⟨u, v, h, hs, hnext⟩
      obtain ⟨rfl, rfl⟩ := List.append_eq_nil_iff.1 h.symm
      exact ⟨hs, hnext⟩

/-- What may follow a shape in a row stands for what is left behind a byte, if
    that is so for what may follow the rest of the row. -/
theorem Shape.takesRow_after {b : UInt8} (s : Shape) {next : List Shape}
    {nextAfter : List (List Shape)}
    (hnext : ∀ bs, (∃ row ∈ nextAfter, TakesRow row bs) ↔ TakesRow next (b :: bs))
    (bs : List UInt8) :
    (∃ row ∈ s.after b next nextAfter, TakesRow row bs) ↔ TakesRow (s :: next) (b :: bs) := by
  induction s generalizing next nextAfter bs with
  | empty =>
    rw [after, hnext]
    constructor
    · intro h
      exact ⟨[], b :: bs, rfl, rfl, h⟩
    · rintro ⟨u, v, h, rfl, hv⟩
      rwa [h]
  | one set =>
    rw [after]
    constructor
    · rintro ⟨row, hrow, h⟩
      split at hrow
      · next hset =>
        rw [List.mem_singleton.1 hrow] at h
        exact ⟨[b], bs, rfl, ⟨b, hset, rfl⟩, h⟩
      · cases hrow
    · rintro ⟨u, v, h, ⟨x, hx, rfl⟩, hv⟩
      obtain ⟨rfl, rfl⟩ := List.cons.inj h
      exact ⟨next, by rw [if_pos hx]; exact List.mem_singleton_self next, hv⟩
  | many =>
    rw [after]
    constructor
    · rintro ⟨row, hrow, h⟩
      rcases List.mem_cons.1 hrow with rfl | hrow
      · obtain ⟨u, v, rfl, hu, hv⟩ := h
        exact ⟨b :: u, v, rfl, trivial, hv⟩
      · exact ⟨[], b :: bs, rfl, trivial, (hnext bs).1 ⟨row, hrow, h⟩⟩
    · rintro ⟨u, v, h, hu, hv⟩
      -- the byte is one of any number, or there is none of these
      cases u with
      | nil =>
        obtain ⟨row, hrow, hbs⟩ := (hnext bs).2 (by rwa [h])
        exact ⟨row, List.mem_cons_of_mem _ hrow, hbs⟩
      | cons x u =>
        obtain ⟨rfl, rfl⟩ := List.cons.inj h
        exact ⟨many :: next, List.mem_cons_self, u, v, rfl, trivial, hv⟩
  | seq s t ihs iht =>
    rw [after, ihs (fun bs => iht hnext bs)]
    constructor
    · rintro ⟨u, w, h, hu, v, v', rfl, hv, hv'⟩
      exact ⟨u ++ v, v', by rw [h, List.append_assoc], ⟨u, v, rfl, hu, hv⟩, hv'⟩
    · rintro ⟨w, v', h, ⟨u, v, rfl, hu, hv⟩, hv'⟩
      exact ⟨u, v ++ v', by rw [h, List.append_assoc], hu, v, v', rfl, hv, hv'⟩
  | alt s t ihs iht =>
    simp only [after, List.mem_append, or_and_right, exists_or, ihs hnext bs, iht hnext bs]
    constructor
    · rintro (⟨u, v, h, hu, hv⟩ | ⟨u, v, h, hu, hv⟩)
      · exact ⟨u, v, h, Or.inl hu, hv⟩
      · exact ⟨u, v, h, Or.inr hu, hv⟩
    · rintro ⟨u, v, h, hu | hu, hv⟩
      · exact Or.inl ⟨u, v, h, hu, hv⟩
      · exact Or.inr ⟨u, v, h, hu, hv⟩

theorem takesRow_afterAll (b : UInt8) (row : List Shape) (bs : List UInt8) :
    (∃ next ∈ afterAll b row, TakesRow next bs) ↔ TakesRow row (b :: bs) := by
  induction row generalizing bs with
  | nil =>
    constructor
    · rintro ⟨next, hnext, -⟩
      cases hnext
    · intro h
      cases h
  | cons s next ih => exact s.takesRow_after ih bs

/-- Matching finds whether one of several rows stands for the bytes. -/
theorem takes_iff (rows : List (List Shape)) (bs : List UInt8) :
    takes rows bs = true ↔ ∃ row ∈ rows, TakesRow row bs := by
  induction bs generalizing rows with
  | nil =>
    rw [takes, List.any_eq_true]
    simp only [all_skips_iff]
  | cons b bs ih =>
    rw [takes, ih]
    simp only [List.mem_eraseDups, List.mem_flatMap, ← takesRow_afterAll b]
    constructor
    · rintro ⟨next, ⟨row, hrow, hnext⟩, h⟩
      exact ⟨row, hrow, next, hnext, h⟩
    · rintro ⟨row, hrow, next, hnext, h⟩
      exact ⟨next, ⟨row, hrow, hnext⟩, h⟩

theorem takes_singleton (s : Shape) (bs : List UInt8) :
    takes [[s]] bs = true ↔ s.Takes bs := by
  rw [takes_iff, ← takesRow_singleton]
  simp only [List.mem_singleton, exists_eq_left]

/-! ## Shapes of tokens -/

namespace Shape

theorem takes_append (s t : Shape) (bs : List UInt8) :
    (s.append t).Takes bs ↔ ∃ u v, bs = u ++ v ∧ s.Takes u ∧ t.Takes v := by
  have hleft : Takes t bs ↔ ∃ u v, bs = u ++ v ∧ Takes .empty u ∧ t.Takes v := by
    constructor
    · intro h
      exact ⟨[], bs, rfl, rfl, h⟩
    · rintro ⟨u, v, rfl, rfl, hv⟩
      exact hv
  have hright : Takes s bs ↔ ∃ u v, bs = u ++ v ∧ s.Takes u ∧ Takes .empty v := by
    constructor
    · intro h
      exact ⟨bs, [], (List.append_nil bs).symm, h, rfl⟩
    · rintro ⟨u, v, rfl, hu, rfl⟩
      rwa [List.append_nil]
  -- nothing is put together with an empty shape
  rw [append.eq_def]
  split
  · exact hleft
  · exact hright
  · exact Iff.rfl

theorem takes_byte (b : UInt8) (bs : List UInt8) : (byte b).Takes bs ↔ bs = [b] := by
  have hhas : ∀ x, (ByteSet.single b).has x = true ↔ x = b := by
    intro x
    simp only [ByteSet.has, ByteSet.single, List.any_cons, List.any_nil, Bool.or_false,
      bne_iff_ne, ne_eq, Bool.not_eq_false, Bool.and_eq_true, decide_eq_true_eq]
    exact ⟨fun h => UInt8.le_antisymm h.2 h.1, fun h => h ▸ ⟨UInt8.le_refl x, UInt8.le_refl x⟩⟩
  simp only [byte, Takes, hhas, exists_eq_left]

theorem takes_slash (bs : List UInt8) : slash.Takes bs ↔ bs = [47] := takes_byte 47 bs

theorem takes_join_byte (ds bs : List UInt8) : (join (ds.map byte)).Takes bs ↔ bs = ds := by
  induction ds generalizing bs with
  | nil => exact Iff.rfl
  | cons d ds ih =>
    rw [List.map_cons, join, takes_append]
    simp only [takes_byte, ih]
    constructor
    · rintro ⟨u, v, rfl, rfl, rfl⟩
      rfl
    · rintro rfl
      exact ⟨[d], ds, rfl, rfl, rfl⟩

end Shape

theorem takes_shapeOf_cons (t : Token) (ts : List Token) (bs : List UInt8) :
    (shapeOf (t :: ts)).Takes bs ↔ ∃ u v, bs = u ++ v ∧ t.shape.Takes u ∧ (shapeOf ts).Takes v := by
  rw [shapeOf, Shape.takes_append]

/-- Characters that stand for themselves stand for their bytes. -/
theorem takes_literals (cs : List Char) (ts : List Token) (bs : List UInt8) :
    (shapeOf (cs.map Token.literal ++ ts)).Takes bs ↔
      ∃ v, bs = bytes cs ++ v ∧ (shapeOf ts).Takes v := by
  induction cs generalizing bs with
  | nil => simp only [List.map_nil, List.nil_append, bytes_nil, exists_eq_left']
  | cons c cs ih =>
    rw [List.map_cons, List.cons_append, takes_shapeOf_cons]
    simp only [Token.shape, Shape.takes_join_byte, ih, bytes_cons]
    constructor
    · rintro ⟨u, w, rfl, rfl, v, rfl, hv⟩
      exact ⟨v, (List.append_assoc ..).symm, hv⟩
    · rintro ⟨v, rfl, hv⟩
      exact ⟨bytesOf c, bytes cs ++ v, List.append_assoc .., rfl, v, rfl, hv⟩

/-- Any number of components at the front: none, or something before a slash. -/
theorem takes_deepFront (bs : List UInt8) :
    Token.deepFront.shape.Takes bs ↔ bs = [] ∨ ∃ u, bs = u ++ [47] := by
  simp only [Token.shape, Shape.Takes, Shape.takes_slash]
  refine or_congr Iff.rfl ?_
  constructor
  · rintro ⟨u, v, rfl, -, rfl⟩
    exact ⟨u, rfl⟩
  · rintro ⟨u, rfl⟩
    exact ⟨u, [47], rfl, trivial, rfl⟩

/-- Components at the end: a slash and anything behind it. -/
theorem takes_deepEnd (bs : List UInt8) :
    Token.deepEnd.shape.Takes bs ↔ ∃ v, bs = 47 :: v := by
  simp only [Token.shape, Shape.Takes, Shape.takes_slash]
  constructor
  · rintro ⟨u, v, rfl, rfl, -⟩
    exact ⟨v, rfl⟩
  · rintro ⟨v, rfl⟩
    exact ⟨[47], v, rfl, rfl, trivial⟩

/-! ## Patterns of ordinary characters -/

/-- Whether a character is no sign of a pattern. -/
def isOrdinary (c : Char) : Bool := !(['?', '*', '[', '\x7b', '\x7d', ',', '\\'].contains c)

theorem plainStep_of_ordinary {c : Char} (hc : isOrdinary c = true) :
    plainStep c = .error (.char c) := by
  rw [plainStep.eq_def]
  split
  case h_8 => rfl
  -- in all other cases the character is a sign
  all_goals cases hc

theorem signs_ordinary {cs : List Char} (hcs : cs.all isOrdinary = true) (rest : List Char) :
    signs .plain (cs ++ rest) = cs.map Sign.char ++ signs .plain rest := by
  induction cs with
  | nil => rfl
  | cons c cs ih =>
    rw [List.all_cons, Bool.and_eq_true] at hcs
    rw [List.cons_append, signs, Mode.step, plainStep_of_ordinary hcs.1]
    exact congrArg (Sign.char c :: ·) (ih hcs.2)

theorem signs_star (cs : List Char) : signs .plain ('*' :: cs) = .star :: signs .plain cs := rfl

/-- Ordinary characters become tokens one by one. -/
theorem tokensOf_ordinary (cs : List Char) (p : Progress) (rest : List Sign) :
    tokensOf p (cs.map Sign.char ++ rest) =
      tokensOf { p with
        previous := cs.getLast?.or p.previous
        tokens := (cs.map Token.literal).reverse ++ p.tokens } rest := by
  induction cs generalizing p with
  | nil => rfl
  | cons c cs ih =>
    rw [List.map_cons, List.cons_append, tokensOf, ih, List.getLast?_cons]
    simp only [Progress.push, Sign.lastChar, List.map_cons, List.reverse_cons, List.append_assoc,
      List.singleton_append]
    cases cs.getLast? <;> rfl

end WebBaseline.Glob

/-
  WebBaseline.Proofs.Syntax.Mended

  Trees in which nothing but the marked flaws differs.

    * a tree is flawed exactly if a node in it is marked (`isFlawed_iff`);
    * the mended tree has no mark (`isFlawed_mended`) and is otherwise the same: the
      fields of its root, its children and what covers which text;
    * its nodes are the mended nodes, in the same order (`preorder_mended`);
    * what ignores the marks at each node ignores them in whole trees
      (`IgnoresMarks.flatMap_preorder`).
-/

import WebBaseline.Proofs.Syntax.Walk

namespace WebBaseline.Syntax.ParseTree

variable {κ : Type}

/-! ## Marked nodes -/

/-- Whether a node of the tree is marked. -/
def HasFlaw (t : ParseTree κ) : Prop := ∃ u ∈ t.preorder, u.flaw.isSome = true

mutual

theorem isFlawed_iff : ∀ {t : ParseTree κ}, t.isFlawed = true ↔ t.HasFlaw
  | node k p f s e cs => by
    rw [HasFlaw, isFlawed, Bool.or_eq_true, isFlawedAny_iff, preorder]
    simp only [List.mem_cons, exists_eq_or_imp]
    exact Iff.rfl

theorem isFlawedAny_iff : ∀ {ts : List (ParseTree κ)},
    isFlawedAny ts = true ↔ ∃ u ∈ preorderAll ts, u.flaw.isSome = true
  | [] => by
    rw [isFlawedAny, preorderAll]
    simp
  | t :: ts => by
    rw [isFlawedAny, Bool.or_eq_true, isFlawed_iff, HasFlaw, isFlawedAny_iff, preorderAll]
    simp only [List.mem_append, or_and_right, exists_or]

end

/-! ## Mended trees -/

mutual

/-- The same tree with no flaw marked in it. -/
def mended : ParseTree κ → ParseTree κ
  | node k p _ s e cs => node k p none s e (mendedAll cs)

/-- The same trees with no flaw marked in them. -/
def mendedAll : List (ParseTree κ) → List (ParseTree κ)
  | [] => []
  | t :: ts => mended t :: mendedAll ts

end

theorem mendedAll_eq_map (ts : List (ParseTree κ)) : mendedAll ts = ts.map mended := by
  induction ts with
  | nil => rfl
  | cons t ts ih => rw [mendedAll, ih, List.map_cons]

mutual

/-- There is nothing left to mend in a mended tree. -/
theorem mended_mended : ∀ t : ParseTree κ, t.mended.mended = t.mended
  | node k p f s e cs => by
    rw [mended, mended, mendedAll_mendedAll cs]

theorem mendedAll_mendedAll : ∀ ts : List (ParseTree κ), mendedAll (mendedAll ts) = mendedAll ts
  | [] => rfl
  | t :: ts => by
    rw [mendedAll, mendedAll, mended_mended t, mendedAll_mendedAll ts]

end

@[simp] theorem kind_mended (t : ParseTree κ) : t.mended.kind = t.kind := by
  cases t; rfl

@[simp] theorem start_mended (t : ParseTree κ) : t.mended.start = t.start := by
  cases t; rfl

@[simp] theorem stop_mended (t : ParseTree κ) : t.mended.stop = t.stop := by
  cases t; rfl

@[simp] theorem flaw_mended (t : ParseTree κ) : t.mended.flaw = none := by
  cases t; rfl

@[simp] theorem children_mended (t : ParseTree κ) : t.mended.children = t.children.map mended := by
  cases t
  exact mendedAll_eq_map _

@[simp] theorem text_mended (src : Source) (t : ParseTree κ) : t.mended.text src = t.text src := by
  rw [text, text, start_mended, stop_mended]

@[simp] theorem place_mended (src : Source) (t : ParseTree κ) :
    t.mended.place src = t.place src := by
  rw [place, place, start_mended]

/-- A test of kinds comes out alike for mended trees. -/
theorem test_kind_mended (accept : κ → Bool) :
    (fun c : ParseTree κ => accept c.kind) ∘ mended = fun c => accept c.kind :=
  funext fun c => congrArg accept (kind_mended c)

@[simp] theorem childOf?_mended (t : ParseTree κ) (accept : κ → Bool) :
    t.mended.childOf? accept = (t.childOf? accept).map mended := by
  rw [childOf?, childOf?, children_mended, List.find?_map, test_kind_mended]

/-! ## Their nodes -/

mutual

/-- The nodes of the mended tree are the mended nodes. -/
theorem preorder_mended : ∀ t : ParseTree κ, t.mended.preorder = t.preorder.map mended
  | node k p f s e cs => by
    rw [mended, preorder, preorder, List.map_cons, mended, preorderAll_mendedAll cs]

theorem preorderAll_mendedAll : ∀ ts : List (ParseTree κ),
    preorderAll (mendedAll ts) = (preorderAll ts).map mended
  | [] => rfl
  | t :: ts => by
    rw [mendedAll, preorderAll, preorderAll, List.map_append, preorder_mended t,
      preorderAll_mendedAll ts]

end

theorem isFlawed_mended (t : ParseTree κ) : t.mended.isFlawed = false := by
  rw [← Bool.not_eq_true, isFlawed_iff, HasFlaw, preorder_mended]
  rintro ⟨_, hu, hmarked⟩
  obtain ⟨u, -, rfl⟩ := List.mem_map.1 hu
  rw [flaw_mended] at hmarked
  cases hmarked

/-! ## Readings of trees -/

/-- A reading of trees in which the marked flaws do not count. -/
def IgnoresMarks {β : Type} (f : ParseTree κ → β) : Prop := ∀ t, f t.mended = f t

/-- Trees that differ in nothing but their marks are read alike. -/
theorem IgnoresMarks.eq {β : Type} {f : ParseTree κ → β} (hf : IgnoresMarks f)
    {t u : ParseTree κ} (hsame : u.mended = t.mended) : f u = f t := by
  rw [← hf u, hsame, hf t]

theorem IgnoresMarks.flatMap_preorder {β : Type} {f : ParseTree κ → List β}
    (hf : IgnoresMarks f) : IgnoresMarks (fun t => t.preorder.flatMap f) := by
  intro t
  have hnodes : (fun u => f (mended u)) = f := funext hf
  show t.mended.preorder.flatMap f = t.preorder.flatMap f
  rw [preorder_mended, List.flatMap_map, hnodes]

end WebBaseline.Syntax.ParseTree

/-
  WebBaseline.Proofs.Syntax.Walk

  The walk of a cursor visits a node and all below it, each node before its
  descendants.

    * what a walk has still to visit above depth `floor` is `pending`: the later
      siblings of the node, then those of its ancestors, with all below them;
    * climbing finds the first of these (`climb?_eq_some`, `climb?_eq_none`), so a
      walk visits the node's subtree and then what is pending (`walkFrom_eq`);
    * a walk from a node stops at that node's depth, where nothing is pending
      (`walk_eq_preorder`, `nodes_eq_preorder`).
-/

import WebBaseline.Syntax.Cursor

namespace WebBaseline.Syntax

variable {κ : Type}

namespace ParseTree

/-! ## The nodes of a tree -/

theorem preorder_eq (t : ParseTree κ) : t.preorder = t :: preorderAll t.children := by
  cases t
  rfl

theorem mem_preorder_self (t : ParseTree κ) : t ∈ t.preorder := by
  rw [preorder_eq]
  exact List.mem_cons_self

theorem mem_preorderAll_iff {u : ParseTree κ} {ts : List (ParseTree κ)} :
    u ∈ preorderAll ts ↔ ∃ t ∈ ts, u ∈ t.preorder := by
  induction ts with
  | nil => simp [preorderAll]
  | cons t ts ih =>
    rw [preorderAll, List.mem_append, ih]
    simp only [List.mem_cons, exists_eq_or_imp]

theorem mem_preorder_iff {u t : ParseTree κ} :
    u ∈ t.preorder ↔ u = t ∨ ∃ c ∈ t.children, u ∈ c.preorder := by
  rw [preorder_eq, List.mem_cons, mem_preorderAll_iff]

theorem mem_preorder_of_child {u c t : ParseTree κ} (hc : c ∈ t.children) (hu : u ∈ c.preorder) :
    u ∈ t.preorder :=
  mem_preorder_iff.2 (Or.inr ⟨c, hc, hu⟩)

mutual

/-- What lies below a node comes in the same order below the whole tree. -/
theorem sublist_of_mem_preorder {u : ParseTree κ} :
    ∀ {t : ParseTree κ}, u ∈ t.preorder → u.preorder.Sublist t.preorder
  | node k p f s e cs, h => by
    rw [preorder, List.mem_cons] at h
    rcases h with rfl | h
    · exact List.Sublist.refl _
    · rw [preorder.eq_1 k p f s e cs]
      exact (sublist_of_mem_preorderAll h).cons _

theorem sublist_of_mem_preorderAll {u : ParseTree κ} :
    ∀ {ts : List (ParseTree κ)}, u ∈ preorderAll ts → u.preorder.Sublist (preorderAll ts)
  | [], h => by cases h
  | t :: ts, h => by
    rw [preorderAll, List.mem_append] at h
    rw [preorderAll]
    rcases h with h | h
    · exact (sublist_of_mem_preorder h).trans (List.sublist_append_left _ _)
    · exact (sublist_of_mem_preorderAll h).trans (List.sublist_append_right _ _)

end

mutual

theorem size_eq_length : ∀ t : ParseTree κ, t.size = t.preorder.length
  | node _ _ _ _ _ cs => by rw [size, preorder, List.length_cons, sizeAll_eq_length cs]

theorem sizeAll_eq_length : ∀ ts : List (ParseTree κ), sizeAll ts = (preorderAll ts).length
  | [] => rfl
  | t :: ts => by
    rw [sizeAll, preorderAll, List.length_append, size_eq_length t, sizeAll_eq_length ts]

end

theorem preorder_sublist {u : ParseTree κ} {ts : List (ParseTree κ)} (hu : u ∈ ts) :
    u.preorder.Sublist (preorderAll ts) :=
  sublist_of_mem_preorderAll (mem_preorderAll_iff.2 ⟨u, hu, mem_preorder_self u⟩)

end ParseTree

namespace Cursor

open ParseTree (preorderAll)

/-! ## What is left to visit -/

/-- What a walk visits after the node it stands at and all below it. -/
def pending (floor : Nat) (here : Level κ) : List (Level κ) → List (ParseTree κ)
  | [] => []
  | l :: ls =>
    if (l :: ls).length ≤ floor then [] else preorderAll here.later ++ pending floor l ls

theorem pending_of_le {floor : Nat} {here : Level κ} {above : List (Level κ)}
    (h : above.length ≤ floor) : pending floor here above = [] := by
  cases above with
  | nil => rfl
  | cons l ls => rw [pending, if_pos h]

theorem pending_of_lt {floor : Nat} (here : Level κ) {l : Level κ} {ls : List (Level κ)}
    (h : floor < (l :: ls).length) :
    pending floor here (l :: ls) = preorderAll here.later ++ pending floor l ls := by
  rw [pending, if_neg (Nat.not_le_of_lt h)]

/-- Where climbing finds nothing, nothing is pending. -/
theorem climb?_eq_none {floor : Nat} {here : Level κ} {above : List (Level κ)}
    (h : climb? floor here above = none) : pending floor here above = [] := by
  induction above generalizing here with
  | nil => rfl
  | cons l ls ih =>
    rw [climb?] at h
    split at h
    · next hle => exact pending_of_le hle
    · next hlt =>
      rw [pending_of_lt here (Nat.lt_of_not_le hlt)]
      cases hlater : here.later with
      | nil =>
        simp only [nextSibling?, hlater] at h
        exact ih h
      | cons t ts =>
        simp only [nextSibling?, hlater] at h
        cases h

/-- What climbing finds is the first of what is pending. -/
theorem climb?_eq_some {floor : Nat} {here : Level κ} {above : List (Level κ)} {d : Cursor κ}
    (h : climb? floor here above = some d) :
    floor ≤ d.above.length ∧
      pending floor here above = d.node.preorder ++ pending floor d.here d.above := by
  induction above generalizing here with
  | nil => cases h
  | cons l ls ih =>
    rw [climb?] at h
    split at h
    · cases h
    · next hlt =>
      have hfloor := Nat.lt_of_not_le hlt
      rw [pending_of_lt here hfloor]
      cases hlater : here.later with
      | nil =>
        simp only [nextSibling?, hlater] at h
        exact ih h
      | cons t ts =>
        -- the sibling comes first, and what is left behind it is pending from there
        simp only [nextSibling?, hlater, Option.some.injEq] at h
        subst h
        refine ⟨Nat.le_of_lt hfloor, ?_⟩
        rw [ParseTree.preorderAll, List.append_assoc, ← pending_of_lt ⟨t, ts⟩ hfloor]
        rfl

/-- One step of a walk leads to the next of the nodes that are left. -/
theorem step?_eq {floor : Nat} {c : Cursor κ} (hfloor : floor ≤ c.above.length) :
    preorderAll c.node.children ++ pending floor c.here c.above =
      match step? floor c with
      | none => []
      | some d => d.node.preorder ++ pending floor d.here d.above := by
  rw [step?, firstChild?]
  cases hchildren : c.node.children with
  | nil =>
    rw [ParseTree.preorderAll, List.nil_append]
    cases hclimb : climb? floor c.here c.above with
    | none => exact climb?_eq_none hclimb
    | some d => exact (climb?_eq_some hclimb).2
  | cons t ts =>
    have hdown : floor < (c.here :: c.above).length := Nat.lt_succ_of_le hfloor
    show preorderAll (t :: ts) ++ pending floor c.here c.above =
      t.preorder ++ pending floor ⟨t, ts⟩ (c.here :: c.above)
    rw [pending_of_lt ⟨t, ts⟩ hdown, ParseTree.preorderAll, List.append_assoc]

theorem floor_le_of_step? {floor : Nat} {c d : Cursor κ} (hfloor : floor ≤ c.above.length)
    (h : step? floor c = some d) : floor ≤ d.above.length := by
  rw [step?, firstChild?] at h
  cases hchildren : c.node.children with
  | nil =>
    rw [hchildren] at h
    exact (climb?_eq_some h).1
  | cons t ts =>
    rw [hchildren] at h
    cases h
    exact Nat.le_succ_of_le hfloor

/-! ## The walk -/

/-- A walk with enough steps visits the node, all below it, and all that is pending. -/
theorem walkFrom_eq {floor : Nat} (fuel : Nat) {c : Cursor κ} (hfloor : floor ≤ c.above.length)
    (hfuel : (c.node.preorder ++ pending floor c.here c.above).length ≤ fuel) :
    walkFrom floor fuel c = c.node.preorder ++ pending floor c.here c.above := by
  -- with each step one node less is left
  induction fuel generalizing c with
  | zero =>
    rw [ParseTree.preorder_eq] at hfuel
    exact absurd hfuel (Nat.not_succ_le_zero _)
  | succ fuel ih =>
    rw [ParseTree.preorder_eq, List.cons_append] at hfuel ⊢
    rw [walkFrom]
    have hrest := step?_eq hfloor
    rw [hrest] at hfuel ⊢
    cases hstep : step? floor c with
    | none => rfl
    | some d =>
      rw [hstep] at hfuel
      exact congrArg (c.node :: ·)
        (ih (floor_le_of_step? hfloor hstep) (Nat.le_of_succ_le_succ hfuel))

/-- A walk visits the node it starts at and all below it, whatever surrounds it. -/
theorem walk_eq_preorder (c : Cursor κ) : c.walk = c.node.preorder := by
  have hnothing : pending c.above.length c.here c.above = [] := pending_of_le (Nat.le_refl _)
  have hfuel : (c.node.preorder ++ pending c.above.length c.here c.above).length ≤ c.node.size := by
    rw [hnothing, List.append_nil]
    exact Nat.le_of_eq (ParseTree.size_eq_length c.node).symm
  rw [walk, walkFrom_eq c.node.size (Nat.le_refl _) hfuel, hnothing, List.append_nil]

end Cursor

/-- A walk from the root of a tree visits all its nodes. -/
theorem ParseTree.nodes_eq_preorder (t : ParseTree κ) : t.nodes = t.preorder :=
  Cursor.walk_eq_preorder (Cursor.ofTree t)

end WebBaseline.Syntax

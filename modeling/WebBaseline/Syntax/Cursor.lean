/-
  WebBaseline.Syntax.Cursor

  A cursor stands at one node of a tree and remembers what lies around it.
  It moves to the first child, to the next sibling and to the parent; the
  walk from a node visits that node and everything below it with these three
  moves alone.
-/

import WebBaseline.Syntax.ParseTree

namespace WebBaseline.Syntax

/-- A node on the way down: the node itself and the siblings after it. -/
structure Level (κ : Type) where
  node : ParseTree κ
  later : List (ParseTree κ)

/-- A place in a tree: the current level, then its ancestors from the parent up. -/
structure Cursor (κ : Type) where
  here : Level κ
  above : List (Level κ)

namespace Cursor

variable {κ : Type}

/-! ## Moves -/

/-- The cursor at the root of a tree. -/
def ofTree (t : ParseTree κ) : Cursor κ := ⟨⟨t, []⟩, []⟩

/-- The node under the cursor. -/
def node (c : Cursor κ) : ParseTree κ := c.here.node

/-- Down to the first child. -/
def firstChild? (c : Cursor κ) : Option (Cursor κ) :=
  match c.node.children with
  | [] => none
  | t :: ts => some ⟨⟨t, ts⟩, c.here :: c.above⟩

/-- On to the next sibling. -/
def nextSibling? (c : Cursor κ) : Option (Cursor κ) :=
  match c.here.later with
  | [] => none
  | t :: ts => some ⟨⟨t, ts⟩, c.above⟩

/-- Up to the parent. -/
def parent? (c : Cursor κ) : Option (Cursor κ) :=
  match c.above with
  | [] => none
  | l :: ls => some ⟨l, ls⟩

/-! ## The walk -/

/-- The next cursor after a node without children: the next sibling of the
    nearest node that has one, looking upward but not at or above depth `floor`. -/
def climb? (floor : Nat) (here : Level κ) : List (Level κ) → Option (Cursor κ)
  | [] => none
  | l :: ls =>
    if (l :: ls).length ≤ floor then none
    else
      match nextSibling? ⟨here, l :: ls⟩ with
      | some c => some c
      | none => climb? floor l ls

/-- One step of the walk below depth `floor`. -/
def step? (floor : Nat) (c : Cursor κ) : Option (Cursor κ) :=
  match c.firstChild? with
  | some d => some d
  | none => climb? floor c.here c.above

/-- The nodes met in at most `fuel` steps. -/
def walkFrom (floor : Nat) : Nat → Cursor κ → List (ParseTree κ)
  | 0, _ => []
  | fuel + 1, c =>
    c.node ::
      match step? floor c with
      | none => []
      | some d => walkFrom floor fuel d

/-- The nodes that the walk starting at the cursor's node visits, in order.
    The walk ends when it is back at that node, whatever surrounds it. -/
def walk (c : Cursor κ) : List (ParseTree κ) :=
  walkFrom c.above.length c.node.size c

end Cursor

/-- The nodes of a tree in the order a walk from its root visits them. -/
def ParseTree.nodes {κ : Type} (t : ParseTree κ) : List (ParseTree κ) :=
  (Cursor.ofTree t).walk

end WebBaseline.Syntax

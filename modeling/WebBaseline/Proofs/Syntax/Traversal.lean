/-
  WebBaseline.Proofs.Syntax.Traversal

  A walk as a loop over the moves of a cursor, and the places that it visits.

    * a place is a cursor; two cursors in a tree are at one place exactly if as many
      siblings come after them and after each of their ancestors
      (`Cursor.eq_of_address_eq`);
    * `Cursor.preorder` lists a place and all places below it, each before those below
      itself: exactly those from which the way up passes there
      (`Cursor.mem_preorder_iff`), and each once (`Cursor.nodup_preorder`);
    * the loop arrives at a node and then leaves it, both once, so with two rounds for
      each node it has visited these places in this order and is back where it began
      (`Loop.next_iterate`), where it ends.

  The walk that looks at depths instead of places visits the same nodes
  (`Loop.loop_visits`).
-/

import Mathlib.Data.List.Nodup
import Mathlib.Logic.Function.Iterate
import Mathlib.Logic.Relation
import WebBaseline.Proofs.Syntax.Walk

namespace WebBaseline.Syntax

variable {κ : Type}

namespace Cursor

/-! ## Places -/

/-- The levels from the cursor's node up to the root. -/
def levels (c : Cursor κ) : List (Level κ) := c.here :: c.above

/-- How many siblings come after the node and after each of its ancestors. -/
def address (c : Cursor κ) : List Nat := c.levels.map (fun l => l.later.length)

/-- Whether a cursor is at a place or below it: the way up leads there. -/
def IsWithin (d c : Cursor κ) : Prop := Relation.ReflTransGen (fun d p => d.parent? = some p) d c

mutual

/-- A tree's places, each before those below it, where its later siblings and the levels
    above it are given. -/
def placesOf : ParseTree κ → List (ParseTree κ) → List (Level κ) → List (Cursor κ)
  | .node k p f s e cs, later, above =>
    ⟨⟨.node k p f s e cs, later⟩, above⟩ :: placesAmong cs (⟨.node k p f s e cs, later⟩ :: above)

/-- The places of the trees on a level, tree after tree. -/
def placesAmong : List (ParseTree κ) → List (Level κ) → List (Cursor κ)
  | [], _ => []
  | t :: ts, above => placesOf t ts above ++ placesAmong ts above

end

/-- The place of a cursor and all places below it, each before those below itself. -/
def preorder (c : Cursor κ) : List (Cursor κ) := placesOf c.here.node c.here.later c.above

end Cursor

/-- The places of a tree. -/
def ParseTree.places (t : ParseTree κ) : List (Cursor κ) := (Cursor.ofTree t).preorder

namespace Cursor

theorem levels_injective {c d : Cursor κ} (h : c.levels = d.levels) : c = d := by
  obtain ⟨_, _⟩ := c
  obtain ⟨_, _⟩ := d
  cases h
  rfl

theorem placesOf_eq (t : ParseTree κ) (later : List (ParseTree κ)) (above : List (Level κ)) :
    placesOf t later above = ⟨⟨t, later⟩, above⟩ :: placesAmong t.children (⟨t, later⟩ :: above) := by
  cases t
  rfl

theorem preorder_eq (c : Cursor κ) : c.preorder = c :: placesAmong c.node.children c.levels :=
  placesOf_eq c.here.node c.here.later c.above

/-! ## Nodes at the places -/

mutual

theorem map_node_placesOf : ∀ (t : ParseTree κ) (later : List (ParseTree κ)) (above : List (Level κ)),
    (placesOf t later above).map node = t.preorder
  | .node k p f s e cs, later, above => by
    rw [placesOf, List.map_cons, ParseTree.preorder, map_node_placesAmong cs]
    rfl

theorem map_node_placesAmong : ∀ (ts : List (ParseTree κ)) (above : List (Level κ)),
    (placesAmong ts above).map node = ParseTree.preorderAll ts
  | [], _ => rfl
  | t :: ts, above => by
    rw [placesAmong, List.map_append, ParseTree.preorderAll, map_node_placesOf t,
      map_node_placesAmong ts]

end

theorem map_node_preorder (c : Cursor κ) : c.preorder.map node = c.node.preorder :=
  map_node_placesOf c.here.node c.here.later c.above

/-! ## Levels and addresses of places -/

mutual

theorem suffix_of_mem_placesOf {d : Cursor κ} :
    ∀ {t : ParseTree κ} {later : List (ParseTree κ)} {above : List (Level κ)},
      d ∈ placesOf t later above → (⟨t, later⟩ :: above) <:+ d.levels
  | .node k p f s e cs, later, above, h => by
    rw [placesOf, List.mem_cons] at h
    rcases h with rfl | h
    · exact List.suffix_rfl
    · obtain ⟨l, hl, -⟩ := suffix_of_mem_placesAmong h
      exact (List.suffix_cons l _).trans hl

/-- A place among trees is on a level there, with fewer trees after it. -/
theorem suffix_of_mem_placesAmong {d : Cursor κ} :
    ∀ {ts : List (ParseTree κ)} {above : List (Level κ)},
      d ∈ placesAmong ts above →
        ∃ l : Level κ, (l :: above) <:+ d.levels ∧ l.later.length < ts.length
  | t :: ts, above, h => by
    rw [placesAmong, List.mem_append] at h
    rcases h with h | h
    · exact ⟨⟨t, ts⟩, suffix_of_mem_placesOf h, Nat.lt_succ_self _⟩
    · obtain ⟨l, hl, hlater⟩ := suffix_of_mem_placesAmong h
      exact ⟨l, hl, Nat.lt_succ_of_lt hlater⟩

end

theorem suffix_address {ls : List (Level κ)} {d : Cursor κ} (h : ls <:+ d.levels) :
    ls.map (fun l => l.later.length) <:+ d.address :=
  h.map (fun l => l.later.length)

/-- A list has one end of each length. -/
theorem eq_of_suffix_of_suffix {α : Type} {a b : α} {as bs : List α} (ha : (a :: as) <:+ bs)
    (hb : (b :: as) <:+ bs) : a = b :=
  (List.cons.inj ((List.suffix_of_suffix_length_le ha hb (Nat.le_refl _)).eq_of_length rfl)).1

mutual

theorem nodup_address_placesOf : ∀ (t : ParseTree κ) (later : List (ParseTree κ))
    (above : List (Level κ)), ((placesOf t later above).map address).Nodup
  | .node k p f s e cs, later, above => by
    rw [placesOf, List.map_cons, List.nodup_cons]
    refine ⟨fun h => ?_, nodup_address_placesAmong cs _⟩
    -- below a place, addresses are longer
    obtain ⟨d, hd, haddress⟩ := List.mem_map.1 h
    obtain ⟨l, hl, -⟩ := suffix_of_mem_placesAmong hd
    have hlonger := (suffix_address hl).length_le
    rw [haddress] at hlonger
    simp only [address, levels, List.length_map, List.length_cons] at hlonger
    omega

theorem nodup_address_placesAmong : ∀ (ts : List (ParseTree κ)) (above : List (Level κ)),
    ((placesAmong ts above).map address).Nodup
  | [], _ => List.nodup_nil
  | t :: ts, above => by
    rw [placesAmong, List.map_append, List.nodup_append]
    refine ⟨nodup_address_placesOf t ts above, nodup_address_placesAmong ts above, ?_⟩
    rintro _ hfront _ hback rfl
    obtain ⟨c, hc, rfl⟩ := List.mem_map.1 hfront
    obtain ⟨d, hd, haddress⟩ := List.mem_map.1 hback
    -- the same number of trees would come after the first one and after a later one
    have hfirst := suffix_address (suffix_of_mem_placesOf hc)
    obtain ⟨l, hl, hlater⟩ := suffix_of_mem_placesAmong hd
    have hsecond := suffix_address hl
    rw [haddress] at hsecond
    exact Nat.ne_of_lt hlater (eq_of_suffix_of_suffix hsecond hfirst)

end

theorem nodup_preorder (c : Cursor κ) : c.preorder.Nodup :=
  (nodup_address_placesOf c.here.node c.here.later c.above).of_map address

theorem eq_of_address_eq {t : ParseTree κ} {c d : Cursor κ} (hc : c ∈ t.places) (hd : d ∈ t.places)
    (h : c.address = d.address) : c = d :=
  List.inj_on_of_nodup_map (nodup_address_placesOf t [] []) hc hd h

/-! ## Places below a place -/

theorem isWithin_iff {c d : Cursor κ} : d.IsWithin c ↔ c.levels <:+ d.levels := by
  constructor
  · intro h
    induction h using Relation.ReflTransGen.head_induction_on with
    | refl => exact List.suffix_rfl
    | @head d p hstep _ ih =>
      refine ih.trans ?_
      obtain ⟨here, _ | ⟨l, ls⟩⟩ := d
      · cases hstep
      · cases hstep
        exact List.suffix_cons here _
  · intro h
    obtain ⟨here, above⟩ := d
    induction above generalizing here with
    | nil =>
      rcases List.suffix_cons_iff.1 h with heq | hnil
      · rw [levels_injective (c := c) (d := ⟨here, []⟩) heq]
        exact Relation.ReflTransGen.refl
      · exact absurd (List.suffix_nil.1 hnil) (List.cons_ne_nil _ _)
    | cons l ls ih =>
      rcases List.suffix_cons_iff.1 h with heq | hup
      · rw [levels_injective (c := c) (d := ⟨here, l :: ls⟩) heq]
        exact Relation.ReflTransGen.refl
      · exact Relation.ReflTransGen.head rfl (ih l hup)

mutual

theorem sublist_of_mem_placesOf {c : Cursor κ} :
    ∀ {t : ParseTree κ} {later : List (ParseTree κ)} {above : List (Level κ)},
      c ∈ placesOf t later above → c.preorder.Sublist (placesOf t later above)
  | .node k p f s e cs, later, above, h => by
    rw [placesOf, List.mem_cons] at h
    rcases h with rfl | h
    · exact List.Sublist.refl _
    · rw [placesOf]
      exact (sublist_of_mem_placesAmong h).cons _

theorem sublist_of_mem_placesAmong {c : Cursor κ} :
    ∀ {ts : List (ParseTree κ)} {above : List (Level κ)},
      c ∈ placesAmong ts above → c.preorder.Sublist (placesAmong ts above)
  | t :: ts, above, h => by
    rw [placesAmong, List.mem_append] at h
    rw [placesAmong]
    rcases h with h | h
    · exact (sublist_of_mem_placesOf h).trans (List.sublist_append_left _ _)
    · exact (sublist_of_mem_placesAmong h).trans (List.sublist_append_right _ _)

end

mutual

/-- A place whose levels end with those of another one is below it. -/
theorem mem_preorder_of_mem_placesOf {c d : Cursor κ} (hlevels : c.levels <:+ d.levels) :
    ∀ {t : ParseTree κ} {later : List (ParseTree κ)} {above : List (Level κ)},
      c ∈ placesOf t later above → d ∈ placesOf t later above → d ∈ c.preorder
  | .node k p f s e cs, later, above, hc, hd => by
    rw [placesOf, List.mem_cons] at hc hd
    rcases hc with rfl | hc
    · rw [preorder_eq, List.mem_cons]
      exact hd
    · rcases hd with rfl | hd
      · obtain ⟨l, hl, -⟩ := suffix_of_mem_placesAmong hc
        exact absurd (hl.trans hlevels).length_le (Nat.not_succ_le_self _)
      · exact mem_preorder_of_mem_placesAmong hlevels hc hd

theorem mem_preorder_of_mem_placesAmong {c d : Cursor κ} (hlevels : c.levels <:+ d.levels) :
    ∀ {ts : List (ParseTree κ)} {above : List (Level κ)},
      c ∈ placesAmong ts above → d ∈ placesAmong ts above → d ∈ c.preorder
  | t :: ts, above, hc, hd => by
    rw [placesAmong, List.mem_append] at hc hd
    rcases hc with hc | hc <;> rcases hd with hd | hd
    · exact mem_preorder_of_mem_placesOf hlevels hc hd
    · obtain ⟨l, hl, hlater⟩ := suffix_of_mem_placesAmong hd
      obtain rfl := eq_of_suffix_of_suffix hl ((suffix_of_mem_placesOf hc).trans hlevels)
      exact absurd hlater (Nat.lt_irrefl _)
    · obtain ⟨l, hl, hlater⟩ := suffix_of_mem_placesAmong hc
      obtain rfl := eq_of_suffix_of_suffix (hl.trans hlevels) (suffix_of_mem_placesOf hd)
      exact absurd hlater (Nat.lt_irrefl _)
    · exact mem_preorder_of_mem_placesAmong hlevels hc hd

end

theorem mem_preorder_iff {t : ParseTree κ} {c d : Cursor κ} (hc : c ∈ t.places) :
    d ∈ c.preorder ↔ d ∈ t.places ∧ d.IsWithin c := by
  rw [isWithin_iff]
  constructor
  · intro hd
    exact ⟨(sublist_of_mem_placesOf hc).subset hd, suffix_of_mem_placesOf hd⟩
  · rintro ⟨hd, hlevels⟩
    exact mem_preorder_of_mem_placesOf hlevels hc hd

end Cursor

/-! ## The loop -/

/-- What the loop does next at its cursor. -/
inductive Phase where
  /-- It visits the node and goes down. -/
  | arriving
  /-- The node and all below it are visited; it goes on from there or stops. -/
  | leaving
  /-- It has stopped. -/
  | ended
  deriving DecidableEq, Repr

/-- A state of the loop. -/
structure Loop (κ : Type) where
  /-- The places visited so far. -/
  visited : List (Cursor κ)
  cursor : Cursor κ
  phase : Phase

namespace Loop

open Cursor

/-- The loop before its first round. -/
def start (root : Cursor κ) : Loop κ := ⟨[], root, .arriving⟩

/-- One round of the loop that began at `root`. It stops where it is back at `root`, or
    where it can go neither on nor up. -/
def next (root : Cursor κ) (s : Loop κ) : Loop κ :=
  match s.phase with
  | .arriving =>
    match s.cursor.firstChild? with
    | some d => ⟨s.visited ++ [s.cursor], d, .arriving⟩
    | none => ⟨s.visited ++ [s.cursor], s.cursor, .leaving⟩
  | .leaving =>
    if s.cursor.address = root.address then ⟨s.visited, s.cursor, .ended⟩
    else
      match s.cursor.nextSibling? with
      | some d => ⟨s.visited, d, .arriving⟩
      | none =>
        match s.cursor.parent? with
        | some d => ⟨s.visited, d, .leaving⟩
        | none => ⟨s.visited, s.cursor, .ended⟩
  | .ended => s

/-- The loop where the trees `ts` are the next on the level below the place `c`: at the
    first of them, or back at `c` where there is none. -/
def before (ts : List (ParseTree κ)) (c : Cursor κ) (visited : List (Cursor κ)) : Loop κ :=
  match ts with
  | [] => ⟨visited, c, .leaving⟩
  | t :: ts => ⟨visited, ⟨⟨t, ts⟩, c.levels⟩, .arriving⟩

section Rounds

variable {root : Cursor κ}

theorem next_arriving (c : Cursor κ) (visited : List (Cursor κ)) :
    next root ⟨visited, c, .arriving⟩ = before c.node.children c (visited ++ [c]) := by
  simp only [next, firstChild?]
  cases c.node.children <;> rfl

/-- Below its root, the loop goes on to the next sibling, or up where there is none. -/
theorem next_leaving (t : ParseTree κ) (later : List (ParseTree κ)) {c : Cursor κ}
    (hdepth : root.above.length ≤ c.above.length) (visited : List (Cursor κ)) :
    next root ⟨visited, ⟨⟨t, later⟩, c.levels⟩, .leaving⟩ = before later c visited := by
  have hne : (⟨⟨t, later⟩, c.levels⟩ : Cursor κ).address ≠ root.address := by
    intro h
    have hlength := congrArg List.length h
    simp only [address, levels, List.length_map, List.length_cons] at hlength
    omega
  simp only [next]
  rw [if_neg hne]
  cases later <;> rfl

theorem next_leaving_root (visited : List (Cursor κ)) :
    next root ⟨visited, root, .leaving⟩ = ⟨visited, root, .ended⟩ :=
  if_pos rfl

mutual

/-- With two rounds for each node of a tree, the loop visits the tree and leaves it. -/
theorem iterate_arriving : ∀ (t : ParseTree κ) (later : List (ParseTree κ))
    (above : List (Level κ)) (visited : List (Cursor κ)), root.above.length ≤ above.length →
    (next root)^[2 * t.size] ⟨visited, ⟨⟨t, later⟩, above⟩, .arriving⟩ =
      next root ⟨visited ++ placesOf t later above, ⟨⟨t, later⟩, above⟩, .leaving⟩
  | .node k p f s e cs, later, above, visited, hdepth => by
    have hbelow := iterate_before cs ⟨⟨.node k p f s e cs, later⟩, above⟩
      (visited ++ [⟨⟨.node k p f s e cs, later⟩, above⟩]) hdepth
    -- one round to arrive at the node, the last one to leave it
    rw [ParseTree.size, Nat.mul_succ, Function.iterate_succ_apply, next_arriving,
      Function.iterate_succ_apply']
    rw [show (Cursor.node ⟨⟨.node k p f s e cs, later⟩, above⟩).children = cs from rfl, hbelow,
      placesOf, List.append_assoc, List.singleton_append]
    rfl

/-- With two rounds for each node of some trees, the loop visits them all and is back
    above them. -/
theorem iterate_before : ∀ (ts : List (ParseTree κ)) (c : Cursor κ)
    (visited : List (Cursor κ)), root.above.length ≤ c.above.length →
    (next root)^[2 * ParseTree.sizeAll ts] (before ts c visited) =
      ⟨visited ++ placesAmong ts c.levels, c, .leaving⟩
  | [], c, visited, _ => by
    rw [placesAmong, List.append_nil]
    rfl
  | t :: ts, c, visited, hdepth => by
    have hfirst := iterate_arriving t ts c.levels visited (Nat.le_succ_of_le hdepth)
    have hrest := iterate_before ts c (visited ++ placesOf t ts c.levels) hdepth
    rw [ParseTree.sizeAll, Nat.mul_add, Nat.add_comm, Function.iterate_add_apply, before, hfirst,
      next_leaving t ts hdepth, hrest, placesAmong, List.append_assoc]

end

end Rounds

/-- With two rounds for each node, the loop has visited the place it began at and all
    places below it, and has stopped there. -/
theorem next_iterate (root : Cursor κ) :
    (next root)^[2 * root.node.size] (start root) = ⟨root.preorder, root, .ended⟩ := by
  have h : (next root)^[2 * root.node.size] (start root) =
      next root ⟨root.preorder, root, .leaving⟩ :=
    iterate_arriving root.here.node root.here.later root.above [] (Nat.le_refl _)
  exact h.trans (next_leaving_root root.preorder)

/-- Started at any place of a tree, the loop stops after two rounds for each node at or
    below the place. Until then it has visited the place and all places below it, each
    once and before those below it, and no other place of the tree. The nodes there are
    those of the subtree in preorder; the walk that counts depths visits them as well,
    and so does one on the subtree alone. -/
theorem loop_visits (t : ParseTree κ) {root : Cursor κ} (hroot : root ∈ t.places) :
    (next root)^[2 * root.node.size] (start root) = ⟨root.preorder, root, .ended⟩ ∧
    root.preorder.Nodup ∧
    (∀ d, d ∈ root.preorder ↔ d ∈ t.places ∧ d.IsWithin root) ∧
    (∀ c ∈ t.places, ∀ d ∈ t.places, c.address = d.address → c = d) ∧
    root.preorder.map node = root.node.preorder ∧
    root.walk = root.preorder.map node ∧
    root.node.nodes = root.preorder.map node := by
  have hnodes := map_node_preorder root
  refine ⟨next_iterate root, nodup_preorder root, fun d => mem_preorder_iff hroot,
    fun c hc d hd h => eq_of_address_eq hc hd h, hnodes, ?_, ?_⟩
  · rw [walk_eq_preorder, hnodes]
  · rw [ParseTree.nodes_eq_preorder, hnodes]

/-- A tree with a leaf and, as its last child, a node with an only child. -/
def leafAndPair : ParseTree Nat :=
  .node 0 none none 0 3 [.leaf 1 0 1, .node 2 none none 1 3 [.leaf 3 2 3]]

/-- The last child of that tree. -/
def lastChild : Cursor Nat := ⟨⟨.node 2 none none 1 3 [.leaf 3 2 3], []⟩, [⟨leafAndPair, []⟩]⟩

theorem loop_visits_lastChild :
    lastChild ∈ leafAndPair.places ∧
    ((next lastChild)^[4] (start lastChild)).visited.map (fun c => c.node.kind) = [2, 3] ∧
    ((next lastChild)^[4] (start lastChild)).phase = .ended ∧
    ⟨⟨.leaf 1 0 1, [lastChild.node]⟩, [⟨leafAndPair, []⟩]⟩ ∉ lastChild.preorder := by
  have hroot : lastChild ∈ leafAndPair.places :=
    List.mem_cons_of_mem _ (List.mem_cons_of_mem _ List.mem_cons_self)
  obtain ⟨hrun, -, hmem, -⟩ := loop_visits leafAndPair hroot
  have hrounds : (next lastChild)^[4] (start lastChild) = ⟨lastChild.preorder, lastChild, .ended⟩ :=
    hrun
  rw [hrounds]
  refine ⟨hroot, rfl, rfl, fun h => ?_⟩
  have hup := (List.suffix_cons_iff.1 (isWithin_iff.1 ((hmem _).1 h).2)).resolve_right
    (fun h => absurd h.length_le (by decide))
  cases hup

end Loop

end WebBaseline.Syntax

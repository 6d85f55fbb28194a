/-
  WebBaseline.Proofs.Syntax.Laws

  Laws of the trees that a grammar reads, from the rules that build them.

    * a rule that grows no tree adds in front of what was read and depends on none
      of it (`Derives.frame`);
    * if no lexeme reads backwards, then neither does a derivation, and the trees lie
      between the offsets it starts and ends at (`Derives.within`);
    * if each node that a rule builds keeps a law, all nodes of the trees keep it
      (`Derives.all_keep`, `all_of_read?`).
-/

import Mathlib.Order.Nat
import WebBaseline.Proofs.Syntax.Derivation
import WebBaseline.Proofs.Syntax.Scan
import WebBaseline.Proofs.Syntax.Walk

namespace WebBaseline.Syntax

variable {ν κ : Type}

/-! ## Trees between two offsets -/

/-- Whether a tree lies between two offsets. -/
structure ParseTree.Within (b e : Nat) (t : ParseTree κ) : Prop where
  starts : b ≤ t.start
  ordered : t.start ≤ t.stop
  ends : t.stop ≤ e

namespace ParseTree

variable {b b' e e' : Nat} {t : ParseTree κ}

theorem Within.mono (h : t.Within b e) (hb : b' ≤ b) (he : e ≤ e') : t.Within b' e' :=
  ⟨hb.trans h.starts, h.ordered, h.ends.trans he⟩

theorem within_leaf {kind : κ} {i j : Nat} (hij : i ≤ j) : (leaf kind i j).Within i j :=
  ⟨Nat.le_refl i, hij, Nat.le_refl j⟩

@[simp] theorem start_asPart (p : Part) (t : ParseTree κ) : (t.asPart p).start = t.start := by
  cases t; rfl

@[simp] theorem stop_asPart (p : Part) (t : ParseTree κ) : (t.asPart p).stop = t.stop := by
  cases t; rfl

@[simp] theorem part_asPart (p : Part) (t : ParseTree κ) : (t.asPart p).part = some p := by
  cases t; rfl

theorem Within.asPart (h : t.Within b e) (p : Part) : (t.asPart p).Within b e := by
  cases t; exact ⟨h.starts, h.ordered, h.ends⟩

theorem Within.inPart (h : t.Within b e) (part : Option Part) : (t.inPart part).Within b e := by
  cases part with
  | none => exact h
  | some p => exact h.asPart p

theorem Within.withFlaw (h : t.Within b e) (f : Flaw) : (t.withFlaw f).Within b e := by
  cases t; exact ⟨h.starts, h.ordered, h.ends⟩

end ParseTree

/-! ## Rules -/

namespace Rule

/-- Whether a rule leaves the trees read before it as they are. -/
def isAdding : Rule ν κ → Bool
  | .grow .. => false
  | .seq first second => first.isAdding && second.isAdding
  | .alt first second => first.isAdding && second.isAdding
  | .many item => item.isAdding
  | _ => true

/-- Whether no lexeme of a rule reads backwards. -/
def Advances : Rule ν κ → Prop
  | .lexeme _ scan => scan.Advances
  | .flush _ scan => scan.Advances
  | .seq first second => first.Advances ∧ second.Advances
  | .alt first second => first.Advances ∧ second.Advances
  | .many item => item.Advances
  | .node _ body => body.Advances
  | .grow _ _ body => body.Advances
  | .named _ body => body.Advances
  | .flawed _ body => body.Advances
  | .only _ body => body.Advances
  | _ => True

end Rule

namespace Grammar

variable {g : Grammar ν κ} {chars : Array Char}

/-- Whether no lexeme of a grammar reads backwards. -/
structure Advances (g : Grammar ν κ) : Prop where
  rules : ∀ name, (g.rules name).Advances
  remark : g.remark.Advances

/-! ## Between lexemes -/

theorem gapFrom_eq (fuel i : Nat) (acc : List (ParseTree κ)) :
    g.gapFrom chars fuel i acc =
      ((g.gapFrom chars fuel i []).1, (g.gapFrom chars fuel i []).2 ++ acc) := by
  induction fuel generalizing i acc with
  | zero => rfl
  | succ fuel ih =>
    simp only [gapFrom]
    split
    · rfl
    · split
      · exact ih _ _
      · split
        · rfl
        · rw [ih, ih _ [_], List.append_assoc, List.singleton_append]

/-- What is skipped does not depend on the trees read before. -/
theorem gap_eq (i : Nat) (acc : List (ParseTree κ)) :
    g.gap chars i acc = ((g.gap chars i []).1, (g.gap chars i []).2 ++ acc) :=
  gapFrom_eq _ i acc

theorem gapFrom_within (hremark : g.remark.Advances) (fuel : Nat) {b i : Nat}
    {acc : List (ParseTree κ)} (hb : b ≤ i) (hacc : ∀ t ∈ acc, t.Within b i) :
    i ≤ (g.gapFrom chars fuel i acc).1 ∧
      ∀ t ∈ (g.gapFrom chars fuel i acc).2, t.Within b (g.gapFrom chars fuel i acc).1 := by
  induction fuel generalizing i acc with
  | zero => exact ⟨Nat.le_refl i, hacc⟩
  | succ fuel ih =>
    rw [gapFrom]
    split
    · exact ⟨Nat.le_refl i, hacc⟩
    · split
      · have hstep := Nat.le_succ i
        obtain ⟨hle, hall⟩ := ih (hb.trans hstep) (fun t ht => (hacc t ht).mono le_rfl hstep)
        exact ⟨hstep.trans hle, hall⟩
      · split
        · exact ⟨Nat.le_refl i, hacc⟩
        · next j hscan =>
          have hstep := hremark hscan
          have hleaf : (ParseTree.leaf g.remarkKind i j).Within b j :=
            (ParseTree.within_leaf hstep).mono hb le_rfl
          obtain ⟨hle, hall⟩ := ih (hb.trans hstep)
            (List.forall_mem_cons.2 ⟨hleaf, fun t ht => (hacc t ht).mono le_rfl hstep⟩)
          exact ⟨hstep.trans hle, hall⟩

theorem gap_within (hremark : g.remark.Advances) {b i : Nat} {acc : List (ParseTree κ)}
    (hb : b ≤ i) (hacc : ∀ t ∈ acc, t.Within b i) :
    i ≤ (g.gap chars i acc).1 ∧
      ∀ t ∈ (g.gap chars i acc).2, t.Within b (g.gap chars i acc).1 :=
  gapFrom_within hremark _ hb hacc

/-! ## What a derivation adds -/

/-- A rule that only adds puts trees in front of those read before, and would put the
    same in front of any others. -/
theorem Derives.frame {rule : Rule ν κ} {i j : Nat} {acc acc' : List (ParseTree κ)}
    (h : g.Derives chars rule i acc j acc') (hadds : rule.isAdding = true) :
    ∃ new, acc' = new ++ acc ∧ ∀ base, g.Derives chars rule i base j (new ++ base) := by
  -- what is read inside a node or a name is read from no trees and needs no hypothesis;
  -- remarks that a gap skips are new trees too
  induction h with
  | empty => exact ⟨[], rfl, fun _ => .empty⟩
  | @lexeme kind scan i k acc hscan =>
    rw [gap_eq] at hscan ⊢
    refine ⟨.leaf kind _ k :: (g.gap chars i []).2, rfl, fun base => ?_⟩
    have hbase : g.Derives chars (.lexeme kind scan) i base k _ :=
      .lexeme (by rw [gap_eq]; exact hscan)
    rw [gap_eq i base] at hbase
    exact hbase
  | @flush kind scan i k acc hscan => exact ⟨[.leaf kind i k], rfl, fun _ => .flush hscan⟩
  | test => exact ⟨[], rfl, fun _ => .test⟩
  | @phrase name i j acc trees inner => exact ⟨trees, rfl, fun _ => .phrase inner⟩
  | seq left right ihl ihr =>
    obtain ⟨hfirst, hsecond⟩ := Bool.and_eq_true_iff.1 hadds
    obtain ⟨new, rfl, hnew⟩ := ihl hfirst
    obtain ⟨new', rfl, hnew'⟩ := ihr hsecond
    refine ⟨new' ++ new, (List.append_assoc ..).symm, fun base => ?_⟩
    rw [List.append_assoc]
    exact .seq (hnew base) (hnew' (new ++ base))
  | altFirst branch ih =>
    obtain ⟨new, hacc', hnew⟩ := ih (Bool.and_eq_true_iff.1 hadds).1
    exact ⟨new, hacc', fun base => .altFirst (hnew base)⟩
  | altSecond branch ih =>
    obtain ⟨new, hacc', hnew⟩ := ih (Bool.and_eq_true_iff.1 hadds).2
    exact ⟨new, hacc', fun base => .altSecond (hnew base)⟩
  | manyDone => exact ⟨[], rfl, fun _ => .manyDone⟩
  | manyStep head rest ihh ihr =>
    obtain ⟨new, rfl, hnew⟩ := ihh hadds
    obtain ⟨new', rfl, hnew'⟩ := ihr hadds
    refine ⟨new' ++ new, (List.append_assoc ..).symm, fun base => ?_⟩
    rw [List.append_assoc]
    exact .manyStep (hnew base) (hnew' (new ++ base))
  | absent => exact ⟨[], rfl, fun _ => .absent⟩
  | @node kind body i j acc trees inner =>
    rw [gap_eq] at inner ⊢
    refine ⟨enclose kind _ trees :: (g.gap chars i []).2, rfl, fun base => ?_⟩
    have hbase : g.Derives chars (.node kind body) i base j _ :=
      .node (by rw [gap_eq]; exact inner)
    rw [gap_eq i base] at hbase
    exact hbase
  | grow => cases hadds
  | @named part body i j t acc trees inner =>
    exact ⟨t.asPart part :: trees, rfl, fun _ => .named inner⟩
  | namedNone inner => exact ⟨[], rfl, fun _ => .namedNone inner⟩
  | @flawed flaw body i j t acc trees inner =>
    exact ⟨t.withFlaw flaw :: trees, rfl, fun _ => .flawed inner⟩
  | flawedNone inner => exact ⟨[], rfl, fun _ => .flawedNone inner⟩
  | @only accept body i j t acc trees inner => exact ⟨t :: trees, rfl, fun _ => .only inner⟩

/-! ## Where trees stand -/

@[simp] theorem children_enclose (kind : κ) (s : Nat) (trees : List (ParseTree κ)) :
    (enclose kind s trees).children = trees.reverse := rfl

theorem within_enclose {kind : κ} {s e : Nat} {trees : List (ParseTree κ)} (hse : s ≤ e)
    (htrees : ∀ t ∈ trees, t.Within s e) : (enclose kind s trees).Within s e := by
  cases trees with
  | nil => exact ⟨Nat.le_refl s, Nat.le_refl s, hse⟩
  | cons t ts =>
    have ht := htrees t List.mem_cons_self
    exact ⟨Nat.le_refl s, ht.starts.trans ht.ordered, ht.ends⟩

/-- Trees that are read apart from others, and after them, add to what lies between
    two offsets. -/
theorem within_append {b i j : Nat} {acc trees : List (ParseTree κ)} (hb : b ≤ i) (hij : i ≤ j)
    (hacc : ∀ t ∈ acc, t.Within b i) (htrees : ∀ t ∈ trees, t.Within i j) :
    ∀ t ∈ trees ++ acc, t.Within b j :=
  List.forall_mem_append.2
    ⟨fun t ht => (htrees t ht).mono hb le_rfl, fun t ht => (hacc t ht).mono le_rfl hij⟩

theorem within_cons {b i j : Nat} {t : ParseTree κ} {acc : List (ParseTree κ)} (hb : b ≤ i)
    (hij : i ≤ j) (hacc : ∀ u ∈ acc, u.Within b i) (ht : t.Within i j) :
    ∀ u ∈ t :: acc, u.Within b j :=
  List.forall_mem_cons.2 ⟨ht.mono hb le_rfl, fun u hu => (hacc u hu).mono le_rfl hij⟩

/-- A derivation does not read backwards, and the trees lie between where the earliest
    of them starts and where the derivation ends. -/
theorem Derives.within (hg : g.Advances) {rule : Rule ν κ} {i j b : Nat}
    {acc acc' : List (ParseTree κ)} (h : g.Derives chars rule i acc j acc')
    (hrule : rule.Advances) (hb : b ≤ i) (hacc : ∀ t ∈ acc, t.Within b i) :
    i ≤ j ∧ ∀ t ∈ acc', t.Within b j := by
  -- what is read apart, from no trees, lies between its own two offsets
  induction h generalizing b with
  | empty => exact ⟨Nat.le_refl _, hacc⟩
  | lexeme hscan =>
    obtain ⟨hgap, hall⟩ := gap_within hg.remark hb hacc
    have hstep := hrule hscan
    exact ⟨hgap.trans hstep,
      within_cons (hb.trans hgap) hstep hall (ParseTree.within_leaf hstep)⟩
  | flush hscan =>
    have hstep := hrule hscan
    exact ⟨hstep, within_cons hb hstep hacc (ParseTree.within_leaf hstep)⟩
  | test => exact ⟨Nat.le_refl _, hacc⟩
  | phrase inner ih =>
    obtain ⟨hij, hall⟩ := ih (hg.rules _) le_rfl (List.forall_mem_nil _)
    exact ⟨hij, within_append hb hij hacc hall⟩
  | seq left right ihl ihr =>
    obtain ⟨hij, hall⟩ := ihl hrule.1 hb hacc
    obtain ⟨hjk, hall'⟩ := ihr hrule.2 (hb.trans hij) hall
    exact ⟨hij.trans hjk, hall'⟩
  | altFirst branch ih => exact ih hrule.1 hb hacc
  | altSecond branch ih => exact ih hrule.2 hb hacc
  | manyDone => exact ⟨Nat.le_refl _, hacc⟩
  | manyStep head rest ihh ihr =>
    obtain ⟨hij, hall⟩ := ihh hrule hb hacc
    obtain ⟨hjk, hall'⟩ := ihr hrule (hb.trans hij) hall
    exact ⟨hij.trans hjk, hall'⟩
  | absent => exact ⟨Nat.le_refl _, hacc⟩
  | node inner ih =>
    obtain ⟨hgap, hall⟩ := gap_within hg.remark hb hacc
    obtain ⟨hij, hinner⟩ := ih hrule le_rfl (List.forall_mem_nil _)
    exact ⟨hgap.trans hij, within_cons (hb.trans hgap) hij hall (within_enclose hij hinner)⟩
  | @grow kind part body i j t acc trees inner ih =>
    -- the latest tree ended before `i`, and the new node starts where that one did
    obtain ⟨ht, hacc⟩ := List.forall_mem_cons.1 hacc
    have hti := ht.ordered.trans ht.ends
    obtain ⟨hij, hall⟩ := ih hrule hti (List.forall_mem_singleton.2
      (ParseTree.Within.inPart ⟨le_rfl, ht.ordered, ht.ends⟩ part))
    have hgrown := (@within_enclose κ kind _ _ _ (hti.trans hij) hall).mono ht.starts le_rfl
    exact ⟨hij, List.forall_mem_cons.2
      ⟨hgrown, fun u hu => (hacc u hu).mono le_rfl hij⟩⟩
  | named inner ih =>
    obtain ⟨hij, hall⟩ := ih hrule le_rfl (List.forall_mem_nil _)
    obtain ⟨ht, htrees⟩ := List.forall_mem_cons.1 hall
    exact ⟨hij, List.forall_mem_cons.2
      ⟨(ht.asPart _).mono hb le_rfl, within_append hb hij hacc htrees⟩⟩
  | namedNone inner ih =>
    obtain ⟨hij, -⟩ := ih hrule le_rfl (List.forall_mem_nil _)
    exact ⟨hij, fun t ht => (hacc t ht).mono le_rfl hij⟩
  | flawed inner ih =>
    obtain ⟨hij, hall⟩ := ih hrule le_rfl (List.forall_mem_nil _)
    obtain ⟨ht, htrees⟩ := List.forall_mem_cons.1 hall
    exact ⟨hij, List.forall_mem_cons.2
      ⟨(ht.withFlaw _).mono hb le_rfl, within_append hb hij hacc htrees⟩⟩
  | flawedNone inner ih =>
    obtain ⟨hij, -⟩ := ih hrule le_rfl (List.forall_mem_nil _)
    exact ⟨hij, fun t ht => (hacc t ht).mono le_rfl hij⟩
  | only inner ih =>
    obtain ⟨hij, hall⟩ := ih hrule le_rfl (List.forall_mem_nil _)
    obtain ⟨ht, htrees⟩ := List.forall_mem_cons.1 hall
    exact ⟨hij, List.forall_mem_cons.2
      ⟨ht.mono hb le_rfl, within_append hb hij hacc htrees⟩⟩

end Grammar

/-! ## Laws of nodes -/

/-- Whether all nodes of a tree keep a law. -/
def ParseTree.All (law : ParseTree κ → Prop) (t : ParseTree κ) : Prop := ∀ u ∈ t.preorder, law u

/-- Whether a law of nodes looks neither at the part a node plays nor at its flaw. -/
structure IsMarkless (law : ParseTree κ → Prop) : Prop where
  asPart : ∀ (p : Part) {t : ParseTree κ}, law t → law (t.asPart p)
  withFlaw : ∀ (f : Flaw) {t : ParseTree κ}, law t → law (t.withFlaw f)

namespace ParseTree

variable {law : ParseTree κ → Prop} {t : ParseTree κ}

theorem all_iff : t.All law ↔ law t ∧ ∀ c ∈ t.children, c.All law := by
  constructor
  · intro h
    exact ⟨h t (mem_preorder_self t), fun c hc u hu => h u (mem_preorder_of_child hc hu)⟩
  · rintro ⟨hroot, hchildren⟩ u hu
    rcases mem_preorder_iff.1 hu with rfl | ⟨c, hc, hu⟩
    · exact hroot
    · exact hchildren c hc u hu

theorem mem_children_of_child? {c : ParseTree κ} {part : Part} (h : t.child? part = some c) :
    c ∈ t.children :=
  List.mem_of_find?_eq_some h

theorem All.child? {c : ParseTree κ} {part : Part} (hall : t.All law)
    (h : t.child? part = some c) : c.All law :=
  (all_iff.1 hall).2 c (mem_children_of_child? h)

theorem All.asPart (hlaw : IsMarkless law) (h : t.All law) (p : Part) : (t.asPart p).All law := by
  cases t
  exact all_iff.2 ⟨hlaw.asPart p (all_iff.1 h).1, (all_iff.1 h).2⟩

theorem All.inPart (hlaw : IsMarkless law) (h : t.All law) (part : Option Part) :
    (t.inPart part).All law := by
  cases part with
  | none => exact h
  | some p => exact h.asPart hlaw p

theorem All.withFlaw (hlaw : IsMarkless law) (h : t.All law) (f : Flaw) :
    (t.withFlaw f).All law := by
  cases t
  exact all_iff.2 ⟨hlaw.withFlaw f (all_iff.1 h).1, (all_iff.1 h).2⟩

theorem all_leaf {kind : κ} {i j : Nat} (h : law (leaf kind i j)) : (leaf kind i j).All law :=
  all_iff.2 ⟨h, fun _ hc => absurd hc List.not_mem_nil⟩

end ParseTree

namespace Grammar

/-- Whether each node that a rule itself builds keeps a law. What it builds around the
    latest tree is built where that tree has ended. -/
def Lawful (g : Grammar ν κ) (chars : Array Char) (law : ParseTree κ → Prop) : Rule ν κ → Prop
  | .lexeme kind scan => ∀ i k, scan chars i = some k → law (.leaf kind i k)
  | .flush kind scan => ∀ i k, scan chars i = some k → law (.leaf kind i k)
  | .seq first second => Lawful g chars law first ∧ Lawful g chars law second
  | .alt first second => Lawful g chars law first ∧ Lawful g chars law second
  | .many item => Lawful g chars law item
  | .node kind body => Lawful g chars law body ∧
      ∀ i j trees, g.Derives chars body i [] j trees → law (enclose kind i trees)
  | .grow kind part body => Lawful g chars law body ∧
      ∀ (t : ParseTree κ) i j trees, t.start ≤ t.stop → t.stop ≤ i →
        g.Derives chars body i [t.inPart part] j trees → law (enclose kind t.start trees)
  | .named _ body => Lawful g chars law body
  | .flawed _ body => Lawful g chars law body
  | .only _ body => Lawful g chars law body
  | _ => True

variable {g : Grammar ν κ} {chars : Array Char} {law : ParseTree κ → Prop}

theorem all_enclose {kind : κ} {s : Nat} {trees : List (ParseTree κ)}
    (h : law (enclose kind s trees)) (htrees : ∀ t ∈ trees, t.All law) :
    (enclose kind s trees).All law :=
  ParseTree.all_iff.2 ⟨h, fun c hc => htrees c (List.mem_reverse.1 hc)⟩

theorem gapFrom_all (hremark : ∀ i j, g.remark chars i = some j → law (.leaf g.remarkKind i j))
    (fuel : Nat) {i : Nat} {acc : List (ParseTree κ)} (hacc : ∀ t ∈ acc, t.All law) :
    ∀ t ∈ (g.gapFrom chars fuel i acc).2, t.All law := by
  induction fuel generalizing i acc with
  | zero => exact hacc
  | succ fuel ih =>
    rw [gapFrom]
    split
    · exact hacc
    · split
      · exact ih hacc
      · split
        · exact hacc
        · next hscan =>
          exact ih (List.forall_mem_cons.2 ⟨ParseTree.all_leaf (hremark _ _ hscan), hacc⟩)

/-- If all nodes that the rules of a grammar build keep a law, so do all nodes of what a
    derivation comes to. -/
theorem Derives.all_keep (hg : g.Advances) (hlaw : IsMarkless law)
    (hrules : ∀ name, g.Lawful chars law (g.rules name))
    (hremark : ∀ i j, g.remark chars i = some j → law (.leaf g.remarkKind i j))
    {rule : Rule ν κ} {i j b : Nat} {acc acc' : List (ParseTree κ)}
    (h : g.Derives chars rule i acc j acc') (hadvances : rule.Advances)
    (hrule : g.Lawful chars law rule) (hb : b ≤ i) (hacc : ∀ t ∈ acc, t.Within b i)
    (hall : ∀ t ∈ acc, t.All law) : ∀ t ∈ acc', t.All law := by
  -- where the trees lie is carried along for `grow`, whose law asks where a tree ended
  induction h generalizing b with
  | empty => exact hall
  | lexeme hscan =>
    exact List.forall_mem_cons.2
      ⟨ParseTree.all_leaf (hrule _ _ hscan), gapFrom_all hremark _ hall⟩
  | flush hscan => exact List.forall_mem_cons.2 ⟨ParseTree.all_leaf (hrule _ _ hscan), hall⟩
  | test => exact hall
  | phrase inner ih =>
    exact List.forall_mem_append.2
      ⟨ih (hg.rules _) (hrules _) le_rfl (List.forall_mem_nil _) (List.forall_mem_nil _), hall⟩
  | seq left right ihl ihr =>
    obtain ⟨hij, hacc'⟩ := left.within hg hadvances.1 hb hacc
    exact ihr hadvances.2 hrule.2 (hb.trans hij) hacc' (ihl hadvances.1 hrule.1 hb hacc hall)
  | altFirst branch ih => exact ih hadvances.1 hrule.1 hb hacc hall
  | altSecond branch ih => exact ih hadvances.2 hrule.2 hb hacc hall
  | manyDone => exact hall
  | manyStep head rest ihh ihr =>
    obtain ⟨hij, hacc'⟩ := head.within hg hadvances hb hacc
    exact ihr hadvances hrule (hb.trans hij) hacc' (ihh hadvances hrule hb hacc hall)
  | absent => exact hall
  | node inner ih =>
    exact List.forall_mem_cons.2
      ⟨all_enclose (hrule.2 _ _ _ inner) (ih hadvances hrule.1 le_rfl (List.forall_mem_nil _)
        (List.forall_mem_nil _)),
        gapFrom_all hremark _ hall⟩
  | @grow kind part body i j t acc trees inner ih =>
    obtain ⟨ht, -⟩ := List.forall_mem_cons.1 hacc
    obtain ⟨htree, hall⟩ := List.forall_mem_cons.1 hall
    have hinner := ih hadvances hrule.1 (ht.starts.trans (ht.ordered.trans ht.ends))
      (List.forall_mem_singleton.2 (ht.inPart part))
      (List.forall_mem_singleton.2 (htree.inPart hlaw part))
    exact List.forall_mem_cons.2
      ⟨all_enclose (hrule.2 t _ _ _ ht.ordered ht.ends inner) hinner, hall⟩
  | named inner ih =>
    obtain ⟨htree, htrees⟩ :=
      List.forall_mem_cons.1 (ih hadvances hrule le_rfl (List.forall_mem_nil _)
        (List.forall_mem_nil _))
    exact List.forall_mem_cons.2 ⟨htree.asPart hlaw _, List.forall_mem_append.2 ⟨htrees, hall⟩⟩
  | namedNone inner ih => exact hall
  | flawed inner ih =>
    obtain ⟨htree, htrees⟩ :=
      List.forall_mem_cons.1 (ih hadvances hrule le_rfl (List.forall_mem_nil _)
        (List.forall_mem_nil _))
    exact List.forall_mem_cons.2 ⟨htree.withFlaw hlaw _, List.forall_mem_append.2 ⟨htrees, hall⟩⟩
  | flawedNone inner ih => exact hall
  | only inner ih =>
    obtain ⟨htree, htrees⟩ :=
      List.forall_mem_cons.1 (ih hadvances hrule le_rfl (List.forall_mem_nil _)
        (List.forall_mem_nil _))
    exact List.forall_mem_cons.2 ⟨htree, List.forall_mem_append.2 ⟨htrees, hall⟩⟩

/-- If all nodes that the rules of a grammar build keep a law, so do all nodes of the
    tree that it reads. -/
theorem all_of_read? [BEq ν] [Hashable ν] [LawfulBEq ν] (hg : g.Advances)
    (hlaw : IsMarkless law) (hrules : ∀ name, g.Lawful chars law (g.rules name))
    (hremark : ∀ i j, g.remark chars i = some j → law (.leaf g.remarkKind i j)) {name : ν}
    {t : ParseTree κ} {j : Nat} (h : g.read? chars name = some (t, j)) : t.All law := by
  obtain ⟨trees, hderives⟩ := derives_of_read? h
  exact hderives.all_keep hg hlaw hrules hremark trivial trivial le_rfl (List.forall_mem_nil _)
    (List.forall_mem_nil _) t List.mem_cons_self

end Grammar

end WebBaseline.Syntax

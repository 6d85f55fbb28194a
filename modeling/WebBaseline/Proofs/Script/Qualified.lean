/-
  WebBaseline.Proofs.Script.Qualified

  What becomes of a script's features when a plain name in it is qualified by `window.`.
  `qualifiedAt` turns the name that starts at an offset into the access to it, and moves
  what comes behind; `RootedAt` says which accesses start from that name.

    * a chain of accesses from the name becomes the chain from `window`, one longer
      (`chain_qualifiedAt`);
    * calls and accesses from the name show the name itself, unless it is `navigator`
      (`key_of_call`, `key_of_access`), and so does the access to it;
    * so no call and no access to a global loses its feature, a chain from `navigator`
      shows its dotted path in place of its feature, and a constructor shows itself
      (`qualified_features`); `qualified_navigator_and_constructor` has what goes.
-/

import WebBaseline.Proofs.Script.Chains

namespace WebBaseline.Script

open WebBaseline.Syntax
open WebBaseline.Feature

/-! ## Qualified trees -/

/-- Where an offset comes to lie when the seven characters `window.` are put in at `i`. -/
def moved (i x : Nat) : Nat := if x ≤ i then x else x + 7

/-- The access to the name that stood from `i` to `stop`, through `window`. -/
def windowMember (part : Option Part) (flaw : Option Flaw) (i stop : Nat) : ParseTree Kind :=
  .node .member part flaw i (stop + 7) [
    .node .identifier (some .object) none i (i + 6) [],
    .node .token none none (i + 6) (i + 7) [],
    .node .propertyName (some .property) none (i + 7) (stop + 7) []]

mutual

/-- The tree with `window.` in front of the plain name that starts at `i`. -/
def qualifiedAt (i : Nat) : ParseTree Kind → ParseTree Kind
  | .node kind part flaw start stop children =>
    if kind = .identifier ∧ start = i then windowMember part flaw i stop
    else .node kind part flaw (moved i start) (moved i stop) (qualifiedAllAt i children)

/-- The trees with `window.` in front of the plain name that starts at `i`. -/
def qualifiedAllAt (i : Nat) : List (ParseTree Kind) → List (ParseTree Kind)
  | [] => []
  | t :: ts => qualifiedAt i t :: qualifiedAllAt i ts

end

section Trees

variable {i : Nat} {u c : ParseTree Kind}

theorem qualifiedAllAt_eq_map (ts : List (ParseTree Kind)) :
    qualifiedAllAt i ts = ts.map (qualifiedAt i) := by
  induction ts with
  | nil => rfl
  | cons t ts ih => rw [qualifiedAllAt, ih, List.map_cons]

theorem qualifiedAt_name (hkind : u.kind = .identifier) (hstart : u.start = i) :
    qualifiedAt i u = windowMember u.part u.flaw i u.stop := by
  obtain ⟨kind, part, flaw, start, stop, children⟩ := u
  rw [qualifiedAt, if_pos ⟨hkind, hstart⟩]
  rfl

theorem qualifiedAt_other (h : ¬ (u.kind = .identifier ∧ u.start = i)) :
    qualifiedAt i u = .node u.kind u.part u.flaw (moved i u.start) (moved i u.stop)
      (u.children.map (qualifiedAt i)) := by
  obtain ⟨kind, part, flaw, start, stop, children⟩ := u
  have hother : ¬ (kind = .identifier ∧ start = i) := h
  rw [qualifiedAt, if_neg hother, qualifiedAllAt_eq_map]
  rfl

theorem part_qualifiedAt (i : Nat) (u : ParseTree Kind) : (qualifiedAt i u).part = u.part := by
  by_cases h : u.kind = .identifier ∧ u.start = i
  · rw [qualifiedAt_name h.1 h.2]; rfl
  · rw [qualifiedAt_other h]; rfl

theorem start_qualifiedAt (i : Nat) (u : ParseTree Kind) :
    (qualifiedAt i u).start = moved i u.start := by
  by_cases h : u.kind = .identifier ∧ u.start = i
  · rw [qualifiedAt_name h.1 h.2, moved, if_pos h.2.le, h.2]; rfl
  · rw [qualifiedAt_other h]; rfl

theorem child?_qualifiedAt (h : ¬ (u.kind = .identifier ∧ u.start = i)) (part : Part) :
    (qualifiedAt i u).child? part = (u.child? part).map (qualifiedAt i) := by
  rw [qualifiedAt_other h, ParseTree.child?, ParseTree.children, ParseTree.child?, List.find?_map]
  congr 2
  funext c
  exact congrArg (· == some part) (part_qualifiedAt i c)

mutual

/-- What is found in a tree is found in the qualified one. -/
theorem mem_preorder_qualifiedAt {chars : Array Char} {v : ParseTree Kind} :
    ∀ {u : ParseTree Kind}, u.All (Regular chars) → v ∈ u.preorder →
      qualifiedAt i v ∈ (qualifiedAt i u).preorder
  | .node kind part flaw start stop children, hall, hv => by
    rw [ParseTree.preorder, List.mem_cons] at hv
    rcases hv with rfl | hv
    · exact ParseTree.mem_preorder_self _
    · obtain ⟨hroot, hchildren⟩ := ParseTree.all_iff.1 hall
      by_cases hname : kind = .identifier ∧ start = i
      · obtain rfl : children = [] := (isName_of_identifier hroot hname.1).childless
        cases hv
      · rw [qualifiedAt, if_neg hname, ParseTree.preorder]
        exact List.mem_cons_of_mem _ (mem_preorderAll_qualifiedAllAt hchildren hv)

theorem mem_preorderAll_qualifiedAllAt {chars : Array Char} {v : ParseTree Kind} :
    ∀ {ts : List (ParseTree Kind)}, (∀ t ∈ ts, t.All (Regular chars)) →
      v ∈ ParseTree.preorderAll ts → qualifiedAt i v ∈ ParseTree.preorderAll (qualifiedAllAt i ts)
  | [], _, hv => by cases hv
  | t :: ts, hall, hv => by
    obtain ⟨ht, hts⟩ := List.forall_mem_cons.1 hall
    rw [ParseTree.preorderAll, List.mem_append] at hv
    rw [qualifiedAllAt, ParseTree.preorderAll, List.mem_append]
    exact hv.imp (mem_preorder_qualifiedAt ht) (mem_preorderAll_qualifiedAllAt hts)

end

end Trees

/-! ## Qualified texts -/

section Texts

variable {front back : String}

theorem slice_ofString (text : String) (s e : Nat) :
    (Source.ofString text).slice s e = String.ofList ((text.toList.drop s).take (e - s)) := by
  rw [Source.slice, Source.ofString, Array.toList_extract, List.extract_eq_take_drop]

theorem place_ofString (text : String) (n : Nat) :
    (Source.ofString text).place n = Place.ofChars (text.toList.take n) := by
  rw [Source.place, Source.ofString, Array.toList_extract, List.extract_eq_take_drop]
  rfl

/-- What stands behind the beginning stands seven characters further on. -/
theorem slice_behind {s e : Nat} (hs : front.length ≤ s) :
    (Source.ofString (front ++ "window." ++ back)).slice (s + 7) (e + 7) =
      (Source.ofString (front ++ back)).slice s e := by
  obtain ⟨k, rfl⟩ := Nat.exists_eq_add_of_le hs
  have hlong : front.length + k + 7 = (front.toList ++ "window.".toList).length + k := by
    rw [List.length_append, String.length_toList]
    show _ = front.length + 7 + k
    omega
  rw [slice_ofString, slice_ofString, Nat.add_sub_add_right, hlong, String.toList_append,
    String.toList_append, String.toList_append, List.drop_length_add_append,
    ← String.length_toList, List.drop_length_add_append]

theorem slice_window (front back : String) :
    (Source.ofString (front ++ "window." ++ back)).slice front.length (front.length + 6) =
      "window" := by
  rw [slice_ofString, String.toList_append, String.toList_append, List.append_assoc,
    ← String.length_toList, List.drop_left, Nat.add_sub_cancel_left]
  rfl

/-- Places in the beginning stay. -/
theorem place_front {n : Nat} (hn : n ≤ front.length) :
    (Source.ofString (front ++ "window." ++ back)).place n =
      (Source.ofString (front ++ back)).place n := by
  rw [← String.length_toList] at hn
  rw [place_ofString, place_ofString, String.toList_append, String.toList_append,
    String.toList_append, List.append_assoc, List.take_append_of_le_length hn,
    List.take_append_of_le_length hn]

end Texts

/-! ## Qualified chains -/

section Chains

variable {front : String} {u o : ParseTree Kind}

/-- The qualified name is a chain from `window` to the name. -/
theorem chain_windowMember (back : String) (hkind : o.kind = .identifier)
    (hstart : o.start = front.length) :
    Chain (Source.ofString (front ++ "window." ++ back)) [qualifiedAt front.length o] "window"
      [o.text (Source.ofString (front ++ back))] := by
  have htext : (Source.ofString (front ++ "window." ++ back)).slice (front.length + 7)
      (o.stop + 7) = o.text (Source.ofString (front ++ back)) := by
    rw [slice_behind (Nat.le_refl _), ParseTree.text, hstart]
  rw [qualifiedAt_name hkind hstart, ← htext, ← slice_window front back]
  exact Chain.first
    (o := .node .identifier (some .object) none front.length (front.length + 6) [])
    (p := .node .propertyName (some .property) none (front.length + 7) (o.stop + 7) [])
    rfl rfl rfl rfl rfl

theorem kind_qualifiedAt {i : Nat} (h : ¬ (u.kind = .identifier ∧ u.start = i)) :
    (qualifiedAt i u).kind = u.kind := by
  rw [qualifiedAt_other h]
  rfl

/-- A name behind the beginning keeps its text. -/
theorem text_qualifiedAt {back : String} (hu : IsName (Source.ofString (front ++ back)).chars u)
    (hstart : front.length < u.start) (hkind : u.kind ≠ .identifier) :
    (qualifiedAt front.length u).text (Source.ofString (front ++ "window." ++ back)) =
      u.text (Source.ofString (front ++ back)) := by
  have hstop := hstart.trans hu.nonempty
  rw [qualifiedAt_other (fun h => hkind h.1), ParseTree.text, ParseTree.text]
  show (Source.ofString _).slice (moved _ u.start) (moved _ u.stop) = _
  rw [moved, moved, if_neg hstart.not_ge, if_neg hstop.not_ge, slice_behind hstart.le]

/-- An access that starts where `window.` is put in stays one, from what its object
    became to the same property. -/
theorem access_qualifiedAt {back : String} {p : ParseTree Kind}
    (hall : u.All (Regular (Source.ofString (front ++ back)).chars))
    (hstart : u.start = front.length) (hu : u.kind = .member) (ho : u.child? .object = some o)
    (hnonempty : o.start < o.stop) (hobject : o.kind ≠ .propertyName)
    (hp : u.child? .property = some p) (hname : p.kind = .propertyName) :
    u.start < u.stop ∧ (qualifiedAt front.length u).kind = .member ∧
      (qualifiedAt front.length u).child? .object = some (qualifiedAt front.length o) ∧
      ∃ p', (qualifiedAt front.length u).child? .property = some p' ∧ p'.kind = .propertyName ∧
        p'.text (Source.ofString (front ++ "window." ++ back)) =
          p.text (Source.ofString (front ++ back)) := by
  have hother : ¬ (u.kind = .identifier ∧ u.start = front.length) := by
    rw [hu]
    exact fun h => Kind.noConfusion h.1
  have hproperty : p.kind ≠ .identifier := by
    rw [hname]
    exact Kind.noConfusion
  obtain ⟨hopen, hstop, hrest⟩ := (opens_of_member (ParseTree.all_iff.1 hall).1 hu).child? ho
  -- the property is another child than the object, so it starts behind it
  have hlater : o.stop ≤ p.start := by
    rcases hrest p (ParseTree.mem_children_of_child? hp) with rfl | hlater
    · exact absurd hname hobject
    · exact hlater
  have hbehind : front.length < p.start := by omega
  refine ⟨by omega, (kind_qualifiedAt hother).trans hu, ?_, qualifiedAt front.length p, ?_, ?_,
    text_qualifiedAt (isName_of_propertyName (ParseTree.all_iff.1 (hall.child? hp)).1 hname)
      hbehind hproperty⟩
  · rw [child?_qualifiedAt hother, ho, Option.map_some]
  · rw [child?_qualifiedAt hother, hp, Option.map_some]
  · exact (kind_qualifiedAt (fun h => hproperty h.1)).trans hname

/-- A chain that starts where `window.` is put in becomes the chain from `window`. -/
theorem chain_qualifiedAt {back : String} {us : List (ParseTree Kind)} {r : String}
    {ps : List String}
    (h : Chain (Source.ofString (front ++ back)) (u :: us) r ps)
    (hall : u.All (Regular (Source.ofString (front ++ back)).chars))
    (hstart : u.start = front.length) :
    u.start < u.stop ∧ ∃ us', Chain (Source.ofString (front ++ "window." ++ back))
      (qualifiedAt front.length u :: us') "window" (r :: ps) := by
  -- from the root out; that the nodes are not empty tells their properties from their start
  generalize hnodes : u :: us = nodes at h
  induction h generalizing u us with
  | @first _ o p hu ho hroot hp hname =>
    cases hnodes
    have hopen := ((opens_of_member (ParseTree.all_iff.1 hall).1 hu).child? ho).1
    have hobject := isName_of_identifier (ParseTree.all_iff.1 (hall.child? ho)).1 hroot
    obtain ⟨hnonempty, hu', ho', p', hp', hname', htext⟩ := access_qualifiedAt hall hstart hu ho
      hobject.nonempty (by rw [hroot]; exact Kind.noConfusion) hp hname
    have hinner := chain_windowMember back hroot (hopen.trans hstart)
    rw [← htext]
    exact ⟨hnonempty, _, .next hu' ho' hinner hp' hname'⟩
  | next hu ho inner hp hname ih =>
    cases hnodes
    have hopen := ((opens_of_member (ParseTree.all_iff.1 hall).1 hu).child? ho).1
    obtain ⟨hobject, us', hinner⟩ := ih (hall.child? ho) (hopen.trans hstart) rfl
    obtain ⟨hnonempty, hu', ho', p', hp', hname', htext⟩ := access_qualifiedAt hall hstart hu ho
      hobject (by rw [inner.kind_eq]; exact Kind.noConfusion) hp hname
    rw [← htext]
    exact ⟨hnonempty, _, .next hu' ho' hinner hp' hname'⟩

end Chains

/-! ## What starts from a name -/

/-- Whether a path is a name or goes on from it. -/
def Continues (name path : String) : Prop := path = name ∨ ∃ rest, path = name ++ "." ++ rest

theorem Continues.snoc {name path : String} (h : Continues name path) (s : String) :
    Continues name (path ++ "." ++ s) := by
  rcases h with rfl | ⟨rest, rfl⟩
  · exact Or.inr ⟨s, rfl⟩
  · exact Or.inr ⟨rest ++ "." ++ s, by simp only [String.append_assoc]⟩

theorem Continues.eq_of_isDotless {name path : String} (h : Continues name path)
    (hpath : IsDotless path) : path = name := by
  rcases h with rfl | ⟨rest, rfl⟩
  · rfl
  · exact absurd hpath (not_isDotless_dot name rest)

theorem Continues.dropStart?_eq_none (q : String) {name path : String} (h : Continues name path)
    (hname : IsDotless name) (hq : IsDotless q) (hne : name ≠ q) :
    dropStart? (q ++ ".") path = none := by
  rcases h with rfl | ⟨rest, rfl⟩
  · refine Option.eq_none_iff_forall_ne_some.2 fun rest hrest => ?_
    rw [dropStart?_eq_some_iff.1 hrest] at hname
    exact not_isDotless_dot q rest hname
  · rw [dropStart?_dot hq hname, if_neg hne]

/-- The name `r` itself, or an access whose object starts from it. -/
inductive RootedAt (r : ParseTree Kind) : ParseTree Kind → Prop
  | name : RootedAt r r
  | access {u o : ParseTree Kind} (hu : u.kind = .member ∨ u.kind = .subscript)
      (ho : u.child? .object = some o) (inner : RootedAt r o) : RootedAt r u

section Rooted

variable {src : Source} {r u : ParseTree Kind} {path : String}

theorem opens_of_access {chars : Array Char} (hreg : Regular chars u)
    (hu : u.kind = .member ∨ u.kind = .subscript) : Opens .object u := by
  rcases hu with hu | hu
  · exact opens_of_member hreg hu
  · rw [Regular, hu] at hreg
    exact hreg

theorem RootedAt.start_eq {chars : Array Char} (h : RootedAt r u)
    (hall : u.All (Regular chars)) : u.start = r.start := by
  induction h with
  | name => rfl
  | access hu ho inner ih =>
    have hopen := ((opens_of_access (ParseTree.all_iff.1 hall).1 hu).child? ho).1
    exact hopen.symm.trans (ih (hall.child? ho))

/-- The path of an access goes on from where its object's does. -/
theorem continues_of_memberPath? {o : ParseTree Kind} {name : String}
    (ho : u.child? .object = some o)
    (hobject : ∀ path, valueName? src o = some path → Continues name path)
    (h : memberPath? src u = some path) : Continues name path := by
  rw [memberPath?_eq, ho, Option.bind_some] at h
  split at h
  · next hkind _ =>
    cases h
    exact (hobject _ (by rw [valueName?, hkind])).snoc _
  · next hkind _ =>
    obtain ⟨inner, hinner, rfl⟩ := Option.map_eq_some_iff.1 h
    exact (hobject _ (by rw [valueName?, hkind]; exact hinner)).snoc _
  · next hkind _ =>
    cases h
    exact hobject _ (by rw [valueName?, hkind])
  · cases h

theorem RootedAt.continues (h : RootedAt r u) (hr : r.kind = .identifier)
    (hname : valueName? src u = some path) : Continues (r.text src) path := by
  induction h generalizing path with
  | name =>
    rw [valueName?, hr] at hname
    cases hname
    exact Or.inl rfl
  | access hu ho inner ih =>
    rw [valueName?] at hname
    rcases hu with hu | hu
    · rw [hu] at hname
      exact continues_of_memberPath? ho (fun _ => ih) hname
    · rw [hu] at hname
      cases hname

theorem kind_of_valueName? (h : valueName? src u = some path) :
    u.kind = .identifier ∨ u.kind = .member := by
  rw [valueName?] at h
  split at h
  · next hkind => exact Or.inl hkind
  · next hkind => exact Or.inr hkind
  · cases h

/-- A call from a name other than `window` shows the name, if anything. -/
theorem key_of_call {w c : ParseTree Kind} (hall : w.All (Regular src.chars))
    (hw : w.kind = .call) (hcallee : w.child? .callee = some c) (h : RootedAt r c)
    (hr : r.kind = .identifier) (hname : IsDotless (r.text src)) (hwindow : r.text src ≠ "window")
    {o : Occurrence} (ho : o ∈ callOccurrences src w) (context : String) :
    o.key = (occurrenceAt src r (r.text src) context).key := by
  rw [callOccurrences, hcallee, Option.bind_some] at ho
  cases hpath : valueName? src c with
  | none => rw [hpath] at ho; cases ho
  | some path =>
    rw [hpath] at ho
    have hcontinues := h.continues hr hpath
    have hdrop : dropStart? "window." path = none :=
      hcontinues.dropStart?_eq_none "window" hname (by decide) hwindow
    simp only [withoutWindow, hdrop, Option.getD_none] at ho
    split at ho
    · next hcall =>
      rw [List.mem_singleton.1 ho, hcontinues.eq_of_isDotless (isDotless_of_isCall hcall)]
      refine key_occurrenceAt (Eq.trans ?_ (h.start_eq (hall.child? hcallee))) _ _ _
      exact (start_of_callee (ParseTree.all_iff.1 hall).1 hw hcallee
        (kind_of_valueName? hpath)).symm
    · cases ho

/-- An access from a name other than `window` and `navigator` shows the name, if anything. -/
theorem key_of_access {w : ParseTree Kind} (hall : w.All (Regular src.chars))
    (hw : w.kind = .member ∨ w.kind = .subscript) (h : RootedAt r w)
    (hr : r.kind = .identifier) (hname : IsDotless (r.text src)) (hwindow : r.text src ≠ "window")
    (hnavigator : r.text src ≠ "navigator") {o : Occurrence} (ho : o ∈ memberOccurrences src w)
    (context : String) : o.key = (occurrenceAt src r (r.text src) context).key := by
  cases h with
  | name => rw [hr] at hw; exact absurd hw (by decide)
  | @access _ object _ hobject inner =>
  have hstart := (opens_of_access (ParseTree.all_iff.1 hall).1 hw).child? hobject
  have hplace := hstart.1.symm.trans (inner.start_eq (hall.child? hobject))
  rw [memberOccurrences] at ho
  cases hpath : memberPath? src w with
  | none => rw [hpath] at ho; cases ho
  | some path =>
    have hcontinues := continues_of_memberPath? hobject (fun _ => inner.continues hr) hpath
    have hnav : dropStart? "navigator." path = none :=
      hcontinues.dropStart?_eq_none "navigator" hname (by decide) hnavigator
    have hwin : dropStart? "window." path = none :=
      hcontinues.dropStart?_eq_none "window" hname (by decide) hwindow
    rw [hpath] at ho
    simp only [hnav, dropStart?_eq_none_iff.1 hwin, Bool.false_or, List.nil_append, withoutWindow,
      hwin, Option.getD_none, hobject] at ho
    split at ho
    · next hglobal =>
      rw [List.mem_singleton.1 ho, hcontinues.eq_of_isDotless (isDotless_of_isGlobal hglobal)]
      exact key_occurrenceAt hplace _ _ _
    · split at ho
      · next hglobal =>
        obtain ⟨hkind, -⟩ := Bool.and_eq_true_iff.1 hglobal
        cases inner with
        | name =>
          rw [List.mem_singleton.1 ho]
          exact key_occurrenceAt hplace _ _ _
        | access hu => rw [eq_of_beq hkind] at hu; exact absurd hu (by decide)
      · cases ho

/-- A construction from a name shows the name in lower case, if anything. -/
theorem identifier_of_construction {w c : ParseTree Kind}
    (hconstructed : w.child? .constructed = some c) (h : RootedAt r c)
    (hr : r.kind = .identifier) {o : Occurrence} (ho : o ∈ constructionOccurrences src w) :
    o.identifier = Text.lowercase (r.text src) := by
  rw [constructionOccurrences, hconstructed, Option.bind_some] at ho
  cases hpath : valueName? src c with
  | none => rw [hpath] at ho; cases ho
  | some path =>
    rw [hpath] at ho
    simp only at ho
    split at ho
    · next hconstructor =>
      rw [List.mem_singleton.1 ho,
        (h.continues hr hpath).eq_of_isDotless (isDotless_of_isConstructor hconstructor)]
      rfl
    · cases ho

end Rooted

/-! ## The features of a qualified script -/

section Features

variable {d : Dialect} {front back : String} {t r u : ParseTree Kind}

theorem exists_key_features {text : String} (hparse : parse? d (Source.ofString text) = some t)
    (hu : u ∈ t.preorder) {o : Occurrence} (ho : o ∈ nodeOccurrences (Source.ofString text) u) :
    ∃ o' ∈ features d text, o'.key = o.key := by
  rw [features_eq_distinct hparse, ParseTree.nodes_eq_preorder]
  exact Occurrence.exists_key_distinct (List.mem_flatMap.2 ⟨u, hu, ho⟩)

theorem all_of_mem {text : String} (hparse : parse? d (Source.ofString text) = some t)
    (hu : u ∈ t.preorder) : u.All (Regular (Source.ofString text).chars) := fun v hv =>
  regular_of_parse? hparse v ((ParseTree.sublist_of_mem_preorder hu).subset hv)

/-- What starts where `window.` is put in stays at its place. -/
theorem key_qualifiedAt (hstart : u.start = front.length) (identifier context context' : String) :
    (occurrenceAt (Source.ofString (front ++ "window." ++ back)) (qualifiedAt front.length u)
        identifier context).key =
      (occurrenceAt (Source.ofString (front ++ back)) u identifier context').key := by
  have hplace : (qualifiedAt front.length u).place (Source.ofString (front ++ "window." ++ back)) =
      u.place (Source.ofString (front ++ back)) := by
    rw [ParseTree.place, ParseTree.place, start_qualifiedAt, moved, if_pos hstart.le,
      place_front hstart.le]
  rw [occurrenceAt, occurrenceAt, hplace]
  rfl

/-- A chain through `window` is shown by the dotted path behind it. -/
theorem exists_path_feature
    (hqualified : parse? d (Source.ofString (front ++ "window." ++ back)) =
      some (qualifiedAt front.length t))
    (hall : t.All (Regular (Source.ofString (front ++ back)).chars)) (hu : u ∈ t.preorder)
    (hstart : u.start = front.length) {us : List (ParseTree Kind)} {ps : List String}
    (hchain : Chain (Source.ofString (front ++ "window." ++ back))
      (qualifiedAt front.length u :: us) "window" ps) (context : String) :
    ∃ o ∈ features d (front ++ "window." ++ back),
      o.key = (occurrenceAt (Source.ofString (front ++ back)) u (dotted ps) context).key := by
  have hmem := mem_preorder_qualifiedAt (i := front.length) hall hu
  -- behind `window` the chain's outermost node shows the whole path
  have hlink : (dotted ps, dotted ("window" :: ps)) ∈ linkReports "window" ps := by
    rw [linkReports, if_neg (by decide), if_pos rfl]
    exact List.mem_singleton_self _
  have hshown : occurrenceAt (Source.ofString (front ++ "window." ++ back))
      (qualifiedAt front.length u) (dotted ps) (dotted ("window" :: ps)) ∈
      nodeOccurrences (Source.ofString (front ++ "window." ++ back))
        (qualifiedAt front.length u) := by
    rw [nodeOccurrences_chain hchain (all_of_mem hqualified hmem)]
    exact List.mem_map_of_mem hlink
  obtain ⟨o, ho, hkey⟩ := exists_key_features hqualified hmem hshown
  exact ⟨o, ho, hkey.trans (key_qualifiedAt hstart _ _ _)⟩

end Features

/-- Whether a list shows the feature of an occurrence at its place. -/
def Shows (os : List Occurrence) (o : Occurrence) : Prop := ∃ o' ∈ os, o'.key = o.key

/-- Where a plain name other than `window` is qualified by `window.`, the name itself is
    shown at its place. So a call from it, and an access from it, unless it is
    `navigator`, lose no feature. A chain from `navigator` is shown by its dotted path
    where it was shown by the path's rest, and a construction was shown by the name in
    lower case. -/
theorem qualified_features {d : Dialect} {front back : String} {t r : ParseTree Kind}
    (hparse : parse? d (Source.ofString (front ++ back)) = some t)
    (hqualified : parse? d (Source.ofString (front ++ "window." ++ back)) =
      some (qualifiedAt front.length t))
    (hr : r ∈ t.nodes) (hkind : r.kind = .identifier) (hstart : r.start = front.length)
    (hwindow : r.text (Source.ofString (front ++ back)) ≠ "window") :
    let src := Source.ofString (front ++ back)
    let after := features d (front ++ "window." ++ back)
    Shows after (occurrenceAt src r (r.text src) "") ∧
      (∀ w ∈ t.nodes, ∀ c, w.kind = .call → w.child? .callee = some c → RootedAt r c →
        ∀ o ∈ nodeOccurrences src w, Shows after o) ∧
      (∀ w ∈ t.nodes, w.kind = .member ∨ w.kind = .subscript → RootedAt r w →
        r.text src ≠ "navigator" → ∀ o ∈ nodeOccurrences src w, Shows after o) ∧
      (∀ w ∈ t.nodes, ∀ us ps, Chain src (w :: us) "navigator" ps → RootedAt r w →
        nodeOccurrences src w =
            [occurrenceAt src w ("navigator-" ++ dotted ps) ("navigator." ++ dotted ps)] ∧
          Shows after (occurrenceAt src w ("navigator." ++ dotted ps) "")) ∧
      ∀ w ∈ t.nodes, ∀ c, w.kind = .construction → w.child? .constructed = some c →
        RootedAt r c → ∀ o ∈ nodeOccurrences src w,
          o.identifier = Text.lowercase (r.text src) := by
  intro src after
  have hall := regular_of_parse? hparse
  rw [ParseTree.nodes_eq_preorder] at hr ⊢
  have hname := (isName_of_identifier (hall r hr) hkind).isDotless
  have hself : Shows after (occurrenceAt src r (r.text src) "") := by
    have hshown := exists_path_feature hqualified hall hr hstart
      (chain_windowMember back hkind hstart) ""
    rwa [dotted_singleton] at hshown
  -- what shows the name at its place shows what the access through `window` shows
  have hkept : ∀ o : Occurrence, o.key = (occurrenceAt src r (r.text src) "").key →
      Shows after o := by
    rintro o hkey
    obtain ⟨o', ho', hkey'⟩ := hself
    exact ⟨o', ho', hkey'.trans hkey.symm⟩
  refine ⟨hself, fun w hw c hcall hcallee hrooted o ho => hkept o ?_,
    fun w hw haccess hrooted hnavigator o ho => hkept o ?_,
    fun w hw us ps hchain hrooted => ?_, fun w hw c hnew hconstructed hrooted o ho => ?_⟩
  · -- a call
    rw [nodeOccurrences, hcall] at ho
    exact key_of_call (all_of_mem hparse hw) hcall hcallee hrooted hkind hname hwindow ho ""
  · -- an access
    have hmember : o ∈ memberOccurrences src w := by
      rw [nodeOccurrences] at ho
      rcases haccess with h | h <;> rwa [h] at ho
    exact key_of_access (all_of_mem hparse hw) haccess hrooted hkind hname hwindow hnavigator
      hmember ""
  · -- a chain from `navigator`, whose rule no longer sees the name in front
    have hregular := all_of_mem hparse hw
    have hplace := (hrooted.start_eq hregular).trans hstart
    obtain ⟨-, us', hchain'⟩ := chain_qualifiedAt hchain hregular hplace
    have hpath : dotted ("navigator" :: ps) = "navigator." ++ dotted ps :=
      dotted_cons _ hchain.ne_nil
    have hshown := exists_path_feature hqualified hall hw hplace hchain' ""
    rw [hpath] at hshown
    rw [nodeOccurrences_chain hchain hregular, linkReports, if_pos rfl, hpath]
    exact ⟨rfl, hshown⟩
  · -- a construction
    rw [nodeOccurrences, hnew] at ho
    exact identifier_of_construction hconstructed hrooted hkind ho

/-- The name in `!fetch()`. -/
def fetchName : ParseTree Kind := .node .identifier (some .callee) none 1 6 []

/-- The call in `!fetch()`. -/
def fetchCall : ParseTree Kind :=
  .node .call none none 1 8 [
    fetchName,
    .node .arguments none none 6 8 [
      .node .token none none 6 7 [],
      .node .token none none 7 8 []]]

/-- The tree of `!fetch()`. -/
def notFetch : ParseTree Kind :=
  .node .script none none 0 8 [
    .node .statement none none 0 8 [
      .node .operation none none 0 8 [
        .node .token none none 0 1 [],
        fetchCall]],
    .node .token none none 8 8 []]

set_option maxRecDepth 100000 in
theorem parse?_notFetch : parse? .markup (Source.ofString ("!" ++ "fetch()")) = some notFetch :=
  parse?_of_plain 100 8 (by decide) (by decide +kernel)

set_option maxRecDepth 100000 in
theorem parse?_notWindowFetch :
    parse? .markup (Source.ofString ("!" ++ "window." ++ "fetch()")) =
      some (qualifiedAt "!".length notFetch) :=
  parse?_of_plain 100 15 (by decide) (by decide +kernel)

theorem qualified_fetch_features :
    parse? .markup (Source.ofString ("!" ++ "fetch()")) = some notFetch ∧
      parse? .markup (Source.ofString ("!" ++ "window." ++ "fetch()")) =
        some (qualifiedAt "!".length notFetch) ∧
      nodeOccurrences (Source.ofString ("!" ++ "fetch()")) fetchCall =
        [.located "fetch" 1 2 "fetch()"] ∧
      Shows (features .markup ("!" ++ "window." ++ "fetch()"))
        (.located "fetch" 1 2 "fetch()") := by
  have hname : fetchName ∈ notFetch.nodes := by
    rw [ParseTree.nodes_eq_preorder]
    decide +kernel
  have hcall : fetchCall ∈ notFetch.nodes := by
    rw [ParseTree.nodes_eq_preorder]
    decide +kernel
  obtain ⟨-, hcalls, -⟩ := qualified_features parse?_notFetch parse?_notWindowFetch hname rfl rfl
    (by decide +kernel)
  have hshown : nodeOccurrences (Source.ofString ("!" ++ "fetch()")) fetchCall =
      [.located "fetch" 1 2 "fetch()"] := by decide +kernel
  refine ⟨parse?_notFetch, parse?_notWindowFetch, hshown, ?_⟩
  exact hcalls fetchCall hcall fetchName rfl rfl .name _ (hshown ▸ List.mem_singleton_self _)

/-- The tree of `navigator.share`. -/
def navigatorShare : ParseTree Kind :=
  .node .script none none 0 15 [
    .node .statement none none 0 15 [
      .node .member none none 0 15 [
        .node .identifier (some .object) none 0 9 [],
        .node .token none none 9 10 [],
        .node .propertyName (some .property) none 10 15 []]],
    .node .token none none 15 15 []]

/-- The tree of `new Worker`. -/
def newWorker : ParseTree Kind :=
  .node .script none none 0 10 [
    .node .statement none none 0 10 [
      .node .construction none none 0 10 [
        .node .token none none 0 3 [],
        .node .identifier (some .constructed) none 4 10 []]],
    .node .token none none 10 10 []]

theorem identifiers_of_plain {text : String} (fuel j : Nat) {t : ParseTree Kind}
    {identifiers : List String}
    (hfuel : fuel ≤ Syntax.Grammar.fuelFor (Source.ofString text).chars)
    (hplain : (grammar .markup).plain (Source.ofString text).chars fuel (.phrase .script) 0 [] =
      some (some (j, [t])))
    (hshown : (Occurrence.distinct (t.preorder.flatMap
      (nodeOccurrences (Source.ofString text)))).map Occurrence.identifier = identifiers) :
    parse? .markup (Source.ofString text) = some t ∧
      (features .markup text).map Occurrence.identifier = identifiers := by
  have hparse := parse?_of_plain fuel j hfuel hplain
  refine ⟨hparse, ?_⟩
  rw [features_eq_distinct hparse, ParseTree.nodes_eq_preorder]
  exact hshown

set_option maxRecDepth 100000 in
/-- Qualified by `window.`, an access to `navigator` and a construction lose the feature
    that they showed. -/
theorem qualified_navigator_and_constructor :
    (parse? .markup (Source.ofString "navigator.share") = some navigatorShare ∧
        (features .markup "navigator.share").map Occurrence.identifier = ["navigator-share"]) ∧
      (parse? .markup (Source.ofString "window.navigator.share") =
          some (qualifiedAt 0 navigatorShare) ∧
        (features .markup "window.navigator.share").map Occurrence.identifier =
          ["navigator.share", "navigator"]) ∧
      (parse? .markup (Source.ofString "new Worker") = some newWorker ∧
        (features .markup "new Worker").map Occurrence.identifier = ["worker"]) ∧
      (parse? .markup (Source.ofString "new window.Worker") = some (qualifiedAt 4 newWorker) ∧
        (features .markup "new window.Worker").map Occurrence.identifier = ["Worker"]) := by
  refine ⟨?_, ?_, ?_, ?_⟩
  · exact identifiers_of_plain 70 15 (by decide) (by decide +kernel)
      (by decide +kernel)
  · exact identifiers_of_plain 70 22 (by decide) (by decide +kernel)
      (by decide +kernel)
  · exact identifiers_of_plain 70 10 (by decide) (by decide +kernel)
      (by decide +kernel)
  · exact identifiers_of_plain 70 17 (by decide) (by decide +kernel)
      (by decide +kernel)

end WebBaseline.Script

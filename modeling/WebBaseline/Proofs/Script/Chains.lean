/-
  WebBaseline.Proofs.Script.Chains

  What a chain of member accesses `r.p₁.p₂…pₙ` shows. `Chain` says which nodes of a
  tree make up a chain, outermost first.

    * a node of the chain shows what its own beginning of the path asks for
      (`memberOccurrences_chain`), so the chain shows one feature per beginning, if it
      starts at `navigator` or `window`, and its root alone, if that is a global
      (`flatMap_chain`);
    * all of them stand where the chain starts, and a call or a subscript on top of it
      shows nothing there that the chain does not (`callOccurrences_chain`,
      `memberOccurrences_subscript`);
    * each is left once in the features of the script (`chain_reported_per_prefix`).
-/

import WebBaseline.Proofs.Feature.Distinct
import WebBaseline.Proofs.Script.Paths

namespace WebBaseline.Script

open WebBaseline.Syntax
open WebBaseline.Feature

/-! ## Chains -/

/-- The member accesses `us`, outermost first, read the plain properties `ps` one after
    the other, from the plain name `r` on. -/
inductive Chain (src : Source) : List (ParseTree Kind) → String → List String → Prop
  | first {u o p : ParseTree Kind} (hu : u.kind = .member) (ho : u.child? .object = some o)
      (hroot : o.kind = .identifier) (hp : u.child? .property = some p)
      (hname : p.kind = .propertyName) : Chain src [u] (o.text src) [p.text src]
  | next {u o p : ParseTree Kind} {us : List (ParseTree Kind)} {r : String} {ps : List String}
      (hu : u.kind = .member) (ho : u.child? .object = some o)
      (inner : Chain src (o :: us) r ps) (hp : u.child? .property = some p)
      (hname : p.kind = .propertyName) : Chain src (u :: o :: us) r (ps ++ [p.text src])

namespace Chain

variable {src : Source} {u : ParseTree Kind} {us : List (ParseTree Kind)} {r : String}
  {ps : List String}

theorem kind_eq (h : Chain src (u :: us) r ps) : u.kind = .member := by
  cases h with
  | first hu => exact hu
  | next hu => exact hu

theorem ne_nil (h : Chain src us r ps) : ps ≠ [] := by
  cases h with
  | first => exact List.cons_ne_nil _ _
  | next => exact List.append_ne_nil_of_right_ne_nil _ (List.cons_ne_nil _ _)

theorem length_eq (h : Chain src us r ps) : us.length = ps.length := by
  induction h with
  | first => rfl
  | next hu ho inner hp hname ih =>
    rw [List.length_cons, ih, List.length_append, List.length_singleton]

theorem memberPath?_eq (h : Chain src (u :: us) r ps) :
    memberPath? src u = some (dotted (r :: ps)) := by
  generalize hnodes : u :: us = nodes at h
  induction h generalizing u us with
  | first hu ho hroot hp hname =>
    cases hnodes
    rw [Script.memberPath?_eq, ho, hp, Option.bind_some, hroot, hu, Option.filter_some, hname,
      dotted_cons _ (List.cons_ne_nil _ _), dotted_singleton]
    rfl
  | next hu ho inner hp hname ih =>
    cases hnodes
    rw [Script.memberPath?_eq, ho, hp, Option.bind_some, inner.kind_eq, hu, Option.filter_some,
      hname, ih rfl, ← List.cons_append, dotted_snoc (List.cons_ne_nil _ _)]
    rfl

/-- In a regular tree the root of a chain holds no dot, and all nodes start together. -/
theorem regular (h : Chain src (u :: us) r ps) (hall : u.All (Regular src.chars)) :
    IsDotless r ∧ ∀ v ∈ u :: us, v.start = u.start := by
  generalize hnodes : u :: us = nodes at h
  induction h generalizing u us with
  | first hu ho hroot =>
    cases hnodes
    have hobject := (ParseTree.all_iff.1 (hall.child? ho)).1
    exact ⟨(isName_of_identifier hobject hroot).isDotless, fun v hv => by
      rw [List.mem_singleton.1 hv]⟩
  | next hu ho inner hp hname ih =>
    cases hnodes
    obtain ⟨hdotless, hstarts⟩ := ih (hall.child? ho) rfl
    obtain ⟨hstart, -, -⟩ := (opens_of_member (ParseTree.all_iff.1 hall).1 hu).child? ho
    refine ⟨hdotless, fun v hv => ?_⟩
    rcases List.mem_cons.1 hv with rfl | hv
    · rfl
    · exact (hstarts v hv).trans hstart

/-- The nodes of a chain come in the order in which a walk visits them. -/
theorem sublist_preorder (h : Chain src (u :: us) r ps) : (u :: us).Sublist u.preorder := by
  generalize hnodes : u :: us = nodes at h
  induction h generalizing u us with
  | first =>
    cases hnodes
    rw [ParseTree.preorder_eq]
    exact List.singleton_sublist.2 List.mem_cons_self
  | next hu ho inner hp hname ih =>
    cases hnodes
    rw [ParseTree.preorder_eq]
    exact ((ih rfl).trans
      (ParseTree.preorder_sublist (ParseTree.mem_children_of_child? ho))).cons_cons _

/-- What the outermost node of a chain reads from: the root, or the chain without it. -/
theorem object (h : Chain src (u :: us) r ps) :
    ∃ o, u.child? .object = some o ∧
      ((o.kind = .identifier ∧ o.text src = r ∧ ∃ p, ps = [p]) ∨
        (o.kind = .member ∧ ∀ p, ps ≠ [p])) := by
  cases h with
  | first hu ho hroot => exact ⟨_, ho, Or.inl ⟨hroot, rfl, _, rfl⟩⟩
  | @next _ o _ _ _ ps hu ho inner =>
    refine ⟨o, ho, Or.inr ⟨inner.kind_eq, fun p hps => ?_⟩⟩
    have hlength := congrArg List.length hps
    rw [List.length_append, List.length_singleton, List.length_singleton] at hlength
    exact inner.ne_nil (List.length_eq_zero_iff.1 (Nat.succ.inj hlength))

end Chain

/-! ## What a chain shows -/

/-- The beginnings of a list, the longest first. -/
def fronts (ps : List String) : List (List String) :=
  (List.range' 1 ps.length).reverse.map ps.take

theorem fronts_singleton (p : String) : fronts [p] = [[p]] := rfl

theorem fronts_snoc (ps : List String) (p : String) :
    fronts (ps ++ [p]) = (ps ++ [p]) :: fronts ps := by
  rw [fronts, List.length_append, List.length_singleton, List.range'_1_concat, List.reverse_append,
    List.reverse_singleton, List.singleton_append, List.map_cons, Nat.add_comm 1 ps.length]
  congr 1
  · exact List.take_of_length_le (by simp)
  · refine List.map_congr_left fun k hk => ?_
    have hle : k ≤ ps.length := by
      have := List.mem_range'_1.1 (List.mem_reverse.1 hk)
      omega
    rw [List.take_append_of_le_length hle]

/-- The identifiers and the contexts that the chain `r.p₁…pₙ` shows: one for each of its
    beginnings behind `navigator` or `window`, and one behind any other global. -/
def chainReports (r : String) (ps : List String) : List (String × String) :=
  if r = "navigator" then (fronts ps).map (fun qs => ("navigator-" ++ dotted qs, dotted (r :: qs)))
  else if r = "window" then (fronts ps).map (fun qs => (dotted qs, dotted (r :: qs)))
  else if Catalog.isGlobal r then [(r, dotted (r :: ps.take 1))]
  else []

/-- What its outermost node shows. -/
def linkReports (r : String) (ps : List String) : List (String × String) :=
  if r = "navigator" then [("navigator-" ++ dotted ps, dotted (r :: ps))]
  else if r = "window" then [(dotted ps, dotted (r :: ps))]
  else if ps.length = 1 ∧ Catalog.isGlobal r then [(r, dotted (r :: ps))]
  else []

theorem chainReports_singleton (r p : String) : chainReports r [p] = linkReports r [p] := by
  simp [chainReports, linkReports, fronts_singleton]

theorem chainReports_snoc (r p : String) {ps : List String} (hps : ps ≠ []) :
    chainReports r (ps ++ [p]) = linkReports r (ps ++ [p]) ++ chainReports r ps := by
  rw [chainReports, linkReports, chainReports]
  split
  · rw [fronts_snoc, List.map_cons, List.singleton_append]
  · split
    · rw [fronts_snoc, List.map_cons, List.singleton_append]
    · have hlong : ¬ ((ps ++ [p]).length = 1 ∧ Catalog.isGlobal r = true) := by
        intro h
        rw [List.length_append, List.length_singleton] at h
        exact hps (List.length_eq_zero_iff.1 (Nat.succ.inj h.1))
      rw [if_neg hlong, List.nil_append,
        List.take_append_of_le_length (List.length_pos_iff.2 hps)]

theorem mem_chainReports_of_link {r : String} {ps : List String} (hps : ps ≠ [])
    {report : String × String} (h : report ∈ linkReports r ps) : report ∈ chainReports r ps := by
  obtain ⟨qs, p, rfl⟩ := (List.eq_nil_or_concat ps).resolve_left hps
  rw [List.concat_eq_append] at h ⊢
  by_cases hqs : qs = []
  · subst hqs
    rw [List.nil_append] at h ⊢
    rwa [chainReports_singleton]
  · rw [chainReports_snoc r p hqs]
    exact List.mem_append_left _ h

section Occurrences

variable {src : Source} {u : ParseTree Kind} {us : List (ParseTree Kind)} {r : String}
  {ps : List String}

/-- The outermost node of a chain shows what the whole path asks for. -/
theorem memberOccurrences_chain (h : Chain src (u :: us) r ps)
    (hall : u.All (Regular src.chars)) :
    memberOccurrences src u =
      (linkReports r ps).map (fun report => occurrenceAt src u report.1 report.2) := by
  obtain ⟨hr, -⟩ := h.regular hall
  obtain ⟨o, ho, hobject⟩ := h.object
  have hnavigator : dropStart? "navigator." (dotted (r :: ps)) =
      if r = "navigator" then some (dotted ps) else none :=
    dropStart?_dotted "navigator" (by decide) hr h.ne_nil
  have hwindow : (dotted (r :: ps)).startsWith "window." = decide (r = "window") :=
    startsWith_dotted "window" (by decide) hr h.ne_nil
  have hglobal : Catalog.isGlobal (dotted (r :: ps)) = false := by
    refine Bool.eq_false_iff.2 fun hlisted => not_isDotless_dot r (dotted ps) ?_
    rw [← dotted_cons r h.ne_nil]
    exact isDotless_of_isGlobal hlisted
  rw [memberOccurrences, h.memberPath?_eq, linkReports]
  simp only [ho, hnavigator, hwindow, hglobal, Bool.or_false]
  -- the root is `navigator`, `window` or another name; only the innermost node sees it
  by_cases hn : r = "navigator"
  · rw [if_pos hn, if_pos hn, decide_eq_false (by rw [hn]; decide), if_neg Bool.false_ne_true]
    rcases hobject with ⟨hkind, htext, -⟩ | ⟨hkind, -⟩
    · rw [hkind, htext, hn]
      rfl
    · rw [hkind]
      rfl
  · rw [if_neg hn, if_neg hn]
    by_cases hw : r = "window"
    · rw [if_pos hw, decide_eq_true hw, if_pos rfl, withoutWindow_dotted hr h.ne_nil, if_pos hw]
      rfl
    · rw [if_neg hw, decide_eq_false hw, if_neg Bool.false_ne_true]
      rcases hobject with ⟨hkind, htext, p, rfl⟩ | ⟨hkind, hlong⟩
      · rw [hkind, htext]
        cases Catalog.isGlobal r <;> rfl
      · have hinner : ¬ (ps.length = 1 ∧ Catalog.isGlobal r = true) := by
          rintro ⟨hlength, -⟩
          obtain ⟨p, hp⟩ := List.length_eq_one_iff.1 hlength
          exact hlong p hp
        rw [hkind, if_neg hinner]
        rfl

theorem nodeOccurrences_chain (h : Chain src (u :: us) r ps)
    (hall : u.All (Regular src.chars)) :
    nodeOccurrences src u =
      (linkReports r ps).map (fun report => occurrenceAt src u report.1 report.2) := by
  rw [nodeOccurrences, h.kind_eq]
  exact memberOccurrences_chain h hall

/-- Nodes that start together show a feature at the same place. -/
theorem key_occurrenceAt {v : ParseTree Kind} (h : v.start = u.start)
    (identifier context context' : String) :
    (occurrenceAt src v identifier context).key =
      (occurrenceAt src u identifier context').key := by
  rw [occurrenceAt, occurrenceAt, ParseTree.place, ParseTree.place, h]
  rfl

theorem occurrenceAt_congr {v : ParseTree Kind} (h : v.start = u.start)
    (identifier context : String) :
    occurrenceAt src v identifier context = occurrenceAt src u identifier context := by
  rw [occurrenceAt, occurrenceAt, ParseTree.place, ParseTree.place, h]

/-- All nodes of a chain together show what each beginning of the path asks for, the
    longest first, and all of it where the chain starts. -/
theorem flatMap_chain (h : Chain src (u :: us) r ps) (hall : u.All (Regular src.chars)) :
    (u :: us).flatMap (nodeOccurrences src) =
      (chainReports r ps).map (fun report => occurrenceAt src u report.1 report.2) := by
  -- on the nodes, from the innermost out; each puts what it shows in front
  generalize hnodes : u :: us = nodes at h
  induction h generalizing u us with
  | first hu ho hroot hp hname =>
    cases hnodes
    rw [List.flatMap_singleton, chainReports_singleton]
    exact nodeOccurrences_chain (.first hu ho hroot hp hname) hall
  | @next _ o _ _ r ps hu ho inner hp hname ih =>
    cases hnodes
    have hstart := ((opens_of_member (ParseTree.all_iff.1 hall).1 hu).child? ho).1
    rw [List.flatMap_cons, ih (hall.child? ho) rfl, chainReports_snoc r _ inner.ne_nil,
      List.map_append, nodeOccurrences_chain (.next hu ho inner hp hname) hall]
    congr 1
    exact List.map_congr_left fun report _ => occurrenceAt_congr hstart report.1 report.2

/-! ## On top of a chain -/

/-- A subscript behind a chain shows nothing. -/
theorem memberOccurrences_subscript {w : ParseTree Kind} (h : Chain src (u :: us) r ps)
    (hw : w.kind = .subscript) (hobject : w.child? .object = some u) :
    memberOccurrences src w = [] := by
  have hpath : memberPath? src w = none := by
    rw [memberPath?_eq, hobject, Option.bind_some, h.kind_eq, hw]
    cases w.child? .property <;> rfl
  rw [memberOccurrences, hpath]

/-- A call of a chain shows nothing that the chain does not show at the same place. -/
theorem callOccurrences_chain {w : ParseTree Kind} (h : Chain src (u :: us) r ps)
    (hall : w.All (Regular src.chars)) (hw : w.kind = .call)
    (hcallee : w.child? .callee = some u) :
    ∀ o ∈ callOccurrences src w, ∃ report ∈ chainReports r ps,
      o.key = (occurrenceAt src u report.1 report.2).key := by
  intro o ho
  have hstart := start_of_callee (ParseTree.all_iff.1 hall).1 hw hcallee (Or.inr h.kind_eq)
  have hname : valueName? src u = some (dotted (r :: ps)) := by
    rw [valueName?, h.kind_eq]
    exact h.memberPath?_eq
  obtain ⟨hr, -⟩ := h.regular (hall.child? hcallee)
  rw [callOccurrences, hcallee, Option.bind_some, hname] at ho
  simp only [withoutWindow_dotted hr h.ne_nil] at ho
  by_cases hroot : r = "window"
  · -- the path without `window` is the first thing that the chain shows
    rw [if_pos hroot] at ho
    have hlink : (dotted ps, dotted (r :: ps)) ∈ linkReports r ps := by
      rw [linkReports, if_neg (by rw [hroot]; decide), if_pos hroot]
      exact List.mem_singleton_self _
    refine ⟨_, mem_chainReports_of_link h.ne_nil hlink, ?_⟩
    split at ho
    · rw [List.mem_singleton.1 ho]
      exact key_occurrenceAt hstart.symm _ _ _
    · cases ho
  · rw [if_neg hroot] at ho
    split at ho
    · next hcall =>
      rw [dotted_cons r h.ne_nil] at hcall
      exact absurd (isDotless_of_isCall hcall) (not_isDotless_dot r _)
    · cases ho

end Occurrences

/-! ## In the features of a script -/

theorem features_eq_distinct {d : Dialect} {text : String} {t : ParseTree Kind}
    (h : parse? d (Source.ofString text) = some t) :
    features d text =
      Occurrence.distinct (t.nodes.flatMap (nodeOccurrences (Source.ofString text))) := by
  rw [features, h]
  rfl

/-- In a script that follows the grammar, the `n` nodes of a chain `r.p₁…pₙ` are visited
    outermost first and show one feature per beginning of the path, if the chain starts
    at `navigator` or `window`, and the root alone, if that is a global; all stand where
    the chain starts. Each is left there once, and a call or a subscript of the chain
    adds none. -/
theorem chain_reported_per_prefix {d : Dialect} {text : String} {t : ParseTree Kind}
    (hparse : parse? d (Source.ofString text) = some t) {u : ParseTree Kind}
    {us : List (ParseTree Kind)} {r : String} {ps : List String} (hu : u ∈ t.nodes)
    (hchain : Chain (Source.ofString text) (u :: us) r ps) :
    (u :: us).Sublist t.nodes ∧ (u :: us).length = ps.length ∧
      (u :: us).flatMap (nodeOccurrences (Source.ofString text)) =
        (chainReports r ps).map
          (fun report => occurrenceAt (Source.ofString text) u report.1 report.2) ∧
      (∀ report ∈ chainReports r ps,
        ((features d text).filter (fun a =>
          a.key == (occurrenceAt (Source.ofString text) u report.1 report.2).key)).length = 1) ∧
      ∀ w ∈ t.nodes, w.kind = .call ∧ w.child? .callee = some u ∨
          w.kind = .subscript ∧ w.child? .object = some u →
        ∀ o ∈ nodeOccurrences (Source.ofString text) w, ∃ report ∈ chainReports r ps,
          o.key = (occurrenceAt (Source.ofString text) u report.1 report.2).key := by
  have hall := regular_of_parse? hparse
  rw [ParseTree.nodes_eq_preorder] at hu ⊢
  have hregular : ∀ w ∈ t.preorder, w.All (Regular (Source.ofString text).chars) := fun w hw v hv =>
    hall v ((ParseTree.sublist_of_mem_preorder hw).subset hv)
  have hsublist := hchain.sublist_preorder.trans (ParseTree.sublist_of_mem_preorder hu)
  have hshown := flatMap_chain hchain (hregular u hu)
  refine ⟨hsublist, hchain.length_eq, hshown, fun report hreport => ?_, fun w hw hon => ?_⟩
  · rw [features_eq_distinct hparse, ParseTree.nodes_eq_preorder]
    have hmem : occurrenceAt (Source.ofString text) u report.1 report.2 ∈
        (u :: us).flatMap (nodeOccurrences (Source.ofString text)) := by
      rw [hshown]
      exact List.mem_map_of_mem hreport
    obtain ⟨v, hv, ho⟩ := List.mem_flatMap.1 hmem
    exact Occurrence.length_filter_distinct (List.mem_flatMap.2 ⟨v, hsublist.subset hv, ho⟩)
  · rw [nodeOccurrences]
    rcases hon with ⟨hkind, hcallee⟩ | ⟨hkind, hobject⟩
    · rw [hkind]
      exact callOccurrences_chain hchain (hregular w hw) hkind hcallee
    · rw [hkind]
      simp only [memberOccurrences_subscript hchain hkind hobject]
      exact fun o ho => absurd ho List.not_mem_nil

/-- The access to `a` in `window.a.b()`. -/
def windowA : ParseTree Kind :=
  .node .member (some .object) none 0 8 [
    .node .identifier (some .object) none 0 6 [],
    .node .token none none 6 7 [],
    .node .propertyName (some .property) none 7 8 []]

/-- The access to `b` in `window.a.b()`. -/
def windowAB : ParseTree Kind :=
  .node .member (some .callee) none 0 10 [
    windowA,
    .node .token none none 8 9 [],
    .node .propertyName (some .property) none 9 10 []]

/-- The tree of `window.a.b()`. -/
def windowABCall : ParseTree Kind :=
  .node .script none none 0 12 [
    .node .statement none none 0 12 [
      .node .call none none 0 12 [
        windowAB,
        .node .arguments none none 10 12 [
          .node .token none none 10 11 [],
          .node .token none none 11 12 []]]],
    .node .token none none 12 12 []]

set_option maxRecDepth 100000 in
theorem parse?_windowABCall :
    parse? .markup (Source.ofString "window.a.b()") = some windowABCall :=
  parse?_of_plain 90 12 (by decide) (by decide +kernel)

theorem chain_windowAB :
    Chain (Source.ofString "window.a.b()") [windowAB, windowA] "window" ["a", "b"] := by
  obtain ⟨r, ps, hr, hps, h⟩ : ∃ r ps, r = "window" ∧ ps = ["a", "b"] ∧
      Chain (Source.ofString "window.a.b()") [windowAB, windowA] r ps := by
    refine ⟨_, _, ?_, ?_, .next rfl rfl (.first rfl rfl rfl rfl rfl) rfl rfl⟩
    · decide +kernel
    · decide +kernel
  rwa [hr, hps] at h

theorem window_chain_reported_per_prefix :
    parse? .markup (Source.ofString "window.a.b()") = some windowABCall ∧
      windowAB ∈ windowABCall.nodes ∧
      Chain (Source.ofString "window.a.b()") [windowAB, windowA] "window" ["a", "b"] ∧
      [windowAB, windowA].flatMap (nodeOccurrences (Source.ofString "window.a.b()")) =
        [.located "a.b" 1 1 "window.a.b", .located "a" 1 1 "window.a"] ∧
      ((features .markup "window.a.b()").filter (fun a =>
        a.key == ("a.b", some 1, some 1))).length = 1 := by
  have hmem : windowAB ∈ windowABCall.nodes := by
    rw [ParseTree.nodes_eq_preorder]
    decide +kernel
  obtain ⟨-, -, hshown, honce, -⟩ :=
    chain_reported_per_prefix parse?_windowABCall hmem chain_windowAB
  refine ⟨parse?_windowABCall, hmem, chain_windowAB, hshown.trans (by decide +kernel), ?_⟩
  have hkey : (occurrenceAt (Source.ofString "window.a.b()") windowAB "a.b" "window.a.b").key =
      ("a.b", some 1, some 1) := by decide +kernel
  have hlisted : ("a.b", "window.a.b") ∈ chainReports "window" ["a", "b"] := by decide +kernel
  rw [← hkey]
  exact honce _ hlisted

end WebBaseline.Script

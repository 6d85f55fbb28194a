/-
  WebBaseline.Proofs.Stylesheet.Passes

  The three passes over a stylesheet's tree, and how far a flaw in it reaches.

    * each pass takes the nodes it is about in the order of the tree, and from each
      what it shows in any case and what it shows without a flaw in it (`pass`):
      selector lists (`selectorPass`), declarations (`declarationPass`), at-rules
      (`atRulePass`); each gives what the nodes of the tree show in turn
      (`inTurn_selectorPass`, `inTurn_declarationPass`, `inTurn_atRulePass`);
    * a stylesheet shows the firsts of the three (`treeFeatures_eq`), and so does each text
      that can be read (`isFirsts_features`);
    * which nodes these are and what each of them shows does not depend on any mark
      (`selectorLists_mended`, `declarations_mended`, the `ignoresMarks_…` lemmas), so
      two trees that differ in marks alone show the same but for what a flawed selector
      list or declaration hides (`mem_pass_or_hiddenIn`, `pass_eq`);
    * flaws add nothing: without its marks a tree shows at least the same
      (`exists_key_mended`).
-/

import WebBaseline.Proofs.Feature.Distinct
import WebBaseline.Proofs.Stylesheet.Nodes
import WebBaseline.Proofs.Syntax.Derivation

namespace WebBaseline.Stylesheet

open WebBaseline.Syntax
open WebBaseline.Syntax.ParseTree
open WebBaseline.Data (AtMostOne InTurn)
open WebBaseline.Feature
open WebBaseline.Feature.Occurrence (IsFirsts)

/-! ## The passes -/

/-- The selector lists of the rule sets in a tree. -/
def selectorLists (t : ParseTree Kind) : List (ParseTree Kind) := t.preorder.filterMap selectorList?

/-- The pseudo selectors in a tree. -/
def pseudosIn (src : Source) (t : ParseTree Kind) : List Occurrence :=
  t.preorder.flatMap (pseudoOccurrences src)

/-- The declarations in a tree whose property has a name. -/
def declarations (src : Source) (t : ParseTree Kind) : List (ParseTree Kind) :=
  t.preorder.filter (fun d => (property? src d).isSome)

/-- The property of a declaration. -/
def propertyOf (src : Source) (t : ParseTree Kind) : List Occurrence :=
  (property? src t).toList.map fun property =>
    occurrenceAt src t ("css-property-" ++ property) (property ++ ": " ++ declarationValue src t)

/-- The functions in a tree. -/
def functionsIn (src : Source) (t : ParseTree Kind) : List Occurrence :=
  t.preorder.flatMap (functionOccurrences src)

/-- What some items show, one after the other: what each shows in any case, and
    then what it shows only where there is no flaw in it. -/
def pass (always ifFlawless : ParseTree Kind → List Occurrence) (items : List (ParseTree Kind)) :
    List Occurrence :=
  items.flatMap fun t => always t ++ if t.isFlawed then [] else ifFlawless t

theorem mem_pseudosIn_iff {src : Source} {t : ParseTree Kind} {o : Occurrence} :
    o ∈ pseudosIn src t ↔ ∃ p ∈ t.preorder, IsPseudo src p o := by
  rw [pseudosIn, List.mem_flatMap]
  simp only [mem_pseudoOccurrences_iff]

theorem mem_functionsIn_iff {src : Source} {t : ParseTree Kind} {o : Occurrence} :
    o ∈ functionsIn src t ↔ ∃ p ∈ t.preorder, IsFunction src p o := by
  rw [functionsIn, List.mem_flatMap]
  simp only [mem_functionOccurrences_iff]

/-- Of each selector list without a flaw, the pseudo selectors in it. -/
def selectorPass (src : Source) (t : ParseTree Kind) : List Occurrence :=
  pass (fun _ => []) (pseudosIn src) (selectorLists t)

/-- Of each declaration its property and then, where it has no flaw, the functions in it. -/
def declarationPass (src : Source) (t : ParseTree Kind) : List Occurrence :=
  pass (propertyOf src) (functionsIn src) (declarations src t)

/-- The at-rules. -/
def atRulePass (src : Source) (t : ParseTree Kind) : List Occurrence :=
  t.preorder.flatMap (atRuleOccurrences src)

/-! ## What a stylesheet shows -/

section Shown

variable (src : Source)

theorem flatMap_selectorOccurrences (t : ParseTree Kind) :
    t.preorder.flatMap (selectorOccurrences src) = selectorPass src t := by
  rw [selectorPass, pass, selectorLists]
  refine (Data.flatMap_filterMap (fun u => ?_) t.preorder).symm
  rw [selectorOccurrences_eq]
  cases selectorList? u with
  | none => rfl
  | some l => rw [Option.toList_some, List.flatMap_singleton, List.nil_append, pseudosIn]

theorem flatMap_declarationOccurrences (t : ParseTree Kind) :
    t.preorder.flatMap (declarationOccurrences src) = declarationPass src t := by
  rw [declarationPass, pass, declarations, ← List.filterMap_eq_filter]
  refine (Data.flatMap_filterMap (fun u => ?_) t.preorder).symm
  rw [declarationOccurrences_eq, Option.guard]
  cases hproperty : property? src u with
  | none => rfl
  | some property => simp [propertyOf, functionsIn, hproperty]

/-- The rule sets of a tree show the selector pass, node after node. -/
theorem inTurn_selectorPass (t : ParseTree Kind) :
    InTurn (RuleSetShows src) t.preorder (selectorPass src t) :=
  ruleSetsInTurn_iff.2 (flatMap_selectorOccurrences src t).symm

theorem inTurn_declarationPass (t : ParseTree Kind) :
    InTurn (DeclarationShows src) t.preorder (declarationPass src t) :=
  declarationsInTurn_iff.2 (flatMap_declarationOccurrences src t).symm

theorem inTurn_atRulePass (t : ParseTree Kind) :
    InTurn (AtMostOne (IsAtRule src)) t.preorder (atRulePass src t) :=
  atRulesInTurn_iff.2 rfl

/-- A stylesheet shows what the three passes give, without repeats. -/
theorem treeFeatures_eq {t : ParseTree Kind} (hroot : t.flaw = none) :
    treeFeatures src t =
      Occurrence.distinct (selectorPass src t ++ declarationPass src t ++ atRulePass src t) := by
  have hwhole : ¬ (t.flaw.isSome = true) := by
    rw [hroot]
    exact Bool.false_ne_true
  rw [treeFeatures, if_neg hwhole, nodes_eq_preorder, flatMap_selectorOccurrences,
    flatMap_declarationOccurrences, atRulePass]

end Shown

/-- The root of the tree of a text has no flaw. -/
theorem flaw_of_parse? {src : Source} {t : ParseTree Kind} (h : parse? src = some t) :
    t.flaw = none := by
  obtain ⟨⟨u, j⟩, hread, rfl⟩ := Option.map_eq_some_iff.1 h
  obtain ⟨trees, hderives⟩ := Syntax.Grammar.derives_of_read? hread
  -- the rule of a whole stylesheet builds one node, behind the remarks before it
  generalize hall : u :: trees = all at hderives
  cases hderives with
  | phrase inner =>
    cases inner with
    | node =>
      cases hall
      rfl

/-- What a text shows are the firsts of the three passes over its tree. -/
theorem isFirsts_features {text : String} {t : ParseTree Kind}
    (h : parse? (.ofString text) = some t) :
    IsFirsts
      (selectorPass (.ofString text) t ++ declarationPass (.ofString text) t ++
        atRulePass (.ofString text) t)
      (features text) := by
  have hfeatures : features text = treeFeatures (.ofString text) t := by
    rw [features, h]
  rw [hfeatures, treeFeatures_eq _ (flaw_of_parse? h)]
  exact Occurrence.isFirsts_distinct _

/-! ## What does not depend on marks -/

section Marks

variable (src : Source)

theorem childOf?_mended (t : ParseTree Kind) (kind : Kind) :
    childOf? t.mended kind = (childOf? t kind).map mended :=
  ParseTree.childOf?_mended t _

theorem occurrenceAt_mended (t : ParseTree Kind) (identifier context : String) :
    occurrenceAt src t.mended identifier context = occurrenceAt src t identifier context := by
  rw [occurrenceAt, occurrenceAt, place_mended]

theorem pseudoName?_mended (cs : List (ParseTree Kind)) :
    pseudoName? src (cs.map mended) = (pseudoName? src cs).map (Prod.map mended id) := by
  induction cs with
  | nil => rfl
  | cons c cs ih =>
    rw [List.map_cons, pseudoName?, pseudoName?, kind_mended]
    split
    · rw [List.find?_map, test_kind_mended Kind.isNamed]
      cases cs.find? (fun d => d.kind.isNamed) with
      | none => rfl
      | some d =>
        simp only [Option.map_some, text_mended]
        split <;> rfl
    · exact ih

theorem valueBounds?_mended (cs : List (ParseTree Kind)) :
    valueBounds? (cs.map mended) = valueBounds? cs := by
  induction cs with
  | nil => rfl
  | cons c cs ih =>
    rw [List.map_cons, valueBounds?, valueBounds?, kind_mended]
    split
    · rw [List.filter_map, test_kind_mended (· != Kind.semicolon), List.getLast?_map]
      cases (cs.filter (fun d => d.kind != .semicolon)).getLast? with
      | none => rfl
      | some d => simp only [Option.map_some, stop_mended]
    · exact ih

theorem ignoresMarks_pseudoOccurrences : IgnoresMarks (pseudoOccurrences src) := by
  intro t
  rw [pseudoOccurrences, pseudoOccurrences, kind_mended, children_mended, pseudoName?_mended]
  cases pseudoName? src t.children with
  | none => rfl
  | some found =>
    simp only [Option.map_some, Prod.map, occurrenceAt_mended, text_mended, id]

theorem ignoresMarks_functionOccurrences : IgnoresMarks (functionOccurrences src) := by
  intro t
  rw [functionOccurrences, functionOccurrences, kind_mended, childOf?_mended]
  cases childOf? t .functionName with
  | none => rfl
  | some f => simp only [Option.map_some, occurrenceAt_mended, text_mended]

theorem ignoresMarks_pseudosIn : IgnoresMarks (pseudosIn src) :=
  (ignoresMarks_pseudoOccurrences src).flatMap_preorder

theorem ignoresMarks_functionsIn : IgnoresMarks (functionsIn src) :=
  (ignoresMarks_functionOccurrences src).flatMap_preorder

theorem ignoresMarks_atRuleOccurrences : IgnoresMarks (atRuleOccurrences src) := by
  intro t
  rw [atRuleOccurrences, atRuleOccurrences, kind_mended, children_mended]
  cases t.children with
  | nil => rfl
  | cons k cs => simp only [List.map_cons, occurrenceAt_mended, text_mended]

theorem ignoresMarks_property? : IgnoresMarks (property? src) := by
  intro t
  rw [property?, property?, kind_mended, childOf?_mended, Option.bind_map]
  simp only [Function.comp_def, text_mended]

theorem ignoresMarks_propertyOf : IgnoresMarks (propertyOf src) := by
  intro t
  have hvalue : declarationValue src t.mended = declarationValue src t := by
    rw [declarationValue, declarationValue, children_mended, valueBounds?_mended]
  simp only [propertyOf, ignoresMarks_property? src t, occurrenceAt_mended, hvalue]

theorem selectorLists_mended (t : ParseTree Kind) :
    selectorLists t.mended = (selectorLists t).map mended := by
  have hlist : (fun u => selectorList? (mended u)) = fun u => (selectorList? u).map mended := by
    funext u
    rw [selectorList?, selectorList?, kind_mended, childOf?_mended]
    split <;> rfl
  rw [selectorLists, selectorLists, preorder_mended, List.filterMap_map, List.map_filterMap]
  exact congrArg (t.preorder.filterMap ·) hlist

theorem declarations_mended (t : ParseTree Kind) :
    declarations src t.mended = (declarations src t).map mended := by
  have hnamed : (fun d => (property? src d).isSome) ∘ mended = fun d => (property? src d).isSome :=
    funext fun d => congrArg Option.isSome (ignoresMarks_property? src d)
  rw [declarations, declarations, preorder_mended, List.filter_map, hnamed]

end Marks

/-! ## What flaws hide -/

/-- An occurrence that is hidden in one of the items `ts`: this item has a flaw, and the
    item of `us` at its place has none and a node that is reported as the occurrence. -/
def HiddenIn (Report : ParseTree Kind → Occurrence → Prop) (ts us : List (ParseTree Kind))
    (o : Occurrence) : Prop :=
  ∃ t u, (t, u) ∈ ts.zip us ∧ t.HasFlaw ∧ ¬ u.HasFlaw ∧ ∃ p ∈ u.preorder, Report p o

section Flaws

variable {always ifFlawless : ParseTree Kind → List Occurrence}
  {Report : ParseTree Kind → Occurrence → Prop}

/-- What an item shows, an item that differs from it in marks alone shows as well, or
    hides it by a flaw. -/
theorem mem_item_or_hidden (halways : IgnoresMarks always) (hflawless : IgnoresMarks ifFlawless)
    {t u : ParseTree Kind} (hsame : u.mended = t.mended) {o : Occurrence}
    (ho : o ∈ always u ++ if u.isFlawed then [] else ifFlawless u) :
    o ∈ (always t ++ if t.isFlawed then [] else ifFlawless t) ∨
      t.isFlawed = true ∧ u.isFlawed = false ∧ o ∈ ifFlawless u := by
  rw [List.mem_append] at ho
  rw [List.mem_append]
  rcases ho with ho | ho
  · rw [halways.eq hsame] at ho
    exact Or.inl (Or.inl ho)
  · cases hu : u.isFlawed with
    | true =>
      rw [hu, if_pos rfl] at ho
      cases ho
    | false =>
      rw [hu, if_neg Bool.false_ne_true] at ho
      cases ht : t.isFlawed with
      | true => exact Or.inr ⟨rfl, rfl, ho⟩
      | false =>
        rw [hflawless.eq hsame] at ho
        rw [if_neg Bool.false_ne_true]
        exact Or.inl (Or.inr ho)

/-- What items show, items that differ from them in marks alone show as well, but for
    what flaws hide there. -/
theorem mem_pass_or_hiddenIn (halways : IgnoresMarks always) (hflawless : IgnoresMarks ifFlawless)
    (hreport : ∀ {u o}, o ∈ ifFlawless u → ∃ p ∈ u.preorder, Report p o)
    {ts us : List (ParseTree Kind)} (hsame : us.map mended = ts.map mended) {o : Occurrence}
    (ho : o ∈ pass always ifFlawless us) :
    o ∈ pass always ifFlawless ts ∨ HiddenIn Report ts us o := by
  -- both lists are gone through item by item
  induction us generalizing ts with
  | nil => cases ho
  | cons u us ih =>
    cases ts with
    | nil => cases hsame
    | cons t ts =>
      obtain ⟨hitem, hrest⟩ := List.cons.inj hsame
      rw [pass, List.flatMap_cons, List.mem_append] at ho
      rw [pass, List.flatMap_cons, List.mem_append]
      rcases ho with ho | ho
      · rcases mem_item_or_hidden halways hflawless hitem ho with hshown | ⟨ht, hu, hhidden⟩
        · exact Or.inl (Or.inl hshown)
        · refine Or.inr ⟨t, u, List.mem_cons_self, isFlawed_iff.1 ht, ?_, hreport hhidden⟩
          rw [← isFlawed_iff, hu]
          exact Bool.false_ne_true
      · rcases ih hrest ho with hshown | ⟨t', u', hmem, hhidden⟩
        · exact Or.inl (Or.inr hshown)
        · exact Or.inr ⟨t', u', List.mem_cons_of_mem _ hmem, hhidden⟩

/-- Where the same of them have flaws, items that differ in marks alone show the same. -/
theorem pass_eq (halways : IgnoresMarks always) (hflawless : IgnoresMarks ifFlawless)
    {ts us : List (ParseTree Kind)} (hsame : us.map mended = ts.map mended)
    (hflaws : us.map isFlawed = ts.map isFlawed) :
    pass always ifFlawless us = pass always ifFlawless ts := by
  induction us generalizing ts with
  | nil =>
    cases ts with
    | nil => rfl
    | cons t ts => cases hsame
  | cons u us ih =>
    cases ts with
    | nil => cases hsame
    | cons t ts =>
      obtain ⟨hitem, hrest⟩ := List.cons.inj hsame
      obtain ⟨hflaw, hflaws⟩ := List.cons.inj hflaws
      rw [pass, pass, List.flatMap_cons, List.flatMap_cons, halways.eq hitem,
        hflawless.eq hitem, hflaw]
      exact congrArg (_ ++ ·) (ih hrest hflaws)

/-- Nothing is hidden in items without marks. -/
theorem not_hiddenIn_mended {ts us : List (ParseTree Kind)} {o : Occurrence} :
    ¬ HiddenIn Report (ts.map mended) us o := by
  rintro ⟨t, u, hmem, ht, -, -⟩
  obtain ⟨t', -, rfl⟩ := List.mem_map.1 (List.of_mem_zip hmem).1
  rw [← isFlawed_iff, isFlawed_mended] at ht
  cases ht

end Flaws

/-! ## Trees that differ in marks alone -/

section Alike

variable (src : Source) {t u : ParseTree Kind}

theorem map_mended_selectorLists (hsame : u.mended = t.mended) :
    (selectorLists u).map mended = (selectorLists t).map mended := by
  rw [← selectorLists_mended, hsame, selectorLists_mended]

theorem map_mended_declarations (hsame : u.mended = t.mended) :
    (declarations src u).map mended = (declarations src t).map mended := by
  rw [← declarations_mended, hsame, declarations_mended]

theorem atRulePass_eq (hsame : u.mended = t.mended) : atRulePass src u = atRulePass src t :=
  (ignoresMarks_atRuleOccurrences src).flatMap_preorder.eq hsame

/-- What the three passes give for one tree they give for the other, but for what a
    flawed selector list or a flawed declaration hides there. -/
theorem mem_passes_or_hiddenIn (hsame : u.mended = t.mended) {o : Occurrence}
    (ho : o ∈ selectorPass src u ++ declarationPass src u ++ atRulePass src u) :
    o ∈ selectorPass src t ++ declarationPass src t ++ atRulePass src t ∨
      HiddenIn (IsPseudo src) (selectorLists t) (selectorLists u) o ∨
      HiddenIn (IsFunction src) (declarations src t) (declarations src u) o := by
  rw [List.mem_append, List.mem_append] at ho ⊢
  rcases ho with (ho | ho) | ho
  · rcases mem_pass_or_hiddenIn (fun _ => rfl) (ignoresMarks_pseudosIn src)
      mem_pseudosIn_iff.1 (map_mended_selectorLists hsame) ho with hshown | hhidden
    · exact Or.inl (Or.inl (Or.inl hshown))
    · exact Or.inr (Or.inl hhidden)
  · rcases mem_pass_or_hiddenIn (ignoresMarks_propertyOf src) (ignoresMarks_functionsIn src)
      mem_functionsIn_iff.1 (map_mended_declarations src hsame) ho with hshown | hhidden
    · exact Or.inl (Or.inl (Or.inr hshown))
    · exact Or.inr (Or.inr hhidden)
  · rw [atRulePass_eq src hsame] at ho
    exact Or.inl (Or.inr ho)

/-- Where the same selector lists and the same declarations have flaws, the passes give
    the same. -/
theorem passes_eq (hsame : u.mended = t.mended)
    (hselectors : (selectorLists u).map isFlawed = (selectorLists t).map isFlawed)
    (hdeclarations : (declarations src u).map isFlawed = (declarations src t).map isFlawed) :
    selectorPass src u ++ declarationPass src u ++ atRulePass src u =
      selectorPass src t ++ declarationPass src t ++ atRulePass src t := by
  have hfirst : selectorPass src u = selectorPass src t :=
    pass_eq (fun _ => rfl) (ignoresMarks_pseudosIn src) (map_mended_selectorLists hsame)
      hselectors
  have hsecond : declarationPass src u = declarationPass src t :=
    pass_eq (ignoresMarks_propertyOf src) (ignoresMarks_functionsIn src)
      (map_mended_declarations src hsame) hdeclarations
  rw [hfirst, hsecond, atRulePass_eq src hsame]

end Alike

/-- Flaws only hide: what a tree shows it shows without its marks as well. -/
theorem exists_key_mended (src : Source) {t : ParseTree Kind} (hroot : t.flaw = none)
    {o : Occurrence} (ho : o ∈ treeFeatures src t) :
    ∃ o' ∈ treeFeatures src t.mended, o'.key = o.key := by
  rw [treeFeatures_eq src hroot] at ho
  rw [treeFeatures_eq src (flaw_mended t)]
  -- the mended tree is one that differs in marks alone, and has none that could hide
  have hsame : t.mended = t.mended.mended := (mended_mended t).symm
  rcases mem_passes_or_hiddenIn src hsame (Occurrence.mem_of_mem_distinct ho) with
    hshown | hhidden | hhidden
  · exact Occurrence.exists_key_distinct hshown
  · rw [selectorLists_mended] at hhidden
    exact absurd hhidden not_hiddenIn_mended
  · rw [declarations_mended] at hhidden
    exact absurd hhidden not_hiddenIn_mended

/-- A tree whose root is no error shows the firsts of three passes. In the order of the
    tree, the first gives what the rule sets show, the second what the declarations show,
    the third the at-rules. A tree that differs from it in marks alone shows nothing more
    than what a flawed selector list or a flawed declaration hides here, and the same where
    in both trees the same selector lists and the same declarations have flaws, whatever
    else has. -/
theorem treeFeatures_three_passes (src : Source) (t : ParseTree Kind) (hroot : t.flaw = none) :
    InTurn (RuleSetShows src) t.preorder (selectorPass src t) ∧
      InTurn (DeclarationShows src) t.preorder (declarationPass src t) ∧
      InTurn (AtMostOne (IsAtRule src)) t.preorder (atRulePass src t) ∧
      IsFirsts (selectorPass src t ++ declarationPass src t ++ atRulePass src t)
        (treeFeatures src t) ∧
      ∀ u : ParseTree Kind, u.flaw = none → u.mended = t.mended →
        (∀ o ∈ treeFeatures src u,
          (∃ o' ∈ treeFeatures src t, o'.key = o.key) ∨
            HiddenIn (IsPseudo src) (selectorLists t) (selectorLists u) o ∨
            HiddenIn (IsFunction src) (declarations src t) (declarations src u) o) ∧
        ((selectorLists u).map isFlawed = (selectorLists t).map isFlawed →
          (declarations src u).map isFlawed = (declarations src t).map isFlawed →
          treeFeatures src u = treeFeatures src t) := by
  refine ⟨inTurn_selectorPass src t, inTurn_declarationPass src t, inTurn_atRulePass src t, ?_,
    fun u hroot' hsame => ⟨fun o ho => ?_, fun hselectors hdeclarations => ?_⟩⟩
  · rw [treeFeatures_eq src hroot]
    exact Occurrence.isFirsts_distinct _
  · rw [treeFeatures_eq src hroot'] at ho
    rw [treeFeatures_eq src hroot]
    rcases mem_passes_or_hiddenIn src hsame (Occurrence.mem_of_mem_distinct ho) with
      hshown | hhidden
    · exact Or.inl (Occurrence.exists_key_distinct hshown)
    · exact Or.inr hhidden
  · rw [treeFeatures_eq src hroot', treeFeatures_eq src hroot,
      passes_eq src hsame hselectors hdeclarations]

/-- The text `:b!{c:d()!}:f{g:h(i())}@e;`. -/
def twoFaultsText : Source := .ofString ":b!\x7bc:d()!\x7d:f\x7bg:h(i())\x7d@e;"

/-- Its tree, with a flaw in the first selector list and one in the first declaration. -/
def twoFaults : ParseTree Kind :=
  .node .sheet none none 0 26
    [.node .ruleSet none none 0 11
      [.node .selectors none none 0 3
        [.node .pseudoClass none none 0 2 [.leaf .colon 0 1, .leaf .name 1 2],
          .node .stray none (some .unexpected) 2 3 []],
        .node .block none none 3 11
          [.leaf .mark 3 4,
            .node .declaration none none 4 10
              [.leaf .propertyName 4 5, .leaf .colon 5 6,
                .node .call none none 6 9
                  [.leaf .functionName 6 7,
                    .node .arguments none none 7 9 [.leaf .mark 7 8, .leaf .mark 8 9]],
                .node .stray none (some .unexpected) 9 10 []],
            .leaf .mark 10 11]],
      .node .ruleSet none none 11 23
        [.node .selectors none none 11 13
          [.node .pseudoClass none none 11 13 [.leaf .colon 11 12, .leaf .name 12 13]],
          .node .block none none 13 23
            [.leaf .mark 13 14,
              .node .declaration none none 14 22
                [.leaf .propertyName 14 15, .leaf .colon 15 16,
                  .node .call none none 16 22
                    [.leaf .functionName 16 17,
                      .node .arguments none none 17 22
                        [.leaf .mark 17 18,
                          .node .call none none 18 21
                            [.leaf .functionName 18 19,
                              .node .arguments none none 19 21
                                [.leaf .mark 19 20, .leaf .mark 20 21]],
                          .leaf .mark 21 22]]],
              .leaf .mark 22 23]],
      .node .atRule none none 23 26 [.leaf .keyword 23 25, .leaf .semicolon 25 26]]

/-- Both properties are shown, the pseudo class and the two functions of the second rule,
    and the at-rule. Without the marks only the pseudo class and the function of the first
    rule would be shown as well, which the two flaws hide. -/
theorem treeFeatures_twoFaults :
    twoFaults.flaw = none ∧
      InTurn (RuleSetShows twoFaultsText) twoFaults.preorder
        [.located "css-pseudo-f" 1 12 ":f"] ∧
      InTurn (DeclarationShows twoFaultsText) twoFaults.preorder
        [.located "css-property-c" 1 5 "c: d()!", .located "css-property-g" 1 15 "g: h(i())",
          .located "css-function-h" 1 17 "h()", .located "css-function-i" 1 19 "i()"] ∧
      InTurn (AtMostOne (IsAtRule twoFaultsText)) twoFaults.preorder
        [.located "css-at-rule-e" 1 24 "@e"] ∧
      IsFirsts
        [.located "css-pseudo-f" 1 12 ":f", .located "css-property-c" 1 5 "c: d()!",
          .located "css-property-g" 1 15 "g: h(i())", .located "css-function-h" 1 17 "h()",
          .located "css-function-i" 1 19 "i()", .located "css-at-rule-e" 1 24 "@e"]
        (treeFeatures twoFaultsText twoFaults) ∧
      ∀ o ∈ treeFeatures twoFaultsText twoFaults.mended,
        (∃ o' ∈ treeFeatures twoFaultsText twoFaults, o'.key = o.key) ∨
          HiddenIn (IsPseudo twoFaultsText) (selectorLists twoFaults)
            (selectorLists twoFaults.mended) o ∨
          HiddenIn (IsFunction twoFaultsText) (declarations twoFaultsText twoFaults)
            (declarations twoFaultsText twoFaults.mended) o := by
  have hselectors : selectorPass twoFaultsText twoFaults =
      [.located "css-pseudo-f" 1 12 ":f"] := by
    decide +kernel
  have hdeclarations : declarationPass twoFaultsText twoFaults =
      [.located "css-property-c" 1 5 "c: d()!", .located "css-property-g" 1 15 "g: h(i())",
        .located "css-function-h" 1 17 "h()", .located "css-function-i" 1 19 "i()"] := by
    decide +kernel
  have hrules : atRulePass twoFaultsText twoFaults =
      [.located "css-at-rule-e" 1 24 "@e"] := by
    decide +kernel
  obtain ⟨hfirst, hsecond, hthird, hfirsts, halike⟩ :=
    treeFeatures_three_passes twoFaultsText twoFaults rfl
  rw [hselectors, hdeclarations, hrules] at hfirsts
  rw [hselectors] at hfirst
  rw [hdeclarations] at hsecond
  rw [hrules] at hthird
  exact ⟨rfl, hfirst, hsecond, hthird, hfirsts, (halike twoFaults.mended rfl rfl).1⟩

end WebBaseline.Stylesheet

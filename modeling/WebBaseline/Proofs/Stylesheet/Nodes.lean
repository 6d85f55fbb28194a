/-
  WebBaseline.Proofs.Stylesheet.Nodes

  What the nodes of a stylesheet's tree are reported as, said by their children.

    * a pseudo selector is reported by its colons and the name behind them (`IsPseudo`),
      a function by its name (`IsFunction`), a declaration by its property and its value
      (`IsProperty`), an at-rule by its keyword (`IsAtRule`);
    * a rule set shows the pseudo selectors in its selector list (`RuleSetShows`), a
      declaration its property and the functions in it (`DeclarationShows`), all of them
      down to any depth, but for what a flaw hides;
    * that is what is read off the nodes one after the other (`ruleSetsInTurn_iff`,
      `declarationsInTurn_iff`, `atRulesInTurn_iff`).
-/

import WebBaseline.Proofs.Data.Lists
import WebBaseline.Proofs.Syntax.Mended
import WebBaseline.Stylesheet.Features

namespace WebBaseline.Stylesheet

open WebBaseline.Data (AtMostOne InTurn IsFirst atMostOne_iff find?_eq_some_iff_isFirst
  inTurn_iff)
open WebBaseline.Syntax
open WebBaseline.Syntax.ParseTree
open WebBaseline.Feature

variable {src : Source} {t c l : ParseTree Kind} {cs : List (ParseTree Kind)} {kind : Kind}
  {o : Occurrence} {os : List Occurrence} {name property value : String}

/-- Whether a node is of a kind. -/
def OfKind (kind : Kind) (t : ParseTree Kind) : Prop := t.kind = kind

/-- The first child of a kind. -/
def IsChildOf (t : ParseTree Kind) (kind : Kind) (c : ParseTree Kind) : Prop :=
  ∃ rest, IsFirst (OfKind kind) t.children c rest

theorem childOf?_eq_some_iff : childOf? t kind = some c ↔ IsChildOf t kind c :=
  find?_eq_some_iff_isFirst (fun _ => beq_iff_eq)

/-! ## Pseudo selectors -/

/-- Whether a node is a colon or a double colon. -/
def IsColons (t : ParseTree Kind) : Prop := t.kind = .colon ∨ t.kind = .doubleColon

/-- The name of a pseudo selector: the text of the first node behind its first colons that
    is more than a fixed text, if it is not blank. -/
def IsPseudoName (src : Source) (cs : List (ParseTree Kind)) (colons : ParseTree Kind)
    (name : String) : Prop :=
  ∃ behind named rest, IsFirst IsColons cs colons behind ∧
    IsFirst (fun d => d.kind.isNamed = true) behind named rest ∧
    name = Text.trim (named.text src) ∧ name ≠ ""

/-- The report of a pseudo selector: its colons and its name, at the place of the colons. -/
def IsPseudo (src : Source) (t : ParseTree Kind) (o : Occurrence) : Prop :=
  (t.kind = .pseudoClass ∨ t.kind = .pseudoElement) ∧
    ∃ colons name, IsPseudoName src t.children colons name ∧
      o = .located ("css-pseudo-" ++ name) (colons.place src).line (colons.place src).column
        (colons.text src ++ name)

theorem isColons_iff : (c.kind == .colon || c.kind == .doubleColon) = true ↔ IsColons c := by
  rw [Bool.or_eq_true, beq_iff_eq, beq_iff_eq, IsColons]

theorem pseudoName?_eq_some_iff {colons : ParseTree Kind} :
    pseudoName? src cs = some (colons, name) ↔ IsPseudoName src cs colons name := by
  induction cs with
  | nil =>
    constructor
    · intro h
      cases h
    · rintro ⟨_, _, _, hcolons, -⟩
      cases hcolons
  | cons c cs ih =>
    rw [pseudoName?]
    by_cases hc : IsColons c
    · simp only [if_pos (isColons_iff.2 hc), IsPseudoName, IsFirst.cons_iff_of_holds hc]
      have hnamed : ∀ named, cs.find? (fun d => d.kind.isNamed) = some named ↔
          ∃ rest, IsFirst (fun d => d.kind.isNamed = true) cs named rest :=
        fun _ => find?_eq_some_iff_isFirst (fun _ => Iff.rfl)
      constructor
      · intro h
        split at h
        · cases h
        · next named hfind =>
          obtain ⟨rest, hfirst⟩ := (hnamed named).1 hfind
          split at h
          · cases h
          · next hblank =>
            obtain ⟨rfl, rfl⟩ := Prod.mk.inj (Option.some.inj h)
            exact ⟨cs, named, rest, ⟨rfl, rfl⟩, hfirst, rfl, fun h => hblank (by simp [h])⟩
      · rintro ⟨_, named, rest, ⟨rfl, rfl⟩, hfirst, rfl, hne⟩
        rw [(hnamed named).2 ⟨rest, hfirst⟩]
        simp [hne]
    · rw [if_neg (mt isColons_iff.1 hc), ih]
      simp only [IsPseudoName, IsFirst.cons_iff_of_fails hc]

theorem pseudoOccurrences_eq :
    pseudoOccurrences src t =
      if t.kind = .pseudoClass ∨ t.kind = .pseudoElement then
        match pseudoName? src t.children with
        | some (colons, name) =>
          [occurrenceAt src colons ("css-pseudo-" ++ name) (colons.text src ++ name)]
        | none => []
      else [] := by
  rw [pseudoOccurrences]
  cases t.kind <;> rfl

theorem mem_pseudoOccurrences_iff : o ∈ pseudoOccurrences src t ↔ IsPseudo src t o := by
  rw [pseudoOccurrences_eq, IsPseudo]
  by_cases hkind : t.kind = .pseudoClass ∨ t.kind = .pseudoElement
  · rw [if_pos hkind]
    simp only [← pseudoName?_eq_some_iff]
    cases pseudoName? src t.children with
    | none => simp
    | some found =>
      obtain ⟨colons, name⟩ := found
      rw [List.mem_singleton]
      constructor
      · exact fun ho => ⟨hkind, colons, name, rfl, ho⟩
      · rintro ⟨-, _, _, hfound, ho⟩
        obtain ⟨rfl, rfl⟩ := Prod.mk.inj (Option.some.inj hfound)
        exact ho
  · rw [if_neg hkind]
    simp [hkind]

/-- A node shows a pseudo selector just where it is one. -/
theorem pseudoShows_iff :
    AtMostOne (IsPseudo src) t os ↔ os = pseudoOccurrences src t := by
  refine atMostOne_iff (fun _ => mem_pseudoOccurrences_iff) ?_
  rw [pseudoOccurrences_eq]
  split
  · split <;> simp
  · simp

theorem pseudosInTurn_iff :
    InTurn (AtMostOne (IsPseudo src)) cs os ↔ os = cs.flatMap (pseudoOccurrences src) :=
  inTurn_iff fun _ _ => pseudoShows_iff

/-! ## Rule sets -/

/-- The selector list of a rule set. -/
def IsSelectorList (t l : ParseTree Kind) : Prop := t.kind = .ruleSet ∧ IsChildOf t .selectors l

/-- What a rule set shows: the pseudo selectors in its selector list, if there is no flaw
    in the list. -/
inductive RuleSetShows (src : Source) (t : ParseTree Kind) : List Occurrence → Prop
  | flawless {l : ParseTree Kind} {os : List Occurrence} (list : IsSelectorList t l)
      (whole : ¬ l.HasFlaw) (pseudos : InTurn (AtMostOne (IsPseudo src)) l.preorder os) :
      RuleSetShows src t os
  | flawed {l : ParseTree Kind} (list : IsSelectorList t l) (flaw : l.HasFlaw) :
      RuleSetShows src t []
  | other (none : ∀ l, ¬ IsSelectorList t l) : RuleSetShows src t []

/-- The selector list of a rule set, looked for. -/
def selectorList? (t : ParseTree Kind) : Option (ParseTree Kind) :=
  if t.kind == .ruleSet then childOf? t .selectors else none

theorem selectorList?_eq_some_iff : selectorList? t = some l ↔ IsSelectorList t l := by
  rw [selectorList?, IsSelectorList, ← childOf?_eq_some_iff]
  split
  · next hkind => simp [beq_iff_eq.1 hkind]
  · next hkind => simp [mt beq_iff_eq.2 hkind]

theorem selectorOccurrences_eq :
    selectorOccurrences src t =
      match selectorList? t with
      | some l => if l.isFlawed then [] else l.preorder.flatMap (pseudoOccurrences src)
      | none => [] := by
  rw [selectorOccurrences, selectorList?]
  simp only [nodes_eq_preorder]
  split
  · rfl
  · rfl

theorem ruleSetShows_iff : RuleSetShows src t os ↔ os = selectorOccurrences src t := by
  rw [selectorOccurrences_eq]
  constructor
  · rintro (⟨hlist, hwhole, hpseudos⟩ | ⟨hlist, hflaw⟩ | hnone)
    · rw [selectorList?_eq_some_iff.2 hlist]
      simp only [if_neg (mt isFlawed_iff.1 hwhole)]
      exact pseudosInTurn_iff.1 hpseudos
    · rw [selectorList?_eq_some_iff.2 hlist]
      simp only [if_pos (isFlawed_iff.2 hflaw)]
    · cases hfind : selectorList? t with
      | none => rfl
      | some l => exact absurd (selectorList?_eq_some_iff.1 hfind) (hnone l)
  · rintro rfl
    cases hfind : selectorList? t with
    | none => exact .other fun l hl => by simpa [hfind] using selectorList?_eq_some_iff.2 hl
    | some l =>
      have hlist := selectorList?_eq_some_iff.1 hfind
      by_cases hflaw : l.HasFlaw
      · simp only [if_pos (isFlawed_iff.2 hflaw)]
        exact .flawed hlist hflaw
      · simp only [if_neg (mt isFlawed_iff.1 hflaw)]
        exact .flawless hlist hflaw (pseudosInTurn_iff.2 rfl)

theorem ruleSetsInTurn_iff :
    InTurn (RuleSetShows src) cs os ↔ os = cs.flatMap (selectorOccurrences src) :=
  inTurn_iff fun _ _ => ruleSetShows_iff

/-! ## Functions -/

/-- The report of a function: its name, at the place of the call. -/
def IsFunction (src : Source) (t : ParseTree Kind) (o : Occurrence) : Prop :=
  t.kind = .call ∧ ∃ f, IsChildOf t .functionName f ∧
    o = .located ("css-function-" ++ f.text src) (t.place src).line (t.place src).column
      (f.text src ++ "()")

theorem mem_functionOccurrences_iff :
    o ∈ functionOccurrences src t ↔ IsFunction src t o := by
  rw [functionOccurrences, IsFunction]
  by_cases hkind : t.kind = .call
  · rw [if_pos (beq_iff_eq.2 hkind)]
    simp only [← childOf?_eq_some_iff]
    cases childOf? t .functionName with
    | none => simp
    | some f => simp [hkind, occurrenceAt]
  · rw [if_neg (mt beq_iff_eq.1 hkind)]
    simp [hkind]

/-- A node shows a function just where it is one. -/
theorem functionShows_iff :
    AtMostOne (IsFunction src) t os ↔ os = functionOccurrences src t := by
  refine atMostOne_iff (fun _ => mem_functionOccurrences_iff) ?_
  rw [functionOccurrences]
  split
  · split <;> simp
  · simp

theorem functionsInTurn_iff :
    InTurn (AtMostOne (IsFunction src)) cs os ↔ os = cs.flatMap (functionOccurrences src) :=
  inTurn_iff fun _ _ => functionShows_iff

/-! ## Declarations -/

/-- The name of a declaration's property, if it is not blank. -/
def IsPropertyName (src : Source) (t : ParseTree Kind) (property : String) : Prop :=
  t.kind = .declaration ∧ ∃ p, IsChildOf t .propertyName p ∧ property = Text.trim (p.text src) ∧
    property ≠ ""

/-- Where a value stands among the children of a declaration: behind the first colon, up to
    the last child there that is no semicolon. -/
def Bounds (cs : List (ParseTree Kind)) (start stop : Nat) : Prop :=
  ∃ colon behind last rest, IsFirst (OfKind .colon) cs colon behind ∧
    IsFirst (fun d => ¬ OfKind .semicolon d) behind.reverse last rest ∧
    start = colon.stop ∧ stop = last.stop

/-- The value of a declaration; there is no text if there is nothing behind the colon. -/
inductive IsValue (src : Source) (t : ParseTree Kind) : String → Prop
  | text {start stop : Nat} (bounds : Bounds t.children start stop) :
      IsValue src t (Text.trim (src.slice start stop))
  | empty (none : ∀ start stop, ¬ Bounds t.children start stop) : IsValue src t ""

/-- The report of a declaration: its property and its value, at its place. -/
def IsProperty (src : Source) (t : ParseTree Kind) (o : Occurrence) : Prop :=
  ∃ property value, IsPropertyName src t property ∧ IsValue src t value ∧
    o = .located ("css-property-" ++ property) (t.place src).line (t.place src).column
      (property ++ ": " ++ value)

/-- What a declaration shows: its property and, if there is no flaw in it, the functions in
    it behind that. -/
inductive DeclarationShows (src : Source) (t : ParseTree Kind) : List Occurrence → Prop
  | flawless {o : Occurrence} {os : List Occurrence} (property : IsProperty src t o)
      (whole : ¬ t.HasFlaw) (functions : InTurn (AtMostOne (IsFunction src)) t.preorder os) :
      DeclarationShows src t (o :: os)
  | flawed {o : Occurrence} (property : IsProperty src t o) (flaw : t.HasFlaw) :
      DeclarationShows src t [o]
  | other (none : ∀ o, ¬ IsProperty src t o) : DeclarationShows src t []

/-- The name of a declaration's property, looked for. -/
def property? (src : Source) (t : ParseTree Kind) : Option String :=
  if t.kind == .declaration then
    (childOf? t .propertyName).bind fun p =>
      let property := Text.trim (p.text src)
      if property.isEmpty then none else some property
  else none

theorem property?_eq_some_iff :
    property? src t = some property ↔ IsPropertyName src t property := by
  rw [property?, IsPropertyName]
  by_cases hkind : t.kind = .declaration
  · rw [if_pos (beq_iff_eq.2 hkind)]
    simp only [Option.bind_eq_some_iff, childOf?_eq_some_iff, hkind, true_and]
    refine exists_congr fun p => and_congr_right fun _ => ?_
    split
    · next hblank =>
      have hempty : Text.trim (p.text src) = "" := String.isEmpty_iff.1 hblank
      simp [hempty]
    · next hne =>
      have hfull : Text.trim (p.text src) ≠ "" := mt String.isEmpty_iff.2 hne
      constructor
      · intro h
        obtain rfl := Option.some.inj h
        exact ⟨rfl, hfull⟩
      · rintro ⟨rfl, -⟩
        rfl
  · rw [if_neg (mt beq_iff_eq.1 hkind)]
    simp [hkind]

theorem valueBounds?_eq_some_iff {start stop : Nat} :
    valueBounds? cs = some (start, stop) ↔ Bounds cs start stop := by
  induction cs with
  | nil =>
    constructor
    · intro h
      cases h
    · rintro ⟨_, _, _, _, hcolon, -⟩
      cases hcolon
  | cons c cs ih =>
    rw [valueBounds?]
    by_cases hc : OfKind .colon c
    · simp only [if_pos (beq_iff_eq.2 hc), Bounds, IsFirst.cons_iff_of_holds hc]
      have hlast : ∀ last, (cs.filter (fun d => d.kind != .semicolon)).getLast? = some last ↔
          ∃ rest, IsFirst (fun d => ¬ OfKind .semicolon d) cs.reverse last rest := by
        intro last
        rw [List.getLast?_eq_head?_reverse, ← List.filter_reverse, List.head?_filter]
        exact find?_eq_some_iff_isFirst (fun _ => bne_iff_ne)
      constructor
      · intro h
        split at h
        · next last hfind =>
          obtain ⟨rest, hfirst⟩ := (hlast last).1 hfind
          obtain ⟨rfl, rfl⟩ := Prod.mk.inj (Option.some.inj h)
          exact ⟨c, cs, last, rest, ⟨rfl, rfl⟩, hfirst, rfl, rfl⟩
        · cases h
      · rintro ⟨_, _, last, rest, ⟨rfl, rfl⟩, hfirst, rfl, rfl⟩
        rw [(hlast last).2 ⟨rest, hfirst⟩]
    · rw [if_neg (mt beq_iff_eq.1 hc), ih]
      simp only [Bounds, IsFirst.cons_iff_of_fails hc]

theorem isValue_iff : IsValue src t value ↔ value = declarationValue src t := by
  rw [declarationValue]
  constructor
  · rintro (hbounds | hnone)
    · rw [valueBounds?_eq_some_iff.2 hbounds]
    · cases hfind : valueBounds? t.children with
      | none => rfl
      | some found => exact absurd (valueBounds?_eq_some_iff.1 hfind) (hnone _ _)
  · rintro rfl
    cases hfind : valueBounds? t.children with
    | none =>
      exact .empty fun start stop h => by simpa [hfind] using valueBounds?_eq_some_iff.2 h
    | some found => exact .text (valueBounds?_eq_some_iff.1 hfind)

theorem isProperty_iff :
    IsProperty src t o ↔ ∃ property, property? src t = some property ∧
      o = occurrenceAt src t ("css-property-" ++ property)
        (property ++ ": " ++ declarationValue src t) := by
  simp only [IsProperty, isValue_iff, property?_eq_some_iff, occurrenceAt]
  refine exists_congr fun property => ?_
  constructor
  · rintro ⟨_, hname, rfl, rfl⟩
    exact ⟨hname, rfl⟩
  · rintro ⟨hname, rfl⟩
    exact ⟨_, hname, rfl, rfl⟩

theorem declarationOccurrences_eq :
    declarationOccurrences src t =
      match property? src t with
      | some property =>
        occurrenceAt src t ("css-property-" ++ property)
            (property ++ ": " ++ declarationValue src t) ::
          (if t.isFlawed then [] else t.preorder.flatMap (functionOccurrences src))
      | none => [] := by
  rw [declarationOccurrences, property?]
  by_cases hkind : (t.kind == .declaration) = true
  · rw [if_pos hkind, if_pos hkind]
    cases childOf? t .propertyName with
    | none => rfl
    | some p =>
      cases hblank : (Text.trim (p.text src)).isEmpty with
      | true => simp only [Option.bind_some, hblank, if_true]
      | false =>
        simp only [Option.bind_some, hblank, Bool.false_eq_true, if_false, nodes_eq_preorder]
  · rw [if_neg hkind, if_neg hkind]

theorem declarationShows_iff :
    DeclarationShows src t os ↔ os = declarationOccurrences src t := by
  rw [declarationOccurrences_eq]
  constructor
  · rintro (⟨hproperty, hwhole, hfunctions⟩ | ⟨hproperty, hflaw⟩ | hnone)
    · obtain ⟨property, hfind, rfl⟩ := isProperty_iff.1 hproperty
      simp only [hfind, if_neg (mt isFlawed_iff.1 hwhole), functionsInTurn_iff.1 hfunctions]
    · obtain ⟨property, hfind, rfl⟩ := isProperty_iff.1 hproperty
      simp only [hfind, if_pos (isFlawed_iff.2 hflaw)]
    · cases hfind : property? src t with
      | none => rfl
      | some property => exact absurd (isProperty_iff.2 ⟨property, hfind, rfl⟩) (hnone _)
  · rintro rfl
    cases hfind : property? src t with
    | none =>
      refine .other fun o ho => ?_
      obtain ⟨property, hsome, -⟩ := isProperty_iff.1 ho
      rw [hfind] at hsome
      cases hsome
    | some property =>
      have hproperty := isProperty_iff.2 ⟨property, hfind, rfl⟩
      by_cases hflaw : t.HasFlaw
      · simp only [if_pos (isFlawed_iff.2 hflaw)]
        exact .flawed hproperty hflaw
      · simp only [if_neg (mt isFlawed_iff.1 hflaw)]
        exact .flawless hproperty hflaw (functionsInTurn_iff.2 rfl)

theorem declarationsInTurn_iff :
    InTurn (DeclarationShows src) cs os ↔ os = cs.flatMap (declarationOccurrences src) :=
  inTurn_iff fun _ _ => declarationShows_iff

/-! ## At-rules -/

/-- The report of an at-rule: the word behind the `@` of its first child, at its place. -/
def IsAtRule (src : Source) (t : ParseTree Kind) (o : Occurrence) : Prop :=
  t.kind = .atRule ∧ ∃ k name, t.children.head? = some k ∧ k.text src = "@" ++ name ∧ name ≠ "" ∧
    o = .located ("css-at-rule-" ++ name) (t.place src).line (t.place src).column ("@" ++ name)

theorem text_eq_at_iff {text : String} :
    text = "@" ++ name ∧ name ≠ "" ↔
      ∃ c cs, text.toList = '@' :: c :: cs ∧ name = String.ofList (c :: cs) := by
  constructor
  · rintro ⟨rfl, hne⟩
    obtain ⟨c, cs, hname⟩ := List.exists_cons_of_ne_nil (mt String.toList_eq_nil_iff.1 hne)
    refine ⟨c, cs, ?_, ?_⟩
    · rw [String.toList_append, hname]
      rfl
    · rw [← hname, String.ofList_toList]
  · rintro ⟨c, cs, htext, rfl⟩
    refine ⟨String.toList_injective ?_, by simp⟩
    rw [htext, String.toList_append, String.toList_ofList, String.toList_ofList]
    rfl

theorem mem_atRuleOccurrences_iff : o ∈ atRuleOccurrences src t ↔ IsAtRule src t o := by
  rw [atRuleOccurrences, IsAtRule]
  by_cases hkind : t.kind = .atRule
  · rw [if_pos (beq_iff_eq.2 hkind)]
    cases t.children with
    | nil => simp
    | cons k rest =>
      dsimp only
      constructor
      · intro ho
        split at ho
        · next c cs htext =>
          obtain ⟨hat, hne⟩ := text_eq_at_iff.2 ⟨c, cs, htext, rfl⟩
          exact ⟨hkind, k, _, rfl, hat, hne, List.mem_singleton.1 ho⟩
        · cases ho
      · rintro ⟨-, _, name, hhead, hat, hne, rfl⟩
        obtain rfl := Option.some.inj hhead
        obtain ⟨c, cs, htext, rfl⟩ := text_eq_at_iff.1 ⟨hat, hne⟩
        rw [htext]
        exact List.mem_singleton_self _
  · rw [if_neg (mt beq_iff_eq.1 hkind)]
    simp [hkind]

/-- A node shows an at-rule just where it is one. -/
theorem atRuleShows_iff :
    AtMostOne (IsAtRule src) t os ↔ os = atRuleOccurrences src t := by
  refine atMostOne_iff (fun _ => mem_atRuleOccurrences_iff) ?_
  rw [atRuleOccurrences]
  split
  · split
    · simp
    · split <;> simp
  · simp

theorem atRulesInTurn_iff :
    InTurn (AtMostOne (IsAtRule src)) cs os ↔ os = cs.flatMap (atRuleOccurrences src) :=
  inTurn_iff fun _ _ => atRuleShows_iff

end WebBaseline.Stylesheet

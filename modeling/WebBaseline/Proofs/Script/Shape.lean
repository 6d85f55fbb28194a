/-
  WebBaseline.Proofs.Script.Shape

  The shape of a script's tree, where features are read off it.

    * names are not empty, hold no dot and have nothing below them;
    * a member access, a subscript and a call open with what they are applied to: it
      comes first, starts where they start, and ends before the rest starts.

  That is a law of the nodes (`Regular`). Each rule of the grammar keeps it
  (`sound_rules`), so each tree that is read keeps it (`regular_of_parse?`).
-/

import WebBaseline.Proofs.Script.Lexeme
import WebBaseline.Proofs.Syntax.Laws
import WebBaseline.Proofs.Syntax.Memo
import WebBaseline.Script.Grammar

namespace WebBaseline.Script

open WebBaseline.Syntax

/-! ## Regular nodes -/

/-- A node without children that covers a name. -/
structure IsName (chars : Array Char) (u : ParseTree Kind) : Prop where
  childless : u.children = []
  nonempty : u.start < u.stop
  dotless : ∀ n, u.start ≤ n → n < u.stop → chars[n]? ≠ some '.'

/-- A node that opens with a child in a part: what the node is applied to. -/
def Opens (part : Part) (u : ParseTree Kind) : Prop :=
  ∃ first rest, u.children = first :: rest ∧ first.part = some part ∧
    first.start = u.start ∧ first.stop ≤ u.stop ∧ ∀ c ∈ rest, first.stop ≤ c.start

/-- Whether a node has the shape that its kind asks for. An import may be called too;
    that call has no name. -/
def Regular (chars : Array Char) (u : ParseTree Kind) : Prop :=
  match u.kind with
  | .identifier | .propertyName => IsName chars u
  | .member | .subscript => Opens .object u
  | .call =>
    Opens .callee u ∨ ∀ c, u.child? .callee = some c → c.kind ≠ .identifier ∧ c.kind ≠ .member
  | _ => True

/-- Kinds of nodes whose shape does not matter. -/
def Kind.isPlain : Kind → Bool
  | .identifier | .propertyName | .member | .subscript | .call => false
  | _ => true

theorem regular_of_isPlain {chars : Array Char} {u : ParseTree Kind}
    (h : u.kind.isPlain = true) : Regular chars u := by
  rw [Regular]
  split <;> simp_all [Kind.isPlain]

theorem isMarkless_regular (chars : Array Char) : IsMarkless (Regular chars) where
  asPart p t h := by
    obtain ⟨kind, _, flaw, start, stop, children⟩ := t
    cases kind with
    | identifier => exact ⟨h.childless, h.nonempty, h.dotless⟩
    | propertyName => exact ⟨h.childless, h.nonempty, h.dotless⟩
    | _ => exact h
  withFlaw f t h := by
    obtain ⟨kind, _, flaw, start, stop, children⟩ := t
    cases kind with
    | identifier => exact ⟨h.childless, h.nonempty, h.dotless⟩
    | propertyName => exact ⟨h.childless, h.nonempty, h.dotless⟩
    | _ => exact h

/-! ## Sound rules -/

namespace Grammar

open WebBaseline.Syntax.Grammar

/-- Whether a rule reads no lexeme backwards and builds regular nodes, if the other
    rules of the grammar read none backwards either. -/
def Sound (d : Dialect) (chars : Array Char) (r : R) : Prop :=
  r.Advances ∧ ((grammar d).Advances → (grammar d).Lawful chars (Regular chars) r)

variable {d : Dialect} {chars : Array Char} {r s : R} {kind : Kind} {scan : Scan} {part : Part}

@[simp] theorem sound_empty : Sound d chars .empty := ⟨trivial, fun _ => trivial⟩

@[simp] theorem sound_test (holds : Array Char → Nat → Bool) : Sound d chars (.test holds) :=
  ⟨trivial, fun _ => trivial⟩

@[simp] theorem sound_p (name : Phrase) : Sound d chars (p name) := ⟨trivial, fun _ => trivial⟩

@[simp] theorem sound_absent (r : R) : Sound d chars (.absent r) := ⟨trivial, fun _ => trivial⟩

@[simp] theorem sound_append : Sound d chars (r ++ s) ↔ Sound d chars r ∧ Sound d chars s :=
  ⟨fun h => ⟨⟨h.1.1, fun hg => (h.2 hg).1⟩, ⟨h.1.2, fun hg => (h.2 hg).2⟩⟩,
    fun h => ⟨⟨h.1.1, h.2.1⟩, fun hg => ⟨h.1.2 hg, h.2.2 hg⟩⟩⟩

@[simp] theorem sound_or : Sound d chars (r ||| s) ↔ Sound d chars r ∧ Sound d chars s :=
  sound_append

@[simp] theorem sound_many : Sound d chars (.many r) ↔ Sound d chars r := Iff.rfl

@[simp] theorem sound_named : Sound d chars (.named part r) ↔ Sound d chars r := Iff.rfl

@[simp] theorem sound_only (accept : Kind → Bool) :
    Sound d chars (.only accept r) ↔ Sound d chars r := Iff.rfl

/-! ### Lexemes -/

@[simp] theorem sound_lexeme (hkind : kind.isPlain = true) :
    Sound d chars (.lexeme kind scan) ↔ scan.Advances :=
  ⟨fun h => h.1, fun hscan => ⟨hscan, fun _ _ _ _ => regular_of_isPlain hkind⟩⟩

@[simp] theorem sound_flush (hkind : kind.isPlain = true) :
    Sound d chars (.flush kind scan) ↔ scan.Advances :=
  ⟨fun h => h.1, fun hscan => ⟨hscan, fun _ _ _ _ => regular_of_isPlain hkind⟩⟩

theorem isName_leaf (hscan : ReadsName scan) {i k : Nat} (h : scan chars i = some k) :
    IsName chars (.leaf kind i k) :=
  ⟨rfl, hscan.nonempty h, hscan.dotless h⟩

theorem sound_name (hscan : ReadsName scan) : Sound d chars (.lexeme .identifier scan) :=
  ⟨hscan.advances, fun _ _ _ h => isName_leaf hscan h⟩

theorem sound_propertyName (hscan : ReadsName scan) :
    Sound d chars (.lexeme .propertyName scan) :=
  ⟨hscan.advances, fun _ _ _ h => isName_leaf hscan h⟩

/-! ### Nodes -/

@[simp] theorem sound_node (hkind : kind.isPlain = true) :
    Sound d chars (.node kind r) ↔ Sound d chars r :=
  ⟨fun h => ⟨h.1, fun hg => (h.2 hg).1⟩,
    fun h => ⟨h.1, fun hg => ⟨h.2 hg, fun _ _ _ _ => regular_of_isPlain hkind⟩⟩⟩

/-- Where no lexeme is read backwards, a node that wraps the latest tree opens with it. -/
theorem opens_wrap (hg : (grammar d).Advances) (hadvances : r.Advances)
    (hadds : r.isAdding = true) {t : ParseTree Kind} {i j : Nat}
    {trees : List (ParseTree Kind)} (hi : t.stop ≤ i)
    (h : (grammar d).Derives chars r i [t.asPart part] j trees) :
    Opens part (enclose kind t.start trees) := by
  -- the rule adds in front of the tree, and read alone what it adds starts at `i` or later
  obtain ⟨new, rfl, hnew⟩ := h.frame hadds
  obtain ⟨-, hall⟩ := (hnew []).within hg hadvances le_rfl (List.forall_mem_nil _)
  rw [List.append_nil] at hall
  refine ⟨t.asPart part, new.reverse, List.reverse_append, ParseTree.part_asPart part t,
    ParseTree.start_asPart part t, ?_, fun c hc => ?_⟩
  · rw [ParseTree.stop_asPart]
    cases new with
    | nil => exact (ParseTree.stop_asPart part t).ge
    | cons c new =>
      have hc := hall c List.mem_cons_self
      exact hi.trans (hc.starts.trans hc.ordered)
  · rw [ParseTree.stop_asPart]
    exact hi.trans (hall c (List.mem_reverse.1 hc)).starts

/-- Whether nodes of a kind open with a child in a part, as far as their shape matters. -/
def isOpening : Kind → Part → Bool
  | .member, part => part == .object
  | .subscript, part => part == .object
  | .call, part => part == .callee
  | kind, _ => kind.isPlain

theorem regular_of_opens {u : ParseTree Kind} (hkind : isOpening u.kind part = true)
    (h : Opens part u) : Regular chars u := by
  by_cases hplain : u.kind.isPlain = true
  · exact regular_of_isPlain hplain
  · rw [Regular]
    cases hu : u.kind <;> rw [hu] at hkind hplain
    case member => obtain rfl := eq_of_beq hkind; exact h
    case subscript => obtain rfl := eq_of_beq hkind; exact h
    case call => obtain rfl := eq_of_beq hkind; exact Or.inl h
    all_goals exact absurd hkind hplain

theorem sound_wrap (hkind : isOpening kind part = true) (hadds : r.isAdding = true) :
    Sound d chars (.wrap kind part r) ↔ Sound d chars r :=
  ⟨fun h => ⟨h.1, fun hg => (h.2 hg).1⟩, fun h => ⟨h.1, fun hg => ⟨h.2 hg,
    fun _ _ _ _ _ hi hderives => regular_of_opens hkind (opens_wrap hg h.1 hadds hi hderives)⟩⟩⟩

theorem kind_of_mem_gap {i : Nat} {u : ParseTree Kind}
    (hu : u ∈ ((grammar d).gap chars i []).2) : u.kind = .remark := by
  have hall : ∀ t ∈ ((grammar d).gap chars i []).2, t.All fun v => v.kind = .remark :=
    gapFrom_all (fun _ _ _ => rfl) _ (List.forall_mem_nil _)
  exact hall u hu u (ParseTree.mem_preorder_self u)

/-- The callee of an import is the word itself. -/
theorem sound_importCall {text : String} (hadds : r.isAdding = true) :
    Sound d chars (.node .call (.named .callee (kw text) ++ r)) ↔ Sound d chars r := by
  refine ⟨fun h => ⟨h.1.2, fun hg => (h.2 hg).1.2⟩, fun h => ⟨⟨advances_word, h.1⟩, fun hg =>
    ⟨⟨fun _ _ _ => regular_of_isPlain rfl, h.2 hg⟩, fun i j trees hderives => ?_⟩⟩⟩
  cases hderives with
  | seq left right =>
  obtain ⟨new, rfl, -⟩ := right.frame hadds
  cases left with
  | namedNone inner => cases inner
  | named inner =>
  cases inner with
  | lexeme _ =>
  -- remarks stand before the word, and all that is named after it comes too late
  refine Or.inr fun c hc => ?_
  rw [ParseTree.child?, children_enclose, List.reverse_append, List.reverse_cons,
    List.append_nil, List.find?_append, List.find?_append] at hc
  cases hremark : List.find? (fun c : ParseTree Kind => c.part == some .callee)
      ((grammar d).gap chars i []).2.reverse with
  | some u =>
    rw [hremark] at hc
    cases hc
    have hu := kind_of_mem_gap (List.mem_reverse.1 (List.mem_of_find?_eq_some hremark))
    rw [hu]
    exact ⟨Kind.noConfusion, Kind.noConfusion⟩
  | none =>
    rw [hremark] at hc
    cases hc
    exact ⟨Kind.noConfusion, Kind.noConfusion⟩

/-! ### Rules for many places -/

@[simp] theorem sound_opt : Sound d chars r.opt ↔ Sound d chars r :=
  sound_or.trans (and_iff_left sound_empty)

@[simp] theorem sound_ahead (r : R) : Sound d chars r.ahead := sound_absent _

@[simp] theorem sound_sepBy1 : Sound d chars (r.sepBy1 s) ↔ Sound d chars r ∧ Sound d chars s := by
  rw [Rule.sepBy1, sound_append, sound_many, sound_append, and_comm (a := Sound d chars s)]
  exact ⟨fun h => h.2, fun h => ⟨h.1, h⟩⟩

@[simp] theorem sound_chain : Sound d chars (r.chain s) ↔ Sound d chars r ∧ Sound d chars s :=
  sound_append

@[simp] theorem sound_sym (text : String) : Sound d chars (sym text) :=
  (sound_lexeme rfl).2 (Scan.advances_text text)

@[simp] theorem sound_op (text : String) : Sound d chars (op text) :=
  (sound_lexeme rfl).2 (advances_punctuatorOf _)

@[simp] theorem sound_opOf (texts : List String) : Sound d chars (opOf texts) :=
  (sound_lexeme rfl).2 (advances_punctuatorOf texts)

@[simp] theorem sound_kw (text : String) : Sound d chars (kw text) :=
  (sound_lexeme rfl).2 advances_word

@[simp] theorem sound_kwOf (texts : List String) : Sound d chars (kwOf texts) :=
  (sound_lexeme rfl).2 advances_wordOf

@[simp] theorem sound_identifierRule : Sound d chars identifierRule :=
  sound_name readsName_identifier

@[simp] theorem sound_nameRule : Sound d chars nameRule := sound_name readsName_anyWord

@[simp] theorem sound_plainProperty : Sound d chars plainProperty :=
  sound_propertyName readsName_anyWord

@[simp] theorem sound_privateProperty : Sound d chars privateProperty :=
  (sound_lexeme rfl).2 (Scan.advances_andThen (Scan.advances_text _) advances_anyWord)

@[simp] theorem sound_numberRule : Sound d chars numberRule :=
  (sound_lexeme rfl).2 advances_number

@[simp] theorem sound_quotedRule : Sound d chars quotedRule :=
  (sound_lexeme rfl).2 advances_quoted

@[simp] theorem sound_question : Sound d chars question :=
  (sound_lexeme rfl).2 advances_questionMark

@[simp] theorem sound_optionalAccess : Sound d chars optionalAccess :=
  (sound_lexeme rfl).2 advances_optionalDot

@[simp] theorem sound_tagQuoted : Sound d chars tagQuoted :=
  (sound_lexeme rfl).2 advances_markupQuoted

@[simp] theorem sound_onSameLine : Sound d chars onSameLine := sound_test _

@[simp] theorem sound_looseList : Sound d chars (looseList r) ↔ Sound d chars r := by
  simp [looseList]

@[simp] theorem sound_closedList : Sound d chars (closedList r) ↔ Sound d chars r := by
  simp [closedList]

@[simp] theorem sound_spread : Sound d chars (spread r) ↔ Sound d chars r := by
  simp [spread]

@[simp] theorem isAdding_append : (r ++ s).isAdding = (r.isAdding && s.isAdding) := rfl

@[simp] theorem isAdding_or : (r ||| s).isAdding = (r.isAdding && s.isAdding) := rfl

/-! ## The rules of the grammar -/

@[simp] theorem sound_className : Sound d chars className := sound_name (readsName_wordBut _)

@[simp] theorem sound_anyName : Sound d chars (.lexeme .identifier anyWord) :=
  sound_name readsName_anyWord

@[simp] theorem sound_bareNew : Sound d chars (.lexeme .identifier bareNew) :=
  sound_name readsName_bareNew

/-- Every rule of the grammar is sound, one case per phrase. -/
theorem sound_rules (name : Phrase) : Sound d chars (rules d name) := by
  cases name
  -- statements
  case script | statement | block | statementEnd | valueEnd | «variables» | declarator | declaration
      | functionDeclaration | classDeclaration | typeAlias | interfaceDeclaration | enumeration
      | moduleBlock | ambient =>
    simp (disch := decide) [rules, scriptRule, statementRule, blockRule,
      valueStatement, statementEndRule, valueEndRule, variablesRule, declaratorRule,
      declarationRule, functionDeclarationRule, classDeclarationRule, typeAliasRule,
      interfaceRule, enumerationRule, moduleBlockRule, ambientRule]
  case exported | imported | importClause =>
    simp (disch := decide) [rules, exportedRule, importedRule, importClauseRule,
      namedList, aliasedName, fromClause, importAttributes]
  case conditionalStatement | whileLoop | doLoop | forLoop | forHead | switchStatement
      | tryStatement | jump | labelled =>
    simp (disch := decide) [rules, conditionalRule, whileRule, doRule, forRule,
      forHeadRule, switchRule, tryRule, jumpRule, labelledRule]
  -- values
  case expressions | expression | term | assignment | construction | group | arguments
      | arrayLiteral | objectLiteral | objectMember | template | functionExpression
      | classExpression | argument =>
    simp (disch := decide) [rules, expressionsRule, expressionRule, joinedTerms,
      choiceRule, termRule, yieldRule, assignmentRule, constructionRule, metaProperty, groupRule,
      argumentsRule, arrayRule, objectRule, objectMemberRule, methodRule, templateRule,
      functionExpressionRule, classExpressionRule, argumentRule]
  case unary => cases d <;> simp (disch := decide) [rules, unaryRule]
  case primary =>
    cases d <;>
      simp (disch := decide) [rules, primaryRule, plainPrimary, metaProperty,
        literalRule]
  case access | arrow | constructed =>
    simp (disch := decide) [rules, sound_wrap, accessRule, arrowRule, arrowHead,
      constructedRule, plainPrimary, metaProperty, literalRule, accessSteps, memberSteps,
      memberName, afterTypeArguments]
  -- patterns, functions and classes
  case pattern | objectPattern | arrayPattern | bindingTarget | patternElement =>
    simp (disch := decide) [rules, patternRule, objectPatternRule, arrayPatternRule,
      bindingTargetRule, patternElementRule]
  case signature | parameters | parameter | initializer | heritage | classBody | classMember
      | propertyName | modifiers =>
    simp (disch := decide) [rules, signatureRule, parametersRule, parameterRule,
      parameterModifier, initializerRule, heritageRule, classBodyRule, classMemberRule,
      methodRule, indexSignature, abstractMarks, fieldMarks, modifiersRule, placeMarks,
      accessMark, methodKind, mark, propertyNameRule]
  case decorator => simp (disch := decide) [rules, sound_wrap, decoratorRule]
  -- types
  case typeClause | returnClause | returnType | type | unionType | intersectionType
      | prefixedType | suffixedType | functionType | objectType | objectTypeMember | tupleMember
      | typeArguments | typeParameters | typeParameter | templateType | typeName =>
    simp (disch := decide) [rules, typeClauseRule, returnClauseRule, returnTypeRule,
      typeRule, unionTypeRule, intersectionTypeRule, prefixedTypeRule, suffixedTypeRule,
      functionTypeRule, objectTypeRule, objectTypeMemberRule, indexSignature,
      placeMarks, accessMark, mark, tupleMemberRule, typeArgumentsRule,
      typeParametersRule, typeParameterRule, templateTypeRule, typeNameRule]
  case primaryType | typeQuery =>
    simp (disch := decide) [rules, sound_wrap, sound_importCall, primaryTypeRule,
      typeQueryRule]
  -- tags
  case element | tagHead | tagName | «attribute» | tagContent | embedded =>
    simp (disch := decide) [rules, sound_wrap, elementRule, tagHeadRule, tagNameRule,
      attributeRule, tagContentRule, embeddedRule]

end Grammar

/-! ## Trees of scripts -/

/-- The tree of a script, told by reading it without a memo. -/
theorem parse?_of_plain {d : Dialect} {src : Source} (fuel j : Nat) {t : ParseTree Kind}
    (hfuel : fuel ≤ Syntax.Grammar.fuelFor src.chars)
    (h : (grammar d).plain src.chars fuel (.phrase .script) 0 [] = some (some (j, [t]))) :
    parse? d src = some t := by
  rw [parse?, Syntax.Grammar.read?_of_plain hfuel h]
  rfl

theorem advances_grammar (d : Dialect) : (grammar d).Advances :=
  ⟨fun name => (@Grammar.sound_rules d #[] name).1, advances_remark⟩

/-- All nodes of a script's tree are regular. -/
theorem regular_of_parse? {d : Dialect} {src : Source} {t : ParseTree Kind}
    (h : parse? d src = some t) : t.All (Regular src.chars) := by
  obtain ⟨⟨u, j⟩, hread, rfl⟩ := Option.map_eq_some_iff.1 h
  exact Syntax.Grammar.all_of_read? (advances_grammar d) (isMarkless_regular src.chars)
    (fun name => (Grammar.sound_rules name).2 (advances_grammar d))
    (fun _ _ _ => regular_of_isPlain rfl) hread

end WebBaseline.Script

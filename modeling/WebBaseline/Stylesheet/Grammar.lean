/-
  WebBaseline.Stylesheet.Grammar

  The grammar of stylesheets. Text that follows no rule is kept as stray nodes,
  item by item, so that one fault does not hide what stands around it: a value,
  a selector list or an at-rule's prelude with stray text in it still makes an
  item, and stray text between items is passed over.
-/

import WebBaseline.Stylesheet.Lexeme
import WebBaseline.Syntax.Source

namespace WebBaseline.Stylesheet

open WebBaseline.Syntax

/-! ## Kinds and phrases -/

/-- The kinds of nodes in a stylesheet's tree. -/
inductive Kind where
  | sheet | ruleSet | selectors | selector | pseudoClass | pseudoElement | name | arguments
  | block | declaration | propertyName | value | call | functionName | atRule | keyword
  | colon | doubleColon | semicolon | mark | remark | stray
  deriving DecidableEq, Repr, Inhabited

/-- Whether nodes of the kind are more than a fixed text. -/
def Kind.isNamed : Kind → Bool
  | .colon | .doubleColon | .semicolon | .mark => false
  | _ => true

/-- The phrases of the grammar. -/
inductive Phrase where
  | sheet | item | innerItem | tidyItem | tidyInnerItem | block
  | ruleSet | selectors | selector | primary | arguments | argument
  | declaration | lastDeclaration | expression | term | atRule | innerAtRule
  | strayItem | strayInner
  deriving DecidableEq, Repr, Hashable

/-- Rules of the stylesheet grammar. -/
abbrev R := Rule Phrase Kind

namespace Grammar

/-! ## Lexemes as rules -/

/-- The rule of a phrase, by name. -/
def p (name : Phrase) : R := .phrase name

/-- A fixed text. -/
def sym (s : String) : R := .lexeme .mark (Scan.text s)

/-- A fixed text right here. -/
def glued (s : String) : R := .flush .mark (Scan.text s)

/-- A name. -/
def nameOf (kind : Kind) : R := .lexeme kind name

/-- Reads nothing at the end of the text. -/
def endOfText : R := .absent (.lexeme .mark (Scan.one (fun _ => true)))

/-- The end of an item. -/
def semicolon : R := .lexeme .semicolon (Scan.text ";")

/-- The end of an item that is left out where a block or the text ends. -/
def semicolonLeftOut : R :=
  (Rule.ahead (sym "\x7d") ||| endOfText) ++
    .flawed .missing (.flush .semicolon (fun _ i => some i))

/-- Anything but these texts. -/
def anythingBut (ss : List String) : R :=
  ss.foldr (fun s r => .absent (sym s) ++ r) (.lexeme .stray anyLexeme)

/-- The rule's lexemes as one piece of stray text. -/
def strayText (r : R) : R := .flawed .unexpected (.node .stray r)

/-! ## Values -/

/-- A function's arguments, several values between commas or semicolons. -/
def argumentListRule : R :=
  .node .arguments
    (glued "(" ++ (Rule.sepBy1 (Rule.many1 (p .expression)) (sym "," ||| sym ";")).opt ++ sym ")")

/-- A single value. -/
def termRule : R :=
  .flush .value slashedWord |||
    .node .call (.lexeme .functionName wholeName ++ argumentListRule) |||
    .lexeme .value colour |||
    .lexeme .value number |||
    .lexeme .value quoted |||
    .lexeme .value word |||
    .node .value (sym "(" ++ p .expression ++ sym ")") |||
    .node .value (sym "[" ++ Rule.sepBy1 (p .expression) (sym ",") ++ sym "]")

/-- Values joined by arithmetic. -/
def expressionRule : R :=
  Rule.sepBy1 (p .term) (sym "+" ||| sym "-" ||| sym "*" ||| sym "/")

/-! ## Declarations -/

/-- A property's name and the colon after it. -/
def declarationHead : R := nameOf .propertyName ++ .lexeme .colon propertyColon

/-- The mark that makes a declaration win over others. -/
def important : R := sym "!important"

/-- The values of a declaration, with or without commas between them. -/
def declarationBody : R :=
  p .expression ++ .many ((sym ",").opt ++ p .expression) ++ important.opt

/-- A property with its value and a semicolon. -/
def declarationRule : R := .node .declaration (declarationHead ++ declarationBody ++ semicolon)

/-- The last declaration of a block needs no semicolon. -/
def lastDeclarationRule : R :=
  .node .declaration (declarationHead ++ declarationBody) ++ Rule.ahead (sym "\x7d")

/-- A declaration without a value. -/
def emptyDeclaration : R :=
  .node .declaration (declarationHead ++
    .flawed .missing (.flush .value (fun _ i => some i)) ++ semicolon)

/-- The last declaration of a block, without a value. -/
def lastEmptyDeclaration : R :=
  .node .declaration (declarationHead ++ .flawed .missing (.flush .value (fun _ i => some i))) ++
    Rule.ahead (sym "\x7d")

/-- What makes up a value with stray text in it, once it has begun like a value. -/
def looseBody : R :=
  Rule.ahead (p .term ||| .lexeme .functionName wholeName ||| sym "(" ||| sym "[") ++
    strayText (Rule.many1 (anythingBut [";", "\x7b", "\x7d"]))

/-- A declaration with stray text in its value. -/
def looseDeclaration : R :=
  .node .declaration (declarationHead ++ looseBody ++ semicolon)

/-- The same at the end of a block, without a semicolon. -/
def lastLooseDeclaration : R :=
  .node .declaration (declarationHead ++ looseBody) ++ Rule.ahead (sym "\x7d")

/-! ## Selectors -/

/-- The name of a class, an identifier and the like. -/
def classNameRule : R := .lexeme .name className

/-- An attribute between brackets, alone or compared with a value. -/
def bracketed : R :=
  sym "[" ++ nameOf .name ++ (sym "|" ++ nameOf .name).opt ++
    ((sym "=" ||| sym "~=" ||| sym "^=" ||| sym "|=" ||| sym "*=" ||| sym "$=") ++
      p .expression).opt ++
    sym "]"

/-- One selector or several values between parentheses. -/
def argumentRule : R :=
  (p .selector ++ Rule.ahead (sym "," ||| sym ")")) ||| Rule.many1 (p .expression)

/-- Arguments in parentheses; the opening one stands right behind the name. -/
def argumentsRule : R :=
  .node .arguments (glued "(" ++ (Rule.sepBy1 (p .argument) (sym ",")).opt ++ sym ")")

/-- The colon of a pseudo class. -/
def pseudoMark : R := .lexeme .colon pseudoColon

/-- The same with no blank before it. -/
def gluedPseudoMark : R :=
  .many (.flush .remark remark) ++ .flush .colon pseudoColon

/-- What follows the colon of a pseudo class. -/
def pseudoClassBody : R := classNameRule ++ (p .arguments).opt

/-- What follows the colons of a pseudo element. -/
def pseudoElementBody : R :=
  .lexeme .doubleColon (Scan.text "::") ++ nameOf .name ++ (p .arguments).opt

/-- A selector with nothing to its left. -/
def primaryRule : R :=
  .node .pseudoElement pseudoElementBody |||
    .node .pseudoClass (pseudoMark ++ pseudoClassBody) |||
    .node .selector (sym "." ++ classNameRule) |||
    .node .selector (sym "#" ++ nameOf .name) |||
    .node .selector bracketed |||
    .lexeme .selector (Scan.text "*") |||
    .lexeme .selector (Scan.text "&") |||
    .lexeme .selector quoted |||
    nameOf .selector

/-- Remarks, and then a blank between two selectors. -/
def below : R :=
  .many (.flush .remark (Scan.andThen blanks remark)) ++ .flush .mark betweenSelectors

/-- The signs that relate two selectors. -/
def relation : R := sym ">" ||| sym "+" ||| sym "~" ||| sym "|"

/-- A selector grows to the right; each step holds all that stands before it. -/
def selectorRule : R :=
  Rule.chain
    (p .primary ||| .node .selector (relation ++ p .primary))
    (.grow .selector none (below ++ p .primary) |||
      .grow .pseudoElement none pseudoElementBody |||
      .grow .pseudoClass none (gluedPseudoMark ++ pseudoClassBody) |||
      .grow .selector none (sym "." ++ classNameRule) |||
      .grow .selector none (sym "#" ++ nameOf .name) |||
      .grow .selector none bracketed |||
      .grow .selector none (relation ++ p .primary))

/-- Selectors separated by commas. -/
def selectorsRule : R := .node .selectors (Rule.sepBy1 (p .selector) (sym ","))

/-! ## Rule sets -/

/-- Selectors and the block that they choose. -/
def ruleSetRule : R := .node .ruleSet (p .selectors ++ p .block)

/-- A rule set with stray text between its selectors and its block. -/
def trailedRuleSet : R :=
  .node .ruleSet (p .selectors ++ .absent (sym ",") ++
    strayText (Rule.many1 (anythingBut [";", "\x7b", "\x7d"])) ++ p .block)

/-- A rule set with stray text among its selectors. -/
def looseRuleSet : R :=
  .node .ruleSet
    (.node .selectors ((p .primary ||| relation ||| sym "." ||| sym "#" ||| sym "[" |||
        pseudoMark ||| sym "::") ++
      strayText (Rule.many1 (anythingBut [";", "\x7b", "\x7d"]))) ++
      p .block)

/-! ## At-rules -/

/-- Lexemes that could start a rule set or an at-rule. -/
def itemStart : R :=
  .lexeme .mark quoted ||| sym "." ||| sym "#" ||| sym "*" ||| sym "&" ||| sym "[" ||| relation |||
    sym "::" ||| sym "@"

/-- The keyword of an at-rule. -/
def keywordRule : R := .lexeme .keyword atKeyword

/-- The keyword of an at-rule whose prelude starts with a quoted text. -/
def quotingKeyword : R :=
  .lexeme .keyword (fun chars i =>
    (atKeyword chars i).filter (fun j =>
      ["@import", "@charset", "@namespace"].any (fun s => Scan.text s chars i == some j)))

/-- The keyword of an at-rule, where its prelude starts like one. -/
def atRuleHead : R := quotingKeyword ||| keywordRule ++ .absent itemStart

/-- The rest of an at-rule's prelude. -/
def prelude_ : R := .many (anythingBut [";", "\x7b", "\x7d"])

/-- An at-rule, up to a semicolon or with a block. -/
def atRuleRule : R :=
  .node .atRule (atRuleHead ++ prelude_ ++ (semicolon ||| p .block))

/-- An at-rule without an end. -/
def openAtRule : R := .node .atRule (atRuleHead ++ prelude_ ++ semicolonLeftOut)

/-- Inside a block an at-rule may also hold any values. -/
def innerAtRuleRule : R :=
  .node .atRule (keywordRule ++ .many (p .expression) ++ semicolon) ||| p .atRule

/-! ## Items and stray text -/

/-- What stands at the top of a stylesheet without stray text in it. -/
def tidyItemRule : R := p .declaration ||| p .ruleSet ||| p .atRule

/-- What stands in a block without stray text in it. -/
def tidyInnerItemRule : R :=
  p .declaration ||| p .lastDeclaration ||| p .ruleSet ||| p .innerAtRule

/-- What stands at the top of a stylesheet. -/
def itemRule : R :=
  p .tidyItem ||| emptyDeclaration ||| looseDeclaration ||| trailedRuleSet ||| looseRuleSet |||
    openAtRule

/-- What stands in a block. -/
def innerItemRule : R :=
  p .tidyInnerItem ||| emptyDeclaration ||| lastEmptyDeclaration ||| looseDeclaration |||
    lastLooseDeclaration ||| trailedRuleSet ||| looseRuleSet ||| openAtRule

/-- A stray lexeme that an item could start with; reading goes on right behind it. -/
def strayStart : R :=
  itemStart ||| .lexeme .mark wholeName

/-- Stray text from a lexeme that starts no item up to one that starts a tidy
    item. In it a name keeps what is glued to it. -/
def strayRun (stop : List String) (tidy : R) : R :=
  anythingBut stop ++
    .many (.absent tidy ++
      ((.lexeme .stray gluedWord) ||| anythingBut stop))

/-- Items at the top of the text begin by these rules in stray text: a glued
    word or a colon begins none. -/
def tidyBehindStray (tidy : R) : R :=
  .absent (.lexeme .mark gluedWord) ++ .absent (.lexeme .mark (Scan.text ":")) ++ tidy

/-- Stray text at the top of a stylesheet. -/
def strayItemRule : R :=
  strayText ((Rule.ahead strayStart ++ anythingBut []) |||
    strayRun [] (tidyBehindStray (p .tidyItem)))

/-- Stray text in a block. -/
def strayInnerRule : R :=
  strayText ((Rule.ahead strayStart ++ anythingBut ["\x7d"]) |||
    strayRun ["\x7d"] (tidyBehindStray (p .tidyInnerItem)))

/-- The end of a block; it may be left out at the end of the text. -/
def blockEnd : R :=
  sym "\x7d" ||| endOfText ++ .flawed .missing (.flush .mark (fun _ i => some i))

/-- Items in braces. -/
def blockRule : R :=
  .node .block (sym "\x7b" ++ .many (p .innerItem ||| p .strayInner) ++ blockEnd)

/-- A whole stylesheet. -/
def sheetRule : R := .node .sheet (.many (p .item ||| p .strayItem))

/-- The rule of each phrase. -/
def rules : Phrase → R
  | .sheet => sheetRule
  | .item => itemRule
  | .innerItem => innerItemRule
  | .tidyItem => tidyItemRule
  | .tidyInnerItem => tidyInnerItemRule
  | .block => blockRule
  | .ruleSet => ruleSetRule
  | .selectors => selectorsRule
  | .selector => selectorRule
  | .primary => primaryRule
  | .arguments => argumentsRule
  | .argument => argumentRule
  | .declaration => declarationRule
  | .lastDeclaration => lastDeclarationRule
  | .expression => expressionRule
  | .term => termRule
  | .atRule => atRuleRule
  | .innerAtRule => innerAtRuleRule
  | .strayItem => strayItemRule
  | .strayInner => strayInnerRule

end Grammar

/-- The grammar of stylesheets. -/
def grammar : Grammar Phrase Kind where
  rules := Grammar.rules
  isBlank := Text.isBlank
  remark := remark
  remarkKind := .remark

/-- The tree of a stylesheet, if it can be read. -/
def parse? (src : Source) : Option (ParseTree Kind) :=
  (grammar.read? src.chars .sheet).map Prod.fst

end WebBaseline.Stylesheet

/-
  WebBaseline.Script.Grammar.Functions

  Patterns, and what functions and classes are made of.
-/

import WebBaseline.Script.Grammar.Basic

namespace WebBaseline.Script.Grammar

open WebBaseline.Syntax

/-! ## Patterns -/

/-- What a declaration binds: a name, or a pattern of names. -/
def bindingTargetRule : R := nameRule ||| p .objectPattern ||| p .arrayPattern

/-- A pattern, or a place that can be assigned to. -/
def patternRule : R :=
  p .objectPattern ||| p .arrayPattern ||| .only isPlace (p .access)

/-- A pattern with what counts where nothing is given. -/
def patternElementRule : R :=
  spread (p .pattern) ||| (p .pattern ++ (p .initializer).opt)

/-- Patterns for the members of an object. -/
def objectPatternRule : R :=
  .node .pattern
    (sym "\x7b" ++
      looseList
        (spread (p .pattern) ||| (p .propertyName ++ sym ":" ++ p .patternElement) |||
          (nameRule ++ (p .initializer).opt)) ++
      sym "\x7d")

/-- Patterns for the members of a list. -/
def arrayPatternRule : R :=
  .node .pattern (sym "[" ++ looseList (p .patternElement) ++ sym "]")

/-! ## Functions and classes -/

/-- The name of a class, which is not one of the words that may follow it. -/
def className : R := .lexeme .identifier (wordBut ["extends", "implements"])

/-- A first value. -/
def initializerRule : R := op "=" ++ p .expression

/-- The parameters of a function and the type of its result. -/
def signatureRule : R :=
  (p .typeParameters).opt ++ p .parameters ++ (p .returnClause).opt

/-- Parameters in parentheses. -/
def parametersRule : R :=
  .node .arguments (sym "(" ++ (closedList (p .parameter)).opt ++ sym ")")

/-- A word in front of a parameter, when a parameter still follows. -/
def parameterModifier : R :=
  kwOf ["public", "private", "protected", "override", "readonly"] ++
    .ahead (nameRule ||| sym "\x7b" ||| sym "[" ||| sym "...")

/-- A parameter with its decorators, its type and its first value. -/
def parameterRule : R :=
  .many (p .decorator) ++ .many parameterModifier ++
    ((spread (p .pattern) ||| kw "this" ||| p .pattern) ++ question.opt ++
      (p .typeClause).opt ++ (p .initializer).opt)

/-- What a class extends and implements. -/
def heritageRule : R :=
  let base : R := p .access ++ (p .typeArguments).opt
  let contract : R := kw "implements" ++ Rule.sepBy1 (p .type) (sym ",")
  (kw "extends" ++ Rule.sepBy1 base (sym ",") ++ contract.opt) ||| contract

/-- The members of a class in braces. -/
def classBodyRule : R :=
  .node .classBody (sym "\x7b" ++ .many (p .classMember) ++ sym "\x7d")

/-- The name of a member: a word, a text, a number, or a value in square brackets. -/
def propertyNameRule : R :=
  plainProperty ||| privateProperty ||| quotedRule ||| numberRule |||
    (sym "[" ++ p .expression ++ sym "]")

/-- One of some words in front of a member's name, with more of the member behind it. -/
def mark (words : List String) : R :=
  kwOf words ++
    .ahead (plainProperty ||| privateProperty ||| quotedRule ||| numberRule ||| sym "[" ||| op "*")

/-- Who may use a member. -/
def accessMark : R := mark ["public", "private", "protected"]

/-- Words in front of the name of a member that holds a value. -/
def placeMarks : R :=
  accessMark.opt ++ (mark ["static"]).opt ++ (mark ["override"]).opt ++ (mark ["readonly"]).opt

/-- How a method is called: as a member with a value, or as a generator. -/
def methodKind : R := mark ["get", "set"] ||| op "*"

/-- Words in front of a method's name. -/
def modifiersRule : R := placeMarks ++ (mark ["async"]).opt ++ methodKind.opt

/-- Words in front of the name of a method that a subclass has to define. -/
def abstractMarks : R :=
  accessMark.opt ++ mark ["abstract"] ++ (mark ["override"]).opt ++ methodKind.opt

/-- Words in front of a field's name. -/
def fieldMarks : R :=
  (mark ["declare"]).opt ++ accessMark.opt ++ (mark ["declare"]).opt ++
    (mark ["accessor"] ||| (mark ["abstract"] ++ (mark ["readonly"]).opt) |||
      (mark ["readonly"] ++ mark ["abstract"]) |||
      ((mark ["static"]).opt ++ (mark ["override"]).opt ++ (mark ["readonly"]).opt))

/-- A method: words in front, a name, and a body. -/
def methodRule : R :=
  .node .function
    (p .modifiers ++ p .propertyName ++ (sym "?").opt ++ p .signature ++ p .block)

/-- The types of all members that a name does not stand for. -/
def indexSignature : R :=
  ((opOf ["+", "-"]).opt ++ kw "readonly").opt ++ sym "[" ++
    ((nameRule ++ kw "in" ++ p .type ++ (kw "as" ++ p .type).opt) |||
      (nameRule ++ sym ":" ++ p .type)) ++
    sym "]" ++ ((opOf ["+", "-"]).opt ++ (sym "?").opt ++ p .typeClause).opt

/-- A member of a class: a block, a method, a signature or a field. -/
def classMemberRule : R :=
  let ending : R := p .valueEnd ||| sym ","
  sym ";" |||
    .node .declaration (kw "static" ++ p .block ++ (sym ";").opt) |||
    .node .declaration (.many (p .decorator) ++ methodRule ++ (sym ";").opt) |||
    .node .declaration (indexSignature ++ ending) |||
    .node .declaration
      ((abstractMarks ||| p .modifiers) ++ p .propertyName ++ (sym "?").opt ++ p .signature ++
        ending) |||
    .node .declaration
      (.many (p .decorator) ++ fieldMarks ++ p .propertyName ++ (question ||| op "!").opt ++
        (p .typeClause).opt ++ (p .initializer).opt ++ ending)

/-- A decorator: a dotted name, perhaps called, or a value in parentheses. -/
def decoratorRule : R :=
  .node .decorator
    (sym "@" ++
      (p .group |||
        (identifierRule ++
          .many (.wrap .member .object (op "." ++ .named .property plainProperty)) ++
          (Rule.wrap .call .callee ((p .typeArguments).opt ++ p .arguments)).opt)))

end WebBaseline.Script.Grammar

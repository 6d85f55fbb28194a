/-
  WebBaseline.Script.Grammar.Types

  Types: names, unions and intersections, functions, members, and types that are
  computed from other ones.
-/

import WebBaseline.Script.Grammar.Functions

namespace WebBaseline.Script.Grammar

open WebBaseline.Syntax

/-! ## Types -/

/-- The type behind a colon. -/
def typeClauseRule : R := sym ":" ++ p .type

/-- The type of a result behind a colon. -/
def returnClauseRule : R := sym ":" ++ p .returnType

/-- The type of a result, or what a result tells about a parameter. -/
def returnTypeRule : R :=
  .node .type
      (kw "asserts" ++ onSameLine ++ nameRule ++ (kw "is" ++ p .type).opt) |||
    .node .type (nameRule ++ onSameLine ++ kw "is" ++ p .type) |||
    p .type

/-- A type, perhaps chosen by a condition on another one. -/
def typeRule : R :=
  .node .type
    (p .functionType |||
      (p .unionType ++
        (kw "extends" ++ p .type ++ question ++ p .type ++ sym ":" ++ p .type).opt))

/-- Types of which one has to fit. -/
def unionTypeRule : R := (op "|").opt ++ Rule.sepBy1 (p .intersectionType) (op "|")

/-- Types which all have to fit. -/
def intersectionTypeRule : R := (op "&").opt ++ Rule.sepBy1 (p .prefixedType) (op "&")

/-- A type with a word in front of it. -/
def prefixedTypeRule : R :=
  (kwOf ["keyof", "readonly"] ++ p .prefixedType) |||
    (kw "infer" ++ nameRule ++
      (kw "extends" ++ p .type ++ .absent question).opt) |||
    p .functionType ||| p .suffixedType

/-- The type of a function or of a constructor. -/
def functionTypeRule : R :=
  ((kw "abstract").opt ++ kw "new").opt ++ (p .typeParameters).opt ++ p .parameters ++ op "=>" ++
    p .returnType

/-- A type with square brackets behind it: a list, or a member of the type. -/
def suffixedTypeRule : R :=
  p .primaryType ++
    .many (onSameLine ++ sym "[" ++ (p .type).opt ++ sym "]")

/-- A type by its name, with arguments. -/
def typeNameRule : R :=
  Rule.sepBy1 (Rule.lexeme .token (wordBut ["typeof", "keyof", "new", "function", "class"]))
      (op ".") ++
    (onSameLine ++ p .typeArguments).opt

/-- A type that no other one is part of at its front. -/
def primaryTypeRule : R :=
  (sym "(" ++ p .type ++ sym ")") ||| (sym "?" ++ p .primaryType) ||| p .typeQuery |||
    p .templateType ||| quotedRule |||
    ((opOf ["-", "+"]).opt ++ numberRule) ||| p .objectType |||
    .node .type (sym "[" ++ (closedList (p .tupleMember)).opt ++ sym "]") |||
    (kw "unique" ++ kw "symbol") |||
    Rule.chain (.node .call (.named .callee (kw "import") ++ p .arguments))
        (.wrap .member .object (op "." ++ .named .property plainProperty)) ++
      (p .typeArguments).opt |||
    p .typeName ||| op "*"

/-- The type of a value. -/
def typeQueryRule : R :=
  kw "typeof" ++
    Rule.chain
      (.node .call (.named .callee (kw "import") ++ p .arguments) |||
        .lexeme .literal (word "this") ||| nameRule)
      (.wrap .member .object
          ((optionalAccess ||| op ".") ++ .named .property (plainProperty ||| privateProperty)) |||
        .wrap .subscript .object
          (sym "[" ++ (quotedRule ||| numberRule ||| nameRule) ++ sym "]") |||
        .wrap .call .callee (p .arguments)) ++
    (p .typeArguments).opt

/-- The types of members in braces. -/
def objectTypeRule : R :=
  let separator : R := sym ";" ||| sym "," ||| .test statementEnds
  .node .type
    (sym "\x7b" ++ (sym ";" ||| sym ",").opt ++
      .many (p .objectTypeMember ++ separator ++ .many (sym ";" ||| sym ",")) ++ sym "\x7d")

/-- The type of a member: a signature, or a name with a type. -/
def objectTypeMemberRule : R :=
  indexSignature |||
    (((kw "abstract").opt ++ kw "new").opt ++ p .signature) |||
    (p .modifiers ++ p .propertyName ++ (sym "?").opt ++ p .signature) |||
    (placeMarks ++ p .propertyName ++ (sym "?").opt ++ (p .typeClause).opt) |||
    p .exported

/-- A member of a list type of fixed length. -/
def tupleMemberRule : R :=
  (sym "...").opt ++
    ((nameRule ++ (sym "?").opt ++ sym ":" ++ p .type) ||| (p .type ++ (sym "?").opt))

/-- Types in angle brackets. -/
def typeArgumentsRule : R := .node .type (sym "<" ++ closedList (p .type) ++ sym ">")

/-- A name for a type, with its bound and what counts where nothing is given. -/
def typeParameterRule : R :=
  (kw "const" ++ .ahead nameRule).opt ++ nameRule ++
    ((kw "extends" ||| sym ":") ++ p .type).opt ++ (op "=" ++ p .type).opt

/-- Names for types in angle brackets. -/
def typeParametersRule : R := .node .type (sym "<" ++ closedList (p .typeParameter) ++ sym ">")

/-- A text with types in it. -/
def templateTypeRule : R :=
  .node .template
    (sym "`" ++
      .many (.flush .literal templateChars |||
        (.flush .token (Scan.text "$\x7b") ++ p .type ++ sym "\x7d")) ++
      .flush .token (Scan.text "`"))

end WebBaseline.Script.Grammar

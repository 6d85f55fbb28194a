/-
  WebBaseline.Script.Grammar.Values

  Values: terms joined by operators, chains of accesses, and what they start from.
-/

import WebBaseline.Script.Grammar.Functions

namespace WebBaseline.Script.Grammar

open WebBaseline.Syntax

/-! ## Values -/

/-- The operators between two values. -/
def binaryOperators : List String :=
  ["&&", "||", "??", ">>", ">>>", "<<", "&", "^", "|", "+", "-", "*", "/", "%", "**",
   "<", "<=", "==", "===", "!=", "!==", ">=", ">"]

/-- The operators that assign what they compute from the value that is there. -/
def updateOperators : List String :=
  ["+=", "-=", "*=", "/=", "%=", "^=", "&=", "|=", ">>=", ">>>=", "<<=", "**=", "&&=",
   "||=", "??="]

/-- Values separated by commas. -/
def expressionsRule : R := Rule.sepBy1 (p .expression) (sym ",")

/-- Operators behind a term, with the terms that they join to it. -/
def joinedTerms : R :=
  .many
    (((opOf binaryOperators ||| kwOf ["in", "instanceof"]) ++ p .term) |||
      (onSameLine ++ kwOf ["as", "satisfies"] ++ (kw "const" ||| p .type)))

/-- A choice between two values. A colon that could end the parameters of a
    function belongs to the choice, if it would be left without one. -/
def choiceRule : R :=
  (question ++ p .expression ++ sym ":" ++ p .expression) |||
    (question ++ (p .assignment ||| p .unary) ++ joinedTerms ++ sym ":" ++ p .expression)

/-- A value: terms joined by operators, with a choice between two values at the end. -/
def expressionRule : R := p .term ++ joinedTerms ++ choiceRule.opt

/-- A value that a generator hands out. -/
def yieldRule : R :=
  .node .operation
    (kw "yield" ++
      ((op "*" ++ p .expression) ||| (.absent (.test valueEnds) ++ p .expression) ||| .empty))

/-- A value without an operator behind it. -/
def termRule : R :=
  p .arrow ||| yieldRule ||| p .assignment ||| p .unary |||
    (privateProperty ++ .ahead (kw "in"))

/-- The parameters of a function and an arrow. -/
def arrowHead : R :=
  (kw "async" ++ onSameLine ++ identifierRule ++ op "=>") |||
    ((kw "async").opt ++ p .signature ++ op "=>") |||
    (identifierRule ++ op "=>")

/-- An assignment to a place or to a pattern of places. -/
def assignmentRule : R :=
  .node .operation
      ((kw "using").opt ++
        (.only isAssignable (p .access) ||| p .objectPattern ||| p .arrayPattern) ++
        op "=" ++ p .expression) |||
    .node .operation (.only isAssignable (p .access) ++ opOf updateOperators ++ p .expression)

/-- A value with what stands directly before it. -/
def unaryRule (d : Dialect) : R :=
  .node .operation
      ((opOf ["!", "~", "-", "+", "++", "--"] ||| kwOf ["typeof", "void", "delete", "await"]) ++
        p .term) |||
    (match d with
      | .typed => .node .operation (p .typeArguments ++ p .term) ||| p .access
      | .markup => p .access)

/-- The name after a dot. -/
def memberName : R := .named .property (plainProperty ||| privateProperty)

/-- Steps from a value to one of its members. -/
def memberSteps : R :=
  .wrap .member .object ((optionalAccess ||| op ".") ++ memberName) |||
    .wrap .subscript .object (optionalAccess.opt ++ sym "[" ++ p .expressions ++ sym "]") |||
    .wrap .present .object (onSameLine ++ op "!")

/-- What may follow type arguments that belong to a value. -/
def afterTypeArguments : R :=
  .ahead (sym ")" ||| sym "]" ||| sym "\x7d" ||| sym "," ||| sym ";" ||| sym ":" |||
    optionalAccess ||| .lexeme .token Scan.atEnd |||
    opOf ["==", "===", "!=", "!==", "&&", "||", "??", "."])

/-- Steps from a value on: to a member, a call, type arguments, or a count. -/
def accessSteps : R :=
  memberSteps |||
    .wrap .call .callee (p .arguments) |||
    .wrap .call .callee
      (optionalAccess ++ (p .typeArguments).opt ++ p .arguments) |||
    .wrap .call .callee (p .typeArguments ++ (p .arguments ||| p .template)) |||
    .wrap .call .callee (p .template) |||
    .wrap .operation .object (p .typeArguments ++ afterTypeArguments) |||
    .wrap .operation .object (onSameLine ++ opOf ["++", "--"])

/-- A value with any number of steps behind it. -/
def accessRule : R := Rule.chain (p .primary) accessSteps

/-- A function by its parameters and an arrow. One whose body is a block may have
    steps behind it. -/
def arrowRule : R :=
  Rule.chain (.node .function (arrowHead ++ p .block)) accessSteps |||
    .node .function (arrowHead ++ p .expression)

/-- A value that is written out. -/
def literalRule : R :=
  numberRule ||| quotedRule ||| .lexeme .literal regex ||| p .template ||| p .arrayLiteral |||
    p .objectLiteral |||
    .lexeme .literal (wordOf ["this", "super", "true", "false", "null"])

/-- What a module knows about itself, and a function about its call. -/
def metaProperty : R :=
  .node .literal
    ((kw "import" ++ op "." ++ kw "meta") ||| (kw "new" ++ op "." ++ kw "target"))

/-- What a chain of accesses starts from, constructions apart. -/
def plainPrimary : R :=
  p .group ||| p .functionExpression ||| p .classExpression ||| metaProperty ||| literalRule |||
    identifierRule ||| .lexeme .identifier bareNew ||| (kw "import" ++ .ahead (sym "(" ||| op "."))

/-- What a chain of accesses starts from. -/
def primaryRule (d : Dialect) : R :=
  match d with
  | .typed => p .construction ||| plainPrimary
  | .markup => p .construction ||| plainPrimary ||| p .element

/-- What a construction constructs: a value with accesses to members behind it,
    but no call. -/
def constructedRule : R :=
  Rule.chain
    (plainPrimary ||| (p .construction ++ (memberSteps ||| .wrap .call .callee (p .arguments))))
    (memberSteps ||| .wrap .call .callee (p .template))

/-- A construction. -/
def constructionRule : R :=
  metaProperty |||
    .node .construction
      (kw "new" ++ onSameLine ++ .named .constructed (p .constructed) ++ (p .typeArguments).opt ++
        (p .arguments).opt)

/-- Values in parentheses. -/
def groupRule : R :=
  .node .group
    (sym "(" ++
      ((p .expression ++ (p .typeClause).opt ++ sym ")") |||
        (p .expressions ++ sym ")")))

/-- An argument, or all members of a list as arguments. -/
def argumentRule : R := spread (p .expression) ||| p .expression

/-- Arguments in parentheses. -/
def argumentsRule : R :=
  .node .arguments (sym "(" ++ looseList (p .argument) ++ sym ")")

/-- Values in square brackets. -/
def arrayRule : R := .node .array (sym "[" ++ looseList (p .argument) ++ sym "]")

/-- A member of an object: a method, a name with a value, or a name alone. -/
def objectMemberRule : R :=
  spread (p .expression) ||| methodRule ||| (p .propertyName ++ sym ":" ++ p .expression) |||
    nameRule

/-- Members in braces. -/
def objectRule : R := .node .object (sym "\x7b" ++ looseList (p .objectMember) ++ sym "\x7d")

/-- A text with values in it. -/
def templateRule : R :=
  .node .template
    (sym "`" ++
      .many (.flush .literal templateChars |||
        (.flush .token (Scan.text "$\x7b") ++ p .expressions ++ sym "\x7d")) ++
      .flush .token (Scan.text "`"))

/-- A function as a value; its name may be left out. -/
def functionExpressionRule : R :=
  .node .function
    ((kw "async").opt ++ kw "function" ++ (op "*").opt ++ nameRule.opt ++ p .signature ++ p .block)

/-- A class as a value; its name may be left out. -/
def classExpressionRule : R :=
  .node .declaration
    (.many (p .decorator) ++ kw "class" ++ className.opt ++
      (p .typeParameters).opt ++ (p .heritage).opt ++ p .classBody)

end WebBaseline.Script.Grammar

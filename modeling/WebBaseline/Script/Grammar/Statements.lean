/-
  WebBaseline.Script.Grammar.Statements

  Statements, declarations, and what goes in and out of a script.
-/

import WebBaseline.Script.Grammar.Functions

namespace WebBaseline.Script.Grammar

open WebBaseline.Syntax

/-! ## Statements -/

/-- Statements in braces. -/
def blockRule : R :=
  .node .block
    (sym "\x7b" ++ .many (p .statement) ++ .many (Rule.lexeme .remark markupRemark) ++ sym "\x7d")

/-- A value as a statement. -/
def valueStatement : R := .node .statement (p .expressions ++ p .valueEnd)

/-- A statement of any kind; what starts none of them is a value. -/
def statementRule : R :=
  .many (Rule.lexeme .remark markupRemark) ++
    (p .block ||| .node .statement (sym ";") ||| p .exported ||| p .imported |||
      p .conditionalStatement ||| p .forLoop ||| p .whileLoop ||| p .doLoop |||
      p .switchStatement ||| p .tryStatement ||| p .jump ||| p .declaration |||
      (.absent (kwOf statementWords) ++ (p .labelled ||| valueStatement)))

/-- A statement that declares names. -/
def declarationRule : R :=
  .node .declaration
    (p .functionDeclaration ||| p .classDeclaration ||| p .enumeration ||| p .variables |||
      p .typeAlias ||| p .interfaceDeclaration ||| p .moduleBlock ||| p .ambient)

/-- A whole script, perhaps behind the line that names its interpreter. -/
def scriptRule : R :=
  .node .script
    ((Rule.flush .remark interpreterLine).opt ++ .many (p .statement) ++
      .many (Rule.lexeme .remark markupRemark) ++ .lexeme .token Scan.atEnd)

/-- `with` and the attributes of an imported file. -/
def importAttributes : R := kwOf ["with", "assert"] ++ p .objectLiteral

/-- The file that names come from. -/
def fromClause : R := kw "from" ++ quotedRule ++ importAttributes.opt

/-- A name in braces, and another name for it. -/
def aliasedName : R :=
  ((kwOf ["type", "typeof"] ++ (nameRule ||| quotedRule) ++
      (kw "as" ++ (nameRule ||| quotedRule)).opt ++ .ahead (sym "," ||| sym "\x7d")) |||
    ((nameRule ||| quotedRule) ++ (kw "as" ++ (nameRule ||| quotedRule)).opt))

/-- Names in braces. -/
def namedList : R := sym "\x7b" ++ (closedList aliasedName).opt ++ sym "\x7d"

/-- What an import brings in: everything under one name, names in braces, or a default. -/
def importClauseRule : R :=
  let namespaceName : R := op "*" ++ kw "as" ++ nameRule
  namespaceName ||| namedList ||| nameRule ++ (sym "," ++ (namespaceName ||| namedList)).opt

/-- An import of names from a file, of a file for its effects, or of a name by another one. -/
def importedRule : R :=
  .node .statement
    (kw "import" ++
      (((kwOf ["type", "typeof"]).opt ++ p .importClause ++ fromClause ++ p .statementEnd) |||
        (quotedRule ++ importAttributes.opt ++ p .statementEnd) |||
        ((kw "type").opt ++ nameRule ++ op "=" ++ kw "require" ++ sym "(" ++ quotedRule ++
          sym ")" ++ p .statementEnd) |||
        (p .importClause ++ fromClause ++ p .statementEnd) |||
        (nameRule ++ op "=" ++ Rule.sepBy1 nameRule (op ".") ++ p .statementEnd)))

/-- An export of names, of everything in a file, of a declaration, or of a value. -/
def exportedRule : R :=
  .node .statement
    (.many (p .decorator) ++ kw "export" ++
      ((op "*" ++ fromClause ++ p .statementEnd) |||
        ((kw "type").opt ++ op "*" ++ kw "as" ++ (nameRule ||| quotedRule) ++ fromClause ++
          p .statementEnd) |||
        ((kw "type").opt ++ op "*" ++ fromClause ++ p .statementEnd) |||
        ((kw "type").opt ++ namedList ++ fromClause.opt ++ p .statementEnd) |||
        (kw "default" ++ (p .declaration ||| (p .expression ++ p .valueEnd))) |||
        (op "=" ++ p .expression ++ p .valueEnd) |||
        (kw "as" ++ kw "namespace" ++ nameRule ++ p .statementEnd) |||
        p .imported ||| p .declaration))

/-- A name or pattern with its type and its first value. -/
def declaratorRule : R :=
  (nameRule ++ op "!" ++ p .typeClause) |||
    (p .bindingTarget ++ (p .typeClause).opt ++ (p .initializer).opt)

/-- Variables and constants. -/
def variablesRule : R :=
  kwOf ["var", "let", "const"] ++ Rule.sepBy1 (p .declarator) (sym ",") ++ p .valueEnd

/-- A function with a name. Its body may be left out where the function is only
    declared. -/
def functionDeclarationRule : R :=
  (kw "async").opt ++ kw "function" ++ (op "*").opt ++ nameRule ++ p .signature ++
    (p .block ||| p .statementEnd)

/-- A class with a name. -/
def classDeclarationRule : R :=
  .many (p .decorator) ++ (kw "abstract").opt ++ kw "class" ++ className ++
    (p .typeParameters).opt ++ (p .heritage).opt ++ p .classBody

/-- A name for a type. -/
def typeAliasRule : R :=
  kw "type" ++ onSameLine ++ nameRule ++ (p .typeParameters).opt ++ op "=" ++ p .type ++
    p .statementEnd

/-- An interface. -/
def interfaceRule : R :=
  kw "interface" ++ nameRule ++ (p .typeParameters).opt ++
    (kw "extends" ++ Rule.sepBy1 (p .type) (sym ",")).opt ++ p .objectType

/-- An enumeration. -/
def enumerationRule : R :=
  (kw "const").opt ++ kw "enum" ++ nameRule ++ sym "\x7b" ++
    (closedList (p .propertyName ++ (p .initializer).opt)).opt ++ sym "\x7d"

/-- A namespace, or a module by its name or file. -/
def moduleBlockRule : R :=
  kwOf ["namespace", "module"] ++ onSameLine ++
    (quotedRule ||| Rule.sepBy1 nameRule (op ".")) ++ (p .block ||| p .statementEnd)

/-- A declaration of what is defined elsewhere. -/
def ambientRule : R :=
  kw "declare" ++
    (p .declaration ||| kw "global" ++ p .block |||
      kw "module" ++ op "." ++ nameRule ++ sym ":" ++ p .type ++ p .statementEnd)

/-- A statement under a condition, and perhaps one for where it fails. -/
def conditionalRule : R :=
  .node .statement
    (kw "if" ++ p .group ++ p .statement ++ (kw "else" ++ p .statement).opt)

/-- A statement that repeats while a condition holds, or that runs inside an object. -/
def whileRule : R :=
  .node .statement
    ((kw "while" ++ p .group ++ p .statement) ||| (kw "with" ++ p .group ++ p .statement))

/-- A statement that repeats until a condition behind it fails. -/
def doRule : R :=
  .node .statement
    (kw "do" ++ p .statement ++ kw "while" ++ p .group ++ (p .statementEnd).opt)

/-- What is in the parentheses of a counting loop, or of one over the members of an object. -/
def forHeadRule : R :=
  ((((kw "var" ++ p .bindingTarget ++ (op "=" ++ p .term).opt) |||
      (kw "let" ++ .absent (kwOf ["in", "of"]) ++ p .bindingTarget) |||
      (kwOf ["const", "using"] ++ p .bindingTarget) |||
      p .pattern ||| p .group) ++ kwOf ["in", "of"] ++ p .expressions) |||
    ((p .variables ||| (p .expressions ++ sym ";") ||| sym ";") ++
      ((p .expressions ++ sym ";") ||| sym ";") ++ (p .expressions).opt))

/-- A counting loop, or one over the members of an object. -/
def forRule : R :=
  .node .statement
    (kw "for" ++ (kw "await").opt ++ sym "(" ++ p .forHead ++ sym ")" ++ p .statement)

/-- A choice among cases. -/
def switchRule : R :=
  .node .statement
    (kw "switch" ++ p .group ++ sym "\x7b" ++
      .many (((kw "case" ++ p .expressions) ||| kw "default") ++ sym ":" ++
        .many (.absent (kwOf ["case", "default"]) ++ p .statement)) ++
      sym "\x7d")

/-- A block with what happens where it fails, and in any case. -/
def tryRule : R :=
  .node .statement
    (kw "try" ++ p .block ++
      (kw "catch" ++ (sym "(" ++ p .bindingTarget ++ (p .typeClause).opt ++ sym ")").opt ++
        p .block).opt ++
      (kw "finally" ++ p .block).opt)

/-- Statements that leave a function, a loop or a block. -/
def jumpRule : R :=
  .node .statement
    ((kw "return" ++ (p .statementEnd ||| (p .expressions ++ p .valueEnd))) |||
      (kwOf ["break", "continue"] ++ (p .statementEnd ||| (nameRule ++ p .statementEnd))) |||
      (kw "throw" ++ p .expressions ++ p .valueEnd) |||
      (kw "debugger" ++ p .statementEnd))

/-- A statement with a label. -/
def labelledRule : R :=
  .node .statement (identifierRule ++ sym ":" ++ p .statement)

end WebBaseline.Script.Grammar

/-
  WebBaseline.Script.Grammar.Basic

  The dialects of scripts, the kinds of nodes in their trees, the phrases of the
  grammar, and lexemes as rules. The rules themselves follow by subject; each
  refers to others by the phrases that they stand for.
-/

import WebBaseline.Script.Lexeme

namespace WebBaseline.Script

open WebBaseline.Syntax

/-- What an angle bracket opens in front of a value. -/
inductive Dialect where
  /-- A type assertion. -/
  | typed
  /-- A tag. -/
  | markup
  deriving DecidableEq, Repr, Inhabited

/-- The kinds of nodes in a script's tree. -/
inductive Kind where
  | script
  | statement
  | block
  | declaration
  | identifier
  /-- The plain name of a property. -/
  | propertyName
  /-- The name of a private property. -/
  | privateName
  | member
  | subscript
  | call
  | construction
  | arguments
  /-- A value in parentheses. -/
  | group
  | literal
  | template
  | array
  | object
  /-- A pattern that takes a value apart. -/
  | pattern
  /-- A value taken to be present. -/
  | present
  | function
  | classBody
  | operation
  | type
  | tag
  | decorator
  | remark
  /-- Punctuators, fixed words and other lexemes. -/
  | token
  deriving DecidableEq, Repr, Inhabited

/-- The phrases of the grammar. -/
inductive Phrase where
  -- statements
  | script | statement | block | statementEnd | valueEnd | exported | imported | importClause
  | variables | declarator | functionDeclaration | classDeclaration | typeAlias
  | interfaceDeclaration | enumeration | moduleBlock | ambient | declaration
  | conditionalStatement | whileLoop | doLoop | forLoop | forHead | switchStatement | tryStatement
  | jump | labelled
  -- values
  | expressions | expression | term | arrow | assignment | unary | access
  | primary | construction | constructed | group | arguments | arrayLiteral | objectLiteral
  | objectMember | template | functionExpression | classExpression | argument
  -- patterns
  | pattern | objectPattern | arrayPattern | bindingTarget | patternElement
  -- functions and classes
  | signature | parameters | parameter | initializer
  | heritage | classBody | classMember | decorator | propertyName | modifiers
  -- types
  | typeClause | returnClause | returnType | type | unionType | intersectionType
  | prefixedType | suffixedType | primaryType | functionType | typeQuery | objectType
  | objectTypeMember | tupleMember | typeArguments | typeParameters | typeParameter | templateType
  | typeName
  -- tags
  | element | tagHead | tagName | attribute | tagContent | embedded
  deriving DecidableEq, Repr, Hashable

/-- Rules of the script grammar. -/
abbrev R := Rule Phrase Kind

namespace Grammar

/-! ## Lexemes as rules -/

/-- The rule of a phrase, by name. -/
def p (name : Phrase) : R := .phrase name

/-- A fixed text, even where a longer punctuator begins with it. -/
def sym (s : String) : R := .lexeme .token (Scan.text s)

/-- A punctuator, and not the beginning of a longer one. -/
def op (s : String) : R := .lexeme .token (punctuatorOf [s])

/-- One of these punctuators, and not the beginning of a longer one. -/
def opOf (ss : List String) : R := .lexeme .token (punctuatorOf ss)

/-- A fixed word. -/
def kw (s : String) : R := .lexeme .token (word s)

/-- One of these fixed words. -/
def kwOf (ss : List String) : R := .lexeme .token (wordOf ss)

/-- A name that is read as a value. -/
def identifierRule : R := .lexeme .identifier identifier

/-- Any word as a name that is bound here. -/
def nameRule : R := .lexeme .identifier anyWord

/-- Any word as the name of a property. -/
def plainProperty : R := .lexeme .propertyName anyWord

/-- A private property's name. -/
def privateProperty : R := .lexeme .privateName (Scan.andThen (Scan.text "#") anyWord)

/-- A number. -/
def numberRule : R := .lexeme .literal number

/-- A quoted text. -/
def quotedRule : R := .lexeme .literal quoted

/-- The question mark of a choice between two values. -/
def question : R := .lexeme .token questionMark

/-- The mark of an optional access. -/
def optionalAccess : R := .lexeme .token optionalDot

/-- A quoted text inside a tag. -/
def tagQuoted : R := .lexeme .literal markupQuoted

/-- Items separated by commas, each of which may be left out. -/
def looseList (item : R) : R := item.opt ++ Rule.many (sym "," ++ item.opt)

/-- Items separated by commas, with one more comma allowed at the end. -/
def closedList (item : R) : R := Rule.sepBy1 item (sym ",") ++ (sym ",").opt

/-- Nothing, where the next lexeme is on the same line. -/
def onSameLine : R := .test sameLine

/-- A semicolon, or a place where the statement ends without one. -/
def statementEndRule : R := sym ";" ||| .test statementEnds

/-- A semicolon, or a place where the statement ends without one, behind a value. -/
def valueEndRule : R := sym ";" ||| .test valueEnds

/-! ## Rules for many places -/

/-- Kinds of values that stand for a place. -/
def isPlace : Kind → Bool
  | .identifier | .member | .subscript | .present => true
  | _ => false

/-- Kinds of values that can be assigned to. -/
def isAssignable (k : Kind) : Bool := isPlace k || k == .group

/-- The members of something, in place of the thing. -/
def spread (r : R) : R := sym "..." ++ r

end Grammar

end WebBaseline.Script

/-
  WebBaseline.Stylesheet.Lexeme

  The lexemes of stylesheets: names, words, numbers, colours and quoted texts,
  remarks, and the two lexemes that depend on what comes later in the text,
  the blank between two selectors and the colon of a pseudo class.
-/

import WebBaseline.Syntax.Scan
import WebBaseline.Text.Blank
import WebBaseline.Text.Letters

namespace WebBaseline.Stylesheet

open WebBaseline.Syntax

/-! ## Blanks and remarks -/

/-- A remark to the end of the line. -/
def lineRemark : Scan :=
  Scan.andThen (Scan.text "//") (Scan.orNothing (Scan.run1 (· ≠ '\n')))

/-- A remark of either form. -/
def remark : Scan := Scan.either (Scan.delimited "/*" "*/") lineRemark

/-- Blanks, if there are any. -/
def blanks : Scan := Scan.orNothing (Scan.run1 Text.isBlank)

/-! ## Names and words -/

/-- Letters of the first 256 characters beyond ASCII. -/
def isLatin (c : Char) : Bool := '\u00a0' ≤ c && c ≤ '\u00ff'

/-- Characters that start a name. -/
def isNameStart (c : Char) : Bool := c.isAlpha || c == '_' || isLatin c

/-- Characters of names. -/
def isNameChar (c : Char) : Bool := c.isAlphanum || c == '-' || c == '_' || isLatin c

/-- A name. It may start with two hyphens, or with one and a letter. -/
def name : Scan :=
  Scan.andThen
    (Scan.either (Scan.text "--")
      (Scan.andThen (Scan.orNothing (Scan.text "-")) (Scan.one isNameStart)))
    (Scan.orNothing (Scan.run1 isNameChar))

/-- Characters that never belong to a word. -/
def endsWord (c : Char) : Bool :=
  Text.isBlank c || c == ',' || c == ';' || c == '!' || c == '\x7b' || c == '\x7d' ||
    c == '(' || c == ')' || c == '[' || c == ']'

/-- A slash inside a word: it does not open a remark, and the word goes on. -/
def slashPair : Scan :=
  Scan.andThen (Scan.text "/") (Scan.one (fun c => c != '*' && !endsWord c))

/-- The offset after as many repetitions of a reader as read something. -/
def repeated (scan : Scan) (chars : Array Char) : Nat → Nat → Nat
  | 0, i => i
  | fuel + 1, i =>
    match scan chars i with
    | some j => if i < j then repeated scan chars fuel j else i
    | none => i

/-- Any number of repetitions. -/
def many (scan : Scan) : Scan := fun chars i =>
  some (repeated scan chars (chars.size - i) i)

/-- What may stand before the first letter of a word. -/
def wordLead : Scan := Scan.either (Scan.one (fun c => c == '-' || c == '_')) slashPair

/-- What may follow the first letter of a word. -/
def wordRest : Scan := Scan.either slashPair (Scan.one (fun c => c != '/' && !endsWord c))

/-- A word that is no name: it has a letter, and punctuation inside. -/
def looseWord : Scan :=
  Scan.andThen (many wordLead) (Scan.andThen (Scan.one Char.isAlpha) (many wordRest))

/-- The longest name or word. -/
def word : Scan := Scan.longer name looseWord

/-- A word that starts with two slashes and is no remark. -/
def slashedWord : Scan := fun chars i =>
  match blanks chars i with
  | some j => if (Scan.text "//" chars j).isSome then looseWord chars j else none
  | none => none

/-- A name that no longer word starts with. -/
def wholeName : Scan := fun chars i =>
  match name chars i, looseWord chars i with
  | some j, some k => if j < k then none else some j
  | found, _ => found

/-- A word that is longer than the name it starts with. -/
def gluedWord : Scan := fun chars i =>
  match name chars i, looseWord chars i with
  | some j, some k => if j < k then some k else none
  | none, found => found
  | _, none => none

/-- An escaped character in a name. -/
def escape : Scan :=
  Scan.andThen (Scan.text "\\") (Scan.one (· ≠ '\n'))

/-- The name of a class, which may hold escapes. -/
def className : Scan :=
  Scan.andThen (Scan.either escape name) (many (Scan.either escape name))

/-- The keyword of an at-rule. -/
def atKeyword : Scan :=
  Scan.andThen (Scan.text "@") (Scan.run1 (fun c => c.isAlpha || c == '-' || c == '_'))

/-! ## Values -/

/-- The sign of a number, if there is one. -/
def sign : Scan := Scan.orNothing (Scan.one (fun c => c == '+' || c == '-'))

/-- Digits, at least one. -/
def digits : Scan := Scan.run1 Char.isDigit

/-- A fraction with its point. -/
def fraction : Scan := Scan.andThen (Scan.text ".") digits

/-- An exponent with its mark. -/
def exponent : Scan :=
  Scan.andThen (Scan.one (fun c => c == 'e' || c == 'E'))
    (Scan.andThen (Scan.orNothing (Scan.text "-")) digits)

/-- A unit right behind a number. -/
def unit : Scan := Scan.orNothing (Scan.run1 (fun c => c.isAlpha || c == '%'))

/-- A number with its unit. -/
def number : Scan :=
  Scan.andThen sign
    (Scan.andThen
      (Scan.either (Scan.andThen digits (Scan.orNothing fraction)) fraction)
      (Scan.andThen (Scan.orNothing exponent) unit))

/-- A hexadecimal digit. -/
def isHexDigit (c : Char) : Bool :=
  c.isDigit || ('a' ≤ c && c ≤ 'f') || ('A' ≤ c && c ≤ 'F')

/-- A colour of three to eight hexadecimal digits. -/
def colour : Scan := fun chars i =>
  match Scan.text "#" chars i with
  | some j =>
    let k := min (Scan.endOf chars isHexDigit j) (j + 8)
    if j + 3 ≤ k then some k else none
  | none => none

/-- A text between quotes, on one line; a backslash keeps what follows it. -/
def quotedBy (quote : Char) : Scan :=
  Scan.andThen (Scan.one (· == quote))
    (Scan.andThen
      (many (Scan.either (Scan.andThen (Scan.text "\\") (Scan.one (fun _ => true)))
        (Scan.one (fun c => c != quote && c != '\n' && c != '\\'))))
      (Scan.one (· == quote)))

/-- A quoted text. -/
def quoted : Scan := Scan.either (quotedBy '\x22') (quotedBy '\x27')

/-! ## Colons and blanks that look ahead -/

/-- Whether a block opens at or after `i` before a semicolon, a closing brace or
    the end of the text. -/
def blockAhead (chars : Array Char) : Nat → Nat → Bool
  | 0, _ => false
  | fuel + 1, i =>
    match chars[i]? with
    | none => false
    | some c =>
      if c == '\x7b' then true
      else if c == ';' || c == '\x7d' then false
      else blockAhead chars fuel (i + 1)

/-- Whether a block opens, the first character left out of account unless it
    ends the search. -/
def blockBehindFirst (chars : Array Char) (i : Nat) : Bool :=
  match chars[i]? with
  | none => false
  | some c =>
    if c == ';' || c == '\x7d' then false else blockAhead chars (chars.size - i) (i + 1)

/-- The colon of a pseudo class: it is not doubled, and a block opens later. -/
def pseudoColon : Scan := fun chars i =>
  if chars[i]? == some ':' && chars[i + 1]? != some ':' && blockBehindFirst chars (i + 1) then
    some (i + 1)
  else none

/-- Characters that start a selector after a blank. -/
def startsSelector (c : Char) : Bool :=
  c == '#' || c == '.' || c == '[' || c == '-' || c == '*' || c == '&' || Text.isAlphanumeric c

/-- Whether a colon at `i`, with a blank before it, starts a selector: no blank
    follows it, and a block opens later. -/
def colonStartsSelector (chars : Array Char) (i : Nat) : Bool :=
  match chars[i + 1]? with
  | none => false
  | some d => !Text.isBlank d && blockAhead chars (chars.size - i) (i + 1)

/-- The blank between a selector and one below it. -/
def betweenSelectors : Scan := fun chars i =>
  let j := Scan.endOf chars Text.isBlank i
  if j ≤ i then none
  else
    match chars[j]? with
    | none => none
    | some c =>
      if startsSelector c || (c == ':' && colonStartsSelector chars j) then some j else none

/-- The colon after a property's name: a single one that starts no selector. -/
def propertyColon : Scan := fun chars i =>
  if chars[i]? == some ':' && chars[i + 1]? != some ':' then
    let spaced := 0 < i && (chars[i - 1]?).any Text.isBlank
    let starts := if spaced then colonStartsSelector chars i else (pseudoColon chars i).isSome
    if starts then none else some (i + 1)
  else none

/-! ## Anything at all -/

/-- The lexeme that a text without order is cut into. -/
def anyLexeme : Scan :=
  Scan.either quoted (Scan.either atKeyword (Scan.either number (Scan.either word
    (Scan.one (fun c => !Text.isBlank c)))))

end WebBaseline.Stylesheet

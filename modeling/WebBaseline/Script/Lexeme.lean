/-
  WebBaseline.Script.Lexeme

  The lexemes of scripts: blanks and remarks, words, numbers, quoted texts,
  regular expressions, punctuators, and where a line end closes a statement.
-/

import WebBaseline.Syntax.Scan

namespace WebBaseline.Script

open WebBaseline.Syntax

/-! ## Blanks and remarks -/

/-- Characters that separate lexemes. -/
def isBlank (c : Char) : Bool :=
  c == ' ' || ('\t' ≤ c && c ≤ '\r') || c == '\u00a0' || c == '\u1680' ||
    ('\u2000' ≤ c && c ≤ '\u200b') || c == '\u2028' || c == '\u2029' || c == '\u202f' ||
    c == '\u205f' || c == '\u2060' || c == '\u3000' || c == '\ufeff'

/-- Characters that end a line for a one-line remark. -/
def isLineEnd (c : Char) : Bool :=
  c == '\n' || c == '\r' || c == '\u2028' || c == '\u2029'

/-- A remark from two slashes to the line's end. -/
def lineRemark : Scan :=
  Scan.andThen (Scan.text "//") (fun chars i => some (Scan.endOf chars (fun c => !isLineEnd c) i))

/-- A remark of either form. -/
def remark : Scan := Scan.either lineRemark (Scan.delimited "/*" "*/")

/-- A remark in the manner of markup, from its opening to the line's end. -/
def markupRemark : Scan :=
  Scan.andThen (Scan.either (Scan.text "<!--") (Scan.text "-->"))
    (fun chars i => some (Scan.endOf chars (fun c => !isLineEnd c) i))

/-- A first line that names an interpreter. -/
def interpreterLine : Scan :=
  Scan.andThen (Scan.text "#!")
    (fun chars i => some (Scan.endOf chars (fun c => c != '\n' && c != '\r') i))

/-! ## Words -/

/-- Punctuation that no word holds. -/
def isPunctuation (c : Char) : Bool :=
  ":;`\"'@#.,|^&<=>+-*/\\%?!~()[]\x7b\x7d".toList.contains c

/-- Characters that may begin a word. -/
def isWordHead (c : Char) : Bool :=
  !(c.toNat < 32 || isBlank c || c.isDigit || isPunctuation c)

/-- Characters that may continue a word. -/
def isWordTail (c : Char) : Bool := isWordHead c || c.isDigit

/-- Hexadecimal digits. -/
def isHex (c : Char) : Bool :=
  c.isDigit || ('a' ≤ c && c ≤ 'f') || ('A' ≤ c && c ≤ 'F')

/-- Exactly `n` characters of a class. -/
def exactly (cls : Char → Bool) : Nat → Scan
  | 0 => fun _ i => some i
  | n + 1 => Scan.andThen (Scan.one cls) (exactly cls n)

/-- Hexadecimal digits in braces. -/
def bracedHex : Scan :=
  Scan.andThen (Scan.text "\x7b") (Scan.andThen (Scan.run1 isHex) (Scan.text "\x7d"))

/-- A character given by its code inside a word. -/
def wordEscape : Scan :=
  Scan.andThen (Scan.text "\\u") (Scan.either (exactly isHex 4) bracedHex)

/-- The end of the word that continues at `i`. -/
def wordEnd (chars : Array Char) : Nat → Nat → Nat
  | 0, i => i
  | fuel + 1, i =>
    match Scan.either (Scan.one isWordTail) wordEscape chars i with
    | some j => wordEnd chars fuel j
    | none => i

/-- Any word. -/
def anyWord : Scan :=
  Scan.andThen (Scan.either (Scan.one isWordHead) wordEscape)
    (fun chars i => some (wordEnd chars (chars.size - i) i))

/-- Exactly this word, and not the beginning of a longer one. -/
def word (s : String) : Scan :=
  let cs := s.toList
  fun chars i =>
    match Scan.afterChars? chars cs i with
    | some j => if wordEnd chars 1 j == j then some j else none
    | none => none

/-- One of these words. -/
def wordOf (ws : List String) : Scan :=
  let css := ws.map String.toList
  fun chars i =>
    match anyWord chars i with
    | some j => if css.contains (chars.extract i j).toList then some j else none
    | none => none

/-- Any word but these. -/
def wordBut (ws : List String) : Scan :=
  let css := ws.map String.toList
  fun chars i =>
    match anyWord chars i with
    | some j => if css.contains (chars.extract i j).toList then none else some j
    | none => none

/-- Words that begin values of their own kind, and so never name one. -/
def valueWords : List String :=
  ["await", "class", "delete", "false", "function", "import", "new", "null", "super", "this",
   "true", "typeof", "using", "void", "yield"]

/-- Words that begin statements of their own kind. They may name values elsewhere. -/
def statementWords : List String :=
  ["abstract", "break", "const", "continue", "debugger", "do", "enum", "for", "if", "interface",
   "return", "switch", "throw", "try", "var", "while", "with"]

/-- A word that names a value. -/
def identifier : Scan := wordBut valueWords

/-- The word `new` where it names a value: nothing follows that could be constructed. -/
def bareNew : Scan := fun chars i =>
  match word "new" chars i with
  | none => none
  | some j =>
    let next := Scan.endOf chars (fun c => isBlank c && c != '\n') j
    match chars[next]? with
    | none => some j
    | some c => if "\n);,]\x7d=".toList.contains c then some j else none

/-! ## Numbers -/

/-- Digits of a class, with single low lines between them. -/
def digitsEnd (chars : Array Char) (cls : Char → Bool) : Nat → Nat → Nat
  | 0, i => i
  | fuel + 1, i =>
    match chars[i]? with
    | some c =>
      if cls c then digitsEnd chars cls fuel (i + 1)
      else if c == '_' && (chars[i + 1]?.any cls) then digitsEnd chars cls fuel (i + 2)
      else i
    | none => i

/-- One or more digits of a class, with single low lines between them. -/
def digits (cls : Char → Bool) : Scan :=
  Scan.andThen (Scan.one cls) (fun chars i => some (digitsEnd chars cls (chars.size - i) i))

/-- Decimal digits. -/
def decimalDigits : Scan := digits Char.isDigit

/-- A sign and digits after the mark of an exponent. -/
def exponentPart : Scan :=
  Scan.andThen (Scan.one (fun c => c == 'e' || c == 'E'))
    (Scan.andThen (Scan.orNothing (Scan.one (fun c => c == '+' || c == '-'))) decimalDigits)

/-- Digits after a marker such as `0x`, in either case. -/
def radixNumber (marker : Char) (cls : Char → Bool) : Scan :=
  Scan.andThen (Scan.text "0")
    (Scan.andThen (Scan.one (fun c => c.toLower == marker)) (digits cls))

/-- A number without a fraction, in any radix. -/
def wholeNumber : Scan :=
  Scan.either (radixNumber 'x' isHex)
    (Scan.either (radixNumber 'o' (fun c => '0' ≤ c && c ≤ '7'))
      (Scan.either (radixNumber 'b' (fun c => c == '0' || c == '1')) decimalDigits))

/-- A decimal number with a fraction or an exponent. -/
def fractionalNumber : Scan :=
  Scan.either
    (Scan.andThen decimalDigits
      (Scan.either
        (Scan.andThen (Scan.text ".")
          (Scan.andThen (Scan.orNothing decimalDigits) (Scan.orNothing exponentPart)))
        exponentPart))
    (Scan.andThen (Scan.text ".") (Scan.andThen decimalDigits (Scan.orNothing exponentPart)))

/-- Any number. -/
def number : Scan :=
  Scan.longer fractionalNumber (Scan.andThen wholeNumber (Scan.orNothing (Scan.text "n")))

/-! ## Quoted texts -/

/-- What may follow a backslash in a quoted text. -/
def escapeRest : Scan := fun chars i =>
  match chars[i]? with
  | none => none
  | some 'x' => exactly isHex 2 chars (i + 1)
  | some 'u' => Scan.either (exactly isHex 4) bracedHex chars (i + 1)
  | some '\r' => some (if chars[i + 1]? == some '\n' then i + 2 else i + 1)
  | some _ => some (i + 1)

/-- The rest of a quoted text up to its closing mark. -/
def quotedRest (close : Char) : Nat → Scan
  | 0, _, _ => none
  | fuel + 1, chars, i =>
    match chars[i]? with
    | none => none
    | some c =>
      if c == close then some (i + 1)
      else if c == '\\' then
        match escapeRest chars (i + 1) with
        | some j => quotedRest close fuel chars j
        | none => none
      else if c == '\n' || c == '\r' then none
      else quotedRest close fuel chars (i + 1)

/-- A text in single or double quotes, on one line. -/
def quoted : Scan := fun chars i =>
  match chars[i]? with
  | some '\x22' => quotedRest '\x22' (chars.size - i) chars (i + 1)
  | some '\x27' => quotedRest '\x27' (chars.size - i) chars (i + 1)
  | _ => none

/-- A text in quotes as markup writes it: no escapes, any number of lines. -/
def markupQuoted : Scan := Scan.either (Scan.delimited "\"" "\"") (Scan.delimited "'" "'")

/-- Text of a template up to its end or its next substitution. -/
def templateText : Nat → Scan
  | 0, _, i => some i
  | fuel + 1, chars, i =>
    match chars[i]? with
    | none => some i
    | some '\x60' => some i
    | some '\\' =>
      match escapeRest chars (i + 1) with
      | some j => templateText fuel chars j
      | none => none
    | some '$' =>
      if chars[i + 1]? == some '\x7b' then some i else templateText fuel chars (i + 1)
    | some _ => templateText fuel chars (i + 1)

/-- Characters of a template that stand for themselves. -/
def templateChars : Scan := fun chars i =>
  match templateText (chars.size + 1 - i) chars i with
  | some j => if i < j then some j else none
  | none => none

/-- The rest of a regular expression, inside or outside a bracketed class. -/
def regexRest : Nat → Bool → Scan
  | 0, _, _, _ => none
  | fuel + 1, inClass, chars, i =>
    match chars[i]? with
    | none => none
    | some '\n' => none
    | some '\\' =>
      match chars[i + 1]? with
      | none => none
      | some '\n' => none
      | some _ => regexRest fuel inClass chars (i + 2)
    | some '[' => regexRest fuel true chars (i + 1)
    | some ']' => regexRest fuel false chars (i + 1)
    | some '/' =>
      if inClass then regexRest fuel inClass chars (i + 1)
      else some (Scan.endOf chars (fun c => 'a' ≤ c && c ≤ 'z') (i + 1))
    | some _ => regexRest fuel inClass chars (i + 1)

/-- A regular expression with its flags. -/
def regex : Scan := fun chars i =>
  match chars[i]?, chars[i + 1]? with
  | some '/', some c =>
    if c == '/' || c == '*' then none else regexRest (chars.size - i) false chars (i + 1)
  | _, _ => none

/-! ## Punctuators -/

/-- All punctuators, longer ones before their beginnings. -/
def punctuators : List (List Char) :=
  [">>>=", "...", "===", "!==", "**=", "<<=", ">>=", ">>>", "&&=", "||=", "??=",
   "=>", "==", "!=", "<=", ">=", "&&", "||", "??", "?.", "++", "--", "+=", "-=", "*=", "/=",
   "%=", "&=", "|=", "^=", "<<", ">>", "**", "\x7b", "\x7d", "(", ")", "[", "]", ";", ",",
   "<", ">", "+", "-", "*", "/", "%", "&", "|", "^", "!", "~", "?", ":", "=", ".", "@",
   "#"].map String.toList

/-- The longest punctuator at an offset. -/
def punctuatorAt? (chars : Array Char) (i : Nat) : Option (List Char) :=
  punctuators.find? (fun p => (Scan.afterChars? chars p i).isSome)

/-- One of these punctuators, and not the beginning of a longer one. -/
def punctuatorOf (ps : List String) : Scan :=
  let css := ps.map String.toList
  fun chars i =>
    match punctuatorAt? chars i with
    | some p => if css.contains p then some (i + p.length) else none
    | none => none

/-- The question mark of a conditional: not doubled, and no optional access. A digit
    behind the dot makes the dot a number's. -/
def questionMark : Scan := fun chars i =>
  match chars[i]? with
  | some '?' =>
    match chars[i + 1]? with
    | some '?' => none
    | some '.' => if (chars[i + 2]?).any Char.isDigit then some (i + 1) else none
    | _ => some (i + 1)
  | _ => none

/-- The mark of an optional access. -/
def optionalDot : Scan := fun chars i =>
  match chars[i]?, chars[i + 1]? with
  | some '?', some '.' => if (chars[i + 2]?).any Char.isDigit then none else some (i + 2)
  | _, _ => none

/-! ## Line ends -/

/-- Skips blanks and remarks: where they end, and whether a line end was among them. -/
def skipGap (chars : Array Char) : Nat → Bool → Nat → Nat × Bool
  | 0, crossed, i => (i, crossed)
  | fuel + 1, crossed, i =>
    match chars[i]? with
    | none => (i, crossed)
    | some c =>
      if isBlank c then skipGap chars fuel (crossed || isLineEnd c) (i + 1)
      else
        match remark chars i with
        | some j =>
          let crossing := (chars.extract i j).any isLineEnd
          skipGap chars fuel (crossed || crossing) j
        | none => (i, crossed)

/-- Whether the next lexeme stands on the same line. -/
def sameLine (chars : Array Char) (i : Nat) : Bool :=
  !(skipGap chars (chars.size + 1 - i) false i).2

/-- The result of skipping remarks that directly follow a statement. -/
inductive Skipped where
  /-- A lone slash. -/
  | slash
  /-- A closed remark without a line end, and where it ended. -/
  | sameLine (next : Nat)
  /-- Something else came, and where. -/
  | passed (next : Nat)

/-- Skips a line remark's text. -/
def lineRemarkEnd (chars : Array Char) (i : Nat) : Nat :=
  Scan.endOf chars (fun c => c != '\n' && c != '\u2028' && c != '\u2029') i

/-- Skips blanks and remarks. With `wholly` unset, a closed remark that no slash
    follows stops the skipping; it counts as passed if it held a line end. -/
def skipRemarks (chars : Array Char) (wholly : Bool) : Nat → Bool → Nat → Skipped
  | 0, _, i => .passed i
  | fuel + 1, crossed, i =>
    let i := Scan.endOf chars isBlank i
    match chars[i]?, chars[i + 1]? with
    | some '/', some '/' => skipRemarks chars wholly fuel crossed (lineRemarkEnd chars (i + 2))
    | some '/', some '*' =>
      match Scan.delimited "/*" "*/" chars i with
      | none => .passed chars.size
      | some j =>
        let crossed := crossed || (chars.extract i j).any
          (fun c => c == '\n' || c == '\u2028' || c == '\u2029')
        if chars[j]? != some '/' && !wholly then
          if crossed then .passed j else .sameLine j
        else skipRemarks chars wholly fuel crossed j
    | some '/', _ => .slash
    | _, _ => .passed i

/-- Whether a statement may end before the lexeme at `i`, which begins a new line. -/
def mayBegin (chars : Array Char) (i : Nat) : Bool :=
  match chars[i]? with
  | none => true
  | some '+' => chars[i + 1]? == some '+'
  | some '-' => chars[i + 1]? == some '-'
  | some '!' => chars[i + 1]? != some '='
  | some 'i' =>
    if (word "in" chars i).isSome || (word "instanceof" chars i).isSome then false else true
  | some c => !("`,.;*%><=?^|&/:".toList.contains c)

/-- Whether a statement that has just been read ends at `i` without a semicolon:
    at the end of the text, before a closing brace, or at a line end whose next
    lexeme cannot continue it. A brace with a colon behind it ends only what a
    value stands last in; elsewhere it may close a pattern whose type follows. -/
def endsHere (chars : Array Char) (behindValue : Bool) : Nat → Nat → Bool
  | 0, _ => false
  | fuel + 1, i =>
    match chars[i]? with
    | none => true
    | some '\x7d' =>
      behindValue || chars[Scan.endOf chars isBlank (i + 1)]? != some ':'
    | some '\n' =>
      match skipRemarks chars true (chars.size + 1 - i) false (i + 1) with
      | .slash => false
      | .sameLine j => mayBegin chars j
      | .passed j => mayBegin chars j
    | some '/' =>
      match skipRemarks chars false (chars.size + 1 - i) false i with
      | .slash => false
      | .sameLine j => endsHere chars behindValue fuel j
      | .passed j =>
        if chars[j]? != some ',' && chars[j]? != some '=' then true
        else endsHere chars behindValue fuel j
    | some c => if isBlank c then endsHere chars behindValue fuel (i + 1) else false

/-- Whether a statement may end at an offset without a semicolon. -/
def statementEnds (chars : Array Char) (i : Nat) : Bool :=
  endsHere chars false (chars.size + 1 - i) i

/-- Whether a statement with a value last in it may end at an offset without a
    semicolon. -/
def valueEnds (chars : Array Char) (i : Nat) : Bool :=
  endsHere chars true (chars.size + 1 - i) i

/-! ## Markup in scripts -/

/-- Text between tags. -/
def markupText : Scan := Scan.run1 (fun c => !("<>\x7b\x7d&".toList.contains c))

/-- A character reference in text between tags. -/
def characterReference : Scan :=
  Scan.andThen (Scan.text "&")
    (Scan.andThen
      (Scan.either
        (Scan.andThen (Scan.text "#")
          (Scan.either
            (Scan.andThen (Scan.one (fun c => c == 'x' || c == 'X')) (Scan.run1 isHex))
            (Scan.run1 Char.isDigit)))
        (Scan.run1 Char.isAlpha))
      (Scan.orNothing (Scan.text ";")))

/-- A name in a tag: words joined by hyphens. -/
def markupName : Scan :=
  Scan.headed isWordHead (fun c => isWordTail c || c == '-')

end WebBaseline.Script

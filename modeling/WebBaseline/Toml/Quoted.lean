/-
  WebBaseline.Toml.Quoted

  Texts in quotes, in four styles: with escapes or taken literally, on one line
  or over several. A text is written in the first style that needs no escapes;
  if none does, with escapes.
-/

import WebBaseline.Numeric.Hex

namespace WebBaseline.Toml

open WebBaseline.Numeric (ofHex? upperHexDigit)

/-! ## Characters -/

/-- Whether a character can be written only with an escape: a control character
    other than a tab or the end of a line. -/
def isControl (c : Char) : Bool :=
  (c.toNat < 32 && c != '\t' && c != '\n') || c == '\x7f'

/-- Whether a character may stand in a text on one line as it is. -/
def isPlain (c : Char) : Bool := c == '\t' || (32 ≤ c.toNat && c != '\x7f')

/-! ## Styles -/

/-- The styles of texts in quotes. -/
inductive Style where
  | basic
  | literal
  | longBasic
  | longLiteral
  deriving DecidableEq, Repr, Inhabited

namespace Style

/-- Whether the text may go over several lines. -/
def isLong : Style → Bool
  | longBasic => true
  | longLiteral => true
  | _ => false

/-- The quotes around a text. -/
def quotes : Style → List Char
  | basic => ['\x22']
  | literal => ['\x27']
  | longBasic => ['\x22', '\x22', '\x22']
  | longLiteral => ['\x27', '\x27', '\x27']

end Style

/-- How often a character stands in a row, at most; `run` counts those before. -/
def longestRun (c : Char) (run : Nat) : List Char → Nat
  | [] => run
  | d :: ds => if d = c then longestRun c (run + 1) ds else max run (longestRun c 0 ds)

/-- The style in which a text is written. -/
def styleOf (cs : List Char) : Style :=
  let apostrophes := longestRun '\x27' 0 cs
  let quotes := longestRun '\x22' 0 cs
  let control := cs.any isControl
  let backslash := cs.contains '\\'
  let newline := cs.contains '\n'
  if !control && !backslash && quotes = 0 && !newline then .basic
  else if !control && apostrophes = 0 && !newline then .literal
  else if !control && !backslash && quotes ≤ 2 then .longBasic
  else if !control && apostrophes ≤ 2 then .longLiteral
  else if newline then .longBasic
  else .basic

/-! ## Writing -/

/-- A character other than a quote in a text with escapes. -/
def escapeChar (long : Bool) (c : Char) : List Char :=
  match c with
  | '\x08' => ['\\', 'b']
  | '\t' => ['\\', 't']
  | '\n' => if long then ['\n'] else ['\\', 'n']
  | '\x0c' => ['\\', 'f']
  | '\r' => ['\\', 'r']
  | '\\' => ['\\', '\\']
  | c =>
    if isControl c then
      ['\\', 'u', '0', '0', upperHexDigit (c.toNat / 16), upperHexDigit (c.toNat % 16)]
    else [c]

/-- How many quotes in a row need no escape. -/
def freeQuotes (long : Bool) : Nat := if long then 2 else 0

/-- A text with escapes; `run` counts the quotes right before it. -/
def escapeChars (long : Bool) (run : Nat) : List Char → List Char
  | [] => []
  | c :: cs =>
    if c = '\x22' then
      if freeQuotes long ≤ run then '\\' :: '\x22' :: escapeChars long 0 cs
      else '\x22' :: escapeChars long (run + 1) cs
    else escapeChar long c ++ escapeChars long 0 cs

/-- What stands between the quotes. -/
def body (style : Style) (cs : List Char) : List Char :=
  match style with
  | .basic => escapeChars false 0 cs
  | .longBasic => escapeChars true 0 cs
  | _ => cs

/-- A text in quotes. A text of several lines starts on a line of its own. -/
def quote (cs : List Char) : List Char :=
  let style := styleOf cs
  let start := if style.isLong && cs.contains '\n' then ['\n'] else []
  style.quotes ++ start ++ body style cs ++ style.quotes

/-! ## Reading -/

/-- The character of a one-letter escape. -/
def shortEscape? (c : Char) : Option Char :=
  match c with
  | 'b' => some '\x08'
  | 't' => some '\t'
  | 'n' => some '\n'
  | 'f' => some '\x0c'
  | 'r' => some '\r'
  | '\x22' => some '\x22'
  | '\\' => some '\\'
  | _ => none

/-- The character with a number given in hexadecimal, unless there is none. -/
def numbered? (digits : List Char) : Option Char :=
  (ofHex? digits).bind (fun n => if n.isValidChar then some (Char.ofNat n) else none)

/-- A character before what has been read further on. -/
def before (c : Char) (read : Option (List Char × List Char)) : Option (List Char × List Char) :=
  read.map (fun r => (c :: r.1, r.2))

/-- A text with escapes up to its closing quote, and what follows. -/
def basicBody : List Char → Option (List Char × List Char)
  | [] => none
  | '\x22' :: rest => some ([], rest)
  | '\\' :: 'u' :: a :: b :: c :: d :: rest =>
    (numbered? [a, b, c, d]).bind (fun x => before x (basicBody rest))
  | '\\' :: 'U' :: a :: b :: c :: d :: e :: f :: g :: h :: rest =>
    (numbered? [a, b, c, d, e, f, g, h]).bind (fun x => before x (basicBody rest))
  | '\\' :: c :: rest => (shortEscape? c).bind (fun x => before x (basicBody rest))
  | c :: rest => if isPlain c && c != '\\' then before c (basicBody rest) else none

/-- A literal text up to its closing quote, and what follows. -/
def literalBody : List Char → Option (List Char × List Char)
  | [] => none
  | '\x27' :: rest => some ([], rest)
  | c :: rest => if isPlain c then before c (literalBody rest) else none

/-- Up to two more quotes right behind three of them belong to the text. -/
def closing (q : Char) (rest : List Char) : List Char × List Char :=
  match rest with
  | a :: b :: more =>
    if a = q then if b = q then ([q, q], more) else ([q], b :: more) else ([], rest)
  | [a] => if a = q then ([q], []) else ([], rest)
  | [] => ([], [])

/-- What is being read of a long text with escapes. -/
inductive LongMode where
  | inText
  /-- After a backslash at the end of a line, before that end. -/
  | toLineEnd
  /-- After that end: blanks and further ends of lines do not count. -/
  | skipping
  deriving DecidableEq, Repr, Inhabited

/-- A long text with escapes up to its closing quotes, and what follows. -/
def longBasicBody : LongMode → List Char → Option (List Char × List Char)
  | _, [] => none
  | .toLineEnd, '\n' :: rest => longBasicBody .skipping rest
  | .toLineEnd, '\r' :: '\n' :: rest => longBasicBody .skipping rest
  | .toLineEnd, c :: rest => if c = ' ' ∨ c = '\t' then longBasicBody .toLineEnd rest else none
  | .skipping, '\n' :: rest => longBasicBody .skipping rest
  | .skipping, '\r' :: '\n' :: rest => longBasicBody .skipping rest
  | .skipping, ' ' :: rest => longBasicBody .skipping rest
  | .skipping, '\t' :: rest => longBasicBody .skipping rest
  | _, '\x22' :: '\x22' :: '\x22' :: rest => some (closing '\x22' rest)
  | _, '\n' :: rest => before '\n' (longBasicBody .inText rest)
  | _, '\r' :: '\n' :: rest => before '\n' (longBasicBody .inText rest)
  | _, '\\' :: 'u' :: a :: b :: c :: d :: rest =>
    (numbered? [a, b, c, d]).bind (fun x => before x (longBasicBody .inText rest))
  | _, '\\' :: 'U' :: a :: b :: c :: d :: e :: f :: g :: h :: rest =>
    (numbered? [a, b, c, d, e, f, g, h]).bind (fun x => before x (longBasicBody .inText rest))
  | _, '\\' :: c :: rest =>
    match shortEscape? c with
    | some x => before x (longBasicBody .inText rest)
    | none => longBasicBody .toLineEnd (c :: rest)
  | _, c :: rest => if isPlain c && c != '\\' then before c (longBasicBody .inText rest) else none

/-- A long literal text up to its closing quotes, and what follows. -/
def longLiteralBody : List Char → Option (List Char × List Char)
  | [] => none
  | '\x27' :: '\x27' :: '\x27' :: rest => some (closing '\x27' rest)
  | '\n' :: rest => before '\n' (longLiteralBody rest)
  | '\r' :: '\n' :: rest => before '\n' (longLiteralBody rest)
  | c :: rest => if isPlain c then before c (longLiteralBody rest) else none

/-- A text without the end of a line at its front. -/
def dropNewline : List Char → List Char
  | '\n' :: rest => rest
  | '\r' :: '\n' :: rest => rest
  | cs => cs

/-- A text in quotes on one line. -/
def shortQuoted? : List Char → Option (List Char × List Char)
  | '\x22' :: rest => basicBody rest
  | '\x27' :: rest => literalBody rest
  | _ => none

/-- A text in quotes. -/
def quoted? : List Char → Option (List Char × List Char)
  | '\x22' :: '\x22' :: '\x22' :: rest => longBasicBody .inText (dropNewline rest)
  | '\x27' :: '\x27' :: '\x27' :: rest => longLiteralBody (dropNewline rest)
  | cs => shortQuoted? cs

end WebBaseline.Toml

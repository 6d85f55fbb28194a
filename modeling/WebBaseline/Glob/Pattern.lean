/-
  WebBaseline.Glob.Pattern

  Path patterns: what they are made of and how they are read.

    * `?` stands for one byte and `*` for any number of them, slashes included;
    * `**` as a whole component stands for any number of components;
    * `[a-z]` and `[!a-z]` stand for one byte in or out of some ranges;
    * braces hold alternatives with commas between;
    * a backslash makes the next character stand for itself.
-/

namespace WebBaseline.Glob

/-- A part of a pattern. -/
inductive Token where
  | literal (c : Char)
  | any
  | star
  /-- Any number of components at the front. -/
  | deepFront
  /-- At least one component at the end. -/
  | deepEnd
  /-- A slash, or a slash and components up to another one. -/
  | deepBetween
  | oneOf (negated : Bool) (ranges : List (Char × Char))
  | either (branches : List (List Token))
  deriving Repr, Inhabited

/-! ## What can be wrong with a pattern -/

/-- Why a text is no pattern. -/
inductive Flaw where
  | unclosedClass
  | invalidRange (first last : Char)
  | unopenedGroup
  | unclosedGroup
  | danglingEscape
  deriving DecidableEq, Repr, Inhabited

namespace Flaw

/-- The words for a flaw. -/
def message : Flaw → String
  | unclosedClass => "unclosed character class; missing ']'"
  | invalidRange first last =>
    "invalid range; '" ++ first.toString ++ "' > '" ++ last.toString ++ "'"
  | unopenedGroup =>
    "unopened alternate group; missing '\x7b' (maybe escape '\x7d' with '[\x7d]'?)"
  | unclosedGroup =>
    "unclosed alternate group; missing '\x7d' (maybe escape '\x7b' with '[\x7b]'?)"
  | danglingEscape => "dangling '\\'"

end Flaw

/-! ## Signs -/

/-- The signs that a pattern is written with. A flaw is a sign too: it counts
    when reading comes to it. -/
inductive Sign where
  /-- A character that stands for itself. -/
  | char (c : Char)
  /-- The same after a backslash. -/
  | escaped (c : Char)
  | question
  | star
  | oneOf (negated : Bool) (ranges : List (Char × Char))
  | opening
  | comma
  | closing
  | flaw (f : Flaw)
  deriving DecidableEq, Repr, Inhabited

/-- What is being read. -/
inductive Mode where
  | plain
  /-- Right after a backslash. -/
  | escape
  /-- Right after an opening bracket. -/
  | classStart
  /-- Inside brackets: the ranges so far, the last one first, and whether a
      hyphen after the last one may still make it longer. -/
  | inClass (negated : Bool) (ranges : List (Char × Char)) (hyphen : Bool)
  deriving DecidableEq, Repr, Inhabited

/-- The ranges of a class, in order; a hyphen at the end stands for itself. -/
def finishRanges (ranges : List (Char × Char)) (hyphen : Bool) : List (Char × Char) :=
  (if hyphen then ('-', '-') :: ranges else ranges).reverse

/-- What a character inside brackets leads to: a further mode, or a sign with
    which the class is over. -/
def classStep (negated : Bool) (ranges : List (Char × Char)) (hyphen : Bool) (c : Char) :
    Except Sign Mode :=
  match ranges with
  | [] => .ok (.inClass negated [(c, c)] false)
  | (first, last) :: others =>
    if c = ']' then .error (.oneOf negated (finishRanges ((first, last) :: others) hyphen))
    else if hyphen then
      if c < first then .error (.flaw (.invalidRange first c))
      else .ok (.inClass negated ((first, c) :: others) false)
    else if c = '-' then .ok (.inClass negated ((first, last) :: others) true)
    else .ok (.inClass negated ((c, c) :: (first, last) :: others) false)

/-- The sign of a character outside brackets, or the mode that it starts. -/
def plainStep (c : Char) : Except Sign Mode :=
  match c with
  | '?' => .error .question
  | '*' => .error .star
  | '[' => .ok .classStart
  | '\x7b' => .error .opening
  | '\x7d' => .error .closing
  | ',' => .error .comma
  | '\\' => .ok .escape
  | c => .error (.char c)

/-- What a character leads to. -/
def Mode.step : Mode → Char → Except Sign Mode
  | plain, c => plainStep c
  | escape, c => .error (.escaped c)
  | classStart, c =>
    if c = '!' ∨ c = '^' then .ok (.inClass true [] false) else classStep false [] false c
  | inClass negated ranges hyphen, c => classStep negated ranges hyphen c

/-- What the end of the text leads to. -/
def Mode.finish : Mode → List Sign
  | plain => []
  | escape => [.flaw .danglingEscape]
  | classStart => [.flaw .unclosedClass]
  | inClass _ _ _ => [.flaw .unclosedClass]

/-- The signs of a text. -/
def signs : Mode → List Char → List Sign
  | mode, [] => mode.finish
  | mode, c :: cs =>
    match mode.step c with
    | .ok next => signs next cs
    | .error sign => sign :: signs .plain cs

namespace Sign

/-- The last character of a sign. -/
def lastChar : Sign → Char
  | char c => c
  | escaped c => c
  | question => '?'
  | star => '*'
  | oneOf _ _ => ']'
  | opening => '\x7b'
  | comma => ','
  | closing => '\x7d'
  | flaw _ => ' '

end Sign

/-! ## Reading -/

/-- A group that is being read. -/
structure Group where
  /-- What comes before the group, the last token first. -/
  before : List Token
  /-- The branches that are complete, the last one first. -/
  branches : List (List Token)

/-- How far reading has come. -/
structure Progress where
  /-- The character before the next sign. -/
  previous : Option Char := none
  /-- The groups that are open, the innermost first. -/
  groups : List Group := []
  /-- The tokens of the innermost branch, the last one first. -/
  tokens : List Token := []

namespace Progress

/-- One more token, read with a sign. -/
def push (p : Progress) (sign : Sign) (t : Token) : Progress :=
  { p with previous := some sign.lastChar, tokens := t :: p.tokens }

/-- What two stars are that are no component of their own. -/
def twoStars (p : Progress) : Progress := (p.push .star .star).push .star .star

/-- Two stars in place of the token before them, unless that is deep itself. -/
def deepen (p : Progress) (t : Token) (previous : Char) : Progress :=
  match p.tokens with
  | .deepFront :: _ => { p with previous := some previous }
  | .deepEnd :: _ => { p with previous := some previous }
  | _ :: before => { p with previous := some previous, tokens := t :: before }
  | [] => p

/-- Whether two stars here come after a slash, or first in a branch. -/
def atBoundary (p : Progress) : Bool :=
  p.previous == some '/' ||
    (!p.groups.isEmpty && (p.previous == some ',' || p.previous == some '\x7b'))

/-- The tokens with a complete group. -/
def close (p : Progress) (g : Group) (groups : List Group) : Progress :=
  { previous := some '\x7d'
    groups := groups
    tokens := .either (p.tokens.reverse :: g.branches).reverse :: g.before }

/-- A new branch of a group. -/
def branch (p : Progress) (g : Group) (groups : List Group) : Progress :=
  { previous := some ','
    groups := { g with branches := p.tokens.reverse :: g.branches } :: groups
    tokens := [] }

/-- A new group. -/
def enter (p : Progress) : Progress :=
  { previous := some '\x7b', groups := ⟨p.tokens, []⟩ :: p.groups, tokens := [] }

end Progress

/-- The tokens of signs. -/
def tokensOf (p : Progress) : List Sign → Except Flaw (List Token)
  | [] => if p.groups.isEmpty then .ok p.tokens.reverse else .error .unclosedGroup
  | .star :: .star :: .char '/' :: rest =>
    if p.tokens.isEmpty then tokensOf (p.push (.char '/') .deepFront) rest
    else if p.atBoundary then tokensOf (p.deepen .deepBetween '/') rest
    else tokensOf (p.twoStars.push (.char '/') (.literal '/')) rest
  | .star :: .star :: rest =>
    let ends :=
      match rest with
      | [] => true
      | .comma :: _ => !p.groups.isEmpty
      | .closing :: _ => !p.groups.isEmpty
      | _ => false
    if p.tokens.isEmpty then
      if rest.isEmpty then tokensOf (p.push .star .deepFront) rest else tokensOf p.twoStars rest
    else if p.atBoundary && ends then tokensOf (p.deepen .deepEnd '*') rest
    else tokensOf p.twoStars rest
  | sign :: rest =>
    match sign with
    | .char c => tokensOf (p.push sign (.literal c)) rest
    | .escaped c => tokensOf (p.push sign (.literal c)) rest
    | .question => tokensOf (p.push sign .any) rest
    | .star => tokensOf (p.push sign .star) rest
    | .oneOf negated ranges => tokensOf (p.push sign (.oneOf negated ranges)) rest
    | .opening => tokensOf p.enter rest
    | .comma =>
      match p.groups with
      | [] => tokensOf (p.push sign (.literal ',')) rest
      | g :: groups => tokensOf (p.branch g groups) rest
    | .closing =>
      match p.groups with
      | [] => .error .unopenedGroup
      | g :: groups => tokensOf (p.close g groups) rest
    | .flaw f => .error f

/-- The tokens of a pattern, or what is wrong with it. -/
def parse (pattern : String) : Except Flaw (List Token) :=
  tokensOf {} (signs .plain pattern.toList)

end WebBaseline.Glob

/-
  WebBaseline.Glob.Match

  Which paths a pattern matches. The tokens of a pattern become a shape of
  bytes; a path is matched byte by byte, keeping the shapes that may still
  follow.
-/

import WebBaseline.Glob.Pattern

namespace WebBaseline.Glob

/-! ## Sets of bytes -/

/-- A set of bytes. -/
structure ByteSet where
  negated : Bool
  ranges : List (UInt8 × UInt8)
  deriving DecidableEq, Repr, Inhabited

namespace ByteSet

/-- Every byte. -/
def all : ByteSet := ⟨true, []⟩

/-- A single byte. -/
def single (b : UInt8) : ByteSet := ⟨false, [(b, b)]⟩

/-- Whether a byte belongs to a set. -/
def has (s : ByteSet) (b : UInt8) : Bool :=
  s.ranges.any (fun r => r.1 ≤ b && b ≤ r.2) != s.negated

end ByteSet

/-! ## Shapes -/

/-- A shape of bytes. -/
inductive Shape where
  /-- No bytes. -/
  | empty
  /-- One byte. -/
  | one (set : ByteSet)
  /-- Any number of any bytes. -/
  | many
  | seq (first second : Shape)
  | alt (left right : Shape)
  deriving DecidableEq, Repr, Inhabited

namespace Shape

/-- One shape after another. -/
def append : Shape → Shape → Shape
  | empty, t => t
  | s, empty => s
  | s, t => seq s t

/-- Shapes in a row. -/
def join : List Shape → Shape
  | [] => empty
  | s :: ss => s.append (join ss)

/-- One of several shapes; without any, no bytes. -/
def choice : List Shape → Shape
  | [] => empty
  | [s] => s
  | s :: t :: ss => alt s (choice (t :: ss))

/-- A single byte. -/
def byte (b : UInt8) : Shape := one (ByteSet.single b)

/-- A slash. -/
def slash : Shape := byte 47

end Shape

/-- The bytes of a character. -/
def bytesOf (c : Char) : List UInt8 := c.toString.toUTF8.toList

/-- The byte ranges of a range of characters: the last byte of the first one up
    to the first byte of the last one, and each other byte alone. -/
def rangeBytes (first last : Char) : List (UInt8 × UInt8) :=
  if first = last then (bytesOf first).map (fun b => (b, b))
  else
    let low := (bytesOf first).reverse
    let high := bytesOf last
    low.tail.reverse.map (fun b => (b, b)) ++ [(low.headD 0, high.headD 0)] ++
      high.tail.map (fun b => (b, b))

mutual

/-- The shape of a token. Branches without bytes are left out of a group. -/
def Token.shape : Token → Shape
  | .literal c => Shape.join ((bytesOf c).map Shape.byte)
  | .any => .one ByteSet.all
  | .star => .many
  | .deepFront => .alt .empty (.seq .many Shape.slash)
  | .deepEnd => .seq Shape.slash .many
  | .deepBetween => .alt Shape.slash (.seq Shape.slash (.seq .many Shape.slash))
  | .oneOf negated ranges => .one ⟨negated, ranges.flatMap (fun r => rangeBytes r.1 r.2)⟩
  | .either branches => Shape.choice ((branchShapes branches).filter (· ≠ .empty))

/-- The shape of tokens in a row. -/
def shapeOf : List Token → Shape
  | [] => .empty
  | t :: ts => t.shape.append (shapeOf ts)

/-- The shapes of branches. -/
def branchShapes : List (List Token) → List Shape
  | [] => []
  | b :: bs => shapeOf b :: branchShapes bs

end

/-! ## Matching -/

namespace Shape

/-- Whether a shape holds for no bytes. -/
def skips : Shape → Bool
  | empty => true
  | one _ => false
  | many => true
  | seq s t => s.skips && t.skips
  | alt s t => s.skips || t.skips

/-- What may follow once a shape, with `next` after it, has taken a byte;
    `nextAfter` is what may follow once `next` alone has taken it. -/
def after (b : UInt8) (next : List Shape) (nextAfter : List (List Shape)) :
    Shape → List (List Shape)
  | empty => nextAfter
  | one set => if set.has b then [next] else []
  | many => (many :: next) :: nextAfter
  | seq s t => s.after b (t :: next) (t.after b next nextAfter)
  | alt s t => s.after b next nextAfter ++ t.after b next nextAfter

end Shape

/-- What may follow once shapes in a row have taken a byte. -/
def afterAll (b : UInt8) : List Shape → List (List Shape)
  | [] => []
  | s :: next => s.after b next (afterAll b next)

/-- Whether one of several rows of shapes takes the bytes. -/
def takes : List (List Shape) → List UInt8 → Bool
  | rows, [] => rows.any (fun row => row.all Shape.skips)
  | rows, b :: bs => takes (rows.flatMap (afterAll b)).eraseDups bs

/-! ## Patterns -/

/-- The character that a token stands for, if it is only that one. -/
def Token.char? : Token → Option Char
  | .literal c => some c
  | _ => none

/-- The characters that tokens spell out, if they do. -/
def spelled? (tokens : List Token) : Option (List Char) := tokens.mapM Token.char?

/-- Tokens without those at the front that stand for any number of components. -/
def withoutFront : List Token → List Token
  | .deepFront :: ts => ts
  | ts => ts

/-- Whether tokens spell out the end of a path by more than its last name, or by
    more than a dot after a star. -/
def spellsEnd (tokens : List Token) : Bool :=
  match tokens, withoutFront tokens with
  | _, .star :: ts => (spelled? ts).any (fun cs => cs != ['.'])
  | .deepFront :: _, ts => (spelled? ts).any (fun cs => cs.contains '/')
  | _, ts => (spelled? ts).isSome

/-- Whether a pattern looks for a last name that ends with a dot, which no path
    counts as having. -/
def wantsDotAtEnd (tokens : List Token) : Bool :=
  tokens.getLast?.bind Token.char? == some '.' && !spellsEnd tokens

/-- A pattern that can be matched. -/
structure Pattern where
  tokens : List Token
  deriving Repr, Inhabited

namespace Pattern

/-- The pattern of a text, or what is wrong with it. -/
def ofText (text : String) : Except Flaw Pattern :=
  (parse text).map Pattern.mk

/-- The shape of a pattern. Two stars alone take anything. -/
def shape (p : Pattern) : Shape :=
  match p.tokens with
  | [.deepFront] => .many
  | tokens => shapeOf tokens

/-- Whether a pattern matches a path. -/
def matchesPath (p : Pattern) (path : String) : Bool :=
  !wantsDotAtEnd p.tokens && takes [[p.shape]] path.toUTF8.toList

end Pattern

/-- Whether one of several patterns matches a path. -/
def anyMatches (patterns : List Pattern) (path : String) : Bool :=
  patterns.any (fun p => p.matchesPath path)

end WebBaseline.Glob

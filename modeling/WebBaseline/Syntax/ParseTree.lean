/-
  WebBaseline.Syntax.ParseTree

  Ordered syntax trees over any kind of node. A node covers a stretch of the
  source, may carry the part it plays in its parent, and may be marked as
  flawed where the text did not follow the grammar.
-/

import WebBaseline.Syntax.Source

namespace WebBaseline.Syntax

/-- The part a child plays in its parent, where the grammar names one. -/
inductive Part where
  /-- What a member access or subscript reads from. -/
  | object
  /-- The name a member access reads. -/
  | property
  /-- What a call calls. -/
  | callee
  /-- What a construction constructs. -/
  | constructed
  deriving DecidableEq, Repr, Inhabited

/-- Why a stretch of text is marked in the tree. -/
inductive Flaw where
  /-- Text that no rule accepts. -/
  | unexpected
  /-- A part that the rule asks for and the text leaves out. -/
  | missing
  deriving DecidableEq, Repr, Inhabited

/-- A syntax tree. Offsets count characters of the source. -/
inductive ParseTree (κ : Type) where
  | node (kind : κ) (part : Option Part) (flaw : Option Flaw) (start stop : Nat)
      (children : List (ParseTree κ))

namespace ParseTree

variable {κ : Type}

/-! ## Fields -/

/-- The kind of the root. -/
def kind : ParseTree κ → κ
  | node k .. => k

/-- The part that the tree plays in its parent. -/
def part : ParseTree κ → Option Part
  | node _ p .. => p

/-- The flaw marked at the root. -/
def flaw : ParseTree κ → Option Flaw
  | node _ _ f .. => f

/-- Where the tree starts. -/
def start : ParseTree κ → Nat
  | node _ _ _ s .. => s

/-- Where the tree ends. -/
def stop : ParseTree κ → Nat
  | node _ _ _ _ e _ => e

/-- The trees below the root. -/
def children : ParseTree κ → List (ParseTree κ)
  | node _ _ _ _ _ cs => cs

/-- A node without children. -/
def leaf (kind : κ) (start stop : Nat) : ParseTree κ :=
  node kind none none start stop []

/-- The same tree in the given part of its parent. -/
def asPart (p : Part) : ParseTree κ → ParseTree κ
  | node k _ f s e cs => node k (some p) f s e cs

/-- The same tree in a part of its parent, if one is named. -/
def inPart : Option Part → ParseTree κ → ParseTree κ
  | some p, t => t.asPart p
  | none, t => t

/-- The same tree with a flaw marked at its root. -/
def withFlaw (f : Flaw) : ParseTree κ → ParseTree κ
  | node k p _ s e cs => node k p (some f) s e cs

/-- The text that a node covers. -/
def text (src : Source) (t : ParseTree κ) : String :=
  src.slice t.start t.stop

/-- The place where a node starts. -/
def place (src : Source) (t : ParseTree κ) : Place :=
  src.place t.start

/-- The first child in the given part. -/
def child? (t : ParseTree κ) (p : Part) : Option (ParseTree κ) :=
  t.children.find? (fun c => c.part == some p)

/-- The first child of a kind that passes the test. -/
def childOf? (t : ParseTree κ) (accept : κ → Bool) : Option (ParseTree κ) :=
  t.children.find? (fun c => accept c.kind)

/-! ## Whole trees -/

mutual

/-- How many nodes the tree has. -/
def size : ParseTree κ → Nat
  | node _ _ _ _ _ cs => sizeAll cs + 1

/-- How many nodes the trees have together. -/
def sizeAll : List (ParseTree κ) → Nat
  | [] => 0
  | t :: ts => size t + sizeAll ts

end

mutual

/-- All nodes of the tree, each before its descendants, children in order. -/
def preorder : ParseTree κ → List (ParseTree κ)
  | node k p f s e cs => node k p f s e cs :: preorderAll cs

/-- All nodes of the trees, tree after tree. -/
def preorderAll : List (ParseTree κ) → List (ParseTree κ)
  | [] => []
  | t :: ts => preorder t ++ preorderAll ts

end

mutual

/-- Whether a flaw is marked anywhere in the tree. -/
def isFlawed : ParseTree κ → Bool
  | node _ _ f _ _ cs => f.isSome || isFlawedAny cs

/-- Whether a flaw is marked anywhere in the trees. -/
def isFlawedAny : List (ParseTree κ) → Bool
  | [] => false
  | t :: ts => isFlawed t || isFlawedAny ts

end

end ParseTree

end WebBaseline.Syntax

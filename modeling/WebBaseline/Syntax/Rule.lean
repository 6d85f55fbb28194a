/-
  WebBaseline.Syntax.Rule

  Grammars as data. A rule reads a stretch of characters and yields trees;
  a grammar names its rules and says what may stand between two lexemes.
  Choices are ordered: the second branch is read only where the first fails.
  Reading is memoised per phrase and offset, so it takes time in proportion
  to the text, and bounded by fuel, so it is total for every grammar.
-/

import Std.Data.HashMap
import WebBaseline.Syntax.ParseTree

namespace WebBaseline.Syntax

/-- Reads one lexeme at an offset: the offset after it, or nothing. -/
abbrev Scan := Array Char → Nat → Option Nat

/-- Rules over the phrase names `ν` that build nodes of kinds `κ`. -/
inductive Rule (ν κ : Type) where
  /-- Reads nothing. -/
  | empty
  /-- A lexeme, after whatever may stand between lexemes. -/
  | lexeme (kind : κ) (scan : Scan)
  /-- A lexeme that must begin right here. -/
  | flush (kind : κ) (scan : Scan)
  /-- Reads nothing where the test holds. -/
  | test (holds : Array Char → Nat → Bool)
  /-- The rule of a named phrase. -/
  | phrase (name : ν)
  | seq (first second : Rule ν κ)
  | alt (first second : Rule ν κ)
  /-- The rule as often as it reads something. -/
  | many (item : Rule ν κ)
  /-- Reads nothing where the rule fails. -/
  | absent (item : Rule ν κ)
  /-- A node around what the rule yields. -/
  | node (kind : κ) (body : Rule ν κ)
  /-- A node around the tree just read and what the rule yields after it. The
      tree just read may be given a part in it. -/
  | grow (kind : κ) (part : Option Part) (body : Rule ν κ)
  /-- Names the part that the yielded tree plays. -/
  | named (part : Part) (body : Rule ν κ)
  /-- Marks the yielded tree. -/
  | flawed (flaw : Flaw) (body : Rule ν κ)
  /-- The rule, where the yielded tree is of an accepted kind. -/
  | only (accept : κ → Bool) (body : Rule ν κ)

namespace Rule

variable {ν κ : Type}

instance : Append (Rule ν κ) := ⟨seq⟩
instance : OrOp (Rule ν κ) := ⟨alt⟩
instance : Coe ν (Rule ν κ) := ⟨phrase⟩

/-- A node around the tree just read, in the given part, and what the rule
    yields after it. -/
def wrap (kind : κ) (part : Part) (body : Rule ν κ) : Rule ν κ := grow kind (some part) body

/-- The rule or nothing. -/
def opt (r : Rule ν κ) : Rule ν κ := r ||| empty

/-- Reads nothing where the rule would read. -/
def ahead (r : Rule ν κ) : Rule ν κ := absent (absent r)

/-- The rule once or more. -/
def many1 (r : Rule ν κ) : Rule ν κ := r ++ many r

/-- The rule once or more, with a separator between. -/
def sepBy1 (r separator : Rule ν κ) : Rule ν κ := r ++ many (separator ++ r)

/-- A base, grown to the left by any number of steps. -/
def chain (base steps : Rule ν κ) : Rule ν κ := base ++ many steps

end Rule

/-- A grammar: the rule of each phrase and what stands between lexemes. -/
structure Grammar (ν κ : Type) where
  rules : ν → Rule ν κ
  /-- Characters that separate lexemes and mean nothing. -/
  isBlank : Char → Bool
  /-- A remark, which is kept in the tree but belongs to no rule. -/
  remark : Scan
  remarkKind : κ

/-- What reading came to: the offset reached and the trees, latest first. -/
abbrev Yield (κ : Type) := Option (Nat × List (ParseTree κ))

/-- The answers known so far, per phrase and offset. -/
abbrev Memo (ν κ : Type) [BEq ν] [Hashable ν] := Std.HashMap (ν × Nat) (Yield κ)

namespace Grammar

variable {ν κ : Type}

/-! ## Between lexemes -/

/-- Skips blanks and remarks, in at most `fuel` steps; remarks are yielded. -/
def gapFrom (g : Grammar ν κ) (chars : Array Char) :
    Nat → Nat → List (ParseTree κ) → Nat × List (ParseTree κ)
  | 0, i, acc => (i, acc)
  | fuel + 1, i, acc =>
    match chars[i]? with
    | none => (i, acc)
    | some c =>
      if g.isBlank c then gapFrom g chars fuel (i + 1) acc
      else
        match g.remark chars i with
        | none => (i, acc)
        | some j => gapFrom g chars fuel j (ParseTree.leaf g.remarkKind i j :: acc)

/-- Skips all blanks and remarks. -/
def gap (g : Grammar ν κ) (chars : Array Char) (i : Nat) (acc : List (ParseTree κ)) :
    Nat × List (ParseTree κ) :=
  g.gapFrom chars (chars.size + 1 - i) i acc

/-! ## Reading -/

/-- A node from `start` around trees that were read latest first. -/
def enclose (kind : κ) (start : Nat) (trees : List (ParseTree κ)) : ParseTree κ :=
  let stop := match trees with
    | [] => start
    | t :: _ => t.stop
  ParseTree.node kind none none start stop trees.reverse

/-- Reads a rule at an offset, with the trees read so far in the enclosing node. -/
def run [BEq ν] [Hashable ν] (g : Grammar ν κ) (chars : Array Char) :
    Nat → Rule ν κ → Nat → List (ParseTree κ) → Memo ν κ → Yield κ × Memo ν κ
  | 0, _, _, _, memo => (none, memo)
  | fuel + 1, rule, i, acc, memo =>
    match rule with
    | .empty => (some (i, acc), memo)
    | .lexeme kind scan =>
      let (j, acc) := g.gap chars i acc
      match scan chars j with
      | none => (none, memo)
      | some k => (some (k, ParseTree.leaf kind j k :: acc), memo)
    | .flush kind scan =>
      match scan chars i with
      | none => (none, memo)
      | some k => (some (k, ParseTree.leaf kind i k :: acc), memo)
    | .test holds => (if holds chars i then some (i, acc) else none, memo)
    | .phrase name =>
      match memo[(name, i)]? with
      | some (some (j, trees)) => (some (j, trees ++ acc), memo)
      | some none => (none, memo)
      | none =>
        let (answer, memo) := run g chars fuel (g.rules name) i [] memo
        let memo := memo.insert (name, i) answer
        match answer with
        | none => (none, memo)
        | some (j, trees) => (some (j, trees ++ acc), memo)
    | .seq first second =>
      match run g chars fuel first i acc memo with
      | (none, memo) => (none, memo)
      | (some (j, acc), memo) => run g chars fuel second j acc memo
    | .alt first second =>
      match run g chars fuel first i acc memo with
      | (none, memo) => run g chars fuel second i acc memo
      | found => found
    | .many item =>
      match run g chars fuel item i acc memo with
      | (none, memo) => (some (i, acc), memo)
      | (some (j, grown), memo) =>
        if j ≤ i then (some (i, acc), memo)
        else run g chars fuel (.many item) j grown memo
    | .absent item =>
      match run g chars fuel item i [] memo with
      | (none, memo) => (some (i, acc), memo)
      | (some _, memo) => (none, memo)
    | .node kind body =>
      let (start, acc) := g.gap chars i acc
      match run g chars fuel body start [] memo with
      | (none, memo) => (none, memo)
      | (some (j, trees), memo) => (some (j, enclose kind start trees :: acc), memo)
    | .grow kind part body =>
      match acc with
      | [] => (none, memo)
      | t :: acc =>
        match run g chars fuel body i [t.inPart part] memo with
        | (none, memo) => (none, memo)
        | (some (j, trees), memo) => (some (j, enclose kind t.start trees :: acc), memo)
    | .named part body =>
      match run g chars fuel body i [] memo with
      | (some (j, t :: trees), memo) => (some (j, t.asPart part :: (trees ++ acc)), memo)
      | (some (j, []), memo) => (some (j, acc), memo)
      | (none, memo) => (none, memo)
    | .flawed flaw body =>
      match run g chars fuel body i [] memo with
      | (some (j, t :: trees), memo) => (some (j, t.withFlaw flaw :: (trees ++ acc)), memo)
      | (some (j, []), memo) => (some (j, acc), memo)
      | (none, memo) => (none, memo)
    | .only accept body =>
      match run g chars fuel body i [] memo with
      | (some (j, t :: trees), memo) =>
        (if accept t.kind then some (j, t :: (trees ++ acc)) else none, memo)
      | (_, memo) => (none, memo)

/-- Fuel that no reading of a text of this length uses up: the calls nested
    inside one another between two characters read are far fewer. -/
def fuelFor (chars : Array Char) : Nat := 4096 * (chars.size + 2)

/-- Reads the whole phrase at the start of a text: its tree and the offset reached. -/
def read? [BEq ν] [Hashable ν] (g : Grammar ν κ) (chars : Array Char) (name : ν) :
    Option (ParseTree κ × Nat) :=
  match (g.run chars (fuelFor chars) (.phrase name) 0 [] ∅).1 with
  | some (j, t :: _) => some (t, j)
  | _ => none

end Grammar

end WebBaseline.Syntax

/-
  WebBaseline.Files.Path

  Paths as texts: their components, how they compare, how they grow, and the
  names and extensions of the files they lead to.
-/

namespace WebBaseline.Files

/-- One step of a path. -/
inductive Step where
  /-- To the root of all files. -/
  | root
  /-- To where one already is; counts at the front of a path only. -/
  | here
  /-- To the parent. -/
  | parent
  /-- To an entry of the directory. -/
  | name (s : String)
  deriving DecidableEq, Repr, Inhabited

namespace Step

/-- The place of a kind of step in the order of steps. -/
def rank : Step → Nat
  | root => 0
  | here => 1
  | parent => 2
  | name _ => 3

/-- Steps compare by kind, names among each other as texts. -/
def before (a b : Step) : Bool :=
  match a, b with
  | name s, name t => s < t
  | _, _ => a.rank < b.rank

end Step

/-- A path, as it is written. -/
abbrev Path := String

namespace Path

/-! ## Reading a path -/

/-- The pieces of a text between slashes. -/
def pieces (cs : List Char) : List (List Char) :=
  match cs with
  | [] => [[]]
  | '/' :: cs => [] :: pieces cs
  | c :: cs =>
    match pieces cs with
    | [] => [[c]]
    | p :: ps => (c :: p) :: ps

/-- The step that a piece stands for, away from the front of the path. Nothing
    and a single dot are no step. -/
def stepOf? (piece : List Char) : Option Step :=
  match piece with
  | [] => none
  | ['.'] => none
  | ['.', '.'] => some .parent
  | _ => some (.name (String.ofList piece))

/-- The steps of a path. -/
def steps (path : Path) : List Step :=
  match pieces path.toList with
  | [] => []
  | [[]] => []
  | [] :: rest => .root :: rest.filterMap stepOf?
  | ['.'] :: rest => .here :: rest.filterMap stepOf?
  | first :: rest => (first :: rest).filterMap stepOf?

/-- The name of the entry that a path leads to. -/
def fileName? (path : Path) : Option String :=
  match (steps path).getLast? with
  | some (.name s) => some s
  | _ => none

/-- A name taken apart at its last dot, unless the dot stands first. -/
def splitName (name : String) : String × Option String :=
  let cs := name.toList.reverse
  let after := cs.takeWhile (· ≠ '.')
  match cs.dropWhile (· ≠ '.') with
  | '.' :: c :: before =>
    (String.ofList (c :: before).reverse, some (String.ofList after.reverse))
  | _ => (name, none)

/-- What follows the last dot of the name that a path leads to. -/
def extension? (path : Path) : Option String :=
  (fileName? path).bind (fun name => (splitName name).2)

/-! ## Growing a path -/

/-- The entry `name` of the directory at a path. -/
def entry (path : Path) (name : String) : Path :=
  if path.isEmpty || path.endsWith "/" then path ++ name else path ++ "/" ++ name

/-! ## Taking a path apart -/

/-- The step of a piece at the front of a path; `more` tells whether the path
    goes on behind it. -/
def firstStep? (piece : List Char) (more : Bool) : Option Step :=
  match piece with
  | [] => if more then some .root else none
  | ['.'] => some .here
  | _ => stepOf? piece

/-- The pieces behind the given steps, if the pieces start with them. -/
def piecesBehind? : List Step → List (List Char) → Option (List (List Char))
  | [], ps => some ps
  | _ :: _, [] => none
  | s :: ss, p :: ps =>
    match stepOf? p with
    | none => piecesBehind? (s :: ss) ps
    | some t => if t = s then piecesBehind? ss ps else none

/-- The same at the front of a path. -/
def piecesBehindFirst? : List Step → List (List Char) → Option (List (List Char))
  | s :: ss, p :: ps =>
    match firstStep? p (!ps.isEmpty) with
    | none => piecesBehind? (s :: ss) ps
    | some t => if t = s then piecesBehind? ss ps else none
  | _, ps => some ps

/-- Whether a piece is no step. -/
def isIdle (piece : List Char) : Bool := (stepOf? piece).isNone

/-- Pieces as a text again. -/
def joinPieces : List (List Char) → List Char
  | [] => []
  | [p] => p
  | p :: ps => p ++ '/' :: joinPieces ps

/-- What is left of a path below another one, if it lies there. -/
def below? (base path : Path) : Option Path :=
  let baseSteps := steps base
  let rest := piecesBehindFirst? baseSteps (pieces path.toList)
  rest.map (fun ps =>
    let ps := if baseSteps.isEmpty then ps else ps.dropWhile isIdle
    String.ofList (joinPieces (ps.reverse.dropWhile isIdle).reverse))

/-- Pieces without those at their end that are no step. -/
def trimIdle (ps : List (List Char)) : List (List Char) := (ps.reverse.dropWhile isIdle).reverse

/-- Pieces without the last one that is a step, and what is idle around it. A dot
    at the front stays. -/
def piecesAbove (ps : List (List Char)) : List (List Char) :=
  match (trimIdle ps).dropLast with
  | ['.'] :: rest => ['.'] :: trimIdle rest
  | ps => trimIdle ps

/-- The path of the directory that a path lies in; empty, if it is a lone name.
    The top and the empty path lie in none. -/
def parent? (path : Path) : Option Path :=
  match steps path with
  | [] => none
  | [.root] => none
  | [.root, _] => some "/"
  | _ => some (String.ofList (joinPieces (piecesAbove (pieces path.toList))))

/-! ## Order -/

/-- Steps compare one by one; a path comes before what lies below it. -/
def stepsBefore : List Step → List Step → Bool
  | [], [] => false
  | [], _ :: _ => true
  | _ :: _, [] => false
  | a :: as, b :: bs => a.before b || (a == b && stepsBefore as bs)

/-- Whether one path comes before another. -/
def before (a b : Path) : Bool := stepsBefore (steps a) (steps b)

end Path

end WebBaseline.Files

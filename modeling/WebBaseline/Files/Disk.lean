/-
  WebBaseline.Files.Disk

  A tree of files with a working directory and a clock, and what can be done
  with the paths in it: finding, reading, writing, making directories, removing.
  Each operation either works or fails for one stated reason.
-/

import WebBaseline.Files.Tree

namespace WebBaseline.Files

/-! ## What can go wrong -/

/-- Why an operation on a path failed. -/
inductive Fault where
  | notFound
  /-- Something on the way is no directory. -/
  | notDirectory
  /-- A directory stands where a file is needed. -/
  | isDirectory
  | alreadyThere
  | nameTooLong
  | tooManyLinks
  /-- The bytes of the file are no UTF-8 text. -/
  | notText
  /-- The path holds a NUL character. -/
  | nulInName
  deriving DecidableEq, Repr, Inhabited

namespace Fault

/-- The words for a fault. -/
def message : Fault → String
  | notFound => "No such file or directory (os error 2)"
  | notDirectory => "Not a directory (os error 20)"
  | isDirectory => "Is a directory (os error 21)"
  | alreadyThere => "File exists (os error 17)"
  | nameTooLong => "File name too long (os error 36)"
  | tooManyLinks => "Too many levels of symbolic links (os error 40)"
  | notText => "stream did not contain valid UTF-8"
  | nulInName => "file name contained an unexpected NUL byte"

end Fault

/-! ## Finding the place of a path -/

/-- The longest name of an entry, in bytes. -/
def maxName : Nat := 255

/-- The longest path, in bytes. -/
def maxPath : Nat := 4095

/-- How many links may be followed on the way. -/
def maxLinks : Nat := 40

/-- The pieces of a path between slashes, as texts. -/
def Path.names (path : Path) : List String := (Path.pieces path.toList).map String.ofList

/-- Whether a path starts at the top. -/
def Path.isAbsolute (path : Path) : Bool := path.startsWith "/"

/-- Follows pieces from a place. What comes after a link is left to `onLink`.
    The last piece may name an entry that is not there yet; if it names a link
    that link is followed only if `follow` holds. -/
def walkPieces (top : Node) (follow : Bool)
    (onLink : Place → List String → Except Fault Place) :
    Place → List String → Except Fault Place
  | place, [] => .ok place
  | place, piece :: rest =>
    match top.at? place with
    | none => .error .notFound
    | some (.directory entries) =>
      if piece = "" ∨ piece = "." then walkPieces top follow onLink place rest
      else if piece = ".." then walkPieces top follow onLink place.dropLast rest
      else if maxName < piece.utf8ByteSize then .error .nameTooLong
      else
        match entries.lookup piece with
        | none => if rest.isEmpty then .ok (place ++ [piece]) else .error .notFound
        | some (.link target) =>
          if rest.isEmpty && !follow then .ok (place ++ [piece])
          else onLink (if Path.isAbsolute target then [] else place) (Path.names target ++ rest)
        | some _ => walkPieces top follow onLink (place ++ [piece]) rest
    | some _ => .error .notDirectory

/-- Follows pieces from a place through a limited number of links. -/
def walk (top : Node) (follow : Bool) : Nat → Place → List String → Except Fault Place
  | 0 => walkPieces top follow (fun _ _ => .error .tooManyLinks)
  | n + 1 => walkPieces top follow (walk top follow n)

/-! ## Disks -/

/-- A tree of files with a working directory and a clock. -/
structure Disk where
  top : Node
  /-- The working directory. -/
  here : Place := []
  /-- The time, in nanoseconds. -/
  now : Nat := 0
  deriving Inhabited

namespace Disk

/-- Where the pieces of a path lead from. -/
def start (d : Disk) (names : List String) : Place :=
  match names with
  | "" :: _ :: _ => []
  | _ => d.here

/-- The place of the pieces of a path. -/
def placeOf (d : Disk) (follow : Bool) (names : List String) : Except Fault Place :=
  walk d.top follow maxLinks (d.start names) names

/-- The pieces of a path that can be looked up at all. -/
def namesOf (path : Path) : Except Fault (List String) :=
  if path.toList.contains '\x00' then .error .nulInName
  else if path.isEmpty then .error .notFound
  else if maxPath < path.utf8ByteSize then .error .nameTooLong
  else .ok (Path.names path)

/-- The place of a path. -/
def place (d : Disk) (follow : Bool) (path : Path) : Except Fault Place :=
  (namesOf path).bind (d.placeOf follow)

/-- What is at a place. -/
def nodeAt (d : Disk) (p : Place) : Except Fault Node :=
  match d.top.at? p with
  | some n => .ok n
  | none => .error .notFound

/-- What a path leads to, links followed. -/
def node (d : Disk) (path : Path) : Except Fault Node :=
  (d.place true path).bind d.nodeAt

/-- Whether a path leads to anything. -/
def has (d : Disk) (path : Path) : Bool := (d.node path).toOption.isSome

/-- Whether a path leads to a file. -/
def hasFile (d : Disk) (path : Path) : Bool := (d.node path).toOption.any Node.isFile

/-! ## Reading -/

/-- The bytes of a file. -/
def readBytes (d : Disk) (path : Path) : Except Fault ByteArray := do
  match ← d.node path with
  | .file content _ => .ok content
  | .directory _ => .error .isDirectory
  | .link _ => .error .tooManyLinks

/-- Bytes as a text. -/
def textOf (bytes : ByteArray) : Except Fault String :=
  match String.fromUTF8? bytes with
  | some text => .ok text
  | none => .error .notText

/-- The text of a file. -/
def readText (d : Disk) (path : Path) : Except Fault String := (d.readBytes path).bind textOf

/-- The entries of a directory. -/
def list (d : Disk) (path : Path) : Except Fault (List (String × Node)) := do
  match ← d.node path with
  | .directory entries => .ok entries
  | _ => .error .notDirectory

/-! ## Writing -/

/-- The disk with a new entry at a place, or without one. -/
def change (d : Disk) (p : Place) (new : Option Node) : Disk :=
  { d with top := Node.change new p d.top }

/-- The disk with a file at a place, written now. -/
def put (d : Disk) (p : Place) (content : ByteArray) : Disk :=
  d.change p (some (.file content d.now))

/-- Writes a file, in place of an older one. Its directory must be there. -/
def write (d : Disk) (path : Path) (content : ByteArray) : Except Fault Disk := do
  let names ← namesOf path
  match names.reverse.dropWhile (· = "") with
  | _ :: before =>
    if names.getLast? = some "" then
      let _ ← d.placeOf true before.reverse
      .error .isDirectory
    else
      let p ← d.placeOf true names
      match d.top.at? p with
      | some (.directory _) => .error .isDirectory
      | _ => .ok (d.put p content)
  | [] => .error .isDirectory

/-- Makes a directory at the pieces of a path. -/
def makeDirectoryAt (d : Disk) (names : List String) : Except Fault Disk := do
  let p ← d.placeOf false (names.reverse.dropWhile (· = "")).reverse
  match d.top.at? p with
  | some _ => .error .alreadyThere
  | none => .ok (d.change p (some (.directory [])))

/-- Whether the pieces of a path lead to a directory. -/
def hasDirectoryAt (d : Disk) (names : List String) : Bool :=
  ((d.placeOf true names).bind d.nodeAt).toOption.any Node.isDirectory

/-- The fault that kept a directory from being made, unless it is there. -/
def orDirectoryAt (d : Disk) (names : List String) (fault : Fault) : Except Fault Unit :=
  if d.hasDirectoryAt names then .ok () else .error fault

/-- Makes the first directory of a list, and before it those behind it as far
    as they are needed. What was made before a fault stays. -/
def tryDirectoriesAt (d : Disk) : List (List String) → Except Fault Unit × Disk
  | [] => (.ok (), d)
  | names :: above =>
    match d.makeDirectoryAt names with
    | .ok d => (.ok (), d)
    | .error .notFound =>
      match d.tryDirectoriesAt above with
      | (.error fault, d) => (.error fault, d)
      | (.ok (), d) =>
        match d.makeDirectoryAt names with
        | .ok d => (.ok (), d)
        | .error fault => (d.orDirectoryAt names fault, d)
    | .error fault => (d.orDirectoryAt names fault, d)

/-- The pieces of the directory that a path lies in, of the one around it, and
    so on; the pieces of the path come in reverse. -/
def lineage : List String → List (List String)
  | [] => []
  | name :: before =>
    if name = "" ∨ name = "." then lineage before
    else (name :: before).reverse :: lineage before

/-- Makes a directory, and those around it that are missing; tells what went
    wrong, if anything did. -/
def tryDirectories (d : Disk) (path : Path) : Except Fault Unit × Disk :=
  if path.isEmpty then (.ok (), d)
  else
    match namesOf path with
    | .error fault => (.error fault, d)
    | .ok names => d.tryDirectoriesAt (names :: (lineage names.reverse).tail)

/-- The disk with a directory and those around it. -/
def makeDirectories (d : Disk) (path : Path) : Except Fault Disk :=
  let (made, d) := d.tryDirectories path
  made.map (fun _ => d)

/-- Removes a file or a link. -/
def removeFile (d : Disk) (path : Path) : Except Fault Disk := do
  let p ← d.place false path
  match ← d.nodeAt p with
  | .directory _ => .error .isDirectory
  | _ => .ok (d.change p none)

end Disk

end WebBaseline.Files

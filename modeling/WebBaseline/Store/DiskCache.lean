/-
  WebBaseline.Store.DiskCache

  Values kept as JSON files in one directory, one file for each key. A file
  counts until it is older than the time to live; then it is removed when it is
  next looked up.
-/

import WebBaseline.Files.Disk
import WebBaseline.Json.Parser
import WebBaseline.Json.Printer
import WebBaseline.Text.Letters

namespace WebBaseline.Store

open WebBaseline.Files (Disk Fault Node Path)
open WebBaseline.Json (Value)

/-- A directory with values, and how long they count, in seconds. -/
structure DiskCache where
  dir : Path
  ttl : UInt64
  deriving DecidableEq, Repr, Inhabited

namespace DiskCache

/-- How long values count by default, in hours. -/
def defaultHours : UInt64 := 24

/-- Some hours in seconds. -/
def ofHours (hours : UInt64) : UInt64 := hours * 3600

/-- The cache in a directory, with the default time to live. -/
def inDir (dir : Path) : DiskCache := { dir := dir, ttl := ofHours defaultHours }

/-! ## File names -/

/-- The ending of the files that hold values. -/
def ending : String := "json"

/-- Whether a character of a key stands in a file name as it is. -/
def isSafe (c : Char) : Bool := Text.isAlphanumeric c || c == '-' || c == '_'

/-- A key in the characters that may stand in a file name. -/
def safeName (key : String) : String :=
  String.ofList (key.toList.map (fun c => if isSafe c then c else '_'))

/-- The file of a key. -/
def fileName (key : String) : String := safeName key ++ "." ++ ending

/-- The path of the file of a key. -/
def path (c : DiskCache) (key : String) : Path := Path.entry c.dir (fileName key)

/-! ## Reading -/

/-- Whether something written at one time no longer counts at another, both in
    nanoseconds. -/
def isExpired (c : DiskCache) (written now : Nat) : Bool :=
  c.ttl.toNat * 1000000000 < now - written

/-- The value in bytes, if they hold JSON text that `read` accepts. -/
def valueOf? {α : Type} (read : Value → Option α) (content : ByteArray) : Option α :=
  (String.fromUTF8? content).bind (fun text => (Json.parse text).bind read)

/-- The value under a key; an expired one is removed. -/
def get {α : Type} (c : DiskCache) (read : Value → Option α) (key : String) (d : Disk) :
    Option α × Disk :=
  match d.node (c.path key) with
  | .ok (.file content written) =>
    if c.isExpired written d.now then (none, (d.removeFile (c.path key)).toOption.getD d)
    else (valueOf? read content, d)
  | _ => (none, d)

/-! ## Writing -/

/-- The disk with the directory of the cache. -/
def withDirectory (c : DiskCache) (d : Disk) : Except Fault Unit × Disk :=
  if d.has c.dir then (.ok (), d) else d.tryDirectories c.dir

/-- Writes a value under a key, and tells what went wrong, if anything did. -/
def set (c : DiskCache) (key : String) (value : Value) (d : Disk) : Except Fault Unit × Disk :=
  match c.withDirectory d with
  | (.error fault, d) => (.error fault, d)
  | (.ok (), d) =>
    match d.write (c.path key) value.compact.toUTF8 with
    | .error fault => (.error fault, d)
    | .ok d => (.ok (), d)

/-! ## Clearing -/

/-- Whether a name is one of a file that holds a value. -/
def isEntryName (name : String) : Bool := Path.extension? name == some ending

/-- Removes files by name, and counts how many there were. -/
def removeAll (c : DiskCache) : List String → Disk → Nat × Disk
  | [], d => (0, d)
  | name :: names, d =>
    match d.removeFile (Path.entry c.dir name) with
    | .ok d => let (n, d) := c.removeAll names d; (n + 1, d)
    | .error _ => c.removeAll names d

/-- Removes all values, and counts them. -/
def clear (c : DiskCache) (d : Disk) : Except Fault (Nat × Disk) :=
  if d.has c.dir then do
    let entries ← d.list c.dir
    return c.removeAll ((entries.map Prod.fst).filter isEntryName) d
  else .ok (0, d)

end DiskCache

end WebBaseline.Store

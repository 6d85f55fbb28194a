/-
  WebBaseline.Main

  The program. The names of the files that it may look at come from standard
  input, one a line, those of directories with a slash behind them. The files are
  read from where they lie, the call is answered over a copy of them, and what it
  changes is written back. The search service is taken to be out of reach.
-/

import Std.Time.Format
import WebBaseline.CommandLine.Run

namespace WebBaseline.Main

open WebBaseline.Calendar (Date Moment)
open WebBaseline.CommandLine
open WebBaseline.Files (Disk Path Place)

/-! ## Surroundings -/

/-- The time of a clock. -/
def momentOf (t : Std.Time.PlainDateTime) : Option Moment := do
  let date ← Date.of? t.date.year.toInt t.date.month.val.toNat t.date.day.val.toNat
  return {
    date := date
    hour := t.time.hour.val.toNat
    minute := t.time.minute.val.toNat
    second := t.time.second.val.toNat
    nanosecond := t.time.nanosecond.val.toNat }

/-- The moment where the clock shows none that the calendar has. -/
def firstMoment : Moment := ⟨⟨1970, 1, 1, by decide⟩, 0, 0, 0, 0⟩

/-- The time now, in universal time. -/
def readClock : IO Moment := do
  let wall := Std.Time.WallTime.ofTimestamp (← Std.Time.Timestamp.now) Std.Time.TimeZone.Offset.zero
  return (momentOf (Std.Time.PlainDateTime.ofWallTime wall)).getD firstMoment

/-- A directory of the user's: as a variable names it, or else below the home. -/
def userDirectory (key fallback : String) : IO Path := do
  match ← IO.getEnv key with
  | some dir => return dir
  | none => return Path.entry ((← IO.getEnv "HOME").getD "/") fallback

/-- What a call finds around it. -/
def readSurroundings : IO Surroundings := do
  let settingsDir := Path.entry (← userDirectory "XDG_CONFIG_HOME" ".config") programName
  let cacheDir := Path.entry (← userDirectory "XDG_CACHE_HOME" ".cache") programName
  let now ← readClock
  return {
    settingsFile := Path.entry settingsDir "config.toml"
    cacheDir := cacheDir
    today := now.date
    now := now }

/-! ## Files -/

/-- The disk with one more file. -/
def withFile (d : Disk) (path : Path) (content : ByteArray) : Disk :=
  let around := (Path.parent? path).getD ""
  let made := (d.makeDirectories around).toOption.getD d
  (made.write path content).toOption.getD d

/-- The disk with a directory, or with a file as it lies, if it can be read. -/
def load (d : Disk) (path : Path) : IO Disk := do
  if path.endsWith "/" then return (d.makeDirectories path).toOption.getD d
  try return withFile d path (← IO.FS.readBinFile path)
  catch _ => return d

/-- The disk with the files of the given names. -/
def loadDisk (names : List Path) : IO Disk := do
  let here := ((Path.names ((← IO.getEnv "PWD").getD "/")).filter (· ≠ ""))
  let top : Disk := { top := .directory [] }
  let d := (top.makeDirectories ("/" ++ "/".intercalate here)).toOption.getD top
  names.foldlM load { d with here := here }

/-- A place as a path. -/
def pathOf (p : Place) : Path := "/" ++ "/".intercalate p

/-- Writes the files of a disk that another one did not have like this. -/
def storeFiles (before after : Disk) : IO Unit := do
  for (place, content) in after.top.files do
    let unchanged := ((before.top.at? place).bind Files.Node.content?).any (· == content)
    unless unchanged do
      IO.FS.createDirAll (pathOf place.dropLast)
      IO.FS.writeBinFile (pathOf place) content

/-- Removes the files that a disk does not have any more. -/
def removeFiles (before after : Disk) : IO Unit := do
  for (place, _) in before.top.files do
    if (after.top.at? place).isNone then IO.FS.removeFile (pathOf place)

/-- The lines of standard input. -/
partial def readLines (input : IO.FS.Stream) : IO (List String) := do
  let line ← input.getLine
  if line.isEmpty then return []
  return line.trimAsciiEnd.toString :: (← readLines input)

/-! ## Calls -/

/-- How the program is called. -/
def usage : String :=
  "Usage: codesense [--verbose] [--config FILE] COMMAND\n\n" ++
  "  scan [PATH]         report on the features that a project uses\n" ++
  "  check FEATURE...    tell what is known about features\n" ++
  "  config              show the settings, or write them with --init\n" ++
  "  clear-cache         forget what the search service said\n"

/-- The version of the program. -/
def version : String := "codesense 0.1.0\n"

/-- Answers arguments that are no call. -/
def answerStop (stop : Stop) : IO Unit := do
  match stop with
  | .versionAsked => (← IO.getStdout).putStr version
  | .helpAsked => (← IO.getStdout).putStr usage
  | _ => (← IO.getStderr).putStr usage

/-- Answers a call. -/
def answerCall (call : Call) : IO Nat := do
  let around ← readSurroundings
  let names ← readLines (← IO.getStdin)
  let before ← loadDisk (around.settingsFile :: call.settingsFile.toList ++ names)
  let (result, after, _) := call.run around (fun _ s => (.unreachable, s)) before ()
  storeFiles before after
  removeFiles before after
  match result with
  | .ok shown => do
    (← IO.getStdout).putStr shown.text
    return shown.code
  | .error fault => do
    (← IO.getStderr).putStrLn ("Error: " ++ fault.message)
    return CallFault.code

end WebBaseline.Main

/-- Reads the arguments, and answers the call that they stand for. -/
def main (args : List String) : IO UInt32 := do
  match WebBaseline.CommandLine.Call.ofArguments args with
  | .error stop => do
    WebBaseline.Main.answerStop stop
    return UInt32.ofNat stop.code
  | .ok call => return UInt32.ofNat (← WebBaseline.Main.answerCall call)

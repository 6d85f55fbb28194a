/-
  WebBaseline.CommandLine.Run

  What a call does: the files that it reads and writes, what it shows, and the
  code with which it ends. A call that fails shows nothing.
-/

import WebBaseline.CommandLine.Call
import WebBaseline.Lookup.Remote
import WebBaseline.Report.Exit
import WebBaseline.Report.Format
import WebBaseline.Report.Order
import WebBaseline.Scan.Scanner
import WebBaseline.Settings.File

namespace WebBaseline.CommandLine

open WebBaseline.Calendar (Date Moment)
open WebBaseline.Files (Disk Fault Path)
open WebBaseline.Lookup (Service Source resolveAll)
open WebBaseline.Report (Document Format UnknownFormat exitCode featuresShown sortBySeverity)
open WebBaseline.Scan (ScanFault Scanner)
open WebBaseline.Store (DiskCache)

/-! ## Surroundings and results -/

/-- What a call finds around it. -/
structure Surroundings where
  /-- The settings file where none is given. -/
  settingsFile : Path
  /-- Where the answers of the search service are kept. -/
  cacheDir : Path
  today : Date
  now : Moment

/-- Why a call failed. -/
inductive CallFault where
  | settings (fault : SettingsFault)
  | format (fault : UnknownFormat)
  | scan (fault : ScanFault)
  | file (fault : Fault)
  deriving DecidableEq, Repr, Inhabited

/-- The words for a failed call. -/
def CallFault.message : CallFault → String
  | settings fault => fault.message
  | format fault => fault.message
  | scan fault => fault.message
  | file fault => fault.message

/-- The code with which a failed call ends. -/
def CallFault.code : Nat := 1

/-- What a call shows, and the code with which it ends. -/
structure Shown where
  text : String
  code : Nat := 0
  deriving DecidableEq, Repr, Inhabited

/-- Lines, each with its end. -/
def linesShown (lines : List String) : Shown := { text := String.join (lines.map (· ++ "\n")) }

/-- The name of the program. -/
def programName : String := "codesense"

/-! ## Settings of a call -/

/-- The settings for a call. A file that the user names has to be in order; the
    usual one is passed over if it is not. -/
def settingsFor (around : Surroundings) (file : Option Path) (d : Disk) :
    Except SettingsFault Settings :=
  match file with
  | some path => Settings.load d path
  | none => .ok ((Settings.load d around.settingsFile).toOption.getD Settings.plain)

/-- The settings as a scan changes them. -/
def ScanCall.settings (c : ScanCall) (s : Settings) : Settings :=
  { s with
    level := c.level.getD s.level
    includes := if c.includes.isEmpty then s.includes else c.includes
    excludes := s.excludes ++ c.excludes
    remote := s.remote && !c.offline }

/-- The settings as a look-up changes them. -/
def CheckCall.settings (c : CheckCall) (s : Settings) : Settings :=
  { s with remote := s.remote && !c.offline }

variable {σ : Type}

/-- The sources to ask: those that come with the library, then the search service. -/
def sourcesFor (around : Surroundings) (service : Service σ) (s : Settings) :
    List (Source (Disk × σ)) :=
  let cache : DiskCache := { dir := around.cacheDir, ttl := DiskCache.ofHours s.keepHours }
  Source.offline around.today ++ if s.remote then [Source.remote service (some cache)] else []

/-! ## Scans -/

/-- Shows a report, or writes it to a file. -/
def deliver (report : Document) (format : Format) (output : Option Path) (code : Nat) (d : Disk) :
    Except CallFault Shown × Disk :=
  match output with
  | none => (.ok { text := report.shown format, code := code }, d)
  | some path =>
    match d.write path (report.text format).toUTF8 with
    | .error fault => (.error (.file fault), d)
    | .ok d =>
      let text := match format with
        | .table => "Results written to: " ++ path ++ "\n"
        | .json => ""
      (.ok { text := text, code := code }, d)

/-- Scans, and reports with the most severe findings first. -/
def runScan (around : Surroundings) (service : Service σ) (s : Settings) (c : ScanCall)
    (d : Disk) (t : σ) : Except CallFault Shown × Disk × σ :=
  match Format.parse (c.format.getD s.format) with
  | .error fault => (.error (.format fault), d, t)
  | .ok format =>
    let sc : Scanner (Disk × σ) :=
      { options := s.scanOptions, sources := sourcesFor around service s }
    let (result, _, after, t) :=
      sc.scanProject (fun _ => false) d c.path Data.KeyMap.empty (d, t)
    match result with
    | .error fault => (.error (.scan fault), after, t)
    | .ok files =>
      let report := Document.ofFiles around.now c.path (sortBySeverity files)
      let (shown, after) :=
        deliver report format c.output (exitCode report.summary c.threshold) after
      (shown, after, t)

/-! ## Look-ups -/

/-- Shows what is known about features. -/
def runCheck (around : Surroundings) (service : Service σ) (s : Settings) (c : CheckCall)
    (d : Disk) (t : σ) : Except CallFault Shown × Disk × σ :=
  match Format.parse (c.format.getD s.format) with
  | .error fault => (.error (.format fault), d, t)
  | .ok format =>
    let (infos, _, after) :=
      resolveAll (sourcesFor around service s) c.features Data.KeyMap.empty (d, t)
    (.ok { text := featuresShown (c.features.zip infos) format }, after)

/-! ## Settings -/

/-- Writes a file with the usual settings, unless there is one. -/
def writeSettings (path : Path) (d : Disk) : Except CallFault Shown × Disk :=
  if d.has path then (.ok (linesShown ["Config file already exists at: " ++ path]), d)
  else
    match Settings.plain.save d path with
    | (.error fault, d) => (.error (.settings fault), d)
    | (.ok (), d) =>
      (.ok (linesShown ["Created config file at: " ++ path, "", "Default configuration:",
        Settings.plain.toToml?.getD ""]), d)

/-- Shows the settings file. -/
def showSettings (path : Path) (d : Disk) : Except CallFault Shown :=
  if d.has path then
    match d.readText path with
    | .error fault => .error (.file fault)
    | .ok text => .ok (linesShown ["Config file: " ++ path, "", text])
  else
    .ok (linesShown ["No config file found.",
      "Run '" ++ programName ++ " config --init' to create one.", "", "Config path: " ++ path])

/-- Shows the path of the settings file, writes the file, or shows it. -/
def runSettings (path : Path) (c : SettingsCall) (d : Disk) : Except CallFault Shown × Disk :=
  if c.showsPath then (.ok (linesShown [path]), d)
  else if c.writes then writeSettings path d
  else (showSettings path d, d)

/-! ## The cache -/

/-- Forgets what the search service said. -/
def runClearCache (around : Surroundings) (d : Disk) : Except CallFault Shown × Disk :=
  match (DiskCache.inDir around.cacheDir).clear d with
  | .error fault => (.error (.file fault), d)
  | .ok (n, d) =>
    (.ok (linesShown ["Cache cleared (" ++ Decimal.natText n ++ " entries)."]), d)

/-! ## Calls -/

/-- Does what a call asks for. -/
def Call.run (around : Surroundings) (service : Service σ) (c : Call) (d : Disk) (t : σ) :
    Except CallFault Shown × Disk × σ :=
  match settingsFor around c.settingsFile d with
  | .error fault => (.error (.settings fault), d, t)
  | .ok s =>
    match c.command with
    | .scan scan => runScan around service (scan.settings s) scan d t
    | .check check => runCheck around service (check.settings s) check d t
    | .settings settings =>
      let (shown, d) := runSettings (c.settingsFile.getD around.settingsFile) settings d
      (shown, d, t)
    | .clearCache =>
      let (shown, d) := runClearCache around d
      (shown, d, t)

end WebBaseline.CommandLine

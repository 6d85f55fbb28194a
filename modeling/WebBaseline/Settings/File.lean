/-
  WebBaseline.Settings.File

  Settings in a file. Where there is no file, everything keeps its usual value;
  settings that cannot be written leave the file as it was.
-/

import WebBaseline.Settings.Encoding

namespace WebBaseline

open WebBaseline.Files (Disk Fault Path)

/-- Why settings cannot be read or written. -/
inductive SettingsFault where
  | file (fault : Fault)
  /-- The file is no TOML document, or something in it is no setting. -/
  | malformed
  /-- A number is too great to be written. -/
  | tooGreat
  deriving DecidableEq, Repr, Inhabited

namespace SettingsFault

/-- The words for a fault. -/
def message : SettingsFault → String
  | file fault => fault.message
  | malformed => "the settings file is not valid"
  | tooGreat => "a number is too great for the settings file"

end SettingsFault

namespace Settings

/-- The settings in a file. -/
def load (d : Disk) (path : Path) : Except SettingsFault Settings :=
  if !d.has path then .ok plain
  else
    match d.readText path with
    | .error fault => .error (.file fault)
    | .ok text =>
      match ofToml? text with
      | some s => .ok s
      | none => .error .malformed

/-- The disk with the directory that a file is to lie in. -/
def withDirectory (d : Disk) (path : Path) : Except Fault Unit × Disk :=
  match Path.parent? path with
  | some parent => if d.has parent then (.ok (), d) else d.tryDirectories parent
  | none => (.ok (), d)

/-- Writes the settings to a file, and tells what went wrong, if anything did. -/
def save (s : Settings) (d : Disk) (path : Path) : Except SettingsFault Unit × Disk :=
  match withDirectory d path with
  | (.error fault, d) => (.error (.file fault), d)
  | (.ok (), d) =>
    match s.toToml? with
    | none => (.error .tooGreat, d)
    | some text =>
      match d.write path text.toUTF8 with
      | .error fault => (.error (.file fault), d)
      | .ok d => (.ok (), d)

end Settings

end WebBaseline

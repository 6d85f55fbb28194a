/-
  WebBaseline.CommandLine.Call

  The calls of the program, and the arguments that stand for them.

    * `scan [path]`: reports on a project or a file;
    * `check feature…`: tells what is known about features;
    * `config`: shows the settings, or writes them to a file;
    * `clear-cache`: forgets what the search service said.
-/

import WebBaseline.Baseline.Status
import WebBaseline.CommandLine.Grammar
import WebBaseline.Files.Path
import WebBaseline.Report.Severity

namespace WebBaseline.CommandLine

open WebBaseline.Baseline (Level)
open WebBaseline.Files (Path)
open WebBaseline.Report (Severity)

/-! ## Calls -/

/-- What a scan is asked to do. -/
structure ScanCall where
  path : Path := "."
  format : Option String := none
  level : Option Level := none
  includes : List String := []
  excludes : List String := []
  /-- The file that the report goes to. -/
  output : Option Path := none
  /-- Whether the search service is left alone. -/
  offline : Bool := false
  /-- The severity from which on findings make the program fail. -/
  threshold : Option Severity := none
  deriving DecidableEq, Repr, Inhabited

/-- The features to be looked up. -/
structure CheckCall where
  features : List String := []
  format : Option String := none
  /-- Whether the search service is left alone. -/
  offline : Bool := false
  deriving DecidableEq, Repr, Inhabited

/-- What to do about the settings. -/
structure SettingsCall where
  /-- Whether a file with the usual settings is written. -/
  writes : Bool := false
  /-- Whether only the path of the file is shown. -/
  showsPath : Bool := false
  deriving DecidableEq, Repr, Inhabited

/-- What the program is asked to do. -/
inductive Command where
  | scan (c : ScanCall)
  | check (c : CheckCall)
  | settings (c : SettingsCall)
  | clearCache
  deriving DecidableEq, Repr, Inhabited

/-- A call of the program. -/
structure Call where
  /-- The settings file to use. -/
  settingsFile : Option Path := none
  command : Command
  deriving DecidableEq, Repr, Inhabited

/-! ## Values -/

/-- A path, which must not be empty. -/
def pathOf (text : String) : Except Stop Path :=
  if text.isEmpty then .error .invalidValue else .ok text

/-- A level. -/
def levelOf (text : String) : Except Stop Level :=
  match Level.parse text with
  | .ok l => .ok l
  | .error _ => .error .malformedValue

/-- A severity, by exactly its word. -/
def severityOf (text : String) : Except Stop Severity :=
  match Severity.ofWord? text with
  | some s => .ok s
  | none => .error .invalidValue

/-! ## Grammars -/

/-- The arguments of a command, with those that go with every command. -/
structure Given (α : Type) where
  settingsFile : Option Path := none
  own : α

namespace Given

variable {α : Type}

/-- Sets something of the command itself. -/
def onOwn (set : String → α → Except Stop α) (text : String) (g : Given α) :
    Except Stop (Given α) := do
  return { g with own := ← set text g.own }

/-- The switches that go with every command. That messages may be more detailed
    does not show in what a call answers. -/
def shared : List (Switch (Given α)) :=
  [{ name := "verbose", letter := some 'v', action := .flag id },
    { name := "config", action := .once (fun text g => do
        return { g with settingsFile := some (← pathOf text) }) },
    { name := "help", letter := some 'h', action := .help }]

/-- A switch of the command itself. -/
def ownOnce (name : String) (letter : Option Char) (set : String → α → Except Stop α) :
    Switch (Given α) :=
  { name := name, letter := letter, action := .once (onOwn set) }

/-- A switch of the command itself that may be given again. -/
def ownEach (name : String) (set : String → α → Except Stop α) : Switch (Given α) :=
  { name := name, action := .each (onOwn set) }

/-- A switch of the command itself that takes no value. -/
def ownFlag (name : String) (set : α → α) : Switch (Given α) :=
  { name := name, action := .flag (fun g => { g with own := set g.own }) }

end Given

open Given

/-- The names of the commands. -/
def commandNames : List String := ["scan", "check", "config", "clear-cache"]

/-- The name under which help on a command is asked for. -/
def helpName : String := "help"

/-- What comes before a command. -/
def callGrammar : Grammar (Given Unit) :=
  { switches := shared ++ [{ name := "version", letter := some 'V', action := .version }]
    commands := commandNames ++ [helpName] }

/-- The arguments of a scan. -/
def scanGrammar : Grammar (Given ScanCall) :=
  { switches := shared ++
      [ownOnce "format" (some 'f') (fun text c => .ok { c with format := some text }),
        ownOnce "baseline" (some 'b') (fun text c => do
          return { c with level := some (← levelOf text) }),
        ownEach "include" (fun text c => .ok { c with includes := c.includes ++ [text] }),
        ownEach "exclude" (fun text c => .ok { c with excludes := c.excludes ++ [text] }),
        ownOnce "output" (some 'o') (fun text c => do
          return { c with output := some (← pathOf text) }),
        ownFlag "no-remote" (fun c => { c with offline := true }),
        ownOnce "fail-on" none (fun text c => do
          return { c with threshold := some (← severityOf text) })]
    operands := .optional (onOwn (fun text c => do return { c with path := ← pathOf text })) }

/-- The arguments of a look-up. -/
def checkGrammar : Grammar (Given CheckCall) :=
  { switches := shared ++
      [ownOnce "format" (some 'f') (fun text c => .ok { c with format := some text }),
        ownFlag "no-remote" (fun c => { c with offline := true })]
    operands := .many (onOwn (fun text c => .ok { c with features := c.features ++ [text] })) }

/-- The arguments about settings. -/
def settingsGrammar : Grammar (Given SettingsCall) :=
  { switches := shared ++
      [ownFlag "init" (fun c => { c with writes := true }),
        ownFlag "path" (fun c => { c with showsPath := true })] }

/-- A command without arguments of its own. -/
def plainGrammar : Grammar (Given Unit) := { switches := shared }

/-! ## Reading a call -/

/-- Reads the arguments of a command. -/
def Grammar.readAll {α : Type} (g : Grammar (Given α)) (start : α) (args : List String) :
    Except Stop (Given α) := do
  let (r, _) ← g.read { call := { own := start } } args
  return (← g.finish r).call

/-- Where asking for help on commands leads. -/
def helpOn : List String → Stop
  | [] => .helpAsked
  | [name] => if callGrammar.commands.contains name then .helpAsked else .unknownCommand
  | _ => .unknownCommand

/-- A call of the command with a name. -/
def callOf (name : String) (args : List String) : Except Stop Call :=
  match name with
  | "scan" => do
    let g ← scanGrammar.readAll {} args
    return ⟨g.settingsFile, .scan g.own⟩
  | "check" => do
    let g ← checkGrammar.readAll {} args
    return ⟨g.settingsFile, .check g.own⟩
  | "config" => do
    let g ← settingsGrammar.readAll {} args
    return ⟨g.settingsFile, .settings g.own⟩
  | "clear-cache" => do
    let g ← plainGrammar.readAll () args
    return ⟨g.settingsFile, .clearCache⟩
  | _ => .error (helpOn args)

/-- The call that arguments stand for. A settings file that is given behind the
    command counts before one given in front of it. -/
def Call.ofArguments (args : List String) : Except Stop Call := do
  let (r, command) ← callGrammar.read { call := { own := () } } args
  match command with
  | none =>
    let r ← callGrammar.finish r
    .error (if r.given.isEmpty then .noArguments else .noCommand)
  | some (name, rest) =>
    let call ← callOf name rest
    let r ← callGrammar.finish r
    return { call with settingsFile := call.settingsFile <|> r.call.settingsFile }

end WebBaseline.CommandLine

/-
  WebBaseline.Scan.Options

  Which files a scan looks at and which issues it reports.
-/

import WebBaseline.Baseline.Status
import WebBaseline.Files.Disk
import WebBaseline.Glob.Match

namespace WebBaseline.Scan

open WebBaseline.Baseline (Level Status)
open WebBaseline.Files (Fault Path)
open WebBaseline.Glob (Flaw Pattern)

/-! ## Options -/

/-- Directories that hold no sources of the project itself. -/
def foreignDirectories : List String := ["node_modules", "dist", "build", ".git"]

/-- The pattern of all files with an extension. -/
def extensionPattern (extension : String) : String := "**/*." ++ extension

/-- The pattern of everything in directories with a name. -/
def directoryPattern (name : String) : String := "**/" ++ name ++ "/**"

/-- The extensions that are looked for if nothing is said. -/
def defaultExtensions : List String :=
  ["js", "jsx", "mjs", "cjs", "ts", "tsx", "mts", "cts", "css", "scss", "less", "html", "htm"]

/-- What to look at and what to report. -/
structure Options where
  /-- Patterns of which a file must match one. -/
  includes : List String := defaultExtensions.map extensionPattern
  /-- Patterns of which a file must match none. -/
  excludes : List String := foreignDirectories.map directoryPattern
  /-- Which statuses are reported; all, if nothing is said. -/
  level : Option Level := none
  deriving DecidableEq, Repr, Inhabited

/-- Whether a scan reports a status. -/
def Options.reports (o : Options) (s : Status) : Bool := o.level.all (fun l => l.shows s)

/-! ## What can go wrong -/

/-- Why a scan failed. -/
inductive ScanFault where
  | rootNotFound (path : Path)
  | unreadable (path : Path) (fault : Fault)
  | unsupported (path : Path)
  | badPattern (pattern : String) (flaw : Flaw)
  | walk (path : Path) (fault : Fault)
  deriving DecidableEq, Repr, Inhabited

namespace ScanFault

/-- The words for a failed scan. -/
def message : ScanFault → String
  | rootNotFound path => "Path not found: " ++ path
  | unreadable path fault => "Failed to read " ++ path ++ ": " ++ fault.message
  | unsupported path => "Unsupported file type: " ++ path
  | badPattern pattern flaw =>
    "Invalid glob pattern '" ++ pattern ++ "': error parsing glob '" ++ pattern ++ "': " ++
      flaw.message
  | walk path fault =>
    "Failed to walk directory: IO error for operation on " ++ path ++ ": " ++ fault.message

end ScanFault

/-! ## Choosing paths -/

/-- Patterns that choose among paths below a root. -/
structure PathFilter where
  includes : List Pattern
  excludes : List Pattern
  deriving Repr, Inhabited

namespace PathFilter

/-- The patterns of texts, or the first text that is none. -/
def compile : List String → Except ScanFault (List Pattern)
  | [] => .ok []
  | text :: texts =>
    match Pattern.ofText text with
    | .error flaw => .error (.badPattern text flaw)
    | .ok p => (compile texts).map (p :: ·)

/-- The filter of some options. -/
def ofOptions (o : Options) : Except ScanFault PathFilter :=
  match compile o.includes with
  | .error fault => .error fault
  | .ok includes => (compile o.excludes).map (fun excludes => ⟨includes, excludes⟩)

/-- Whether a file is to be looked at. -/
def accepts (f : PathFilter) (path : String) : Bool :=
  Glob.anyMatches f.includes path && !Glob.anyMatches f.excludes path

/-- Whether a directory is passed over: it is excluded, or so is anything in it. -/
def prunes (f : PathFilter) (path : String) : Bool :=
  Glob.anyMatches f.excludes path || Glob.anyMatches f.excludes (Path.entry path "*")

end PathFilter

end WebBaseline.Scan

/-
  WebBaseline.Scan.Scanner

  Scans of files and projects: each use of a feature in a source is resolved,
  and reported with what is known about it.
-/

import WebBaseline.Feature.Extraction
import WebBaseline.Lookup.Resolver
import WebBaseline.Report.Issue
import WebBaseline.Scan.Listing

namespace WebBaseline.Scan

open WebBaseline.Feature (Language Occurrence extract)
open WebBaseline.Files (Disk Path)
open WebBaseline.Lookup (Memory Source resolve)
open WebBaseline.Report (FileIssues Issue)

variable {σ : Type}

/-- What a scan resolves features with: sources in order, and the options that
    say what to report. -/
structure Scanner (σ : Type) where
  options : Options := {}
  sources : List (Source σ)

namespace Scanner

/-! ## Sources -/

/-- The issues of occurrences, in their order. -/
def issuesOf (sc : Scanner σ) : List Occurrence → Memory → σ → List Issue × Memory × σ
  | [], m, s => ([], m, s)
  | o :: os, m, s =>
    let (r, m, s) := resolve sc.sources o.identifier m s
    let (issues, m, s) := sc.issuesOf os m s
    if sc.options.reports r.info.status then
      ((Issue.ofOccurrence o r.info).enriched :: issues, m, s)
    else (issues, m, s)

/-- The issues of a text. -/
def check (sc : Scanner σ) (language : Language) (path : Path) (text : String)
    (m : Memory) (s : σ) : FileIssues × Memory × σ :=
  let (issues, m, s) := sc.issuesOf (extract language path text) m s
  (⟨path, issues⟩, m, s)

/-! ## Files -/

/-- The issues of a file. -/
def scanFile (sc : Scanner σ) (d : Disk) (path : Path) (m : Memory) (s : σ) :
    Except ScanFault FileIssues × Memory × σ :=
  match Language.ofPath? path with
  | none => (.error (.unsupported path), m, s)
  | some language =>
    match d.readText path with
    | .error fault => (.error (.unreadable path fault), m, s)
    | .ok text =>
      let (issues, m, s) := sc.check language path text m s
      (.ok issues, m, s)

/-! ## Projects -/

/-- The issues of files, one after the other. A file that cannot be scanned is
    left out. Before each file `cancelled` is asked, with the number of files
    that came before it, whether to stop. -/
def scanAll (sc : Scanner σ) (cancelled : Nat → Bool) (d : Disk) :
    Nat → List Path → Memory → σ → List FileIssues × Memory × σ
  | _, [], m, s => ([], m, s)
  | n, path :: rest, m, s =>
    if cancelled n then ([], m, s)
    else
      match sc.scanFile d path m s with
      | (.ok issues, m, s) =>
        let (more, m, s) := sc.scanAll cancelled d (n + 1) rest m s
        (issues :: more, m, s)
      | (.error _, m, s) => sc.scanAll cancelled d (n + 1) rest m s

/-- The issues of all files below a root, or of the root if it is a file. -/
def scanProject (sc : Scanner σ) (cancelled : Nat → Bool) (d : Disk) (root : Path)
    (m : Memory) (s : σ) : Except ScanFault (List FileIssues) × Memory × σ :=
  if !d.has root then (.error (.rootNotFound root), m, s)
  else if d.hasFile root then
    let (result, m, s) := sc.scanFile d root m s
    (result.map (fun f => [f]), m, s)
  else
    match listPaths sc.options d root with
    | .error fault => (.error fault, m, s)
    | .ok paths =>
      let (issues, m, s) := sc.scanAll cancelled d 0 paths m s
      (.ok issues, m, s)

end Scanner

end WebBaseline.Scan

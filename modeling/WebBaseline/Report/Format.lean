/-
  WebBaseline.Report.Format

  The two forms of a report: a table for people and JSON for programs.
-/

import WebBaseline.Report.Encoding
import WebBaseline.Report.TextTable
import WebBaseline.Json.Printer

namespace WebBaseline.Report

open WebBaseline.Baseline (Info Status)
open WebBaseline.Json (Value)

/-! ## Formats -/

/-- The form of a report. -/
inductive Format where
  | table
  | json
  deriving DecidableEq, Repr, Inhabited

/-- A word that stands for no format. -/
structure UnknownFormat where
  word : String
  deriving DecidableEq, Repr, Inhabited

/-- What is wrong with the word. -/
def UnknownFormat.message (e : UnknownFormat) : String :=
  "Unknown format: " ++ e.word ++ ". Use 'table' or 'json'"

namespace Format

/-- The word for a format. -/
def word : Format → String
  | table => "table"
  | json => "json"

/-- The format of a word in letters of any case. -/
def parse (s : String) : Except UnknownFormat Format :=
  match [table, json].find? (fun f => f.word == Text.lowercase s) with
  | some f => .ok f
  | none => .error ⟨s⟩

end Format

/-! ## Cells -/

/-- A text of at most so many characters; what is cut off shows as three dots. -/
def truncated (limit : Nat) (s : String) : String :=
  let cs := s.toList
  if cs.length ≤ limit then s else String.ofList (cs.take (limit - 3)) ++ "..."

/-- A severity in the colour of a terminal. -/
def severityCell : Option Severity → String
  | some .high => "\x1b[91mHIGH\x1b[0m"
  | some .medium => "\x1b[33mMEDIUM\x1b[0m"
  | some .low => "\x1b[32mLOW\x1b[0m"
  | none => "-"

/-- A status with its sign. -/
def statusCell (s : Status) : String := s.icon ++ " " ++ s.text

/-- What can be done about an issue. -/
def hintCell (i : Issue) : String :=
  match i.alternative, i.polyfill with
  | some alternative, some true => truncated 40 ("polyfill, or " ++ alternative)
  | some alternative, _ => truncated 40 ("use " ++ alternative)
  | none, some true => "polyfill available"
  | none, _ => "-"

/-- A file's path below the root of the report, if it lies there. -/
def shownPath (root path : Files.Path) : String :=
  match Files.Path.below? root path with
  | some rest => if rest.isEmpty then path else rest
  | none => path

/-- The row of an issue in a file. -/
def issueRow (file : String) (i : Issue) : List String :=
  [severityCell i.severity, truncated 40 file, i.location, truncated 40 i.feature,
    statusCell i.status, hintCell i]

/-! ## Reports as text -/

/-- What a score is worth. -/
def scoreWord (score : Nat) : String :=
  if 100 < score then "[Critical]"
  else if 90 ≤ score then "[Excellent]"
  else if 70 ≤ score then "[Good]"
  else if 50 ≤ score then "[Fair]"
  else if 25 ≤ score then "[Poor]"
  else "[Critical]"

/-- The lines that sum a scan up. -/
def summaryLines (s : Summary) : List String :=
  let n := Decimal.natText
  ["Summary:",
    "  Files scanned: " ++ n s.filesScanned ++ " (" ++ n s.filesWithIssues ++ " with findings)"] ++
    (if s.totalIssues = 0 then []
    else
      ["  By status: " ++ n s.byStatus.widely ++ " widely, " ++ n s.byStatus.newly ++
          " newly, " ++ n s.byStatus.limited ++ " limited, " ++ n s.byStatus.unknown ++ " unknown",
        "  By severity: " ++ n s.bySeverity.high ++ " high, " ++ n s.bySeverity.medium ++
          " medium, " ++ n s.bySeverity.low ++ " low"]) ++
    ["", "Compatibility Score: " ++ n s.score ++ "/100 " ++ scoreWord s.score]

/-- The lines about the issues of a scan. -/
def findingLines (d : Document) : List String :=
  if d.summary.totalIssues = 0 then
    ["No reportable features found in " ++ Decimal.natText d.summary.filesScanned ++ " files."]
  else
    let rows := d.files.flatMap (fun f => f.issues.map (issueRow (shownPath d.root f.path)))
    ["Found " ++ Decimal.natText d.summary.totalIssues ++ " features:", "",
      TextTable.draw ["Severity", "File", "Line", "Feature", "Status", "Hint"] rows]

namespace Document

/-- The report for people. -/
def plain (d : Document) : String :=
  let lines :=
    ["", "Scan completed at: " ++ d.scanTime.plainText, ""] ++ findingLines d ++ [""] ++
      summaryLines d.summary
  String.join (lines.map (· ++ "\n"))

/-- The report in a format. -/
def text (d : Document) : Format → String
  | .table => d.plain
  | .json => d.toValue.pretty

/-- The report as it is shown, with a line end. -/
def shown (d : Document) : Format → String
  | .table => d.plain
  | .json => d.toValue.pretty ++ "\n"

end Document

/-! ## Single features -/

/-- The row of a feature. -/
def featureRow (feature : String) (info : Info) : List String :=
  [feature, statusCell info.status, info.since.getD "-",
    match info.description with
    | some d => truncated 50 d
    | none => "-"]

/-- What is known about features, as a table. -/
def featureTable (features : List (String × Info)) : String :=
  TextTable.draw ["Feature", "Status", "Since", "Description"]
    (features.map (fun f => featureRow f.1 f.2)) ++ "\n"

/-- What is known about features, as JSON. -/
def featuresToValue (features : List (String × Info)) : Value :=
  .arr (features.map (fun f => .obj (("feature", .str f.1) :: f.2.fields)))

/-- What is known about features, as it is shown. -/
def featuresShown (features : List (String × Info)) : Format → String
  | .table => featureTable features
  | .json => (featuresToValue features).pretty ++ "\n"

end WebBaseline.Report

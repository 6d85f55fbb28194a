/-
  WebBaseline.Report.Summary

  The counts of a whole scan, by status and by severity, and one score for it.
-/

import WebBaseline.Numeric.Double
import WebBaseline.Report.Issue

namespace WebBaseline.Report

open WebBaseline.Baseline (Status)
open WebBaseline.Numeric (Double)

/-- How many issues have each status. -/
structure StatusCounts where
  widely : Nat
  newly : Nat
  limited : Nat
  unknown : Nat
  deriving DecidableEq, Repr, Inhabited

/-- How many issues have each severity. -/
structure SeverityCounts where
  high : Nat
  medium : Nat
  low : Nat
  deriving DecidableEq, Repr, Inhabited

/-- The counts of a scan. -/
structure Summary where
  filesScanned : Nat
  filesWithIssues : Nat
  totalIssues : Nat
  byStatus : StatusCounts
  bySeverity : SeverityCounts
  /-- From 0 to 100, more is better. -/
  score : Nat
  deriving DecidableEq, Repr, Inhabited

/-! ## Counting -/

/-- How many issues have a status. -/
def countStatus (issues : List Issue) (s : Status) : Nat :=
  issues.countP (fun i => i.status == s)

/-- How many issues have a severity. -/
def countSeverity (issues : List Issue) (s : Severity) : Nat :=
  issues.countP (fun i => i.severity == some s)

/-- The counts of issues by status. -/
def StatusCounts.ofIssues (issues : List Issue) : StatusCounts :=
  ⟨countStatus issues .widely, countStatus issues .newly, countStatus issues .limited,
    countStatus issues .unknown⟩

/-- The counts of issues by severity. -/
def SeverityCounts.ofIssues (issues : List Issue) : SeverityCounts :=
  ⟨countSeverity issues .high, countSeverity issues .medium, countSeverity issues .low⟩

/-! ## The score -/

/-- What a newly available feature counts, where a widely available one counts one. -/
def newlyWeight : Double := Double.nearest 7 10

/-- The weighted share of available features, in percent. -/
def score (counts : StatusCounts) (total : Nat) : Nat :=
  if total = 0 then 100
  else
    let weighted := Double.ofNat counts.widely + newlyWeight * Double.ofNat counts.newly
    min 100 (weighted / Double.ofNat total * Double.ofNat 100).round

/-! ## Summaries -/

namespace Summary

/-- The summary of the issues of all files. -/
def ofFiles (files : List FileIssues) : Summary :=
  let issues := files.flatMap FileIssues.issues
  let total := issues.length
  let byStatus := StatusCounts.ofIssues issues
  { filesScanned := files.length
    filesWithIssues := files.countP (fun f => !f.issues.isEmpty)
    totalIssues := total
    byStatus := byStatus
    bySeverity := SeverityCounts.ofIssues issues
    score := Report.score byStatus total }

/-- The greatest severity among the issues. -/
def worstSeverity (s : Summary) : Option Severity :=
  if 0 < s.bySeverity.high then some .high
  else if 0 < s.bySeverity.medium then some .medium
  else if 0 < s.bySeverity.low then some .low
  else none

end Summary

end WebBaseline.Report

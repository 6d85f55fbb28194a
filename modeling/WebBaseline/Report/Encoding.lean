/-
  WebBaseline.Report.Encoding

  Occurrences, issues, summaries and reports as JSON.
-/

import WebBaseline.Baseline.Encoding
import WebBaseline.Report.Document

namespace WebBaseline.Report

open WebBaseline.Baseline (Status)
open WebBaseline.Calendar (Moment)
open WebBaseline.Feature (Occurrence)
open WebBaseline.Json (Record Value)

/-- A count as a number. -/
def countToValue (n : Nat) : Value := .int n

/-! ## Occurrences -/

/-- An occurrence as an object. -/
def occurrenceToValue (o : Occurrence) : Value :=
  .obj (("identifier", .str o.identifier) ::
    (Value.given "line" countToValue o.line ++
      Value.given "column" countToValue o.column ++
      Value.given "context" .str o.context))

/-- The occurrence that an object gives. -/
def occurrenceOfValue? (v : Value) : Option Occurrence := do
  let r ← Record.ofValue? ["identifier", "line", "column", "context"] v
  return {
    identifier := ← r.required "identifier" Value.text?
    line := ← r.optional "line" Value.count?
    column := ← r.optional "column" Value.count?
    context := ← r.optional "context" Value.text? }

/-! ## Issues -/

namespace Issue

/-- An issue as an object. -/
def toValue (i : Issue) : Value :=
  .obj (("feature", .str i.feature) :: ("status", i.status.toValue) ::
    (Value.given "line" countToValue i.line ++
      Value.given "column" countToValue i.column ++
      Value.given "context" .str i.context ++
      Value.given "severity" Severity.toValue i.severity ++
      Value.given "polyfillAvailable" .bool i.polyfill ++
      Value.given "alternativeApi" .str i.alternative))

/-- The issue that an object gives. -/
def ofValue? (v : Value) : Option Issue := do
  let r ← Record.ofValue?
    ["feature", "status", "line", "column", "context", "severity", "polyfillAvailable",
      "alternativeApi"] v
  return {
    feature := ← r.required "feature" Value.text?
    status := ← r.required "status" Status.ofValue?
    line := ← r.optional "line" Value.count?
    column := ← r.optional "column" Value.count?
    context := ← r.optional "context" Value.text?
    severity := ← r.optional "severity" Severity.ofValue?
    polyfill := ← r.optional "polyfillAvailable" Value.bool?
    alternative := ← r.optional "alternativeApi" Value.text? }

end Issue

namespace FileIssues

/-- The issues of a file as an object. -/
def toValue (f : FileIssues) : Value :=
  .obj [("filePath", .str f.path), ("issues", .arr (f.issues.map Issue.toValue))]

/-- The issues of a file that an object gives. -/
def ofValue? (v : Value) : Option FileIssues := do
  let r ← Record.ofValue? ["filePath", "issues"] v
  return {
    path := ← r.required "filePath" Value.text?
    issues := ← r.required "issues" (Value.list? Issue.ofValue?) }

end FileIssues

/-! ## Summaries -/

namespace StatusCounts

/-- Counts by status as an object. -/
def toValue (c : StatusCounts) : Value :=
  .obj [("widelyAvailable", countToValue c.widely), ("newlyAvailable", countToValue c.newly),
    ("limited", countToValue c.limited), ("unknown", countToValue c.unknown)]

/-- The counts by status that an object gives. -/
def ofValue? (v : Value) : Option StatusCounts := do
  let r ← Record.ofValue? ["widelyAvailable", "newlyAvailable", "limited", "unknown"] v
  return {
    widely := ← r.required "widelyAvailable" Value.count?
    newly := ← r.required "newlyAvailable" Value.count?
    limited := ← r.required "limited" Value.count?
    unknown := ← r.required "unknown" Value.count? }

end StatusCounts

namespace SeverityCounts

/-- Counts by severity as an object. -/
def toValue (c : SeverityCounts) : Value :=
  .obj [("high", countToValue c.high), ("medium", countToValue c.medium),
    ("low", countToValue c.low)]

/-- The counts by severity that an object gives. -/
def ofValue? (v : Value) : Option SeverityCounts := do
  let r ← Record.ofValue? ["high", "medium", "low"] v
  return {
    high := ← r.required "high" Value.count?
    medium := ← r.required "medium" Value.count?
    low := ← r.required "low" Value.count? }

end SeverityCounts

namespace Summary

/-- A summary as an object. -/
def toValue (s : Summary) : Value :=
  .obj [("filesScanned", countToValue s.filesScanned),
    ("filesWithIssues", countToValue s.filesWithIssues),
    ("totalIssues", countToValue s.totalIssues),
    ("byStatus", s.byStatus.toValue),
    ("bySeverity", s.bySeverity.toValue),
    ("compatibilityScore", countToValue s.score)]

/-- The summary that an object gives. -/
def ofValue? (v : Value) : Option Summary := do
  let r ← Record.ofValue?
    ["filesScanned", "filesWithIssues", "totalIssues", "byStatus", "bySeverity",
      "compatibilityScore"] v
  return {
    filesScanned := ← r.required "filesScanned" Value.count?
    filesWithIssues := ← r.required "filesWithIssues" Value.count?
    totalIssues := ← r.required "totalIssues" Value.count?
    byStatus := ← r.required "byStatus" StatusCounts.ofValue?
    bySeverity := ← r.required "bySeverity" SeverityCounts.ofValue?
    score := ← r.required "compatibilityScore" (Value.natBelow? UInt8.size) }

end Summary

/-! ## Reports -/

namespace Document

/-- A report as an object. -/
def toValue (d : Document) : Value :=
  .obj [("scanTime", .str d.scanTime.text), ("root", .str d.root),
    ("results", .arr (d.files.map FileIssues.toValue)),
    ("summary", d.summary.toValue),
    ("tablesVersion", countToValue d.catalogVersion)]

/-- The report that an object gives. -/
def ofValue? (v : Value) : Option Document := do
  let r ← Record.ofValue? ["scanTime", "root", "results", "summary", "tablesVersion"] v
  return {
    scanTime := ← r.required "scanTime" (fun v => (Value.text? v).bind Moment.ofText?)
    root := ← r.required "root" Value.text?
    files := ← r.required "results" (Value.list? FileIssues.ofValue?)
    summary := ← r.required "summary" Summary.ofValue?
    catalogVersion := ← r.required "tablesVersion" (Value.natBelow? UInt32.size) }

end Document

end WebBaseline.Report

/-
  WebBaseline.Report.Issue

  A use of a feature together with the feature's status and hints on what to do
  about it, and all issues of a file.
-/

import WebBaseline.Baseline.Info
import WebBaseline.Decimal.Digits
import WebBaseline.Feature.Catalog
import WebBaseline.Feature.Occurrence
import WebBaseline.Files.Path
import WebBaseline.Report.Severity

namespace WebBaseline.Report

open WebBaseline.Baseline (Info Status)
open WebBaseline.Feature (Catalog.hasPolyfill Catalog.alternative? Occurrence)

/-- A use of a feature, with the feature's status. -/
structure Issue where
  feature : String
  status : Status
  line : Option Nat := none
  column : Option Nat := none
  context : Option String := none
  severity : Option Severity := none
  /-- Whether a polyfill for the feature is well known. -/
  polyfill : Option Bool := none
  /-- What can be used in place of the feature. -/
  alternative : Option String := none
  deriving DecidableEq, Repr, Inhabited

namespace Issue

/-- The issue of an occurrence, without severity and hints. -/
def ofOccurrence (o : Occurrence) (info : Info) : Issue :=
  { feature := o.identifier, status := info.status, line := o.line, column := o.column,
    context := o.context }

/-- The issue with the severity of its status and the hints for its feature. -/
def enriched (i : Issue) : Issue :=
  { i with
    severity := Severity.ofStatus i.status
    polyfill := some (Catalog.hasPolyfill i.feature)
    alternative := Catalog.alternative? i.feature }

/-- Line and column, if they are known. -/
def location (i : Issue) : String :=
  match i.line, i.column with
  | some line, some column => Decimal.natText line ++ ":" ++ Decimal.natText column
  | some line, none => Decimal.natText line
  | none, _ => "-"

end Issue

/-- The issues of a file. -/
structure FileIssues where
  path : Files.Path
  issues : List Issue
  deriving DecidableEq, Repr, Inhabited

end WebBaseline.Report

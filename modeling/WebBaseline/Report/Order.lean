/-
  WebBaseline.Report.Order

  The issues of a file in the order of their severity. Issues of one severity
  keep the order they were in.
-/

import WebBaseline.Report.Issue

namespace WebBaseline.Report

/-- The place of an issue: severe ones first, those without a severity last. -/
def Issue.urgency (i : Issue) : Nat :=
  match i.severity with
  | some .high => 0
  | some .medium => 1
  | some .low => 2
  | none => 3

/-- The file with its issues in the order of their severity. -/
def FileIssues.sorted (f : FileIssues) : FileIssues :=
  { f with issues := f.issues.mergeSort (fun a b => a.urgency ≤ b.urgency) }

/-- Every file with its issues in the order of their severity. -/
def sortBySeverity (files : List FileIssues) : List FileIssues := files.map FileIssues.sorted

end WebBaseline.Report

/-
  WebBaseline.Report.Exit

  The code with which a scan ends, by the worst severity that it found.
-/

import WebBaseline.Report.Summary

namespace WebBaseline.Report

/-- The code for a severity. -/
def Severity.code : Severity → Nat
  | .high => 2
  | .medium => 3
  | .low => 4

/-- The code of a scan. Without a threshold, or with nothing at or above it, the
    scan succeeds. -/
def exitCode (s : Summary) (threshold : Option Severity) : Nat :=
  match threshold, s.worstSeverity with
  | some limit, some worst => if limit.rank ≤ worst.rank then worst.code else 0
  | _, _ => 0

end WebBaseline.Report

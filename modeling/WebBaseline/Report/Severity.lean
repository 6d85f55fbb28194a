/-
  WebBaseline.Report.Severity

  How much an issue matters, by the status of its feature.
-/

import WebBaseline.Baseline.Status
import WebBaseline.Json.Record

namespace WebBaseline.Report

open WebBaseline.Baseline (Status)
open WebBaseline.Json (Value)

/-- How much an issue matters. -/
inductive Severity where
  | low
  | medium
  | high
  deriving DecidableEq, Repr, Inhabited

namespace Severity

/-- All severities, the least first. -/
def all : List Severity := [low, medium, high]

/-- The severity of a status; an unknown status has none. -/
def ofStatus : Status → Option Severity
  | .limited => some high
  | .newly => some medium
  | .widely => some low
  | .unknown => none

/-- The place of a severity among all, from the least. -/
def rank : Severity → Nat
  | low => 0
  | medium => 1
  | high => 2

/-- The word for a severity. -/
def word : Severity → String
  | low => "low"
  | medium => "medium"
  | high => "high"

/-- The severity of a word. -/
def ofWord? (s : String) : Option Severity := all.find? (fun t => t.word == s)

/-- A severity by its word. -/
def toValue (s : Severity) : Value := .str s.word

/-- The severity that a value names. -/
def ofValue? : Value → Option Severity := Value.variant? ofWord?

theorem ofWord?_word (s : Severity) : ofWord? s.word = some s := by
  cases s <;> decide

end Severity

end WebBaseline.Report

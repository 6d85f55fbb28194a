/-
  WebBaseline.Baseline.Status

  How widely a web feature can be used, what data sources say about that, and
  which statuses a report shows at each level.
-/

import WebBaseline.Text.Lowercase

namespace WebBaseline.Baseline

/-! ## Tiers and statuses -/

/-- What a data source says about a feature. -/
inductive Tier where
  /-- Every core browser has had it for long enough. -/
  | high
  /-- Every core browser has it by now. -/
  | low
  /-- Some core browser lacks it. -/
  | notBaseline
  deriving DecidableEq, Repr, Inhabited

/-- How widely a feature can be used. -/
inductive Status where
  | widely
  | newly
  | limited
  | unknown
  deriving DecidableEq, Repr, Inhabited

namespace Status

/-- All statuses, those with the least risk first. -/
def all : List Status := [widely, newly, limited, unknown]

/-- The status of a tier. Where nothing is said the status is unknown. -/
def ofTier : Option Tier → Status
  | some .high => widely
  | some .low => newly
  | some .notBaseline => limited
  | none => unknown

/-- The status in words. -/
def text : Status → String
  | widely => "Widely available"
  | newly => "Newly available"
  | limited => "Limited"
  | unknown => "Unknown"

/-- The status that words stand for. -/
def ofText? (s : String) : Option Status := all.find? (fun t => t.text == s)

/-- A sign for the status. -/
def icon : Status → String
  | widely => "✅"
  | newly => "⚠️"
  | limited => "❌"
  | unknown => "❓"

/-- The risk of using a feature, least first. An unknown status has none. -/
def risk : Status → Option Nat
  | widely => some 0
  | newly => some 1
  | limited => some 2
  | unknown => none

/-- Whether the status says anything. -/
def isDefinite (s : Status) : Bool := s != unknown

theorem ofText?_text (s : Status) : ofText? s.text = some s := by
  cases s <;> decide

theorem isDefinite_iff {s : Status} : s.isDefinite = true ↔ s ≠ unknown := by
  cases s <;> decide

end Status

/-! ## Levels -/

/-- Which statuses a report shows. -/
inductive Level where
  /-- Only what is not baseline. -/
  | widely
  /-- All that is not widely available. -/
  | newly
  /-- Everything. -/
  | all
  deriving DecidableEq, Repr, Inhabited

/-- A word that stands for no level. -/
structure UnknownLevel where
  word : String
  deriving DecidableEq, Repr, Inhabited

/-- What is wrong with the word. -/
def UnknownLevel.message (e : UnknownLevel) : String :=
  "Unknown baseline level: " ++ e.word ++ ". Use: widely, newly, all"

namespace Level

/-- All levels, the strictest first. -/
def levels : List Level := [widely, newly, all]

/-- Whether a report at this level shows a status. -/
def shows : Level → Status → Bool
  | all, _ => true
  | newly, s => s != .widely
  | widely, s => s == .limited

/-- The word for a level. -/
def word : Level → String
  | widely => "widely"
  | newly => "newly"
  | all => "all"

/-- The level of exactly this word. -/
def ofWord? (s : String) : Option Level := levels.find? (fun l => l.word == s)

/-- The level of a word in letters of any case. -/
def parse (s : String) : Except UnknownLevel Level :=
  match ofWord? (Text.lowercase s) with
  | some l => .ok l
  | none => .error ⟨s⟩

theorem ofWord?_word (l : Level) : ofWord? l.word = some l := by
  cases l <;> decide

end Level

end WebBaseline.Baseline

/-
  WebBaseline.Lookup.Outcome

  What a source answers when it is asked about a feature.
-/

import WebBaseline.Baseline.Info

namespace WebBaseline.Lookup

open WebBaseline.Baseline (Info)

/-- What a source answers. -/
inductive Outcome where
  | found (info : Info)
  /-- The source does not know the feature. -/
  | noResult
  /-- The source did not answer in time. -/
  | timedOut
  | failed
  deriving DecidableEq, Inhabited

/-- The kinds of answers. -/
inductive OutcomeKind where
  | found
  | noResult
  | timedOut
  | failed
  deriving DecidableEq, Repr, Inhabited

namespace OutcomeKind

/-- The word for a kind of answer. -/
def word : OutcomeKind → String
  | found => "found"
  | noResult => "none"
  | timedOut => "timeout"
  | failed => "failed"

/-- Whether a later attempt may end otherwise. -/
def isTransient (k : OutcomeKind) : Bool := k == timedOut || k == failed

end OutcomeKind

namespace Outcome

/-- The kind of an answer. -/
def kind : Outcome → OutcomeKind
  | found _ => .found
  | noResult => .noResult
  | timedOut => .timedOut
  | failed => .failed

/-- The answer of a source that knows the feature or not. -/
def ofInfo? : Option Info → Outcome
  | some info => found info
  | none => noResult

/-- What was found, if it says anything. -/
def definite? : Outcome → Option Info
  | found info => if info.status.isDefinite then some info else none
  | _ => none

theorem definite?_eq_some_iff {o : Outcome} {info : Info} :
    o.definite? = some info ↔ o = found info ∧ info.status.isDefinite = true := by
  cases o with
  | found i =>
    rw [definite?]
    split <;> grind
  | _ => simp [definite?]

end Outcome

end WebBaseline.Lookup

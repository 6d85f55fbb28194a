/-
  WebBaseline.Lookup.Source

  Sources that can be asked about features. A source may change a state with
  every question; those that come with the library do not.
-/

import WebBaseline.Lookup.Bundled.Browsers
import WebBaseline.Lookup.Bundled.Features
import WebBaseline.Lookup.Outcome

namespace WebBaseline.Lookup

open WebBaseline.Calendar (Date)

/-- Something with a name that answers questions about features. -/
structure Source (σ : Type) where
  name : String
  ask : String → σ → Outcome × σ

namespace Source

variable {σ : Type}

/-- A source that always gives the same answer to the same question. -/
def fixed (name : String) (answer : String → Outcome) : Source σ where
  name := name
  ask feature s := (answer feature, s)

/-- A dataset as a source. -/
def ofDataset (d : Dataset) : Source σ := fixed "local" (fun f => .ofInfo? (d.lookup f))

/-- Facts about browsers as a source. -/
def ofFacts (facts : SupportFacts) (today : Date) : Source σ :=
  fixed "computed" (fun f => .ofInfo? (facts.lookup today f))

/-- The sources that come with the library: its dataset first. -/
def offline (today : Date) : List (Source σ) :=
  [ofDataset Dataset.bundled, ofFacts SupportFacts.bundled today]

end Source

end WebBaseline.Lookup

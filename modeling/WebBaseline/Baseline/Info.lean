/-
  WebBaseline.Baseline.Info

  What is known about one feature: its status, since when, in which browsers.
-/

import WebBaseline.Baseline.Status
import WebBaseline.Data.KeyMap

namespace WebBaseline.Baseline

open WebBaseline.Data (KeyMap)

/-- What is known about a feature. -/
structure Info where
  status : Status
  /-- Since when every core browser has it. -/
  lowDate : Option String := none
  /-- Since when it is widely available. -/
  highDate : Option String := none
  /-- The first version of each browser that has it. -/
  support : Option (KeyMap String) := none
  description : Option String := none
  spec : Option String := none
  deriving DecidableEq, Inhabited

namespace Info

/-- Nothing but a status. -/
def ofStatus (status : Status) : Info := { status := status }

/-- The answer for a feature that nobody knows. -/
def unknown (feature : String) : Info :=
  { status := .unknown
    description := some ("No baseline information found for " ++ feature) }

/-- The date that matters for the status. -/
def since (info : Info) : Option String :=
  match info.status with
  | .widely => info.highDate
  | .newly => info.lowDate
  | _ => none

end Info

end WebBaseline.Baseline

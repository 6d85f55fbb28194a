/-
  WebBaseline.Settings.Basic

  What a user can set once and for all.
-/

import WebBaseline.Scan.Options

namespace WebBaseline

open WebBaseline.Baseline (Level)
open WebBaseline.Scan (Options)

/-- The settings of a user. -/
structure Settings where
  /-- Which statuses are reported. -/
  level : Level := .newly
  includes : List String := ({} : Options).includes
  excludes : List String := ({} : Options).excludes
  /-- Whether the search service is asked. -/
  remote : Bool := true
  /-- How long the service may take for an answer, in seconds. -/
  timeout : UInt64 := 5
  /-- How long its answers are kept, in hours. -/
  keepHours : UInt64 := 24
  /-- The format of reports where none is asked for. -/
  format : String := "table"
  deriving DecidableEq, Repr, Inhabited

namespace Settings

/-- The settings where nothing is set. -/
def plain : Settings := {}

/-- The options of a scan with these settings. -/
def scanOptions (s : Settings) : Options :=
  { includes := s.includes, excludes := s.excludes, level := some s.level }

end Settings

end WebBaseline

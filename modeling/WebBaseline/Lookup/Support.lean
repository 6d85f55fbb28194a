/-
  WebBaseline.Lookup.Support

  Which version of each browser brought a feature, and the status that follows:
  a feature that every core browser has is newly available, and widely
  available thirty months after the last of them got it.
-/

import WebBaseline.Baseline.Info
import WebBaseline.Calendar.Date
import WebBaseline.Feature.Catalog

namespace WebBaseline.Lookup

open WebBaseline.Baseline (Info Status)
open WebBaseline.Calendar (Date)
open WebBaseline.Data (KeyMap)
open WebBaseline.Feature.Catalog (coreBrowsers)

/-! ## Facts -/

/-- What is said about a feature in one browser. -/
inductive VersionAdded where
  | version (text : String)
  /-- Anything that is no version. -/
  | unreleased
  deriving DecidableEq, Inhabited

namespace VersionAdded

/-- The released version, without marks that say it may be an earlier one. -/
def released? : VersionAdded → Option String
  | version text =>
    if text = "preview" then none else some (String.ofList (text.toList.dropWhile (· == '≤')))
  | unreleased => none

end VersionAdded

/-- Facts about browsers. -/
structure SupportFacts where
  /-- When each version of a browser was released. -/
  releases : KeyMap (KeyMap String)
  /-- What brought a feature to each browser, by the feature's compat key. -/
  features : KeyMap (KeyMap VersionAdded)
  deriving Inhabited

/-! ## Status -/

/-- How long a feature must be in every core browser to be widely available. -/
def monthsToWidely : Nat := 30

/-- The standing of a feature that every core browser has since a day. Where the
    calendar ends before the feature could be widely available there is none. -/
def sinceLast? (low today : Date) : Option Info :=
  (low.addMonths monthsToWidely).map (fun high =>
    if high ≤ today then
      { status := .widely, lowDate := some low.text, highDate := some high.text }
    else
      { status := .newly, lowDate := some low.text })

namespace SupportFacts

/-- When a version of a browser was released. -/
def releaseDate? (facts : SupportFacts) (browser version : String) : Option Date :=
  ((facts.releases.get? browser).bind (fun r => r.get? version)).bind Date.ofText?

/-- A browser with the version that brought a feature to it. -/
def supporter? (versions : KeyMap VersionAdded) (browser : String) : Option (String × String) :=
  ((versions.get? browser).bind VersionAdded.released?).map (fun v => (browser, v))

/-- The core browsers that have a feature, with the versions that brought it. -/
def supporters (versions : KeyMap VersionAdded) : List (String × String) :=
  coreBrowsers.filterMap (supporter? versions)

/-- The same up to the first core browser that lacks the feature. -/
def leadingSupporters (versions : KeyMap VersionAdded) : List (String × String) :=
  (coreBrowsers.takeWhile (fun b => (supporter? versions b).isSome)).filterMap
    (supporter? versions)

/-- What the facts say about a compat key. Nothing, if the key is not there, or
    if no release date is known for a browser before which none lacks the
    feature. -/
def compute? (facts : SupportFacts) (today : Date) (key : String) : Option Info := do
  let versions ← facts.features.get? key
  let dates ← (leadingSupporters versions).mapM (fun s => facts.releaseDate? s.1 s.2)
  let info ←
    match dates with
    | d :: ds =>
      if coreBrowsers.length ≤ dates.length then sinceLast? (ds.foldl Date.latest d) today
      else some (Info.ofStatus .limited)
    | [] => some (Info.ofStatus .limited)
  return { info with
    support := some (KeyMap.ofList (supporters versions))
    description := some ("Computed from browser support for " ++ key) }

/-- What the facts say about a feature, if it has a compat key. -/
def lookup (facts : SupportFacts) (today : Date) (feature : String) : Option Info :=
  (Feature.Catalog.compatKey? feature).bind (facts.compute? today)

end SupportFacts

end WebBaseline.Lookup

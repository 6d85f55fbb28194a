/-
  WebBaseline.Lookup.Encoding

  Datasets and facts about browsers, read from JSON.
-/

import WebBaseline.Baseline.Encoding
import WebBaseline.Json.Parser
import WebBaseline.Lookup.Dataset
import WebBaseline.Lookup.Support

namespace WebBaseline.Lookup

open WebBaseline.Baseline (Tier textMapOfValue?)
open WebBaseline.Data (KeyMap)
open WebBaseline.Json (Record Value)

/-! ## Datasets -/

/-- What an entry says about its tier: a text or a truth value, though not each
    of them names one. -/
def tierOfValue? : Value → Option (Option Tier)
  | .str "high" => some (some .high)
  | .str "low" => some (some .low)
  | .bool false => some (some .notBaseline)
  | .str _ => some none
  | .bool true => some none
  | _ => none

/-- The standing that an object gives. -/
def Standing.ofValue? (v : Value) : Option Standing := do
  let r ← Record.ofValue? ["baseline", "baseline_low_date", "baseline_high_date", "support"] v
  return {
    tier := ← r.required "baseline" tierOfValue?
    lowDate := ← r.optionalOrElse "baseline_low_date" Value.text?
    highDate := ← r.optionalOrElse "baseline_high_date" Value.text?
    support := ← r.orElse "support" KeyMap.empty textMapOfValue? }

/-- The entry that an object gives. -/
def Entry.ofValue? (v : Value) : Option Entry := do
  let r ← Record.ofValue? ["name", "description", "spec", "compat_features", "status"] v
  return {
    name := ← r.required "name" Value.text?
    description := ← r.optionalOrElse "description" Value.text?
    spec := ← r.optionalOrElse "spec" Value.text?
    aliases := ← r.orElse "compat_features" [] (Value.list? Value.text?)
    standing := ← r.optionalOrElse "status" Standing.ofValue? }

/-- A map whose values are read one by one; of repeated names the last counts. -/
def mapOfValue? {α : Type} (read : Value → Option α) (v : Value) : Option (KeyMap α) :=
  (Value.members? read v).map KeyMap.ofList

/-- The dataset that an object gives, entry by entry. -/
def Dataset.ofValue? (v : Value) : Option Dataset := do
  let r ← Record.ofValue? ["features"] v
  return { entries := ← r.required "features" (mapOfValue? Entry.ofValue?) }

/-! ## Facts about browsers -/

/-- How many objects lie around what is said about one feature in one browser. -/
def versionDepth : Nat := 4

/-- A version, or that there is none. -/
def VersionAdded.ofValue? : Value → Option VersionAdded
  | .str text => some (.version text)
  | v => (v.any? versionDepth).map (fun _ => .unreleased)

/-- The one field of a record. -/
def soleField? {α : Type} (name : String) (read : Value → Option α) (v : Value) : Option α := do
  (← Record.ofValue? [name] v).required name read

/-- The facts that an object gives. -/
def SupportFacts.ofValue? (v : Value) : Option SupportFacts := do
  let r ← Record.ofValue? ["browsers", "features"] v
  return {
    releases := ← r.required "browsers" (mapOfValue? (soleField? "releases" textMapOfValue?))
    features := ← r.required "features"
      (mapOfValue? (soleField? "version_added" (mapOfValue? VersionAdded.ofValue?))) }

end WebBaseline.Lookup

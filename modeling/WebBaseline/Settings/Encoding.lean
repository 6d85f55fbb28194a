/-
  WebBaseline.Settings.Encoding

  Settings as JSON and as TOML. What is not given keeps its usual value; names
  that are not known are passed over.
-/

import WebBaseline.Baseline.Encoding
import WebBaseline.Settings.Basic
import WebBaseline.Toml.Reader
import WebBaseline.Toml.Writer

namespace WebBaseline

open WebBaseline.Baseline (Level)
open WebBaseline.Json (Record)

namespace Settings

/-- The names of the settings, in order. -/
def names : List String :=
  ["baseline_level", "include", "exclude", "remote_lookup", "remote_timeout_secs",
    "cache_ttl_hours", "default_format"]

/-! ## JSON -/

/-- The settings as a JSON object. -/
def toJson (s : Settings) : Json.Value :=
  .obj [("baseline_level", s.level.toValue), ("include", .arr (s.includes.map .str)),
    ("exclude", .arr (s.excludes.map .str)), ("remote_lookup", .bool s.remote),
    ("remote_timeout_secs", .int s.timeout.toNat), ("cache_ttl_hours", .int s.keepHours.toNat),
    ("default_format", .str s.format)]

/-- A number of at most 64 bits. -/
def word? (v : Json.Value) : Option UInt64 := (Json.Value.count? v).map UInt64.ofNat

/-- A list of texts. -/
def texts? : Json.Value → Option (List String) := Json.Value.list? Json.Value.text?

/-- The settings that a JSON value gives. -/
def ofJson? (v : Json.Value) : Option Settings := do
  let r ← Record.ofValue? names v
  return {
    level := ← r.orElse "baseline_level" plain.level Level.ofValue?
    includes := ← r.orElse "include" plain.includes texts?
    excludes := ← r.orElse "exclude" plain.excludes texts?
    remote := ← r.orElse "remote_lookup" plain.remote Json.Value.bool?
    timeout := ← r.orElse "remote_timeout_secs" plain.timeout word?
    keepHours := ← r.orElse "cache_ttl_hours" plain.keepHours word?
    format := ← r.orElse "default_format" plain.format Json.Value.text? }

/-! ## TOML -/

/-- The settings as pairs. -/
def pairs (s : Settings) : List (String × Toml.Plain) :=
  [("baseline_level", .text s.level.word), ("include", .texts s.includes),
    ("exclude", .texts s.excludes), ("remote_lookup", .boolean s.remote),
    ("remote_timeout_secs", .integer s.timeout.toNat),
    ("cache_ttl_hours", .integer s.keepHours.toNat),
    ("default_format", .text s.format)]

/-- The settings as a TOML document, unless a number is too great for one. -/
def toToml? (s : Settings) : Option String := Toml.write? s.pairs

/-- A level by its word, which may also be the only key of a table that holds
    nothing under it. -/
def levelOfToml? : Toml.Value → Option Level
  | .text s => Level.ofWord? s
  | .table [(s, v)] => if v.isVoid then Level.ofWord? s else none
  | _ => none

/-- The value under a key, or else what it usually is. -/
def givenOr {α : Type} (entries : List (String × Toml.Value)) (name : String) (fallback : α)
    (read : Toml.Value → Option α) : Option α :=
  match entries.lookup name with
  | some v => read v
  | none => some fallback

/-- A number that is not negative. -/
def wordOfToml? (v : Toml.Value) : Option UInt64 := v.nat?.map UInt64.ofNat

/-- The settings of a table. -/
def ofEntries? (entries : List (String × Toml.Value)) : Option Settings := do
  return {
    level := ← givenOr entries "baseline_level" plain.level levelOfToml?
    includes := ← givenOr entries "include" plain.includes Toml.Value.texts?
    excludes := ← givenOr entries "exclude" plain.excludes Toml.Value.texts?
    remote := ← givenOr entries "remote_lookup" plain.remote Toml.Value.boolean?
    timeout := ← givenOr entries "remote_timeout_secs" plain.timeout wordOfToml?
    keepHours := ← givenOr entries "cache_ttl_hours" plain.keepHours wordOfToml?
    format := ← givenOr entries "default_format" plain.format Toml.Value.text? }

/-- The settings of a TOML document. -/
def ofToml? (text : String) : Option Settings := (Toml.parse text).bind ofEntries?

end Settings

end WebBaseline

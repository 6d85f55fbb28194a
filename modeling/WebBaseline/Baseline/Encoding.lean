/-
  WebBaseline.Baseline.Encoding

  Statuses, levels and what is known about features, as JSON.
-/

import WebBaseline.Baseline.Info
import WebBaseline.Json.Record

namespace WebBaseline.Baseline

open WebBaseline.Data (KeyMap)
open WebBaseline.Json (Record Value)

/-! ## Statuses and levels -/

/-- A status by its words. -/
def Status.toValue (s : Status) : Value := .str s.text

/-- The status that a value names. -/
def Status.ofValue? : Value → Option Status := Value.variant? Status.ofText?

/-- A level by its word. -/
def Level.toValue (l : Level) : Value := .str l.word

/-- The level that a value names. -/
def Level.ofValue? : Value → Option Level := Value.variant? Level.ofWord?

/-! ## Maps of texts -/

/-- A map of texts as an object. -/
def textMapToValue (m : KeyMap String) : Value :=
  .obj (m.entries.map (fun e => (e.1, .str e.2)))

/-- An object of texts as a map; of repeated names the last one counts. -/
def textMapOfValue? (v : Value) : Option (KeyMap String) :=
  (Value.members? Value.text? v).map KeyMap.ofList

/-! ## What is known about a feature -/

namespace Info

/-- The fields that are there, in order. -/
def fields (info : Info) : List (String × Value) :=
  ("status", info.status.toValue) ::
    (Value.given "lowDate" .str info.lowDate ++
      Value.given "highDate" .str info.highDate ++
      Value.given "support" textMapToValue info.support ++
      Value.given "description" .str info.description ++
      Value.given "spec" .str info.spec)

/-- What is known about a feature, as an object. -/
def toValue (info : Info) : Value := .obj info.fields

/-- What an object says about a feature. -/
def ofValue? (v : Value) : Option Info := do
  let r ← Record.ofValue?
    ["status", "lowDate", "highDate", "support", "description", "spec"] v
  return {
    status := ← r.required "status" Status.ofValue?
    lowDate := ← r.optional "lowDate" Value.text?
    highDate := ← r.optional "highDate" Value.text?
    support := ← r.optional "support" textMapOfValue?
    description := ← r.optional "description" Value.text?
    spec := ← r.optional "spec" Value.text? }

end Info

end WebBaseline.Baseline

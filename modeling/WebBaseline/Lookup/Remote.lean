/-
  WebBaseline.Lookup.Remote

  A search service as a source. A feature is searched in up to three ways, one
  after the other; the first hit of the first search that has one counts. A
  definite hit is kept on disk, and what is there is not searched again.
-/

import WebBaseline.Baseline.Encoding
import WebBaseline.Lookup.Source
import WebBaseline.Store.DiskCache

namespace WebBaseline.Lookup

open WebBaseline.Baseline (Info Status Tier)
open WebBaseline.Files (Disk)
open WebBaseline.Json (Record Value)
open WebBaseline.Store (DiskCache)

/-! ## Hits -/

/-- What a hit says about the standing of a feature. -/
structure HitStanding where
  status : Option String := none
  lowDate : Option String := none
  highDate : Option String := none
  deriving DecidableEq, Inhabited

/-- A feature as the service describes it. -/
structure Hit where
  name : Option String := none
  standing : Option HitStanding := none
  /-- Where the feature is specified, as far as a link says so. -/
  links : List (Option String) := []
  deriving DecidableEq, Inhabited

/-- The tier of a word of the service. -/
def tierOfWord? : String → Option Tier
  | "widely" => some .high
  | "newly" => some .low
  | "limited" => some .notBaseline
  | _ => none

namespace Hit

/-- What a hit says. -/
def info (h : Hit) : Info where
  status := Status.ofTier (h.standing.bind (fun s => s.status.bind tierOfWord?))
  lowDate := h.standing.bind HitStanding.lowDate
  highDate := h.standing.bind HitStanding.highDate
  description := h.name
  spec := h.links.findSome? id

end Hit

/-! ## Reading what the service sends -/

/-- The standing that a hit gives. -/
def HitStanding.ofValue? (v : Value) : Option HitStanding := do
  let r ← Record.ofValue? ["status", "low_date", "high_date"] v
  return {
    status := ← r.optionalOrElse "status" Value.text?
    lowDate := ← r.optionalOrElse "low_date" Value.text?
    highDate := ← r.optionalOrElse "high_date" Value.text? }

/-- A member under the first of two names that mean the same. -/
def renamed (name other : String) : Value → Value
  | .obj members => .obj (members.map (fun m => (if m.1 = other then name else m.1, m.2)))
  | v => v

/-- The address of a link, under either of its names. -/
def linkOfValue? (v : Value) : Option (Option String) := do
  let r ← Record.ofValue? ["url"] (renamed "url" "link" v)
  r.optionalOrElse "url" Value.text?

/-- The links of a hit, each of which may lack its address. -/
def linksOfValue? (v : Value) : Option (List (Option String)) := do
  let r ← Record.ofValue? ["links"] v
  r.orElse "links" [] (Value.list? linkOfValue?)

/-- The hit that an object gives. -/
def Hit.ofValue? (v : Value) : Option Hit := do
  let r ← Record.ofValue? ["name", "baseline", "spec"] v
  return {
    name := ← r.optionalOrElse "name" Value.text?
    standing := ← r.optionalOrElse "baseline" HitStanding.ofValue?
    links := (← r.optionalOrElse "spec" linksOfValue?).getD [] }

/-- The hits in what the service sends. -/
def hitsOfText? (body : String) : Option (List Hit) := do
  let r ← Record.ofValue? ["data"] (← Json.parse body)
  r.orElse "data" [] (Value.list? Hit.ofValue?)

/-! ## The service -/

/-- What becomes of one request. -/
inductive Reply where
  /-- There is no answer in time. -/
  | hang
  /-- The service is out of reach. -/
  | unreachable
  | answer (status : Nat) (body : String)
  deriving DecidableEq, Repr, Inhabited

/-- A service answers queries, and may change with each. -/
abbrev Service (σ : Type) := String → σ → Reply × σ

/-- Whether a status stands for an error, of the one who asks or of the service. -/
def isErrorStatus (status : Nat) : Bool := 400 ≤ status && status < 600

namespace Reply

/-- What a reply says about the feature searched for. -/
def outcome : Reply → Outcome
  | hang => .timedOut
  | unreachable => .failed
  | answer status body =>
    if isErrorStatus status then .failed
    else
      match hitsOfText? body with
      | none => .failed
      | some [] => .noResult
      | some (hit :: _) => .found hit.info

end Reply

/-! ## Searching -/

/-- A name with blanks for hyphens and underscores. -/
def spaced (feature : String) : String :=
  String.ofList (feature.toList.map (fun c => if c == '-' || c == '_' then ' ' else c))

/-- The searches for a feature, in order. -/
def queries (feature : String) : List String :=
  ["id:" ++ feature, "name:" ++ feature, spaced feature]

variable {σ : Type}

/-- Searches up to the first hit. Without one, the last search that went wrong
    counts, if any did. -/
def searchInTurn (service : Service σ) : List String → Outcome → σ → Outcome × σ
  | [], last, s => (last, s)
  | query :: rest, last, s =>
    let (reply, s) := service query s
    match reply.outcome with
    | .found info => (.found info, s)
    | .noResult => searchInTurn service rest last s
    | outcome => searchInTurn service rest outcome s

/-- Searches for a feature. -/
def search (service : Service σ) (feature : String) (s : σ) : Outcome × σ :=
  searchInTurn service (queries feature) .noResult s

/-! ## The source -/

/-- The key under which what is known about a feature is kept. -/
def cacheKey (feature : String) : String := "webstatus_" ++ feature

/-- What is kept about a feature. -/
def kept (cache : Option DiskCache) (feature : String) (d : Disk) : Option Info × Disk :=
  match cache with
  | some c => c.get Info.ofValue? (cacheKey feature) d
  | none => (none, d)

/-- The disk after keeping what is definite. -/
def keep (cache : Option DiskCache) (feature : String) (outcome : Outcome) (d : Disk) : Disk :=
  match cache, outcome.definite? with
  | some c, some info => (c.set (cacheKey feature) info.toValue d).2
  | _, _ => d

/-- Asks the service about a feature, unless the answer is kept. -/
def attemptRemote (service : Service σ) (cache : Option DiskCache) (feature : String)
    (s : Disk × σ) : Outcome × Disk × σ :=
  match kept cache feature s.1 with
  | (some info, d) => (.found info, d, s.2)
  | (none, d) =>
    let (outcome, t) := search service feature s.2
    (outcome, keep cache feature outcome d, t)

/-- The service as a source. -/
def Source.remote (service : Service σ) (cache : Option DiskCache) : Source (Disk × σ) where
  name := "remote"
  ask := attemptRemote service cache

end WebBaseline.Lookup

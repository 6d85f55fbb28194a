/-
  WebBaseline.Lookup.Resolver

  Asks sources in order about a feature until one of them says something
  definite, and remembers what does not change by asking again: a definite
  answer, or that no source knows the feature.
-/

import WebBaseline.Lookup.Source

namespace WebBaseline.Lookup

open WebBaseline.Baseline (Info)
open WebBaseline.Data (KeyMap)

variable {σ : Type}

/-! ## Asking in turn -/

/-- That a source was asked, and how it answered. -/
structure Attempt where
  source : String
  outcome : OutcomeKind
  deriving DecidableEq, Repr, Inhabited

/-- What came of asking sources in turn. -/
structure Inquiry where
  attempts : List Attempt
  /-- The source that said something definite, and what it said. -/
  answer : Option (String × Info)
  deriving DecidableEq, Inhabited

/-- Asks one source after the other, up to the first definite answer. -/
def askInTurn (feature : String) : List (Source σ) → σ → Inquiry × σ
  | [], s => (⟨[], none⟩, s)
  | source :: rest, s =>
    let (outcome, s) := source.ask feature s
    let attempt : Attempt := ⟨source.name, outcome.kind⟩
    match outcome.definite? with
    | some info => (⟨[attempt], some (source.name, info)⟩, s)
    | none =>
      let (inquiry, s) := askInTurn feature rest s
      ({ inquiry with attempts := attempt :: inquiry.attempts }, s)

/-! ## Resolving -/

/-- What is known about a feature after resolving it, and where from. -/
structure Resolution where
  info : Info
  /-- The source that said so just now. -/
  source : Option String
  /-- Whether it was remembered. -/
  cached : Bool
  attempts : List Attempt
  deriving DecidableEq, Inhabited

namespace Resolution

/-- What was remembered. -/
def ofMemory (info : Info) : Resolution :=
  { info := info, source := none, cached := true, attempts := [] }

/-- What came of asking. -/
def ofInquiry (feature : String) (q : Inquiry) : Resolution :=
  match q.answer with
  | some (source, info) =>
    { info := info, source := some source, cached := false, attempts := q.attempts }
  | none =>
    { info := Info.unknown feature, source := none, cached := false, attempts := q.attempts }

/-- Whether some source could not answer, but may do so later. -/
def isTransient (r : Resolution) : Bool := r.attempts.any (fun a => a.outcome.isTransient)

/-- What is worth remembering: a definite answer, or that no source knows the
    feature. -/
def lasting? (r : Resolution) : Option Info :=
  if r.cached then none
  else if r.source.isSome || r.attempts.all (fun a => a.outcome == .noResult) then some r.info
  else none

end Resolution

/-- What has been resolved so far. -/
abbrev Memory := KeyMap Info

/-- A memory with one more answer, if it is there. -/
def Memory.keep (m : Memory) (feature : String) : Option Info → Memory
  | some info => m.insert feature info
  | none => m

/-- Resolves a feature: from memory, or else by asking. -/
def resolve (sources : List (Source σ)) (feature : String) (m : Memory) (s : σ) :
    Resolution × Memory × σ :=
  match m.get? feature with
  | some info => (Resolution.ofMemory info, m, s)
  | none =>
    let (inquiry, s) := askInTurn feature sources s
    let r := Resolution.ofInquiry feature inquiry
    (r, Memory.keep m feature r.lasting?, s)

/-- Resolves features one after the other. -/
def resolveAll (sources : List (Source σ)) :
    List String → Memory → σ → List Info × Memory × σ
  | [], m, s => ([], m, s)
  | feature :: rest, m, s =>
    let (r, m, s) := resolve sources feature m s
    let (infos, m, s) := resolveAll sources rest m s
    (r.info :: infos, m, s)

end WebBaseline.Lookup

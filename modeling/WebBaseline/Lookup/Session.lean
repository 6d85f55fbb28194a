/-
  WebBaseline.Lookup.Session

  Calls for features that are under way at the same time and share a memory. A
  call goes in steps: it reads the memory, asks one source after the other, and
  writes what is worth remembering. Between two steps of a call any other calls
  may go on, and each step finds what the steps before it have left.
-/

import WebBaseline.Lookup.Resolver

namespace WebBaseline.Lookup

variable {σ : Type}

/-! ## Stages of a call -/

/-- How far a call has come. -/
inductive Stage (σ : Type) where
  /-- The memory has not been read yet. -/
  | fresh
  /-- Nothing was remembered. Some sources have been asked; one is next. -/
  | asking (attempts : List Attempt) (next : Source σ) (later : List (Source σ))
  /-- All is known that sources say; it has not been written yet. -/
  | writing (r : Resolution)
  | finished (r : Resolution)

namespace Stage

/-- What the call has returned. -/
def result? : Stage σ → Option Resolution
  | finished r => some r
  | _ => none

/-- Whether the memory has been read without success and may still be written. -/
def isUnderWay : Stage σ → Bool
  | asking _ _ _ => true
  | writing _ => true
  | _ => false

/-- The stage of a call that has found nothing definite, with some sources left. -/
def askNext (feature : String) (attempts : List Attempt) : List (Source σ) → Stage σ
  | [] => writing (Resolution.ofInquiry feature ⟨attempts, none⟩)
  | next :: later => asking attempts next later

/-- One step of a call for a feature. -/
def step (sources : List (Source σ)) (feature : String) (m : Memory) (s : σ) :
    Stage σ → Stage σ × Memory × σ
  | fresh =>
    match m.get? feature with
    | some info => (finished (Resolution.ofMemory info), m, s)
    | none => (askNext feature [] sources, m, s)
  | asking attempts next later =>
    let (outcome, s) := next.ask feature s
    let attempts := attempts ++ [⟨next.name, outcome.kind⟩]
    match outcome.definite? with
    | some info =>
      (writing (Resolution.ofInquiry feature ⟨attempts, some (next.name, info)⟩), m, s)
    | none => (askNext feature attempts later, m, s)
  | writing r => (finished r, m.keep feature r.lasting?, s)
  | finished r => (finished r, m, s)

end Stage

/-! ## Sessions -/

/-- A call that may still be under way. -/
structure OngoingCall (σ : Type) where
  feature : String
  stage : Stage σ

/-- Calls with the memory and the state of the sources that they share. -/
structure Session (σ : Type) where
  memory : Memory
  world : σ
  calls : List (OngoingCall σ)

namespace Session

/-- Calls for some features, none of which has done anything yet. -/
def start (features : List String) (m : Memory) (s : σ) : Session σ where
  memory := m
  world := s
  calls := features.map (fun feature => ⟨feature, .fresh⟩)

/-- One step of the call with a number, if there is such a call. -/
def step (sources : List (Source σ)) (st : Session σ) (i : Nat) : Session σ :=
  match st.calls[i]? with
  | none => st
  | some c =>
    let (stage, m, s) := c.stage.step sources c.feature st.memory st.world
    { memory := m, world := s, calls := st.calls.set i { c with stage := stage } }

/-- The steps of a schedule, which names the call that each step is of. -/
def run (sources : List (Source σ)) (schedule : List Nat) (st : Session σ) : Session σ :=
  schedule.foldl (step sources) st

/-- What a call has returned. -/
def result? (st : Session σ) (i : Nat) : Option Resolution :=
  st.calls[i]?.bind (fun c => c.stage.result?)

/-- Whether all calls have returned. -/
def isFinished (st : Session σ) : Bool := st.calls.all (fun c => c.stage.result?.isSome)

end Session

end WebBaseline.Lookup

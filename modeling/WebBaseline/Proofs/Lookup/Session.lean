/-
  WebBaseline.Proofs.Lookup.Session

  What the steps of calls do that share a memory, in any order.

    * one step touches its own call only (`calls_step_of_ne`), and the memory
      only where that call writes (`memory_step_cases`);
    * a call that goes on alone comes to what `resolve` returns
      (`run_alone_eq_resolve`), and a call that is given enough steps has
      returned, whatever the others do (`result?_isSome_of_count`);
    * a call that may still write has found nothing in the memory at a step of
      its own (`exists_read_of_isUnderWay`), which tells which entries it can
      replace (`entry_replaced_only_by_overlap`).

  Sources may answer the same question differently from call to call.
-/

import Mathlib.Data.List.Induction
import WebBaseline.Lookup.Session
import WebBaseline.Proofs.Lookup.History

namespace WebBaseline.Lookup

open WebBaseline.Baseline (Info)
open WebBaseline.Data (KeyMap)

variable {σ : Type}

/-! ## One question of an inquiry -/

section Inquiry

variable {feature : String} {source : Source σ} {s : σ}

/-- An inquiry ends with a source that says something definite. -/
theorem askInTurn_of_definite {info : Info}
    (h : (source.ask feature s).1.definite? = some info) (rest : List (Source σ)) :
    askInTurn feature (source :: rest) s =
      (⟨[⟨source.name, (source.ask feature s).1.kind⟩], some (source.name, info)⟩,
        (source.ask feature s).2) := by
  rw [askInTurn]
  simp only [h]

/-- Behind any other source an inquiry goes on. -/
theorem askInTurn_of_vague (h : (source.ask feature s).1.definite? = none)
    (rest : List (Source σ)) :
    askInTurn feature (source :: rest) s =
      ({ (askInTurn feature rest (source.ask feature s).2).1 with
          attempts := ⟨source.name, (source.ask feature s).1.kind⟩ ::
            (askInTurn feature rest (source.ask feature s).2).1.attempts },
        (askInTurn feature rest (source.ask feature s).2).2) := by
  rw [askInTurn]
  simp only [h]

/-- An inquiry with attempts that were made before it. -/
def Inquiry.behind (attempts : List Attempt) (q : Inquiry) : Inquiry :=
  { q with attempts := attempts ++ q.attempts }

end Inquiry

/-! ## One step of a call -/

namespace Stage

variable {sources : List (Source σ)} {feature : String} {m : Memory} {s : σ}

/-- A source says something definite, and no other one is asked. -/
theorem step_asking_of_definite {next : Source σ} {info : Info}
    (h : (next.ask feature s).1.definite? = some info) (attempts : List Attempt)
    (later : List (Source σ)) :
    (asking attempts next later).step sources feature m s =
      (writing (Resolution.ofInquiry feature
          ⟨attempts ++ [⟨next.name, (next.ask feature s).1.kind⟩], some (next.name, info)⟩),
        m, (next.ask feature s).2) := by
  rw [step]
  simp only [h]

/-- A source says nothing definite, and the next one will be asked. -/
theorem step_asking_of_vague {next : Source σ} (h : (next.ask feature s).1.definite? = none)
    (attempts : List Attempt) (later : List (Source σ)) :
    (asking attempts next later).step sources feature m s =
      (askNext feature (attempts ++ [⟨next.name, (next.ask feature s).1.kind⟩]) later,
        m, (next.ask feature s).2) := by
  rw [step]
  simp only [h]

/-- The memory changes at one stage only. -/
theorem memory_step (stage : Stage σ) :
    (stage.step sources feature m s).2.1 =
      match stage with
      | writing r => m.keep feature r.lasting?
      | _ => m := by
  cases stage with
  | fresh =>
    rw [step]
    cases m.get? feature <;> rfl
  | asking attempts next later =>
    cases h : (next.ask feature s).1.definite? with
    | some info => rw [step_asking_of_definite h]
    | none => rw [step_asking_of_vague h]
  | writing r => rfl
  | finished r => rfl

/-- A call is under way after a step only if it was before, or if the step was to
    read the memory and there was nothing. -/
theorem isUnderWay_of_step {stage : Stage σ}
    (h : (stage.step sources feature m s).1.isUnderWay = true) :
    stage.isUnderWay = true ∨ (stage = fresh ∧ m.get? feature = none) := by
  cases stage with
  | fresh =>
    cases hget : m.get? feature with
    | none => exact Or.inr ⟨rfl, rfl⟩
    | some info =>
      rw [step, hget] at h
      cases h
  | asking attempts next later => exact Or.inl rfl
  | writing r => exact Or.inl rfl
  | finished r => cases h

/-- The most steps that a call has still to take before it has returned. -/
def remaining (sources : List (Source σ)) : Stage σ → Nat
  | fresh => sources.length + 2
  | asking _ _ later => later.length + 2
  | writing _ => 1
  | finished _ => 0

theorem remaining_askNext (attempts : List Attempt) (left : List (Source σ)) :
    (askNext feature attempts left).remaining sources = left.length + 1 := by
  cases left <;> rfl

/-- With each step of its own a call comes nearer to its end. -/
theorem remaining_step (sources : List (Source σ)) (feature : String) (m : Memory) (s : σ)
    (stage : Stage σ) :
    (stage.step sources feature m s).1.remaining sources ≤ stage.remaining sources - 1 := by
  cases stage with
  | fresh =>
    rw [step]
    cases m.get? feature with
    | some info => exact Nat.zero_le _
    | none =>
      show (askNext feature [] sources).remaining sources ≤ sources.length + 1
      exact Nat.le_of_eq (remaining_askNext [] sources)
  | asking attempts next later =>
    cases h : (next.ask feature s).1.definite? with
    | some info =>
      rw [step_asking_of_definite h]
      show 1 ≤ later.length + 1
      omega
    | none =>
      rw [step_asking_of_vague h]
      show (askNext feature _ later).remaining sources ≤ later.length + 1
      exact Nat.le_of_eq (remaining_askNext _ later)
  | writing r => exact Nat.le_refl 0
  | finished r => exact Nat.le_refl 0

theorem result?_isSome_of_remaining {stage : Stage σ} (h : stage.remaining sources = 0) :
    stage.result?.isSome = true := by
  cases stage with
  | fresh => cases h
  | asking attempts next later => cases h
  | writing r => cases h
  | finished r => rfl

end Stage

/-! ## One step of a session -/

namespace Session

variable {sources : List (Source σ)} {st : Session σ} {i j : Nat} {c : OngoingCall σ}

theorem step_of_none (h : st.calls[i]? = none) : st.step sources i = st := by
  rw [step, h]

theorem step_of_call (h : st.calls[i]? = some c) :
    st.step sources i =
      { memory := (c.stage.step sources c.feature st.memory st.world).2.1
        world := (c.stage.step sources c.feature st.memory st.world).2.2
        calls := st.calls.set i
          { c with stage := (c.stage.step sources c.feature st.memory st.world).1 } } := by
  rw [step, h]

/-- The call whose step it is goes on. -/
theorem calls_step_self (h : st.calls[i]? = some c) :
    (st.step sources i).calls[i]? =
      some { c with stage := (c.stage.step sources c.feature st.memory st.world).1 } := by
  obtain ⟨hi, -⟩ := List.getElem?_eq_some_iff.1 h
  rw [step_of_call h, List.getElem?_set_self hi]

/-- The other calls stay where they are. -/
theorem calls_step_of_ne (hne : i ≠ j) : (st.step sources i).calls[j]? = st.calls[j]? := by
  cases h : st.calls[i]? with
  | none => rw [step_of_none h]
  | some c => rw [step_of_call h, List.getElem?_set_ne hne]

/-- Every call after a step was there before, for the same feature; it is at the
    same stage or one step further. -/
theorem exists_of_calls_step (h : (st.step sources i).calls[j]? = some c) :
    ∃ b, st.calls[j]? = some b ∧ c.feature = b.feature ∧
      (c = b ∨ i = j ∧ c.stage = (b.stage.step sources b.feature st.memory st.world).1) := by
  by_cases hne : i = j
  · subst hne
    cases hb : st.calls[i]? with
    | none =>
      rw [step_of_none hb, hb] at h
      cases h
    | some b =>
      rw [calls_step_self hb] at h
      cases h
      exact ⟨b, rfl, rfl, Or.inr ⟨rfl, rfl⟩⟩
  · rw [calls_step_of_ne hne] at h
    exact ⟨c, h, rfl, Or.inl rfl⟩

/-- A step leaves the memory as it is, or it writes what is worth remembering of
    what a call has come to. -/
theorem memory_step_cases (sources : List (Source σ)) (st : Session σ) (i : Nat) :
    (st.step sources i).memory = st.memory ∨
      ∃ feature r info, st.calls[i]? = some ⟨feature, .writing r⟩ ∧ r.lasting? = some info ∧
        (st.step sources i).memory = st.memory.insert feature info := by
  cases h : st.calls[i]? with
  | none => exact Or.inl (by rw [step_of_none h])
  | some c =>
    obtain ⟨feature, stage⟩ := c
    have hmemory : (st.step sources i).memory =
        (stage.step sources feature st.memory st.world).2.1 := by rw [step_of_call h]
    rw [Stage.memory_step] at hmemory
    cases stage with
    | fresh => exact Or.inl hmemory
    | asking attempts next later => exact Or.inl hmemory
    | finished r => exact Or.inl hmemory
    | writing r =>
      replace hmemory : (st.step sources i).memory = st.memory.keep feature r.lasting? := hmemory
      cases hlasting : r.lasting? with
      | none =>
        rw [hlasting] at hmemory
        exact Or.inl hmemory
      | some info =>
        rw [hlasting] at hmemory
        exact Or.inr ⟨feature, r, info, rfl, hlasting, hmemory⟩

/-! ## Runs -/

theorem run_append (sources : List (Source σ)) (schedule more : List Nat) (st : Session σ) :
    run sources (schedule ++ more) st = run sources more (run sources schedule st) :=
  List.foldl_append

theorem run_snoc (sources : List (Source σ)) (schedule : List Nat) (i : Nat) (st : Session σ) :
    run sources (schedule ++ [i]) st = (run sources schedule st).step sources i := by
  rw [run_append]
  rfl

/-- A call is for the same feature all the time. -/
theorem feature_run (sources : List (Source σ)) (schedule : List Nat) (st : Session σ) (i : Nat) :
    (run sources schedule st).calls[i]?.map OngoingCall.feature =
      st.calls[i]?.map OngoingCall.feature := by
  induction schedule generalizing st with
  | nil => rfl
  | cons j rest ih =>
    show (run sources rest (st.step sources j)).calls[i]?.map OngoingCall.feature = _
    rw [ih]
    by_cases hne : j = i
    · subst hne
      cases h : st.calls[j]? with
      | none => rw [step_of_none h, h]
      | some c => rw [calls_step_self h]; rfl
    · rw [calls_step_of_ne hne]

theorem calls_start (features : List String) (m : Memory) (s : σ) (i : Nat) :
    (start features m s).calls[i]? = features[i]?.map (fun feature => ⟨feature, .fresh⟩) :=
  List.getElem?_map

/-- The calls of a session are those that it started with. -/
theorem feature_run_start (sources : List (Source σ)) (schedule : List Nat)
    (features : List String) (m : Memory) (s : σ) (i : Nat) :
    (run sources schedule (start features m s)).calls[i]?.map OngoingCall.feature =
      features[i]? := by
  rw [feature_run, calls_start, Option.map_map]
  exact Option.map_id'

/-! ## Calls return -/

/-- Steps of other calls do not count; each step of its own brings a call nearer
    to its end. -/
theorem remaining_run (sources : List (Source σ)) (schedule : List Nat)
    (h : st.calls[i]? = some c) :
    ∃ b, (run sources schedule st).calls[i]? = some b ∧
      b.stage.remaining sources ≤ c.stage.remaining sources - schedule.count i := by
  induction schedule generalizing st c with
  | nil => exact ⟨c, h, Nat.le_refl _⟩
  | cons j rest ih =>
    show ∃ b, (run sources rest (st.step sources j)).calls[i]? = some b ∧ _
    by_cases hne : j = i
    · subst hne
      obtain ⟨b, hb, hle⟩ := ih (calls_step_self h)
      have hstep := Stage.remaining_step sources c.feature st.memory st.world c.stage
      refine ⟨b, hb, ?_⟩
      rw [List.count_cons_self]
      simp only at hle
      omega
    · obtain ⟨b, hb, hle⟩ := ih ((calls_step_of_ne hne).trans h)
      refine ⟨b, hb, ?_⟩
      rwa [List.count_cons_of_ne hne]

/-- A call has returned as soon as it has had a step for each source, one to read
    the memory and one to write it. -/
theorem result?_isSome_of_count {schedule : List Nat} {features : List String} {feature : String}
    (m : Memory) (s : σ) (hi : features[i]? = some feature)
    (hcount : sources.length + 2 ≤ schedule.count i) :
    ((run sources schedule (start features m s)).result? i).isSome = true := by
  have hfresh : (start features m s).calls[i]? = some ⟨feature, .fresh⟩ := by
    rw [calls_start, hi]
    rfl
  obtain ⟨b, hb, hle⟩ := remaining_run sources schedule hfresh
  have hzero : b.stage.remaining sources = 0 := by
    replace hle : b.stage.remaining sources ≤ sources.length + 2 - schedule.count i := hle
    omega
  rw [result?, hb]
  exact Stage.result?_isSome_of_remaining hzero

/-! ## A call alone -/

/-- A session of one call. -/
def single (feature : String) (stage : Stage σ) (m : Memory) (s : σ) : Session σ :=
  ⟨m, s, [⟨feature, stage⟩]⟩

theorem run_single_succ (n : Nat) (feature : String) (stage : Stage σ) (m : Memory) (s : σ) :
    run sources (List.replicate (n + 1) 0) (single feature stage m s) =
      run sources (List.replicate n 0) (single feature (stage.step sources feature m s).1
        (stage.step sources feature m s).2.1 (stage.step sources feature m s).2.2) := rfl

theorem run_single_finished (n : Nat) (feature : String) (r : Resolution) (m : Memory) (s : σ) :
    run sources (List.replicate n 0) (single feature (.finished r) m s) =
      single feature (.finished r) m s := by
  induction n with
  | zero => rfl
  | succ n ih => rw [run_single_succ]; exact ih

/-- What is left to ask is asked in turn, and what comes of it is written. -/
theorem run_single_askNext (sources : List (Source σ)) (feature : String) (m : Memory)
    (left : List (Source σ)) (attempts : List Attempt) (s : σ) :
    let r := Resolution.ofInquiry feature ((askInTurn feature left s).1.behind attempts)
    run sources (List.replicate (left.length + 1) 0)
        (single feature (Stage.askNext feature attempts left) m s) =
      single feature (.finished r) (m.keep feature r.lasting?) (askInTurn feature left s).2 := by
  induction left generalizing attempts s with
  | nil =>
    simp only [askInTurn, Inquiry.behind, List.append_nil, List.length_nil]
    rfl
  | cons next later ih =>
    intro r
    rw [List.length_cons, run_single_succ, Stage.askNext]
    cases hd : (next.ask feature s).1.definite? with
    | some info =>
      -- nothing is left but to write; the steps that are left over do nothing
      have hr : r = Resolution.ofInquiry feature
          ⟨attempts ++ [⟨next.name, (next.ask feature s).1.kind⟩], some (next.name, info)⟩ := by
        simp only [r, askInTurn_of_definite hd, Inquiry.behind]
      rw [Stage.step_asking_of_definite hd, askInTurn_of_definite hd, run_single_succ, ← hr]
      exact run_single_finished _ feature r _ _
    | none =>
      have hrest := ih (attempts ++ [⟨next.name, (next.ask feature s).1.kind⟩])
        (next.ask feature s).2
      have hr : r = Resolution.ofInquiry feature
          ((askInTurn feature later (next.ask feature s).2).1.behind
            (attempts ++ [⟨next.name, (next.ask feature s).1.kind⟩])) := by
        simp [r, askInTurn_of_vague hd, Inquiry.behind]
      rw [Stage.step_asking_of_vague hd, askInTurn_of_vague hd, hr]
      exact hrest

/-- A call that no other call interrupts comes to what `resolve` returns, and
    leaves the same memory and the same sources. -/
theorem run_alone_eq_resolve (sources : List (Source σ)) (feature : String) (m : Memory) (s : σ) :
    run sources (List.replicate (sources.length + 2) 0) (start [feature] m s) =
      single feature (.finished (resolve sources feature m s).1)
        (resolve sources feature m s).2.1 (resolve sources feature m s).2.2 := by
  show run sources (List.replicate (sources.length + 1 + 1) 0) (single feature .fresh m s) = _
  rw [run_single_succ, Stage.step]
  cases hget : m.get? feature with
  | some info =>
    rw [resolve_of_some hget]
    exact run_single_finished _ feature _ m s
  | none =>
    have hasked := run_single_askNext sources feature m sources [] s
    rw [resolve_of_none hget]
    simp only at hasked ⊢
    rw [hasked]
    rfl

/-! ## Which entries are replaced -/

/-- A call that may still write had a step at which the memory held nothing for
    its feature. -/
theorem exists_read_of_isUnderWay {features : List String} {m : Memory} {s : σ}
    {schedule : List Nat} {i : Nat} {c : OngoingCall σ}
    (h : (run sources schedule (start features m s)).calls[i]? = some c)
    (hway : c.stage.isUnderWay = true) :
    ∃ before after, schedule = before ++ i :: after ∧
      (run sources before (start features m s)).calls[i]? = some ⟨c.feature, .fresh⟩ ∧
      (run sources before (start features m s)).memory.get? c.feature = none := by
  induction schedule using List.reverseRecOn generalizing c with
  | nil =>
    -- at the start no call is under way
    change (start features m s).calls[i]? = some c at h
    rw [calls_start] at h
    obtain ⟨feature, -, rfl⟩ := Option.map_eq_some_iff.1 h
    cases hway
  | append_singleton rest j ih =>
    rw [run_snoc] at h
    obtain ⟨b, hb, hfeature, hcase⟩ := exists_of_calls_step h
    -- either the call was under way before the last step, or that step read
    have hbefore : b.stage.isUnderWay = true →
        ∃ before after, rest ++ [j] = before ++ i :: after ∧
          (run sources before (start features m s)).calls[i]? = some ⟨c.feature, .fresh⟩ ∧
          (run sources before (start features m s)).memory.get? c.feature = none := by
      intro hb'
      obtain ⟨before, after, rfl, hcall, hnone⟩ := ih hb hb'
      rw [hfeature]
      exact ⟨before, after ++ [j], by simp, hcall, hnone⟩
    rcases hcase with rfl | ⟨rfl, hstage⟩
    · exact hbefore hway
    · rw [hstage] at hway
      rcases Stage.isUnderWay_of_step hway with hb' | ⟨hfresh, hnone⟩
      · exact hbefore hb'
      · refine ⟨rest, [], rfl, ?_, ?_⟩
        · rw [hb, hfeature, ← hfresh]
        · rw [hfeature]
          exact hnone

/-- An entry that no call under way is for stays as it is, whatever steps follow. -/
theorem get?_run_of_settled {st : Session σ} {k : String} {info : Info}
    (hget : st.memory.get? k = some info)
    (hcalls : ∀ c ∈ st.calls, c.feature = k → c.stage.isUnderWay = false)
    (schedule : List Nat) : (run sources schedule st).memory.get? k = some info := by
  induction schedule generalizing st with
  | nil => exact hget
  | cons i rest ih =>
    show (run sources rest (st.step sources i)).memory.get? k = some info
    apply ih
    · rcases memory_step_cases sources st i with hsame | ⟨feature, r, new, hcall, -, hinsert⟩
      · rw [hsame, hget]
      · -- the call that writes is under way, so it is for another feature
        have hne : k ≠ feature := by
          rintro rfl
          have hidle := hcalls _ (List.mem_of_getElem? hcall) rfl
          cases hidle
        rw [hinsert, KeyMap.get?_insert_of_ne _ _ hne, hget]
    · intro c hc hfeature
      obtain ⟨j, hj⟩ := List.mem_iff_getElem?.1 hc
      obtain ⟨b, hb, hsame, hcase⟩ := exists_of_calls_step hj
      have hb' := hcalls b (List.mem_of_getElem? hb) (hsame ▸ hfeature)
      rcases hcase with rfl | ⟨-, hstage⟩
      · exact hb'
      · -- a call that reads now finds the entry
        rw [Bool.eq_false_iff, hstage]
        intro hway
        rcases Stage.isUnderWay_of_step hway with hway | ⟨-, hnone⟩
        · rw [hb'] at hway
          cases hway
        · rw [← hsame, hfeature, hget] at hnone
          cases hnone

/-- Calls for features go on in any order, with sources of any behaviour. An
    entry of the memory is never removed. A step replaces it by another one only
    if a call for that feature writes then that had read the memory before there
    was any entry for the feature, and what it writes is what it has come to
    itself. And once there is an entry while no call for the feature is between
    reading and writing, no later step changes it. -/
theorem entry_replaced_only_by_overlap (sources : List (Source σ)) (features : List String)
    (m : Memory) (s : σ) (schedule : List Nat) (k : String) (info : Info)
    (hget : (run sources schedule (start features m s)).memory.get? k = some info) :
    (∀ i, ∃ new,
      ((run sources schedule (start features m s)).step sources i).memory.get? k = some new ∧
      (new ≠ info →
        ∃ r, (run sources schedule (start features m s)).calls[i]? = some ⟨k, .writing r⟩ ∧
          r.lasting? = some new ∧
          ∃ before after, schedule = before ++ i :: after ∧
            (run sources before (start features m s)).calls[i]? = some ⟨k, .fresh⟩ ∧
            (run sources before (start features m s)).memory.get? k = none)) ∧
    ((∀ c ∈ (run sources schedule (start features m s)).calls,
        c.feature = k → c.stage.isUnderWay = false) →
      ∀ more, (run sources (schedule ++ more) (start features m s)).memory.get? k = some info) := by
  constructor
  · intro i
    rcases memory_step_cases sources (run sources schedule (start features m s)) i with
      hsame | ⟨feature, r, new, hcall, hlasting, hinsert⟩
    · refine ⟨info, by rw [hsame, hget], fun hne => absurd rfl hne⟩
    · by_cases hk : k = feature
      · subst hk
        refine ⟨new, by rw [hinsert, KeyMap.get?_insert_self], fun _ => ?_⟩
        exact ⟨r, hcall, hlasting, exists_read_of_isUnderWay hcall rfl⟩
      · refine ⟨info, ?_, fun hne => absurd rfl hne⟩
        rw [hinsert, KeyMap.get?_insert_of_ne _ _ hk, hget]
  · intro hcalls more
    rw [run_append]
    exact get?_run_of_settled hget hcalls more

/-- A source that knows every feature when it is asked for the first time, and
    none from then on. -/
def forgetful : Source Nat where
  name := "forgetful"
  ask _ n := (if n = 0 then .found (Info.ofStatus .newly) else .noResult, n + 1)

/-- Two calls for one feature, of which the second one reads before the first
    one has written. -/
def twoCalls : Session Nat := start ["gap", "gap"] KeyMap.empty 0

/-- The call that replaces the entry had read before there was one. Without such
    a call the entry stays. -/
theorem twoCalls_entry_traced :
    (∃ before after, [0, 1, 0, 0, 1] = before ++ 1 :: after ∧
      (run [forgetful] before twoCalls).memory.get? "gap" = none) ∧
    (run [forgetful] ([0, 0, 0] ++ [1, 1, 1]) twoCalls).memory.get? "gap" =
      some (Info.ofStatus .newly) := by
  constructor
  · obtain ⟨new, hnew, htraced⟩ := (entry_replaced_only_by_overlap [forgetful] ["gap", "gap"]
      KeyMap.empty 0 [0, 1, 0, 0, 1] "gap" (Info.ofStatus .newly) (by decide)).1 1
    have hunknown : ((run [forgetful] [0, 1, 0, 0, 1] twoCalls).step [forgetful] 1).memory.get?
        "gap" = some (Info.unknown "gap") := by decide
    obtain rfl : Info.unknown "gap" = new := Option.some.inj (hunknown.symm.trans hnew)
    obtain ⟨-, -, -, before, after, hschedule, -, hnone⟩ := htraced (by decide)
    exact ⟨before, after, hschedule, hnone⟩
  · exact (entry_replaced_only_by_overlap [forgetful] ["gap", "gap"] KeyMap.empty 0 [0, 0, 0]
      "gap" (Info.ofStatus .newly) (by decide)).2 (by decide) [1, 1, 1]

/-- The entry of the first call, which is definite, is overwritten by the second
    one, to which the source said that the feature is not known. -/
theorem twoCalls_entry_replaced :
    (run [forgetful] [0, 1, 0, 0, 1] twoCalls).memory.get? "gap" =
      some (Info.ofStatus .newly) ∧
    (run [forgetful] ([0, 1, 0, 0, 1] ++ [1]) twoCalls).memory.get? "gap" =
      some (Info.unknown "gap") ∧
    Info.unknown "gap" ≠ Info.ofStatus .newly ∧
    (Info.ofStatus .newly).status.isDefinite = true ∧
    (Info.unknown "gap").status = .unknown := by
  decide

end Session

end WebBaseline.Lookup

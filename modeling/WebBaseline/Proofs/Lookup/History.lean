/-
  WebBaseline.Proofs.Lookup.History

  What a resolver remembers after any sequence of calls, and where it has it
  from. Sources may answer the same question differently from call to call.

    * `answersInTurn` gives the answers behind `askInTurn`, one for each source
      that was asked;
    * a `History` holds the calls so far with the answers in each of them;
    * `FoundIn` and `UnknownIn` are the two ways in which an entry of the memory
      goes back to a call.

  One call adds at most one entry, and only where there was none
  (`get?_resolve_of_some`, `resolve_new_entry`), so what holds of every entry is
  carried along any run.
-/

import WebBaseline.Lookup.Resolver

namespace WebBaseline.Lookup

open WebBaseline.Baseline (Info)
open WebBaseline.Data (KeyMap)

variable {σ : Type}

/-! ## The answers of one inquiry -/

/-- What sources answer when they are asked in turn, up to the first definite
    answer. -/
def answersInTurn (feature : String) : List (Source σ) → σ → List Outcome
  | [], _ => []
  | source :: rest, s =>
    let (outcome, s) := source.ask feature s
    if outcome.definite?.isSome then [outcome] else outcome :: answersInTurn feature rest s

/-- An attempt tells the name and the kind of the answer of each source asked. -/
theorem attempts_askInTurn (feature : String) (sources : List (Source σ)) (s : σ) :
    (askInTurn feature sources s).1.attempts =
      List.zipWith (fun source o => ⟨source.name, o.kind⟩) sources
        (answersInTurn feature sources s) := by
  induction sources generalizing s with
  | nil => rfl
  | cons source rest ih =>
    rw [askInTurn, answersInTurn]
    cases h : (source.ask feature s).1.definite? with
    | some info => simp [h]
    | none => simp [h, ih]

/-- An inquiry that ends with an answer ends with a source that found it, and
    no source before that one said anything definite. -/
theorem answersInTurn_of_answer {feature : String} {sources : List (Source σ)} {s : σ}
    {name : String} {info : Info}
    (h : (askInTurn feature sources s).1.answer = some (name, info)) :
    info.status.isDefinite = true ∧ ∃ earlier, (∀ o ∈ earlier, o.definite? = none) ∧
      answersInTurn feature sources s = earlier ++ [.found info] := by
  induction sources generalizing s with
  | nil => simp [askInTurn] at h
  | cons source rest ih =>
    rw [askInTurn] at h
    rw [answersInTurn]
    cases hd : (source.ask feature s).1.definite? with
    | some i =>
      obtain ⟨hfound, hdef⟩ := Outcome.definite?_eq_some_iff.1 hd
      simp only [hd, Option.some.injEq, Prod.mk.injEq] at h
      obtain ⟨-, rfl⟩ := h
      refine ⟨hdef, [], by simp, ?_⟩
      simp only [hd, Option.isSome_some, if_true, List.nil_append]
      rw [hfound]
    | none =>
      simp only [hd] at h
      obtain ⟨hdef, earlier, hnone, heq⟩ := ih h
      refine ⟨hdef, (source.ask feature s).1 :: earlier, ?_, ?_⟩
      · intro o ho
        rcases List.mem_cons.1 ho with rfl | ho
        · exact hd
        · exact hnone o ho
      · simp [hd, heq]

/-- An inquiry that ends without an answer has asked every source. -/
theorem answersInTurn_of_no_answer {feature : String} {sources : List (Source σ)} {s : σ}
    (h : (askInTurn feature sources s).1.answer = none) :
    (answersInTurn feature sources s).length = sources.length := by
  induction sources generalizing s with
  | nil => rfl
  | cons source rest ih =>
    rw [askInTurn] at h
    rw [answersInTurn]
    cases hd : (source.ask feature s).1.definite? with
    | some i => simp [hd] at h
    | none =>
      simp only [hd] at h
      simp [hd, ih h]

theorem kind_eq_noResult_iff {o : Outcome} : o.kind = .noResult ↔ o = .noResult := by
  cases o <;> simp [Outcome.kind]

/-- All attempts came to nothing exactly if every answer was that the feature is
    not known. -/
theorem attempts_all_noResult_iff {sources : List (Source σ)} {answers : List Outcome}
    (h : answers.length = sources.length) :
    (List.zipWith (fun (source : Source σ) o => (⟨source.name, o.kind⟩ : Attempt))
        sources answers).all (fun a => a.outcome == .noResult) = true ↔
      ∀ o ∈ answers, o = .noResult := by
  induction sources generalizing answers with
  | nil => simp [List.eq_nil_of_length_eq_zero h]
  | cons source rest ih =>
    cases answers with
    | nil => simp at h
    | cons o os =>
      have hlen : os.length = rest.length := by simpa using h
      simp only [List.zipWith_cons_cons, List.all_cons, Bool.and_eq_true, beq_iff_eq,
        kind_eq_noResult_iff, List.forall_mem_cons, ih hlen]

/-! ## One call -/

theorem get?_keep (m : Memory) (feature k : String) (new : Option Info) :
    (m.keep feature new).get? k = if k = feature then new.or (m.get? k) else m.get? k := by
  cases new with
  | none => simp [Memory.keep]
  | some info => simp [Memory.keep, KeyMap.get?_insert]

/-- What is remembered is returned; no source is asked and nothing changes. -/
theorem resolve_of_some {sources : List (Source σ)} {k : String} {m : Memory} {s : σ}
    {info : Info} (h : m.get? k = some info) :
    resolve sources k m s = (Resolution.ofMemory info, m, s) := by
  rw [resolve, h]

theorem resolve_of_none {sources : List (Source σ)} {k : String} {m : Memory} {s : σ}
    (h : m.get? k = none) :
    resolve sources k m s =
      (Resolution.ofInquiry k (askInTurn k sources s).1,
        m.keep k (Resolution.ofInquiry k (askInTurn k sources s).1).lasting?,
        (askInTurn k sources s).2) := by
  rw [resolve, h]

/-- What is worth remembering after an inquiry: its answer, or that no source
    knows the feature. -/
theorem lasting?_ofInquiry (k : String) (q : Inquiry) :
    (Resolution.ofInquiry k q).lasting? =
      match q.answer with
      | some (_, info) => some info
      | none =>
        if q.attempts.all (fun a => a.outcome == .noResult) then some (Info.unknown k)
        else none := by
  rw [Resolution.ofInquiry]
  cases q.answer with
  | some found => simp [Resolution.lasting?]
  | none => simp [Resolution.lasting?]

/-- A call never touches an entry that is there. -/
theorem get?_resolve_of_some (sources : List (Source σ)) {m : Memory} {k : String}
    {info : Info} (feature : String) (s : σ) (h : m.get? k = some info) :
    (resolve sources feature m s).2.1.get? k = some info := by
  cases hf : m.get? feature with
  | some i => rw [resolve_of_some hf]; exact h
  | none =>
    rw [resolve_of_none hf, get?_keep, if_neg, h]
    rintro rfl
    rw [h] at hf
    cases hf

/-! ## Histories -/

/-- A call for a feature. -/
structure Call where
  feature : String
  /-- What the sources asked answered; nothing, if the feature was remembered. -/
  answers : Option (List Outcome)

/-- The calls so far, and what they leave. -/
structure History (σ : Type) where
  calls : List Call := []
  memory : Memory := KeyMap.empty
  world : σ

namespace History

/-- One more call. -/
def call (sources : List (Source σ)) (h : History σ) (feature : String) : History σ where
  calls := h.calls ++ [⟨feature,
    if (h.memory.get? feature).isSome then none
    else some (answersInTurn feature sources h.world)⟩]
  memory := (resolve sources feature h.memory h.world).2.1
  world := (resolve sources feature h.memory h.world).2.2

/-- The history of calls for some features, one after the other, that starts
    with nothing remembered. -/
def run (sources : List (Source σ)) (features : List String) (s : σ) : History σ :=
  features.foldl (call sources) { world := s }

theorem run_append (sources : List (Source σ)) (features more : List String) (s : σ) :
    run sources (features ++ more) s = more.foldl (call sources) (run sources features s) :=
  List.foldl_append

end History

/-! ## Where an entry comes from -/

/-- In one of the calls a source found exactly this, and no source before it
    said anything definite. -/
def FoundIn (calls : List Call) (k : String) (info : Info) : Prop :=
  info.status.isDefinite = true ∧ ∃ earlier, (∀ o ∈ earlier, o.definite? = none) ∧
    (⟨k, some (earlier ++ [.found info])⟩ : Call) ∈ calls

/-- Nothing is known, and in one of the calls each of `n` sources said so. -/
def UnknownIn (n : Nat) (calls : List Call) (k : String) (info : Info) : Prop :=
  info = Info.unknown k ∧ (⟨k, some (List.replicate n .noResult)⟩ : Call) ∈ calls

theorem FoundIn.append {calls : List Call} {k : String} {info : Info}
    (h : FoundIn calls k info) (more : List Call) : FoundIn (calls ++ more) k info := by
  obtain ⟨hdef, earlier, hnone, hmem⟩ := h
  exact ⟨hdef, earlier, hnone, List.mem_append_left _ hmem⟩

theorem UnknownIn.append {n : Nat} {calls : List Call} {k : String} {info : Info}
    (h : UnknownIn n calls k info) (more : List Call) : UnknownIn n (calls ++ more) k info :=
  ⟨h.1, List.mem_append_left _ h.2⟩

/-- An entry that a call adds goes back to the answers in that call. -/
theorem resolve_new_entry {sources : List (Source σ)} {m : Memory} {feature k : String}
    {s : σ} {info : Info} (hnone : m.get? k = none)
    (hnew : (resolve sources feature m s).2.1.get? k = some info) :
    k = feature ∧
      (FoundIn [⟨k, some (answersInTurn k sources s)⟩] k info ∨
        UnknownIn sources.length [⟨k, some (answersInTurn k sources s)⟩] k info) := by
  cases hf : m.get? feature with
  | some i =>
    rw [resolve_of_some hf] at hnew
    rw [hnone] at hnew
    cases hnew
  | none =>
    rw [resolve_of_none hf, get?_keep] at hnew
    by_cases hk : k = feature
    · subst hk
      rw [if_pos rfl, hnone, Option.or_none, lasting?_ofInquiry] at hnew
      refine ⟨rfl, ?_⟩
      cases ha : (askInTurn k sources s).1.answer with
      | some found =>
        obtain ⟨name, i⟩ := found
        simp only [ha, Option.some.injEq] at hnew
        subst hnew
        obtain ⟨hdef, earlier, hbefore, heq⟩ := answersInTurn_of_answer ha
        exact Or.inl ⟨hdef, earlier, hbefore, by rw [heq]; exact List.mem_singleton_self _⟩
      | none =>
        -- all sources were asked, so what all attempts say all sources said
        have hlen := answersInTurn_of_no_answer ha
        simp only [ha] at hnew
        rw [attempts_askInTurn] at hnew
        split at hnew
        · next hall =>
          have hall := (attempts_all_noResult_iff hlen).1 hall
          have heq : answersInTurn k sources s = List.replicate sources.length .noResult :=
            List.eq_replicate_iff.2 ⟨hlen, hall⟩
          cases hnew
          exact Or.inr ⟨rfl, by rw [heq]; exact List.mem_singleton_self _⟩
        · cases hnew
    · rw [if_neg hk, hnone] at hnew
      cases hnew

namespace History

/-- Every entry of the memory goes back to a call. -/
def Backed (sources : List (Source σ)) (h : History σ) : Prop :=
  ∀ k info, h.memory.get? k = some info →
    FoundIn h.calls k info ∨ UnknownIn sources.length h.calls k info

theorem Backed.call {sources : List (Source σ)} {h : History σ} (hb : h.Backed sources)
    (feature : String) : (h.call sources feature).Backed sources := by
  intro k info hget
  cases hold : h.memory.get? k with
  | some old =>
    have hkept := get?_resolve_of_some sources feature h.world hold
    have heq : info = old := Option.some.inj (hget.symm.trans hkept)
    subst heq
    exact (hb k info hold).imp (fun hf => hf.append _) (fun hu => hu.append _)
  | none =>
    obtain ⟨rfl, hnew⟩ := resolve_new_entry hold hget
    -- the call that added the entry is the last one of the longer history
    have hcalls : (h.call sources k).calls =
        h.calls ++ [⟨k, some (answersInTurn k sources h.world)⟩] := by
      simp [History.call, hold]
    rw [hcalls]
    rcases hnew with ⟨hdef, earlier, hbefore, hmem⟩ | ⟨hinfo, hmem⟩
    · exact Or.inl ⟨hdef, earlier, hbefore, List.mem_append_right _ hmem⟩
    · exact Or.inr ⟨hinfo, List.mem_append_right _ hmem⟩

theorem Backed.foldl {sources : List (Source σ)} (features : List String) {h : History σ}
    (hb : h.Backed sources) : (features.foldl (History.call sources) h).Backed sources := by
  induction features generalizing h with
  | nil => exact hb
  | cons feature rest ih => exact ih (hb.call feature)

theorem run_backed (sources : List (Source σ)) (features : List String) (s : σ) :
    (run sources features s).Backed sources :=
  Backed.foldl features (fun k info hget => by cases hget)

theorem get?_foldl_of_some {sources : List (Source σ)} (features : List String)
    {h : History σ} {k : String} {info : Info} (hget : h.memory.get? k = some info) :
    (features.foldl (call sources) h).memory.get? k = some info := by
  induction features generalizing h with
  | nil => exact hget
  | cons feature rest ih => exact ih (get?_resolve_of_some sources feature h.world hget)

end History

/-- A call that ends without a definite answer, while some source may answer
    otherwise another time or does not say what it found, leaves no trace. -/
theorem resolve_memory_of_inconclusive {sources : List (Source σ)} {k : String} {m : Memory}
    {s : σ} (hsource : (resolve sources k m s).1.source = none)
    (hinc : ∃ o ∈ answersInTurn k sources s, o ≠ .noResult) :
    (resolve sources k m s).2.1 = m := by
  cases hk : m.get? k with
  | some info => rw [resolve_of_some hk]
  | none =>
    rw [resolve_of_none hk] at hsource ⊢
    cases ha : (askInTurn k sources s).1.answer with
    | some found => simp [Resolution.ofInquiry, ha] at hsource
    | none =>
      have hlen := answersInTurn_of_no_answer ha
      -- one answer of another kind is enough for nothing to last
      have hnot : ¬ (∀ o ∈ answersInTurn k sources s, o = .noResult) := by
        obtain ⟨o, ho, hne⟩ := hinc
        exact fun hall => hne (hall o ho)
      rw [← attempts_all_noResult_iff hlen, ← attempts_askInTurn] at hnot
      simp only [lasting?_ofInquiry, ha, if_neg hnot, Memory.keep]

/-! ## The memory after any calls -/

/-- After any calls to sources of any behaviour, each entry of the memory goes
    back to a definite answer that was the first one in some call, or to a call
    in which every source of the chain knew nothing. Later calls keep it; a call
    for it asks no source and changes nothing; and a call without a definite
    answer, in which some source ran out of time, failed or found nothing to
    say, leaves the memory as it was. -/
theorem run_memory (sources : List (Source σ)) (features : List String) (s : σ) :
    let h := History.run sources features s
    (∀ k info, h.memory.get? k = some info →
      FoundIn h.calls k info ∨ UnknownIn sources.length h.calls k info) ∧
    (∀ more k info, h.memory.get? k = some info →
      (History.run sources (features ++ more) s).memory.get? k = some info) ∧
    (∀ k info, h.memory.get? k = some info →
      resolve sources k h.memory h.world =
        ({ info := info, source := none, cached := true, attempts := [] }, h.memory, h.world)) ∧
    (∀ k, (resolve sources k h.memory h.world).1.source = none →
      (∃ o ∈ answersInTurn k sources h.world,
        o = .timedOut ∨ o = .failed ∨ ∃ info, o = .found info ∧ info.status = .unknown) →
      (resolve sources k h.memory h.world).2.1 = h.memory) := by
  intro h
  refine ⟨History.run_backed sources features s, ?_, ?_, ?_⟩
  · intro more k info hget
    rw [History.run_append]
    exact History.get?_foldl_of_some more hget
  · intro k info hget
    exact resolve_of_some hget
  · intro k hsource hinc
    apply resolve_memory_of_inconclusive hsource
    obtain ⟨o, ho, hkind⟩ := hinc
    refine ⟨o, ho, ?_⟩
    rcases hkind with rfl | rfl | ⟨info, rfl, -⟩ <;> simp

/-- A source that runs out of time once and answers from then on. -/
def lateSource : Source Nat where
  name := "late"
  ask _ n := (if n = 0 then .timedOut else .found (Info.ofStatus .newly), n + 1)

/-- The entry for a feature that was asked for twice goes back to the second
    call: the first one timed out. -/
theorem run_memory_lateSource :
    FoundIn (History.run [lateSource] ["gap", "gap"] 0).calls "gap" (Info.ofStatus .newly) ∨
      UnknownIn 1 (History.run [lateSource] ["gap", "gap"] 0).calls "gap"
        (Info.ofStatus .newly) :=
  (run_memory [lateSource] ["gap", "gap"] 0).1 "gap" (Info.ofStatus .newly) (by decide)

end WebBaseline.Lookup

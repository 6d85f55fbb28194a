/-
  WebBaseline.Proofs.Lookup.Interleaving

  Calls that share a memory, with sources whose answers depend on the feature
  alone: the order of their steps cannot be seen.

    * `lastingVerdict` is what such sources leave to remember of a feature;
    * a call is `OnCourse` if what it has asked and what is left to ask make up
      the one inquiry that the sources allow, and a session if all its calls are
      and its memory holds lasting verdicts only;
    * one step keeps a session on course (`OnCourse.step`), so any run does; and
      at the end of a call its feature is remembered as it should be.

  Two calls for one feature may both ask and both write. They write the same.
-/

import WebBaseline.Proofs.Lookup.Pure
import WebBaseline.Proofs.Lookup.Session

namespace WebBaseline.Lookup

open WebBaseline.Baseline (Info)
open WebBaseline.Data (KeyMap)

variable {σ : Type}

/-! ## Lasting verdicts -/

/-- What is worth remembering of a feature: the first definite answer, or else
    that nothing is known, if every source says so. -/
def lastingVerdict (sources : List (Source σ)) (s : σ) (feature : String) : Option Info :=
  (sources.findSome? (fun source => (source.ask feature s).1.definite?)).or
    (if ∀ source ∈ sources, (source.ask feature s).1 = .noResult then
      some (Info.unknown feature)
    else none)

theorem verdict_of_lastingVerdict {sources : List (Source σ)} {s : σ} {feature : String}
    {info : Info} (h : lastingVerdict sources s feature = some info) :
    info = verdict sources s feature := by
  rw [lastingVerdict] at h
  rw [verdict]
  cases hfound : sources.findSome? (fun source => (source.ask feature s).1.definite?) with
  | some found =>
    rw [hfound] at h
    exact (Option.some.inj h).symm
  | none =>
    rw [hfound, Option.none_or] at h
    split at h
    · exact (Option.some.inj h).symm
    · cases h

section Pure

variable {sources : List (Source σ)} (hpure : ∀ source ∈ sources, source.IsPure)

include hpure

/-- Pure sources make the same inquiry in every state. -/
theorem askInTurn_of_isPure (feature : String) (s t : σ) :
    (askInTurn feature sources s).1 = (askInTurn feature sources t).1 := by
  induction sources generalizing s t with
  | nil => rfl
  | cons source rest ih =>
    have hsame : (source.ask feature s).1 = (source.ask feature t).1 :=
      hpure source List.mem_cons_self feature s t
    have hrest := ih (fun x hx => hpure x (List.mem_cons_of_mem _ hx))
      (source.ask feature s).2 (source.ask feature t).2
    cases hd : (source.ask feature t).1.definite? with
    | some info =>
      have hd' : (source.ask feature s).1.definite? = some info := hsame ▸ hd
      rw [askInTurn_of_definite hd, askInTurn_of_definite hd', hsame]
    | none =>
      have hd' : (source.ask feature s).1.definite? = none := hsame ▸ hd
      rw [askInTurn_of_vague hd, askInTurn_of_vague hd', hsame, hrest]

/-- If none of them says anything definite, each source is asked. -/
theorem answersInTurn_of_isPure (feature : String) (s t : σ)
    (hnone : sources.findSome? (fun source => (source.ask feature s).1.definite?) = none) :
    answersInTurn feature sources t = sources.map (fun source => (source.ask feature s).1) := by
  induction sources generalizing t with
  | nil => rfl
  | cons source rest ih =>
    rw [List.findSome?_eq_none_iff] at hnone
    obtain ⟨hfirst, hrest⟩ := List.forall_mem_cons.1 hnone
    have hsame : (source.ask feature t).1 = (source.ask feature s).1 :=
      hpure source List.mem_cons_self feature t s
    have hmore := ih (fun x hx => hpure x (List.mem_cons_of_mem _ hx))
      (source.ask feature t).2 (List.findSome?_eq_none_iff.2 hrest)
    rw [answersInTurn, List.map_cons]
    simp only [hsame, hfirst, hmore, Option.isSome_none, Bool.false_eq_true, if_false]

/-- What is worth remembering of an inquiry of pure sources. -/
theorem lasting?_of_isPure (feature : String) (s : σ) :
    (Resolution.ofInquiry feature (askInTurn feature sources s).1).lasting? =
      lastingVerdict sources s feature := by
  have hanswer := answer_askInTurn hpure feature s s
  rw [lasting?_ofInquiry, lastingVerdict, ← hanswer]
  cases ha : (askInTurn feature sources s).1.answer with
  | some found => rfl
  | none =>
    rw [ha] at hanswer
    have hall := attempts_all_noResult_iff (answersInTurn_of_no_answer ha)
    rw [← attempts_askInTurn, answersInTurn_of_isPure hpure feature s s hanswer.symm,
      List.forall_mem_map] at hall
    simp only [Option.map_none, Option.none_or]
    exact if_congr hall rfl rfl

end Pure

/-! ## Calls on course -/

/-- A memory that holds nothing but lasting verdicts. -/
def Memory.Lasting (sources : List (Source σ)) (s : σ) (m : Memory) : Prop :=
  ∀ feature info, m.get? feature = some info → lastingVerdict sources s feature = some info

theorem Memory.lasting_empty (sources : List (Source σ)) (s : σ) :
    Memory.Lasting sources s KeyMap.empty := by
  intro feature info h
  cases h

theorem Memory.Lasting.keep {sources : List (Source σ)} {s : σ} {m : Memory}
    (hm : m.Lasting sources s) (feature : String) :
    (m.keep feature (lastingVerdict sources s feature)).Lasting sources s := by
  intro k info hk
  rw [get?_keep] at hk
  split at hk
  · next heq =>
    subst heq
    cases hverdict : lastingVerdict sources s k with
    | some found =>
      rw [hverdict] at hk
      exact hk
    | none =>
      -- there would be no entry without a lasting verdict
      rw [hverdict, Option.none_or] at hk
      exact hverdict.symm.trans (hm k info hk)
  · exact hm k info hk

/-- What is remembered as it should be stays so when a lasting verdict is kept. -/
theorem Memory.Lasting.get?_keep_of_eq {sources : List (Source σ)} {s : σ} {m : Memory}
    {k : String} (hk : m.get? k = lastingVerdict sources s k) (feature : String) :
    (m.keep feature (lastingVerdict sources s feature)).get? k = lastingVerdict sources s k := by
  rw [get?_keep]
  split
  · next heq =>
    subst heq
    rw [hk, Option.or_self]
  · exact hk

/-- How far a call for a feature may have come. -/
def Stage.OnCourse (sources : List (Source σ)) (s : σ) (feature : String) (m : Memory) :
    Stage σ → Prop
  | fresh => True
  | asking attempts next later =>
    next :: later <:+ sources ∧
      (askInTurn feature (next :: later) s).1.behind attempts = (askInTurn feature sources s).1
  | writing r => r = Resolution.ofInquiry feature (askInTurn feature sources s).1
  | finished r =>
    r.info = verdict sources s feature ∧ m.get? feature = lastingVerdict sources s feature

section Step

variable {sources : List (Source σ)} {s : σ} {feature : String} {m : Memory}

theorem Stage.onCourse_askNext {left : List (Source σ)} {attempts : List Attempt}
    (hleft : left <:+ sources)
    (hinquiry : (askInTurn feature left s).1.behind attempts = (askInTurn feature sources s).1) :
    (Stage.askNext feature attempts left).OnCourse sources s feature m := by
  cases left with
  | cons next later => exact ⟨hleft, hinquiry⟩
  | nil =>
    have hall : (askInTurn feature ([] : List (Source σ)) s).1.behind attempts =
        ⟨attempts, none⟩ := by simp [askInTurn, Inquiry.behind]
    show Resolution.ofInquiry feature ⟨attempts, none⟩ = _
    rw [← hall, hinquiry]

/-- The step of another call does not put a call off course. -/
theorem Stage.OnCourse.of_other {stage : Stage σ} (h : stage.OnCourse sources s feature m)
    {other : String} {m' : Memory}
    (hm' : m' = m ∨ m' = m.keep other (lastingVerdict sources s other)) :
    stage.OnCourse sources s feature m' := by
  cases stage with
  | finished r =>
    refine ⟨h.1, ?_⟩
    rcases hm' with rfl | rfl
    · exact h.2
    · exact Memory.Lasting.get?_keep_of_eq h.2 other
  | _ => exact h

variable (hpure : ∀ source ∈ sources, source.IsPure)

include hpure

theorem info_of_onCourse_writing {r : Resolution}
    (h : r = Resolution.ofInquiry feature (askInTurn feature sources s).1) :
    r.info = verdict sources s feature ∧ r.lasting? = lastingVerdict sources s feature := by
  subst h
  refine ⟨?_, lasting?_of_isPure hpure feature s⟩
  rw [info_ofInquiry, answer_askInTurn hpure feature s s]
  rfl

/-- A step leaves the memory as it is or keeps a lasting verdict in it. -/
theorem Stage.OnCourse.memory_step {stage : Stage σ} (h : stage.OnCourse sources s feature m)
    (t : σ) : (stage.step sources feature m t).2.1 = m ∨
      (stage.step sources feature m t).2.1 =
        m.keep feature (lastingVerdict sources s feature) := by
  rw [Stage.memory_step]
  cases stage with
  | writing r =>
    obtain ⟨-, hlasting⟩ := info_of_onCourse_writing hpure h
    exact Or.inr (congrArg (m.keep feature) hlasting)
  | _ => exact Or.inl rfl

/-- A call on course stays on it, in whatever state it finds the sources. -/
theorem Stage.OnCourse.step {stage : Stage σ} (h : stage.OnCourse sources s feature m)
    (hm : m.Lasting sources s) (t : σ) :
    (stage.step sources feature m t).1.OnCourse sources s feature
      (stage.step sources feature m t).2.1 := by
  cases stage with
  | fresh =>
    rw [Stage.step]
    cases hget : m.get? feature with
    | some info =>
      have hverdict := hm feature info hget
      exact ⟨verdict_of_lastingVerdict hverdict, hget.trans hverdict.symm⟩
    | none => exact Stage.onCourse_askNext (List.suffix_refl sources) rfl
  | asking attempts next later =>
    obtain ⟨hsuffix, hinquiry⟩ := h
    have hpure' : ∀ source ∈ next :: later, source.IsPure :=
      fun source hsource => hpure source (hsuffix.mem hsource)
    have hsame : (next.ask feature t).1 = (next.ask feature s).1 :=
      hpure' next List.mem_cons_self feature t s
    have hlater := askInTurn_of_isPure
      (fun source hsource => hpure' source (List.mem_cons_of_mem next hsource)) feature
      (next.ask feature s).2 s
    cases hd : (next.ask feature s).1.definite? with
    | some info =>
      -- the inquiry ends here
      have hd' : (next.ask feature t).1.definite? = some info := hsame ▸ hd
      rw [askInTurn_of_definite hd] at hinquiry
      rw [Stage.step_asking_of_definite hd', hsame]
      show Resolution.ofInquiry feature _ = _
      rw [← hinquiry]
      rfl
    | none =>
      have hd' : (next.ask feature t).1.definite? = none := hsame ▸ hd
      rw [askInTurn_of_vague hd, hlater] at hinquiry
      rw [Stage.step_asking_of_vague hd', hsame]
      refine Stage.onCourse_askNext ((List.suffix_cons next later).trans hsuffix) ?_
      rw [← hinquiry]
      simp [Inquiry.behind]
  | writing r =>
    obtain ⟨hinfo, hlasting⟩ := info_of_onCourse_writing hpure h
    refine ⟨hinfo, ?_⟩
    show (m.keep feature r.lasting?).get? feature = _
    rw [hlasting, get?_keep, if_pos rfl]
    cases hget : m.get? feature with
    | none => exact Option.or_none
    | some info => rw [hm feature info hget, Option.some_or]
  | finished r => exact h

end Step

/-! ## Sessions on course -/

namespace Session

/-- All calls are on course, and the memory holds lasting verdicts only. -/
structure OnCourse (sources : List (Source σ)) (s : σ) (st : Session σ) : Prop where
  memory : st.memory.Lasting sources s
  calls : ∀ c ∈ st.calls, c.stage.OnCourse sources s c.feature st.memory

section Run

variable {sources : List (Source σ)} {s : σ} {st : Session σ}

theorem onCourse_start (features : List String) {m : Memory} (hm : m.Lasting sources s) (t : σ) :
    (start features m t).OnCourse sources s := by
  refine ⟨hm, fun c hc => ?_⟩
  obtain ⟨feature, -, rfl⟩ := List.mem_map.1 hc
  trivial

variable (hpure : ∀ source ∈ sources, source.IsPure)

include hpure

theorem OnCourse.step (h : st.OnCourse sources s) (i : Nat) :
    (st.step sources i).OnCourse sources s := by
  cases hi : st.calls[i]? with
  | none =>
    rw [step_of_none hi]
    exact h
  | some b =>
    have hb := h.calls b (List.mem_of_getElem? hi)
    have hmemory := hb.memory_step hpure st.world
    have hnew : (st.step sources i).memory =
        (b.stage.step sources b.feature st.memory st.world).2.1 := by rw [step_of_call hi]
    rw [← hnew] at hmemory
    constructor
    · rcases hmemory with heq | heq
      · exact heq ▸ h.memory
      · exact heq ▸ h.memory.keep b.feature
    · intro c hc
      obtain ⟨j, hj⟩ := List.mem_iff_getElem?.1 hc
      obtain ⟨a, ha, hfeature, hcase⟩ := exists_of_calls_step hj
      rcases hcase with rfl | ⟨rfl, hstage⟩
      · exact (h.calls c (List.mem_of_getElem? ha)).of_other hmemory
      · -- it is the call whose step it is
        rw [hi] at ha
        cases ha
        rw [hstage, hfeature, hnew]
        exact hb.step hpure h.memory st.world

theorem OnCourse.run (h : st.OnCourse sources s) (schedule : List Nat) :
    (run sources schedule st).OnCourse sources s := by
  induction schedule generalizing st with
  | nil => exact h
  | cons i rest ih => exact ih (h.step hpure i)

end Run

/-- Nothing is remembered of a feature that no call is for. -/
theorem get?_run_of_not_mem (sources : List (Source σ)) (schedule : List Nat)
    {features : List String} {k : String} (hk : k ∉ features) (m : Memory) (s : σ) :
    (run sources schedule (start features m s)).memory.get? k = m.get? k := by
  induction schedule using List.reverseRecOn with
  | nil => rfl
  | append_singleton rest i ih =>
    rw [run_snoc]
    rcases memory_step_cases sources (run sources rest (start features m s)) i with
      hsame | ⟨feature, r, info, hcall, -, hinsert⟩
    · rw [hsame, ih]
    · -- the call that writes is one of those at the start
      have hfeature := feature_run_start sources rest features m s i
      rw [hcall] at hfeature
      have hne : k ≠ feature := by
        rintro rfl
        exact hk (List.mem_of_getElem? hfeature.symm)
      rw [hinsert, KeyMap.get?_insert_of_ne _ _ hne, ih]

/-- What the memory holds when all calls have returned. -/
theorem get?_of_isFinished {sources : List (Source σ)} (hpure : ∀ source ∈ sources, source.IsPure)
    {s : σ} {m : Memory} (hm : m.Lasting sources s) (features : List String) (t : σ)
    {schedule : List Nat} (hdone : (run sources schedule (start features m t)).isFinished = true)
    (k : String) :
    (run sources schedule (start features m t)).memory.get? k =
      (m.get? k).or (if k ∈ features then lastingVerdict sources s k else none) := by
  have hcourse := (onCourse_start features hm t).run hpure schedule
  by_cases hk : k ∈ features
  · obtain ⟨i, hi⟩ := List.mem_iff_getElem?.1 hk
    have hfeature := feature_run_start sources schedule features m t i
    rw [hi] at hfeature
    obtain ⟨⟨feature, stage⟩, hcall, rfl⟩ := Option.map_eq_some_iff.1 hfeature
    have hmem := List.mem_of_getElem? hcall
    have hreturned := List.all_eq_true.1 hdone _ hmem
    have hstage := hcourse.calls _ hmem
    rw [if_pos hk]
    cases stage with
    | finished r =>
      rw [hstage.2]
      -- an entry that was there from the start is the lasting verdict too
      cases hget : m.get? feature with
      | none => rfl
      | some info => exact hm feature info hget
    | _ => cases hreturned
  · rw [get?_run_of_not_mem sources schedule hk, if_neg hk, Option.or_none]

/-- Pure sources, any calls that came before, and calls for features whose steps
    follow each other in any order. A call returns as soon as it has had enough
    steps, and it returns the verdict on its feature. When all have returned, the
    memory holds what it held and the lasting verdict on each feature that was
    called for; it is the same for every order. -/
theorem results_of_any_interleaving (sources : List (Source σ))
    (hpure : ∀ source ∈ sources, source.IsPure) (s : σ) (earlier : List String)
    (past : List Nat) (features : List String) :
    let before := run sources past (start earlier KeyMap.empty s)
    let after := fun schedule => run sources schedule (start features before.memory before.world)
    (∀ schedule i feature, features[i]? = some feature →
      (sources.length + 2 ≤ schedule.count i → ((after schedule).result? i).isSome = true) ∧
      ∀ r, (after schedule).result? i = some r → r.info = verdict sources s feature) ∧
    (∀ schedule, (after schedule).isFinished = true → ∀ k,
      (after schedule).memory.get? k =
        (before.memory.get? k).or
          (if k ∈ features then lastingVerdict sources s k else none)) ∧
    (∀ schedule other, (after schedule).isFinished = true → (after other).isFinished = true →
      (after schedule).memory = (after other).memory) := by
  intro before after
  have hbefore : before.OnCourse sources s :=
    (onCourse_start earlier (Memory.lasting_empty sources s) s).run hpure past
  have hmemory : ∀ schedule, (after schedule).isFinished = true → ∀ k,
      (after schedule).memory.get? k =
        (before.memory.get? k).or
          (if k ∈ features then lastingVerdict sources s k else none) :=
    fun schedule hdone k =>
      get?_of_isFinished hpure hbefore.memory features before.world hdone k
  refine ⟨?_, hmemory, ?_⟩
  · intro schedule i feature hi
    refine ⟨result?_isSome_of_count before.memory before.world hi, ?_⟩
    intro r hr
    obtain ⟨⟨feature', stage⟩, hcall, hresult⟩ := Option.bind_eq_some_iff.1 hr
    have hfeature := feature_run_start sources schedule features before.memory before.world i
    rw [hcall, hi] at hfeature
    cases hfeature
    have hcourse := (onCourse_start features hbefore.memory before.world).run hpure schedule
    have hstage := hcourse.calls _ (List.mem_of_getElem? hcall)
    cases stage with
    | finished r' =>
      cases hresult
      exact hstage.1
    | _ => cases hresult
  · intro schedule other hdone hother
    apply KeyMap.ext_get?
    intro k
    rw [hmemory schedule hdone, hmemory other hother]

/-- A source that knows one feature and cannot be asked about another one. -/
def shortList : Source Unit :=
  Source.fixed "short list" (fun feature =>
    if feature = "gap" then .found (Info.ofStatus .newly)
    else if feature = "grid" then .failed else .noResult)

/-- Two calls for one feature that both ask and both write, one for a feature
    about which the source fails, and a call before them all. -/
theorem shortList_interleaved :
    let before := run [shortList] [0, 0, 0] (start ["gap"] KeyMap.empty ())
    let after := run [shortList] [0, 1, 2, 1, 0, 2, 0, 1, 2]
      (start ["rare", "rare", "grid"] before.memory ())
    (after.result? 1).map Resolution.info = some (Info.unknown "rare") ∧
      after.memory.get? "gap" = some (Info.ofStatus .newly) ∧
      after.memory.get? "rare" = some (Info.unknown "rare") ∧
      after.memory.get? "grid" = none ∧
      after.memory = (run [shortList] [2, 2, 2, 1, 1, 1, 0, 0, 0]
        (start ["rare", "rare", "grid"] before.memory ())).memory := by
  have hpure : ∀ source ∈ [shortList], source.IsPure := by
    intro source hsource
    rw [List.mem_singleton.1 hsource]
    exact Source.isPure_fixed "short list" _
  obtain ⟨hresults, hmemory, hsame⟩ := results_of_any_interleaving [shortList] hpure ()
    ["gap"] [0, 0, 0] ["rare", "rare", "grid"]
  have hheld := hmemory [0, 1, 2, 1, 0, 2, 0, 1, 2] (by decide)
  intro before after
  refine ⟨?_, (hheld "gap").trans (by decide), (hheld "rare").trans (by decide),
    (hheld "grid").trans (by decide), hsame _ _ (by decide) (by decide)⟩
  obtain ⟨hreturned, hinfo⟩ := hresults [0, 1, 2, 1, 0, 2, 0, 1, 2] 1 "rare" rfl
  obtain ⟨r, hr⟩ := Option.isSome_iff_exists.1 (hreturned (by decide))
  have hr' : after.result? 1 = some r := hr
  rw [hr', Option.map_some, hinfo r hr]
  decide

end Session

end WebBaseline.Lookup

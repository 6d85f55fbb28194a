/-
  WebBaseline.Proofs.Lookup.Inquiry

  What one call asks, what it reports, and what it leaves in the memory. Sources may
  answer as they like, and differently every time.

    * recorded sources note each question that is put to them with their answer;
      `ChainRun` relates these notes to the inquiry, one constructor for each way the
      walk along the chain can go on, and the rest follows by induction on it;
    * the sources asked are the first ones of the chain, each asked once
      (`ChainRun.places`), and the attempts tell their names and the kinds of their
      answers (`ChainRun.attempts`);
    * the walk ends with the first definite answer (`ChainRun.of_answer`), or with the
      chain (`ChainRun.of_no_answer`).
-/

import WebBaseline.Proofs.Lookup.Session

namespace WebBaseline.Lookup

open WebBaseline.Baseline (Info)
open WebBaseline.Data (KeyMap)

variable {σ : Type}

/-! ## Recorded sources -/

/-- A question that was put to a source, by the source's place in the chain, and the
    answer. -/
structure Consultation where
  place : Nat
  feature : String
  answer : Outcome
  deriving DecidableEq

/-- The same source, with a note of every question and its answer. -/
def Source.recorded (place : Nat) (source : Source σ) : Source (σ × List Consultation) where
  name := source.name
  ask feature state :=
    let (outcome, s) := source.ask feature state.1
    (outcome, s, state.2 ++ [⟨place, feature, outcome⟩])

/-- The same sources, all of them recorded, with places counted from one on. -/
def recordedFrom : Nat → List (Source σ) → List (Source (σ × List Consultation))
  | _, [] => []
  | place, source :: rest => source.recorded place :: recordedFrom (place + 1) rest

/-- The same sources, all of them recorded. -/
def recorded (sources : List (Source σ)) : List (Source (σ × List Consultation)) :=
  recordedFrom 0 sources

/-! ## The walk along the chain -/

/-- How an inquiry about a feature goes along sources whose places count from one on:
    what is asked and answered, and what comes of it. -/
inductive ChainRun (feature : String) :
    Nat → List (Source σ) → List Consultation → Inquiry → Prop where
  /-- No source is left. -/
  | exhausted (place : Nat) : ChainRun feature place [] [] ⟨[], none⟩
  /-- A source says something definite, and no other one is asked. -/
  | definite {o : Outcome} {info : Info} (h : o.definite? = some info) (place : Nat)
      (source : Source σ) (rest : List (Source σ)) :
      ChainRun feature place (source :: rest) [⟨place, feature, o⟩]
        ⟨[⟨source.name, o.kind⟩], some (source.name, info)⟩
  /-- A source says nothing definite, and the next one is asked. -/
  | vague {o : Outcome} {place : Nat} {source : Source σ} {rest : List (Source σ)}
      {asked : List Consultation} {q : Inquiry} (h : o.definite? = none)
      (hrest : ChainRun feature (place + 1) rest asked q) :
      ChainRun feature place (source :: rest) (⟨place, feature, o⟩ :: asked)
        { q with attempts := ⟨source.name, o.kind⟩ :: q.attempts }

/-- Recording changes nothing, and the notes are those of a walk. -/
theorem askInTurn_recordedFrom (feature : String) (sources : List (Source σ)) (place : Nat)
    (s : σ) (notes : List Consultation) :
    ∃ asked, askInTurn feature (recordedFrom place sources) (s, notes) =
        ((askInTurn feature sources s).1, (askInTurn feature sources s).2, notes ++ asked) ∧
      ChainRun feature place sources asked (askInTurn feature sources s).1 := by
  induction sources generalizing place s notes with
  | nil => exact ⟨[], by rw [List.append_nil]; rfl, .exhausted place⟩
  | cons source rest ih =>
    rw [recordedFrom]
    cases hanswer : (source.ask feature s).1.definite? with
    | some info =>
      have hrecorded : ((source.recorded place).ask feature (s, notes)).1.definite? = some info :=
        hanswer
      rw [askInTurn_of_definite hanswer, askInTurn_of_definite hrecorded]
      exact ⟨_, rfl, .definite hanswer place source rest⟩
    | none =>
      have hrecorded : ((source.recorded place).ask feature (s, notes)).1.definite? = none :=
        hanswer
      obtain ⟨asked, hrest, hrun⟩ := ih (place + 1) (source.ask feature s).2
        (notes ++ [⟨place, feature, (source.ask feature s).1⟩])
      have hstep : ((source.recorded place).ask feature (s, notes)).2 =
          ((source.ask feature s).2, notes ++ [⟨place, feature, (source.ask feature s).1⟩]) := rfl
      rw [askInTurn_of_vague hanswer, askInTurn_of_vague hrecorded, hstep, hrest]
      refine ⟨⟨place, feature, (source.ask feature s).1⟩ :: asked, ?_, .vague hanswer hrun⟩
      rw [List.append_assoc, List.singleton_append]
      rfl

namespace ChainRun

variable {feature : String} {place : Nat} {sources : List (Source σ)}
  {asked : List Consultation} {q : Inquiry}

/-- The sources are asked in their order, each of them once. -/
theorem places (h : ChainRun feature place sources asked q) :
    asked.map (·.place) = List.range' place asked.length := by
  induction h with
  | exhausted place => rfl
  | definite hanswer place source rest => rfl
  | vague hanswer hrest ih => rw [List.map_cons, ih, List.length_cons, List.range'_succ]

theorem length_le (h : ChainRun feature place sources asked q) :
    asked.length ≤ sources.length := by
  induction h with
  | exhausted place => exact Nat.le_refl 0
  | definite hanswer place source rest => exact Nat.succ_le_succ (Nat.zero_le _)
  | vague hanswer hrest ih => exact Nat.succ_le_succ ih

theorem feature_eq (h : ChainRun feature place sources asked q) :
    ∀ c ∈ asked, c.feature = feature := by
  induction h with
  | exhausted place => exact List.forall_mem_nil _
  | definite hanswer place source rest => exact List.forall_mem_singleton.2 rfl
  | vague hanswer hrest ih => exact List.forall_mem_cons.2 ⟨rfl, ih⟩

/-- An attempt tells the name of each source asked and the kind of its answer. -/
theorem attempts (h : ChainRun feature place sources asked q) :
    q.attempts = List.zipWith (fun source o => ⟨source.name, o.kind⟩) sources
      (asked.map (·.answer)) := by
  induction h with
  | exhausted place => rfl
  | definite hanswer place source rest =>
    rw [List.map_singleton, List.zipWith_cons_cons, List.zipWith_nil_right]
  | vague hanswer hrest ih => rw [List.map_cons, List.zipWith_cons_cons, ih]

theorem kinds (h : ChainRun feature place sources asked q) :
    q.attempts.map (·.outcome) = asked.map (fun c => c.answer.kind) := by
  induction h with
  | exhausted place => rfl
  | definite hanswer place source rest => rfl
  | vague hanswer hrest ih => rw [List.map_cons, List.map_cons, ih]

/-- With an answer the walk ends at the source that gave it, and no source before that
    one said anything definite. -/
theorem of_answer {name : String} {info : Info} (h : ChainRun feature place sources asked q)
    (hanswer : q.answer = some (name, info)) :
    ∃ earlier source, asked = earlier ++ [⟨place + earlier.length, feature, .found info⟩] ∧
      (∀ c ∈ earlier, c.answer.definite? = none) ∧ sources[earlier.length]? = some source ∧
      source.name = name ∧ info.status.isDefinite = true := by
  induction h with
  | exhausted place => cases hanswer
  | definite hdefinite place source rest =>
    cases hanswer
    obtain ⟨rfl, hstatus⟩ := Outcome.definite?_eq_some_iff.1 hdefinite
    exact ⟨[], source, rfl, List.forall_mem_nil _, rfl, rfl, hstatus⟩
  | vague hvague hrest ih =>
    rename_i o place first rest asked q
    obtain ⟨earlier, source, rfl, hnone, hsource, hname, hstatus⟩ := ih hanswer
    refine ⟨⟨place, feature, o⟩ :: earlier, source, ?_, ?_, hsource, hname, hstatus⟩
    · rw [List.cons_append, List.length_cons, Nat.add_assoc, Nat.add_comm 1]
    · exact List.forall_mem_cons.2 ⟨hvague, hnone⟩

/-- Without an answer every source was asked, and none said anything definite. -/
theorem of_no_answer (h : ChainRun feature place sources asked q) (hanswer : q.answer = none) :
    asked.length = sources.length ∧ ∀ c ∈ asked, c.answer.definite? = none := by
  induction h with
  | exhausted place => exact ⟨rfl, List.forall_mem_nil _⟩
  | definite hdefinite place source rest => cases hanswer
  | vague hvague hrest ih =>
    obtain ⟨hlength, hnone⟩ := ih hanswer
    exact ⟨congrArg Nat.succ hlength, List.forall_mem_cons.2 ⟨hvague, hnone⟩⟩

end ChainRun

/-! ## What a call comes to -/

/-- An answer that is neither definite nor passing is that nothing is known. -/
theorem known_nothing_of_vague {o : Outcome} (hvague : o.definite? = none)
    (hlasting : o.kind.isTransient = false) :
    o = .noResult ∨ ∃ info, o = .found info ∧ info.status = .unknown := by
  cases o with
  | found info =>
    refine Or.inr ⟨info, rfl, ?_⟩
    rw [Outcome.definite?] at hvague
    split at hvague
    · cases hvague
    · next hstatus =>
      exact Classical.not_not.1 (fun hne => hstatus (Baseline.Status.isDefinite_iff.2 hne))
  | noResult => exact Or.inl rfl
  | timedOut => cases hlasting
  | failed => cases hlasting

/-- What a call does that finds nothing in the memory. It asks the sources in their
    order, each at most once, up to the first that says something definite, and its
    attempts tell the names of these and the kinds of their answers. That answer it
    returns and remembers; without one all were asked and nothing is known, which is
    remembered if that is what all said. No other entry changes. And nothing is known
    for good only if no source timed out or failed. -/
theorem resolve_walks_chain (sources : List (Source σ)) {k : String} {m : Memory} (s : σ)
    (hk : m.get? k = none) :
    ∃ r m' s' asked, resolve sources k m s = (r, m', s') ∧
      resolve (recorded sources) k m (s, []) = (r, m', s', asked) ∧
      (asked.map (·.place) = List.range asked.length ∧ asked.length ≤ sources.length ∧
        ∀ c ∈ asked, c.feature = k) ∧
      (r.cached = false ∧ r.attempts =
        List.zipWith (fun source o => ⟨source.name, o.kind⟩) sources (asked.map (·.answer))) ∧
      ((∃ earlier source info, asked = earlier ++ [⟨earlier.length, k, .found info⟩] ∧
          (∀ c ∈ earlier, c.answer.definite? = none) ∧ sources[earlier.length]? = some source ∧
          info.status ≠ .unknown ∧ r.info = info ∧ r.source = some source.name ∧
          m' = m.insert k info) ∨
        (asked.length = sources.length ∧ (∀ c ∈ asked, c.answer.definite? = none) ∧
          r.info = Info.unknown k ∧ r.source = none ∧
          m' = if ∀ c ∈ asked, c.answer = .noResult then m.insert k (Info.unknown k) else m)) ∧
      (∀ other, other ≠ k → m'.get? other = m.get? other) ∧
      (r.info.status = .unknown → r.isTransient = false →
        asked.length = sources.length ∧ ∀ c ∈ asked,
          c.answer = .noResult ∨ ∃ info, c.answer = .found info ∧ info.status = .unknown) := by
  obtain ⟨asked, hrecorded, hrun⟩ := askInTurn_recordedFrom k sources 0 s []
  rw [List.nil_append] at hrecorded
  have hresolve := @resolve_of_none _ sources k m s hk
  have hresolve' := @resolve_of_none _ (recorded sources) k m (s, []) hk
  rw [recorded, hrecorded] at hresolve'
  generalize (askInTurn k sources s).1 = q at hrun hresolve hresolve'
  have hattempts : (Resolution.ofInquiry k q).attempts = q.attempts := by
    rw [Resolution.ofInquiry]; split <;> rfl
  have hcached : (Resolution.ofInquiry k q).cached = false := by
    rw [Resolution.ofInquiry]; split <;> rfl
  refine ⟨_, _, _, asked, hresolve, hresolve', ⟨?_, hrun.length_le, hrun.feature_eq⟩,
    ⟨hcached, hattempts.trans hrun.attempts⟩, ?_, ?_, ?_⟩
  · rw [hrun.places, List.range_eq_range']
  · rw [lasting?_ofInquiry]
    cases hanswer : q.answer with
    | some found =>
      obtain ⟨name, info⟩ := found
      obtain ⟨earlier, source, hasked, hvague, hsource, rfl, hstatus⟩ := hrun.of_answer hanswer
      rw [Nat.zero_add] at hasked
      refine Or.inl ⟨earlier, source, info, hasked, hvague, hsource,
        Baseline.Status.isDefinite_iff.1 hstatus, ?_, ?_, rfl⟩
      · rw [Resolution.ofInquiry, hanswer]
      · rw [Resolution.ofInquiry, hanswer]
    | none =>
      obtain ⟨hlength, hvague⟩ := hrun.of_no_answer hanswer
      refine Or.inr ⟨hlength, hvague, ?_, ?_, ?_⟩
      · rw [Resolution.ofInquiry, hanswer]
      · rw [Resolution.ofInquiry, hanswer]
      · have hlength' : (asked.map (·.answer)).length = sources.length := by
          rw [List.length_map, hlength]
        have hall := attempts_all_noResult_iff hlength'
        rw [← hrun.attempts, List.forall_mem_map] at hall
        by_cases hnothing : ∀ c ∈ asked, c.answer = .noResult
        · simp only [if_pos (hall.2 hnothing), if_pos hnothing, Memory.keep]
        · simp only [if_neg (fun h => hnothing (hall.1 h)), if_neg hnothing, Memory.keep]
  · intro other hother
    rw [get?_keep, if_neg hother]
  · intro hunknown hlasting
    cases hanswer : q.answer with
    | some found =>
      obtain ⟨name, info⟩ := found
      obtain ⟨-, -, -, -, -, -, hstatus⟩ := hrun.of_answer hanswer
      rw [Resolution.ofInquiry, hanswer] at hunknown
      exact absurd hunknown (Baseline.Status.isDefinite_iff.1 hstatus)
    | none =>
      obtain ⟨hlength, hvague⟩ := hrun.of_no_answer hanswer
      refine ⟨hlength, fun c hc => known_nothing_of_vague (hvague c hc) ?_⟩
      have hmem : c.answer.kind ∈ q.attempts.map (·.outcome) := by
        rw [hrun.kinds]
        exact List.mem_map.2 ⟨c, hc, rfl⟩
      obtain ⟨a, ha, hkind⟩ := List.mem_map.1 hmem
      rw [Resolution.isTransient, hattempts, List.any_eq_false] at hlasting
      rw [← hkind]
      exact Bool.eq_false_iff.2 (hlasting a ha)

/-- A source that has an answer for everything and says nothing with it. -/
def vagueSource : Source Nat := .fixed "vague" (fun _ => .found (Info.ofStatus .unknown))

/-- Four sources of which the third is the first to say something definite. -/
def fourSources : List (Source Nat) :=
  [lateSource, vagueSource, .fixed "sure" (fun _ => .found (Info.ofStatus .newly)),
    .fixed "spare" (fun _ => .found (Info.ofStatus .widely))]

/-- A memory with the answer for another feature. -/
def oneAnswer : Memory := KeyMap.ofList [("fetch", Info.ofStatus .widely)]

/-- The fourth source is not asked, and the answer of the third is remembered. -/
theorem gap_resolved_by_third :
    oneAnswer.get? "gap" = none ∧
    ∃ r m' s' asked, resolve fourSources "gap" oneAnswer 0 = (r, m', s') ∧
      resolve (recorded fourSources) "gap" oneAnswer (0, []) = (r, m', s', asked) ∧
      asked = [⟨0, "gap", .timedOut⟩, ⟨1, "gap", .found (Info.ofStatus .unknown)⟩,
        ⟨2, "gap", .found (Info.ofStatus .newly)⟩] ∧
      r.attempts = [⟨"late", .timedOut⟩, ⟨"vague", .found⟩, ⟨"sure", .found⟩] ∧
      r.source = some "sure" ∧ m' = oneAnswer.insert "gap" (Info.ofStatus .newly) ∧
      m'.get? "fetch" = some (Info.ofStatus .widely) := by
  have hk : oneAnswer.get? "gap" = none := by decide
  have hnotes : (resolve (recorded fourSources) "gap" oneAnswer (0, [])).2.2.2 =
      [⟨0, "gap", .timedOut⟩, ⟨1, "gap", .found (Info.ofStatus .unknown)⟩,
        ⟨2, "gap", .found (Info.ofStatus .newly)⟩] := by decide
  obtain ⟨r, m', s', asked, hresolve, hrecorded, -, ⟨-, hattempts⟩, hend, hother, -⟩ :=
    resolve_walks_chain fourSources 0 hk
  rw [hrecorded] at hnotes
  obtain rfl : asked = _ := hnotes
  refine ⟨hk, r, m', s', _, hresolve, hrecorded, rfl, hattempts, ?_⟩
  rcases hend with ⟨earlier, source, info, hasked, -, hsource, -, -, hname, hmemory⟩ | ⟨hall, -⟩
  · -- two questions went before the last one
    have hlength : earlier.length = 2 := by
      have h := congrArg List.length hasked
      rw [List.length_append] at h
      exact (Nat.succ.inj h).symm
    rw [hlength] at hsource
    cases hsource
    have hlast := congrArg (fun notes => notes.getLast?.map (·.answer)) hasked
    simp only [List.getLast?_concat] at hlast
    cases hlast
    exact ⟨hname, hmemory, (hother "fetch" (by decide)).trans (by decide)⟩
  · cases hall

end WebBaseline.Lookup

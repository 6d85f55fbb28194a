/-
  WebBaseline.Proofs.Lookup.Search

  What a search service is asked about a feature, what comes of its replies, and
  what is left on disk. The service may reply as it likes, and differently every
  time.

    * a recorded service notes each query with its reply; `SearchRun` relates
      these notes to the outcome, one constructor for each way a reply can turn
      out, and the facts of a `SearchReport` follow by induction on it;
    * an attempt leaves the disk as looking up left it, or writes a definite
      answer (`disk_attemptRemote_cases`);
    * so a directory that starts empty holds definite answers only
      (`HoldsDefinite`), and an attempt without one writes nothing.
-/

import WebBaseline.Proofs.Lookup.Remote

namespace WebBaseline.Lookup

open WebBaseline.Baseline (Info)
open WebBaseline.Files (Disk Node Path Place)
open WebBaseline.Store (DiskCache)
open WebBaseline.Store.DiskCache (Holds OnlyFiles)

variable {σ : Type}

/-! ## Replies -/

namespace Reply

/-- The hits of a reply, if they can be read. -/
def data? : Reply → Option (List Hit)
  | answer status body => if isErrorStatus status then none else hitsOfText? body
  | _ => none

/-- The hits of a reply; one that cannot be read has none. -/
def hits (r : Reply) : List Hit := r.data?.getD []

/-- What a reply that cannot be read comes to. -/
def fault : Reply → Outcome
  | hang => .timedOut
  | unreachable => .failed
  | answer _ _ => .failed

variable {r : Reply}

theorem outcome_of_data?_eq_none (h : r.data? = none) : r.outcome = r.fault := by
  cases r with
  | hang => rfl
  | unreachable => rfl
  | answer status body =>
    rw [data?] at h
    rw [outcome, fault]
    split
    · rfl
    · next hstatus =>
      rw [if_neg hstatus] at h
      rw [h]

theorem outcome_of_data?_eq_some {found : List Hit} (h : r.data? = some found) :
    r.outcome = .ofInfo? (found.head?.map Hit.info) := by
  cases r with
  | hang => cases h
  | unreachable => cases h
  | answer status body =>
    rw [data?] at h
    split at h
    · cases h
    · next hstatus =>
      rw [outcome, if_neg hstatus, h]
      cases found <;> rfl

theorem hits_of_data?_eq_some {found : List Hit} (h : r.data? = some found) : r.hits = found := by
  rw [hits, h, Option.getD_some]

theorem hits_of_data?_eq_none (h : r.data? = none) : r.hits = [] := by
  rw [hits, h, Option.getD_none]

theorem fault_eq (r : Reply) : r.fault = .timedOut ∨ r.fault = .failed := by
  cases r with
  | hang => exact Or.inl rfl
  | unreachable => exact Or.inr rfl
  | answer status body => exact Or.inr rfl

end Reply

/-! ## The run of a search -/

section Step

variable (service : Service σ) (query : String) (rest : List String) (last : Outcome) (s : σ)

theorem searchInTurn_of_fault (h : (service query s).1.data? = none) :
    searchInTurn service (query :: rest) last s =
      searchInTurn service rest (service query s).1.fault (service query s).2 := by
  have houtcome := Reply.outcome_of_data?_eq_none h
  rw [searchInTurn]
  rcases (service query s).1.fault_eq with hfault | hfault
  · rw [hfault] at houtcome ⊢
    simp only [houtcome]
  · rw [hfault] at houtcome ⊢
    simp only [houtcome]

theorem searchInTurn_of_miss (h : (service query s).1.data? = some []) :
    searchInTurn service (query :: rest) last s =
      searchInTurn service rest last (service query s).2 := by
  have houtcome := Reply.outcome_of_data?_eq_some h
  rw [searchInTurn]
  simp only [houtcome, List.head?_nil, Option.map_none, Outcome.ofInfo?]

theorem searchInTurn_of_hit {hit : Hit} {hits : List Hit}
    (h : (service query s).1.data? = some (hit :: hits)) :
    searchInTurn service (query :: rest) last s = (.found hit.info, (service query s).2) := by
  have houtcome := Reply.outcome_of_data?_eq_some h
  rw [searchInTurn]
  simp only [houtcome, List.head?_cons, Option.map_some, Outcome.ofInfo?]

end Step

/-- A service that notes what it is asked and what it replies. -/
def Service.recorded (service : Service σ) : Service (σ × List (String × Reply)) :=
  fun query s =>
    let (reply, t) := service query s.1
    (reply, t, s.2 ++ [(query, reply)])

/-- How queries are sent and what comes of them: `SearchRun queries last sent
    outcome` if a search with `queries` left to send, that has come to `last` so
    far, sends `sent` with these replies and ends with `outcome`. -/
inductive SearchRun : List String → Outcome → List (String × Reply) → Outcome → Prop
  | ended (last : Outcome) : SearchRun [] last [] last
  | hit {query : String} {reply : Reply} {rest : List String} {last : Outcome} {hit : Hit}
      {hits : List Hit} (h : reply.data? = some (hit :: hits)) :
      SearchRun (query :: rest) last [(query, reply)] (.found hit.info)
  | miss {query : String} {reply : Reply} {rest : List String} {last outcome : Outcome}
      {sent : List (String × Reply)} (h : reply.data? = some [])
      (hrest : SearchRun rest last sent outcome) :
      SearchRun (query :: rest) last ((query, reply) :: sent) outcome
  | fault {query : String} {reply : Reply} {rest : List String} {last outcome : Outcome}
      {sent : List (String × Reply)} (h : reply.data? = none)
      (hrest : SearchRun rest reply.fault sent outcome) :
      SearchRun (query :: rest) last ((query, reply) :: sent) outcome

/-- Taking notes changes nothing, and the notes are those of a run. -/
theorem searchInTurn_recorded (service : Service σ) (queries : List String) (last : Outcome)
    (s : σ) (notes : List (String × Reply)) :
    ∃ sent, searchInTurn service.recorded queries last (s, notes) =
        ((searchInTurn service queries last s).1, (searchInTurn service queries last s).2,
          notes ++ sent) ∧
      SearchRun queries last sent (searchInTurn service queries last s).1 := by
  induction queries generalizing last s notes with
  | nil => exact ⟨[], by rw [List.append_nil]; rfl, .ended last⟩
  | cons query rest ih =>
    have hstep : service.recorded query (s, notes) =
        ((service query s).1, (service query s).2, notes ++ [(query, (service query s).1)]) := rfl
    -- the reply decides which constructor it is, and whether the search goes on
    cases hdata : (service query s).1.data? with
    | none =>
      obtain ⟨sent, hsent, hrun⟩ := ih (service query s).1.fault (service query s).2
        (notes ++ [(query, (service query s).1)])
      rw [searchInTurn_of_fault service query rest last s hdata,
        searchInTurn_of_fault service.recorded query rest last (s, notes) hdata, hstep, hsent,
        List.append_assoc]
      exact ⟨_, rfl, .fault hdata hrun⟩
    | some found =>
      cases found with
      | nil =>
        obtain ⟨sent, hsent, hrun⟩ := ih last (service query s).2
          (notes ++ [(query, (service query s).1)])
        rw [searchInTurn_of_miss service query rest last s hdata,
          searchInTurn_of_miss service.recorded query rest last (s, notes) hdata, hstep, hsent,
          List.append_assoc]
        exact ⟨_, rfl, .miss hdata hrun⟩
      | cons hit hits =>
        rw [searchInTurn_of_hit service query rest last s hdata,
          searchInTurn_of_hit service.recorded query rest last (s, notes) hdata, hstep]
        exact ⟨_, rfl, .hit hdata⟩

namespace SearchRun

variable {asked : List String} {last outcome : Outcome} {sent : List (String × Reply)}

theorem isPrefix_sent (h : SearchRun asked last sent outcome) : sent.map Prod.fst <+: asked := by
  induction h with
  | ended last => exact List.prefix_rfl
  | hit h => exact ⟨_, rfl⟩
  | miss h hrest ih => exact List.cons_prefix_cons.2 ⟨rfl, ih⟩
  | fault h hrest ih => exact List.cons_prefix_cons.2 ⟨rfl, ih⟩

theorem sent_ne_nil (h : SearchRun asked last sent outcome) (hasked : asked ≠ []) :
    sent ≠ [] := by
  cases h with
  | ended last => exact absurd rfl hasked
  | hit h => exact List.cons_ne_nil _ _
  | miss h hrest => exact List.cons_ne_nil _ _
  | fault h hrest => exact List.cons_ne_nil _ _

/-- Where a first reply has no hits, none but the last one has if that holds of
    the others. -/
theorem hits_of_mem_dropLast_cons {e x : String × Reply} (hx : x.2.hits = [])
    (hrest : ∀ e ∈ sent.dropLast, e.2.hits = []) (he : e ∈ (x :: sent).dropLast) :
    e.2.hits = [] := by
  cases sent with
  | nil => cases he
  | cons y ys =>
    rcases List.mem_cons.1 he with rfl | he
    · exact hx
    · exact hrest e he

/-- Only the last reply can have hits. -/
theorem hits_of_mem_dropLast (h : SearchRun asked last sent outcome) :
    ∀ e ∈ sent.dropLast, e.2.hits = [] := by
  induction h with
  | ended last => simp
  | hit h => simp
  | miss h hrest ih =>
    exact fun e he => hits_of_mem_dropLast_cons (Reply.hits_of_data?_eq_some h) ih he
  | fault h hrest ih =>
    exact fun e he => hits_of_mem_dropLast_cons (Reply.hits_of_data?_eq_none h) ih he

/-- A search whose last reply has no hits has sent everything. -/
theorem sent_eq_of_hits_getLast? (h : SearchRun asked last sent outcome)
    (hlast : ∀ e ∈ sent.getLast?, e.2.hits = []) : sent.map Prod.fst = asked := by
  have hrest : ∀ {x : String × Reply} {sent}, (∀ e ∈ (x :: sent).getLast?, e.2.hits = []) →
      ∀ e ∈ sent.getLast?, e.2.hits = [] := by
    intro x sent hlast e he
    apply hlast e
    rw [List.getLast?_cons, he]
    rfl
  induction h with
  | ended last => rfl
  | @hit query reply rest last hit hits h =>
    cases (Reply.hits_of_data?_eq_some h).symm.trans (hlast (query, reply) rfl)
  | miss h _ ih => exact congrArg (_ :: ·) (ih (hrest hlast))
  | fault h _ ih => exact congrArg (_ :: ·) (ih (hrest hlast))

/-- The first hit of a reply is what was found. -/
theorem eq_found_of_mem (h : SearchRun asked last sent outcome) {e : String × Reply} (he : e ∈ sent)
    {hit : Hit} (hhit : e.2.hits.head? = some hit) : outcome = .found hit.info := by
  have hnot : ∀ {e : String × Reply}, e.2.hits = [] → e.2.hits.head? = some hit → False := by
    intro e hnil hhit
    rw [hnil] at hhit
    cases hhit
  induction h with
  | ended last => cases he
  | hit h =>
    rw [List.mem_singleton.1 he, Reply.hits_of_data?_eq_some h] at hhit
    cases hhit
    rfl
  | miss h hrest ih =>
    rcases List.mem_cons.1 he with rfl | he
    · exact (hnot (Reply.hits_of_data?_eq_some h) hhit).elim
    · exact ih he
  | fault h hrest ih =>
    rcases List.mem_cons.1 he with rfl | he
    · exact (hnot (Reply.hits_of_data?_eq_none h) hhit).elim
    · exact ih he

/-- A search that only gets empty replies comes to what it had come to before. -/
theorem eq_last_of_empty (h : SearchRun asked last sent outcome)
    (hempty : ∀ e ∈ sent, e.2.data? = some []) : outcome = last := by
  induction h with
  | ended last => rfl
  | hit h =>
    cases h.symm.trans (hempty _ List.mem_cons_self)
  | miss h hrest ih => exact ih (fun e he => hempty e (List.mem_cons_of_mem _ he))
  | fault h hrest ih =>
    cases h.symm.trans (hempty _ List.mem_cons_self)

/-- Nothing is found and nothing goes wrong exactly if all queries are sent and
    all replies are empty. -/
theorem eq_noResult_iff (h : SearchRun asked last sent outcome) :
    outcome = .noResult ↔
      last = .noResult ∧ sent.map Prod.fst = asked ∧ ∀ e ∈ sent, e.2.data? = some [] := by
  induction h with
  | ended last => simp
  | hit h =>
    simp only [reduceCtorEq, false_iff]
    rintro ⟨-, -, hempty⟩
    cases h.symm.trans (hempty _ List.mem_cons_self)
  | miss h hrest ih =>
    rw [ih, List.map_cons, List.cons.injEq, List.forall_mem_cons]
    simp only [h, true_and]
  | @fault query reply rest last outcome sent h hrest ih =>
    -- after a fault the search cannot come to no result any more
    have hfault : reply.fault ≠ .noResult := by
      rcases reply.fault_eq with h | h <;> simp [h]
    rw [ih, List.forall_mem_cons]
    simp [hfault, h]

/-- A fault counts unless a later reply can be read and has hits, or is a fault
    itself. -/
theorem eq_fault_of_append (h : SearchRun asked last sent outcome)
    {before after : List (String × Reply)} {e : String × Reply}
    (hsent : sent = before ++ e :: after) (he : e.2.data? = none) (hafter : ∀ x ∈ after, x.2.data? = some []) :
    outcome = e.2.fault := by
  induction h generalizing before with
  | ended last => simp at hsent
  | hit h =>
    cases before with
    | nil =>
      obtain ⟨rfl, -⟩ := List.cons.inj hsent
      cases h.symm.trans he
    | cons x before => simp at hsent
  | miss h hrest ih =>
    cases before with
    | nil =>
      obtain ⟨rfl, -⟩ := List.cons.inj hsent
      cases h.symm.trans he
    | cons x before => exact ih (List.cons.inj hsent).2
  | fault h hrest ih =>
    cases before with
    | nil =>
      -- the fault is what the search has come to, and nothing changes that
      obtain ⟨rfl, rfl⟩ := List.cons.inj hsent
      exact hrest.eq_last_of_empty hafter
    | cons x before => exact ih (List.cons.inj hsent).2

end SearchRun

/-! ## Reports -/

/-- What can be said of a search with some queries from what was sent, what was
    replied and what came of it. -/
structure SearchReport (asked : List String) (sent : List (String × Reply)) (outcome : Outcome) :
    Prop where
  sent_ne_nil : sent ≠ []
  inOrder : sent.map Prod.fst <+: asked
  nodup : (sent.map Prod.fst).Nodup
  /-- The search goes on only behind replies without hits. -/
  goesOn : ∀ e ∈ sent.dropLast, e.2.hits = []
  /-- The search ends with a hit or when all queries have been sent. -/
  ends : (∀ e ∈ sent.getLast?, e.2.hits = []) → sent.map Prod.fst = asked
  found : ∀ e ∈ sent, ∀ hit ∈ e.2.hits.head?, outcome = .found hit.info
  noResult : outcome = .noResult ↔
    sent.map Prod.fst = asked ∧ ∀ e ∈ sent, e.2.data? = some []
  /-- The last reply that could not be read counts, if there were no hits. -/
  fault : ∀ before e after, sent = before ++ e :: after → e.2.data? = none →
    (∀ x ∈ after, x.2.data? = some []) → outcome = e.2.fault

theorem SearchRun.report {asked : List String} {sent : List (String × Reply)} {outcome : Outcome}
    (h : SearchRun asked .noResult sent outcome) (hne : asked ≠ []) (hnodup : asked.Nodup) :
    SearchReport asked sent outcome where
  sent_ne_nil := h.sent_ne_nil hne
  inOrder := h.isPrefix_sent
  nodup := hnodup.sublist h.isPrefix_sent.sublist
  goesOn := h.hits_of_mem_dropLast
  ends := h.sent_eq_of_hits_getLast?
  found _ he _ hhit := h.eq_found_of_mem he hhit
  noResult := h.eq_noResult_iff.trans (and_iff_right rfl)
  fault _ _ _ hsent he hafter := h.eq_fault_of_append hsent he hafter

/-- No two queries for a feature are the same: they differ in length. -/
theorem queries_nodup (feature : String) : (queries feature).Nodup := by
  have hspaced : (spaced feature).toList.length = feature.toList.length := by
    rw [spaced, String.toList_ofList, List.length_map]
  have hlengths : (queries feature).map (fun query => query.toList.length) =
      [feature.toList.length + 3, feature.toList.length + 5, feature.toList.length] := by
    simp [queries, hspaced]
  have hnodup : ((queries feature).map (fun query => query.toList.length)).Nodup := by
    rw [hlengths]
    simp
  apply (List.pairwise_map.1 hnodup).imp
  intro a b hne heq
  exact hne (congrArg (fun query => query.toList.length) heq)

/-! ## Attempts -/

/-- Whether nothing is kept about a feature that still counts and can be read. -/
def NothingKept (cache : Option DiskCache) (feature : String) (d : Disk) : Prop :=
  ∀ c content written, cache = some c →
    d.node (c.path (cacheKey feature)) = .ok (.file content written) →
    c.isExpired written d.now = false → DiskCache.valueOf? Info.ofValue? content = none

theorem kept_of_nothingKept {cache : Option DiskCache} {feature : String} {d : Disk}
    (h : NothingKept cache feature d) : (kept cache feature d).1 = none := by
  cases cache with
  | none => rfl
  | some c =>
    rw [kept, DiskCache.get]
    split
    · next content written hnode =>
      by_cases hexpired : c.isExpired written d.now = true
      · rw [if_pos hexpired]
      · rw [if_neg hexpired]
        exact h c content written rfl hnode (Bool.not_eq_true _ ▸ hexpired)
    · rfl

section Attempt

variable (service : Service σ) (cache : Option DiskCache) (feature : String) (d : Disk) (s : σ)

/-- The state after an attempt: on disk there is what looking up left, or a
    definite answer was written besides. -/
theorem disk_attemptRemote_cases :
    (attemptRemote service cache feature (d, s)).2.1 = (kept cache feature d).2 ∨
    ∃ c info, cache = some c ∧
      (attemptRemote service cache feature (d, s)).1.definite? = some info ∧
      (attemptRemote service cache feature (d, s)).2.1 =
        (c.set (cacheKey feature) info.toValue (kept cache feature d).2).2 := by
  rw [attemptRemote]
  obtain ⟨known, looked⟩ := kept cache feature d
  cases known with
  | some info => exact Or.inl rfl
  | none =>
    obtain ⟨outcome, t⟩ := search service feature s
    cases cache with
    | none => exact Or.inl rfl
    | some c =>
      cases hdef : outcome.definite? with
      | none =>
        refine Or.inl ?_
        simp only [keep, hdef]
      | some info =>
        refine Or.inr ⟨c, info, rfl, rfl, ?_⟩
        simp only [keep, hdef]

theorem file_of_kept {p : Place} {content : ByteArray} {written : Nat}
    (h : (kept cache feature d).2.top.at? p = some (.file content written)) :
    d.top.at? p = some (.file content written) := by
  cases cache with
  | none => exact h
  | some c => exact c.file_of_get Info.ofValue? (cacheKey feature) h

variable {cache feature d}

/-- An attempt for which nothing is kept sends queries, and notes of them make a
    report. -/
theorem attemptRemote_recorded (h : NothingKept cache feature d) :
    ∃ sent, attemptRemote service.recorded cache feature (d, s, []) =
        ((attemptRemote service cache feature (d, s)).1,
          (attemptRemote service cache feature (d, s)).2.1,
          (attemptRemote service cache feature (d, s)).2.2, sent) ∧
      SearchReport (queries feature) sent (attemptRemote service cache feature (d, s)).1 := by
  have hkept := kept_of_nothingKept h
  obtain ⟨sent, hsearch, hrun⟩ := searchInTurn_recorded service (queries feature) .noResult s []
  rw [List.nil_append] at hsearch
  -- both attempts look up the same and find nothing, so both search
  rw [attemptRemote, attemptRemote]
  cases hcase : kept cache feature d with | mk known looked =>
  rw [hcase] at hkept
  cases hkept
  simp only [search, hsearch]
  exact ⟨sent, rfl, hrun.report (List.cons_ne_nil _ _) (queries_nodup feature)⟩

end Attempt

/-! ## What is left on disk -/

/-- An entry that is a file with something definite about a feature. -/
def KeepsDefinite (n : Node) : Prop :=
  ∃ content written info, n = .file content written ∧
    DiskCache.valueOf? Info.ofValue? content = some info ∧ info.status.isDefinite = true

/-- A directory with definite answers, if with any. -/
structure HoldsDefinite (d : Disk) (dir : Path) (es : List (String × Node)) : Prop where
  holds : Holds d dir es
  entries : ∀ e ∈ es, KeepsDefinite e.2

/-- The state after questions, one after the other. -/
def afterQuestions (service : Service σ) (dir : Path) (qs : List Question) (s : Disk × σ) :
    Disk × σ :=
  qs.foldl (fun s q => (q.ask service (some dir) s).2) s

section Directory

variable {d : Disk} {dir : Path} {es : List (String × Node)}

theorem HoldsDefinite.onlyFiles (h : HoldsDefinite d dir es) : OnlyFiles es := by
  intro name n hn
  obtain ⟨before, after, rfl, -⟩ := List.lookup_eq_some_iff.1 hn
  obtain ⟨content, written, -, rfl, -⟩ :=
    h.entries (name, n) (List.mem_append_right _ List.mem_cons_self)
  rfl

theorem HoldsDefinite.atTime (h : HoldsDefinite d dir es) (time : Nat) :
    HoldsDefinite (d.atTime time) dir es :=
  ⟨h.holds.atTime time, h.entries⟩

/-- What is written about a feature can be read again. -/
theorem keepsDefinite_of_isDefinite {info : Info} (h : info.status.isDefinite = true)
    (time : Nat) : KeepsDefinite (.file info.toValue.compact.toUTF8 time) :=
  ⟨_, time, info, rfl, DiskCache.valueOf?_toUTF8 Baseline.inverse_info info, h⟩

theorem HoldsDefinite.set {c : DiskCache} (h : HoldsDefinite d c.dir es) (key : String)
    {info : Info} (hdef : info.status.isDefinite = true) :
    ∃ fs, HoldsDefinite (c.set key info.toValue d).2 c.dir fs := by
  refine ⟨_, DiskCache.holds_set h.holds h.onlyFiles key info.toValue, fun e he => ?_⟩
  rw [DiskCache.entriesAfter] at he
  split at he
  · rcases Data.KeyMap.mem_put he with rfl | he
    · exact keepsDefinite_of_isDefinite hdef d.now
    · exact h.entries e he
  · exact h.entries e he

/-- One question keeps what the directory is like. -/
theorem HoldsDefinite.ask (h : HoldsDefinite d dir es) (service : Service σ) (q : Question)
    (s : σ) : ∃ fs, HoldsDefinite (q.ask service (some dir) (d, s)).2.1 dir fs := by
  -- looking up may take away a file, and writes none
  have hlooked : ∃ gs, HoldsDefinite (kept (some ⟨dir, q.ttl⟩) q.feature (d.atTime q.time)).2
      dir gs := by
    have hd := h.atTime q.time
    obtain ⟨gs, hgs, hsub⟩ := DiskCache.exists_holds_get (c := ⟨dir, q.ttl⟩) hd.holds
      h.onlyFiles Info.ofValue? (cacheKey q.feature)
    exact ⟨gs, hgs, fun e he => h.entries e (hsub e he)⟩
  obtain ⟨gs, hgs⟩ := hlooked
  rw [Question.ask, Option.map_some]
  rcases disk_attemptRemote_cases service (some ⟨dir, q.ttl⟩) q.feature (d.atTime q.time) s with
    hsame | ⟨c, info, hc, hfound, hset⟩
  · rw [hsame]
    exact ⟨gs, hgs⟩
  · cases hc
    obtain ⟨-, hdef⟩ := Outcome.definite?_eq_some_iff.1 hfound
    rw [hset]
    exact hgs.set (cacheKey q.feature) hdef

theorem HoldsDefinite.afterQuestions (h : HoldsDefinite d dir es) (service : Service σ)
    (qs : List Question) (s : σ) :
    ∃ fs, HoldsDefinite (afterQuestions service dir qs (d, s)).1 dir fs := by
  induction qs generalizing d es s with
  | nil => exact ⟨es, h⟩
  | cons q qs ih =>
    obtain ⟨fs, hnext⟩ := h.ask service q s
    exact ih hnext (q.ask service (some dir) (d, s)).2.2

end Directory

/-- An attempt that comes to nothing definite writes no file: each one that is
    there afterwards was there before, as it is. -/
theorem file_of_attemptRemote {service : Service σ} {cache : Option DiskCache} {feature : String}
    {d : Disk} {s : σ} (h : (attemptRemote service cache feature (d, s)).1.definite? = none)
    {p : Place} {content : ByteArray} {written : Nat}
    (hfile : (attemptRemote service cache feature (d, s)).2.1.top.at? p =
      some (.file content written)) :
    d.top.at? p = some (.file content written) := by
  rcases disk_attemptRemote_cases service cache feature d s with hsame | ⟨c, info, -, hdef, -⟩
  · rw [hsame] at hfile
    exact file_of_kept cache feature d hfile
  · rw [h] at hdef
    cases hdef

/-- However a service replies: an attempt for which nothing is kept sends up to
    three queries and comes to what the replies say; after any questions a
    directory that was empty holds definite answers only; and an attempt that
    comes to nothing definite writes no file. -/
theorem attempts_search_and_keep (service : Service σ) :
    (∀ cache feature d s, NothingKept cache feature d →
      ∃ sent, attemptRemote service.recorded cache feature (d, s, []) =
          ((attemptRemote service cache feature (d, s)).1,
            (attemptRemote service cache feature (d, s)).2.1,
            (attemptRemote service cache feature (d, s)).2.2, sent) ∧
        SearchReport ["id:" ++ feature, "name:" ++ feature, spaced feature] sent
          (attemptRemote service cache feature (d, s)).1) ∧
    (∀ d dir s, Holds d dir [] → ∀ qs,
      ∃ es, Holds (afterQuestions service dir qs (d, s)).1 dir es ∧
        ∀ e ∈ es, KeepsDefinite e.2) ∧
    (∀ cache feature d s, (attemptRemote service cache feature (d, s)).1.definite? = none →
      ∀ p content written, (attemptRemote service cache feature (d, s)).2.1.top.at? p =
          some (.file content written) →
        d.top.at? p = some (.file content written)) := by
  refine ⟨fun cache feature d s h => attemptRemote_recorded service s h, ?_, ?_⟩
  · intro d dir s h qs
    have hempty : HoldsDefinite d dir [] := ⟨h, fun e he => nomatch he⟩
    obtain ⟨es, hes⟩ := hempty.afterQuestions service qs s
    exact ⟨es, hes.holds, hes.entries⟩
  · exact fun cache feature d s h p content written hfile => file_of_attemptRemote h hfile

/-- A service that is too slow for ids, fails for names, and knows one feature by
    its words. -/
def wordsOnly : Service Unit := fun query s =>
  (if query.startsWith "id:" then .hang
    else if query.startsWith "name:" then .answer 500 ""
    else .answer 200 (if query = "fetch later" then
      "\x7b\"data\":[\x7b\"name\":\"Later\",\"baseline\":\x7b\"status\":\"limited\"\x7d\x7d]\x7d"
      else "\x7b\x7d"), s)

/-- The feature it knows is found with the third query and kept; another one is
    not, and nothing is written. -/
theorem wordsOnly_searched_and_kept :
    (∃ sent, attemptRemote wordsOnly.recorded (some ⟨"/", 60⟩) "fetch-later" (emptyDisk, (), []) =
        ((attemptRemote wordsOnly (some ⟨"/", 60⟩) "fetch-later" (emptyDisk, ())).1,
          (attemptRemote wordsOnly (some ⟨"/", 60⟩) "fetch-later" (emptyDisk, ())).2.1, (), sent) ∧
      SearchReport ["id:fetch-later", "name:fetch-later", "fetch later"] sent
        (.found { status := .limited, description := some "Later" })) ∧
    (∃ es, Holds (afterQuestions wordsOnly "/" [⟨"fetch-later", 60, 0⟩, ⟨"other", 60, 1⟩]
        (emptyDisk, ())).1 "/" es ∧ ∀ e ∈ es, KeepsDefinite e.2) ∧
    (∀ p content written,
      (attemptRemote wordsOnly (some ⟨"/", 60⟩) "other" (emptyDisk, ())).2.1.top.at? p =
        some (.file content written) → emptyDisk.top.at? p = some (.file content written)) := by
  obtain ⟨hsearch, hkeep, hwrite⟩ := attempts_search_and_keep wordsOnly
  have hnothing : NothingKept (some ⟨"/", 60⟩) "fetch-later" emptyDisk := by
    intro c content written hc hnode
    cases hc
    have hmissing : emptyDisk.has (DiskCache.path ⟨"/", 60⟩ (cacheKey "fetch-later")) = false := by
      decide +kernel
    rw [Disk.has, hnode] at hmissing
    cases hmissing
  have hfound : (attemptRemote wordsOnly (some ⟨"/", 60⟩) "fetch-later" (emptyDisk, ())).1 =
      .found { status := .limited, description := some "Later" } := by decide +kernel
  refine ⟨?_, ?_, ?_⟩
  · obtain ⟨sent, hsent, hreport⟩ := hsearch _ _ _ () hnothing
    rw [hfound] at hreport
    have hspaced : spaced "fetch-later" = "fetch later" := by decide
    rw [hspaced] at hreport
    exact ⟨sent, hsent, hreport⟩
  · exact hkeep emptyDisk "/" () (DiskCache.holds_of_node rfl) _
  · exact hwrite _ _ _ _ (by decide +kernel)

end WebBaseline.Lookup

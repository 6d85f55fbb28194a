/-
  WebBaseline.Proofs.Lookup.Remote

  A search service that is asked many questions, with and without a directory in
  which answers are kept.

    * `outcomes` are the answers to questions one after the other, each asked at
      its own time and of a source made for it;
    * after some questions the directory `Mirrors` them: under each file name it
      holds the first definite answer that was written there;
    * `outcomes_eq_iff` says when the directory cannot be noticed: if features
      that share a file have the same answer, once that answer is kept.

  Different features may share a file, so the directory can be noticed, and an
  answer for one feature be given for another.
-/

import WebBaseline.Lookup.Remote
import WebBaseline.Proofs.Baseline.Encoding
import WebBaseline.Proofs.Store.DiskCache

namespace WebBaseline.Lookup

open WebBaseline.Baseline (Info)
open WebBaseline.Files (Disk Node Path)
open WebBaseline.Store (DiskCache)
open WebBaseline.Store.DiskCache (Holds OnlyFiles)

variable {σ : Type}

/-! ## Steady services -/

/-- A service that gives the same reply to the same query every time. -/
def Service.IsSteady (service : Service σ) : Prop :=
  ∀ query s t, (service query s).1 = (service query t).1

theorem searchInTurn_of_isSteady {service : Service σ} (h : service.IsSteady)
    (queries : List String) (last : Outcome) (s t : σ) :
    (searchInTurn service queries last s).1 = (searchInTurn service queries last t).1 := by
  induction queries generalizing last s t with
  | nil => rfl
  | cons query rest ih =>
    have hreply := h query s t
    rw [searchInTurn, searchInTurn]
    simp only [hreply]
    cases (service query t).1.outcome with
    | found info => rfl
    | noResult => exact ih last _ _
    | timedOut => exact ih .timedOut _ _
    | failed => exact ih .failed _ _

theorem search_of_isSteady {service : Service σ} (h : service.IsSteady) (feature : String)
    (s t : σ) : (search service feature s).1 = (search service feature t).1 :=
  searchInTurn_of_isSteady h (queries feature) .noResult s t

/-! ## Questions -/

/-- A question to the service. -/
structure Question where
  feature : String
  /-- How long a kept answer counts for the source that is asked, in seconds. -/
  ttl : UInt64
  /-- When it is asked, in nanoseconds. -/
  time : Nat

namespace Question

/-- The file in which an answer is kept. -/
def file (q : Question) : String := DiskCache.fileName (cacheKey q.feature)

/-- Asks a source, made for this question, that keeps answers in a directory or
    nowhere. -/
def ask (service : Service σ) (dir : Option Path) (q : Question) (s : Disk × σ) :
    Outcome × Disk × σ :=
  attemptRemote service (dir.map (fun dir => ⟨dir, q.ttl⟩)) q.feature (s.1.atTime q.time, s.2)

/-- Whether an answer to one question still counts at another. -/
def Lasts (a b : Question) : Prop := b.time - a.time ≤ b.ttl.toNat * 1000000000

instance : DecidableRel Lasts := fun _ _ => inferInstanceAs (Decidable (_ ≤ _))

end Question

/-- The answers to questions, one after the other. -/
def outcomes (service : Service σ) (dir : Option Path) : List Question → Disk × σ → List Outcome
  | [], _ => []
  | q :: qs, s => (q.ask service dir s).1 :: outcomes service dir qs (q.ask service dir s).2

section Steady

variable {service : Service σ} (hsteady : service.IsSteady)

include hsteady

/-- Without a directory each question has the answer of its own search. -/
theorem outcomes_none (qs : List Question) (d : Disk) (s t : σ) :
    outcomes service none qs (d, t) = qs.map (fun q => (search service q.feature s).1) := by
  induction qs generalizing d t with
  | nil => rfl
  | cons q qs ih =>
    rw [outcomes, List.map_cons, search_of_isSteady hsteady q.feature s t]
    exact congrArg (_ :: ·) (ih _ _)

end Steady

/-! ## What the directory comes to hold -/

/-- The first definite answer to some questions that is kept in a file, and when
    it was written. -/
def firstKept (service : Service σ) (dir : Path) (s : σ) (done : List Question) (file : String) :
    Option (Info × Nat) :=
  done.findSome? (fun q =>
    if q.file = file ∧ Disk.Fits dir file then
      (search service q.feature s).1.definite?.map (fun info => (info, q.time))
    else none)

/-- The answer to a question after others: what is kept, or else what a search
    finds. -/
def answerAfter (service : Service σ) (dir : Path) (s : σ) (done : List Question)
    (q : Question) : Outcome :=
  match firstKept service dir s done q.file with
  | some (info, _) => .found info
  | none => (search service q.feature s).1

/-- The file in which an answer is kept. -/
def keptFile (e : Info × Nat) : Node := .file e.1.toValue.compact.toUTF8 e.2

/-- The directory holds what was kept of some questions, and nothing else. -/
structure Mirrors (service : Service σ) (dir : Path) (s : σ) (done : List Question) (d : Disk)
    (es : List (String × Node)) : Prop where
  holds : Holds d dir es
  entries : ∀ file, es.lookup file = (firstKept service dir s done file).map keptFile

section Step

variable {service : Service σ} {dir : Path} {s : σ} {done : List Question} {d : Disk}
  {es : List (String × Node)}

theorem firstKept_concat (q : Question) (file : String) :
    firstKept service dir s (done ++ [q]) file =
      (firstKept service dir s done file).or
        (if q.file = file ∧ Disk.Fits dir file then
          (search service q.feature s).1.definite?.map (fun info => (info, q.time))
        else none) := by
  rw [firstKept, List.findSome?_append]
  simp [firstKept]

/-- What is kept was the answer to one of the questions, and written then. -/
theorem exists_of_firstKept {file : String} {info : Info} {time : Nat}
    (h : firstKept service dir s done file = some (info, time)) :
    ∃ q ∈ done, q.file = file ∧ Disk.Fits dir file ∧ q.time = time ∧
      (search service q.feature s).1.definite? = some info := by
  obtain ⟨q, hq, hkept⟩ := List.exists_of_findSome?_eq_some h
  split at hkept
  · next hfile =>
    obtain ⟨i, hi, heq⟩ := Option.map_eq_some_iff.1 hkept
    cases heq
    exact ⟨q, hq, hfile.1, hfile.2, rfl, hi⟩
  · cases hkept

theorem Mirrors.onlyFiles (h : Mirrors service dir s done d es) : OnlyFiles es := by
  intro name n hn
  rw [h.entries] at hn
  obtain ⟨e, -, rfl⟩ := Option.map_eq_some_iff.1 hn
  rfl

theorem Mirrors.atTime (h : Mirrors service dir s done d es) (time : Nat) :
    Mirrors service dir s done (d.atTime time) es :=
  ⟨h.holds.atTime time, h.entries⟩

/-- A question whose answer is kept gets it, and changes nothing. -/
theorem Mirrors.ask_of_kept (h : Mirrors service dir s done d es) {q : Question}
    (hlasts : ∀ a ∈ done, a.Lasts q) {info : Info} {time : Nat}
    (hkept : firstKept service dir s done q.file = some (info, time)) (t : σ) :
    q.ask service (some dir) (d, t) = (.found info, d.atTime q.time, t) ∧
      Mirrors service dir s (done ++ [q]) (d.atTime q.time) es := by
  obtain ⟨a, ha, -, hfits, rfl, -⟩ := exists_of_firstKept hkept
  have hd := h.atTime q.time
  constructor
  · have hfile : es.lookup (DiskCache.fileName (cacheKey q.feature)) =
        some (.file info.toValue.compact.toUTF8 a.time) := by
      rw [← Question.file, h.entries, hkept]
      rfl
    have hfresh : DiskCache.isExpired ⟨dir, q.ttl⟩ a.time (d.atTime q.time).now = false :=
      decide_eq_false (Nat.not_lt.2 (hlasts a ha))
    have hget := DiskCache.get_of_lookup_eq_some (c := ⟨dir, q.ttl⟩) hd.holds h.onlyFiles
      Info.ofValue? hfits hfile hfresh
    rw [DiskCache.valueOf?_toUTF8 Baseline.inverse_info] at hget
    simp only [Question.ask, attemptRemote, kept, Option.map_some, hget]
  · -- nothing was written, and the kept answer goes before one of `q`
    refine ⟨hd.holds, fun file => ?_⟩
    rw [h.entries, firstKept_concat]
    by_cases hfile : q.file = file
    · subst hfile
      rw [hkept, Option.some_or]
    · rw [if_neg (fun hboth => hfile hboth.1), Option.or_none]

variable (hsteady : service.IsSteady)

include hsteady

/-- A question whose answer is not kept is searched for; a definite answer is
    kept, if the name of its file is not too long. -/
theorem Mirrors.ask_of_not_kept (h : Mirrors service dir s done d es) {q : Question}
    (hnone : firstKept service dir s done q.file = none) (t : σ) :
    (q.ask service (some dir) (d, t)).1 = (search service q.feature s).1 ∧
      ∃ fs, Mirrors service dir s (done ++ [q]) (q.ask service (some dir) (d, t)).2.1 fs := by
  have hd := h.atTime q.time
  have hfile : es.lookup q.file = none := by
    rw [h.entries, hnone]
    rfl
  have hget := DiskCache.get_of_lookup_eq_none (c := ⟨dir, q.ttl⟩) hd.holds h.onlyFiles
    Info.ofValue? hfile
  have hsearch := search_of_isSteady hsteady q.feature t s
  simp only [Question.ask, attemptRemote, kept, Option.map_some, hget, hsearch, true_and]
  cases hdef : (search service q.feature s).1.definite? with
  | none =>
    -- only a definite answer is written
    refine ⟨es, ?_, fun file => ?_⟩
    · simp only [keep, hdef]
      exact hd.holds
    · rw [h.entries, firstKept_concat, hdef, Option.map_none, ite_self, Option.or_none]
  | some info =>
    have hset := DiskCache.holds_set (c := ⟨dir, q.ttl⟩) hd.holds h.onlyFiles
      (cacheKey q.feature) info.toValue
    simp only [keep, hdef]
    refine ⟨_, hset, fun file => ?_⟩
    rw [firstKept_concat, hdef, DiskCache.entriesAfter, ← Question.file]
    by_cases heq : q.file = file
    · -- the file was not there before, so this is the first answer in it
      subst heq
      rw [hnone, Option.none_or]
      by_cases hfits : Disk.Fits dir q.file
      · rw [if_pos hfits, if_pos ⟨rfl, hfits⟩, Node.lookup_changeEntry, if_pos rfl]
        rfl
      · rw [if_neg hfits, if_neg (fun hboth => hfits hboth.2), hfile]
        rfl
    · have hother : ¬ (q.file = file ∧ Disk.Fits dir file) := fun hboth => heq hboth.1
      rw [if_neg hother, Option.or_none, ← h.entries]
      split
      · rw [Node.lookup_changeEntry, if_neg (Ne.symm heq)]
      · rfl

/-- One question: its answer, and what the directory holds then. -/
theorem Mirrors.ask (h : Mirrors service dir s done d es) (q : Question)
    (hlasts : ∀ a ∈ done, a.Lasts q) (t : σ) :
    (q.ask service (some dir) (d, t)).1 = answerAfter service dir s done q ∧
      ∃ fs, Mirrors service dir s (done ++ [q]) (q.ask service (some dir) (d, t)).2.1 fs := by
  rw [answerAfter]
  cases hkept : firstKept service dir s done q.file with
  | some e =>
    obtain ⟨heq, hmirrors⟩ := h.ask_of_kept hlasts hkept t
    rw [heq]
    exact ⟨rfl, es, hmirrors⟩
  | none => exact h.ask_of_not_kept hsteady hkept t

end Step

/-! ## Runs of questions -/

/-- The answers to questions that come after others. -/
def outcomesAfter (service : Service σ) (dir : Path) (s : σ) :
    List Question → List Question → List Outcome
  | _, [] => []
  | done, q :: qs =>
    answerAfter service dir s done q :: outcomesAfter service dir s (done ++ [q]) qs

/-- Whether a later question has the same answer as an earlier one, if that one
    has been kept where it is looked for. -/
def AgreesIfShared (service : Service σ) (dir : Path) (s : σ) (a b : Question) : Prop :=
  a.file = b.file → Disk.Fits dir b.file →
    (search service a.feature s).1.definite?.isSome = true →
    (search service b.feature s).1 = (search service a.feature s).1

instance (service : Service σ) (dir : Path) (s : σ) :
    DecidableRel (AgreesIfShared service dir s) :=
  fun _ _ => inferInstanceAs (Decidable (_ → _ → _ → _))

section Run

variable {service : Service σ} {dir : Path} {s : σ}

theorem Mirrors.outcomes (hsteady : service.IsSteady) {done : List Question} {d : Disk}
    {es : List (String × Node)} (h : Mirrors service dir s done d es) (qs : List Question)
    (hdone : ∀ a ∈ done, ∀ q ∈ qs, a.Lasts q) (hqs : qs.Pairwise Question.Lasts) (t : σ) :
    outcomes service (some dir) qs (d, t) = outcomesAfter service dir s done qs := by
  induction qs generalizing done d es t with
  | nil => rfl
  | cons q qs ih =>
    obtain ⟨hq, hqs⟩ := List.pairwise_cons.1 hqs
    obtain ⟨hanswer, fs, hnext⟩ := h.ask hsteady q
      (fun a ha => hdone a ha q List.mem_cons_self) t
    have hdone' : ∀ a ∈ done ++ [q], ∀ r ∈ qs, a.Lasts r := by
      intro a ha r hr
      rcases List.mem_append.1 ha with ha | ha
      · exact hdone a ha r (List.mem_cons_of_mem q hr)
      · exact List.mem_singleton.1 ha ▸ hq r hr
    rw [Lookup.outcomes, outcomesAfter, hanswer]
    exact congrArg (_ :: ·) (ih hnext hdone' hqs _)

/-- One more question before another one can spoil its answer only if the two
    share a file. -/
theorem answerAfter_concat_iff {done : List Question} {q : Question}
    (hq : answerAfter service dir s done q = (search service q.feature s).1) (r : Question) :
    answerAfter service dir s (done ++ [q]) r = (search service r.feature s).1 ↔
      answerAfter service dir s done r = (search service r.feature s).1 ∧
        AgreesIfShared service dir s q r := by
  rw [answerAfter, firstKept_concat, answerAfter]
  cases hr : firstKept service dir s done r.file with
  | some e =>
    -- `r` finds an answer from before `q`; if they share a file, `q` found it too
    obtain ⟨info, time⟩ := e
    rw [Option.some_or]
    constructor
    · intro hsame
      refine ⟨hsame, fun hfile _ _ => ?_⟩
      rw [answerAfter, hfile, hr] at hq
      exact hsame.symm.trans hq
    · exact fun h => h.1
  | none =>
    -- what `r` finds can only be the answer of `q`
    rw [Option.none_or]
    simp only [true_and]
    by_cases hshared : q.file = r.file ∧ Disk.Fits dir r.file
    · rw [if_pos hshared]
      cases hdef : (search service q.feature s).1.definite? with
      | none => simp [AgreesIfShared, hdef]
      | some info =>
        obtain ⟨hfound, -⟩ := Outcome.definite?_eq_some_iff.1 hdef
        rw [AgreesIfShared, hdef, hfound]
        constructor
        · exact fun h _ _ _ => h.symm
        · exact fun h => (h hshared.1 hshared.2 rfl).symm
    · rw [if_neg hshared]
      simp only [true_iff]
      exact fun hfile hfits _ => absurd ⟨hfile, hfits⟩ hshared

/-- All answers are those of searches exactly if no earlier question spoils a
    later one. -/
theorem outcomesAfter_eq_iff (done qs : List Question) :
    outcomesAfter service dir s done qs = qs.map (fun q => (search service q.feature s).1) ↔
      (∀ q ∈ qs, answerAfter service dir s done q = (search service q.feature s).1) ∧
        qs.Pairwise (AgreesIfShared service dir s) := by
  induction qs generalizing done with
  | nil => simp [outcomesAfter]
  | cons q qs ih =>
    rw [outcomesAfter, List.map_cons, List.cons.injEq, ih, List.forall_mem_cons,
      List.pairwise_cons]
    constructor
    · rintro ⟨hq, hqs, hpairs⟩
      exact ⟨⟨hq, fun r hr => ((answerAfter_concat_iff hq r).1 (hqs r hr)).1⟩,
        fun r hr => ((answerAfter_concat_iff hq r).1 (hqs r hr)).2, hpairs⟩
    · rintro ⟨⟨hq, hqs⟩, hshared, hpairs⟩
      exact ⟨hq, fun r hr => (answerAfter_concat_iff hq r).2 ⟨hqs r hr, hshared r hr⟩, hpairs⟩

/-- A directory that starts empty and in which nothing expires cannot be noticed
    exactly if every question that finds the kept answer of an earlier one has
    the same answer itself. -/
theorem outcomes_eq_iff (hsteady : service.IsSteady) {d : Disk} (hempty : Holds d dir [])
    (qs : List Question) (hlasts : qs.Pairwise Question.Lasts) :
    outcomes service (some dir) qs (d, s) = outcomes service none qs (d, s) ↔
      qs.Pairwise (AgreesIfShared service dir s) := by
  have hmirrors : Mirrors service dir s [] d [] := ⟨hempty, fun _ => rfl⟩
  rw [hmirrors.outcomes hsteady qs (by simp) hlasts s, outcomes_none hsteady qs d s s,
    outcomesAfter_eq_iff]
  exact and_iff_right (fun _ _ => rfl)

end Run

/-! ## Features that share a file -/

/-- A service that knows one feature, by a name with a dot. -/
def dottedOnly : Service Unit := fun query s =>
  (.answer 200 (if query = "id:a.b" then
    "\x7b\"data\":[\x7b\"name\":\"AB\",\"baseline\":\x7b\"status\":\"widely\"\x7d\x7d]\x7d"
    else "\x7b\x7d"), s)

/-- What this service says about it. -/
def dottedInfo : Info := { status := .widely, description := some "AB" }

/-- A disk without files. -/
def emptyDisk : Disk := { top := .directory [] }

theorem dottedOnly_isSteady : dottedOnly.IsSteady := fun _ _ _ => rfl

/-- Answers for features with files of their own are the same from a directory. -/
theorem outcomes_of_own_files :
    outcomes dottedOnly (some "/") [⟨"a.b", 60, 0⟩, ⟨"a-b", 60, 0⟩, ⟨"a.b", 60, 1⟩]
        (emptyDisk, ()) =
      outcomes dottedOnly none [⟨"a.b", 60, 0⟩, ⟨"a-b", 60, 0⟩, ⟨"a.b", 60, 1⟩]
        (emptyDisk, ()) :=
  (outcomes_eq_iff dottedOnly_isSteady (DiskCache.holds_of_node rfl) _ (by decide +kernel)).2
    (by decide +kernel)

/-- A feature of which nothing is known gets the answer for another one whose
    name differs by a dot. -/
theorem outcomes_of_shared_file :
    dottedOnly.IsSteady ∧ emptyDisk.node "/" = .ok (.directory []) ∧
    [⟨"a.b", 60, 0⟩, ⟨"a_b", 60, 0⟩].Pairwise Question.Lasts ∧
    outcomes dottedOnly none [⟨"a.b", 60, 0⟩, ⟨"a_b", 60, 0⟩] (emptyDisk, ()) =
      [.found dottedInfo, .noResult] ∧
    outcomes dottedOnly (some "/") [⟨"a.b", 60, 0⟩, ⟨"a_b", 60, 0⟩] (emptyDisk, ()) =
      [.found dottedInfo, .found dottedInfo] := by
  have hlasts : [⟨"a.b", 60, 0⟩, ⟨"a_b", 60, 0⟩].Pairwise Question.Lasts := by decide +kernel
  have hmirrors : Mirrors dottedOnly "/" () [] emptyDisk [] :=
    ⟨DiskCache.holds_of_node rfl, fun _ => rfl⟩
  refine ⟨dottedOnly_isSteady, rfl, hlasts, ?_, ?_⟩
  · rw [outcomes_none dottedOnly_isSteady _ emptyDisk () ()]
    decide +kernel
  · rw [hmirrors.outcomes dottedOnly_isSteady _ (by simp) hlasts ()]
    decide +kernel

end WebBaseline.Lookup

/-
  WebBaseline.Proofs.Report.Exit

  The exit code of a scan against the issues that it reports.

    * the worst severity of a summary is one that some issue has and that no issue
      exceeds (`isWorst_of_worstSeverity`);
    * every issue that a scanner returns is graded: its severity is that of its
      status (`isGraded_of_returned`);
    * so the code tells the riskiest status that is reported, if a severity
      reaches the threshold (`exitCode_of_returned`).

  Severities, their places and their codes are ordered in different ways; `IsWorst`
  is where they meet.
-/

import Mathlib.Data.List.Perm.Basic
import WebBaseline.Report.Exit
import WebBaseline.Report.Order
import WebBaseline.Scan.Scanner

namespace WebBaseline.Report

open WebBaseline.Baseline (Status)

/-! ## Severities and statuses -/

namespace Severity

/-- The status that has a severity. -/
def status : Severity → Status
  | high => .limited
  | medium => .newly
  | low => .widely

theorem ofStatus_eq_some_iff {s : Status} {v : Severity} : ofStatus s = some v ↔ s = v.status := by
  cases s <;> cases v <;> decide

end Severity

/-- All issues of several files. -/
def allIssues (files : List FileIssues) : List Issue := files.flatMap FileIssues.issues

theorem zero_lt_countSeverity_iff {issues : List Issue} {v : Severity} :
    0 < countSeverity issues v ↔ ∃ i ∈ issues, i.severity = some v := by
  simp only [countSeverity, List.countP_pos_iff, beq_iff_eq]

/-! ## The worst severity -/

/-- Whether some issue has a severity and no issue exceeds it. -/
def IsWorst (issues : List Issue) (v : Severity) : Prop :=
  (∃ i ∈ issues, i.severity = some v) ∧
    ∀ i ∈ issues, ∀ w, i.severity = some w → w.rank ≤ v.rank

section Worst

variable {files : List FileIssues} {v : Severity}

theorem worstSeverity_ofFiles (files : List FileIssues) :
    (Summary.ofFiles files).worstSeverity =
      if 0 < countSeverity (allIssues files) .high then some .high
      else if 0 < countSeverity (allIssues files) .medium then some .medium
      else if 0 < countSeverity (allIssues files) .low then some .low
      else none := rfl

theorem isWorst_of_worstSeverity (h : (Summary.ofFiles files).worstSeverity = some v) :
    IsWorst (allIssues files) v := by
  -- a severity that is not counted is none that an issue has
  have habsent : ∀ {w}, ¬ 0 < countSeverity (allIssues files) w →
      ∀ i ∈ allIssues files, i.severity ≠ some w := by
    intro w hcount i hi hw
    exact hcount (zero_lt_countSeverity_iff.2 ⟨i, hi, hw⟩)
  rw [worstSeverity_ofFiles] at h
  split at h
  · next hhigh =>
    obtain rfl := Option.some.inj h
    refine ⟨zero_lt_countSeverity_iff.1 hhigh, fun i hi w hw => ?_⟩
    cases w <;> decide
  · next hhigh =>
    split at h
    · next hmedium =>
      obtain rfl := Option.some.inj h
      refine ⟨zero_lt_countSeverity_iff.1 hmedium, fun i hi w hw => ?_⟩
      cases w with
      | high => exact absurd hw (habsent hhigh i hi)
      | medium => decide
      | low => decide
    · next hmedium =>
      split at h
      · next hlow =>
        obtain rfl := Option.some.inj h
        refine ⟨zero_lt_countSeverity_iff.1 hlow, fun i hi w hw => ?_⟩
        cases w with
        | high => exact absurd hw (habsent hhigh i hi)
        | medium => exact absurd hw (habsent hmedium i hi)
        | low => decide
      · cases h

theorem exists_worstSeverity (h : ∃ i ∈ allIssues files, i.severity = some v) :
    ∃ worst, (Summary.ofFiles files).worstSeverity = some worst := by
  have hcount := zero_lt_countSeverity_iff.2 h
  -- if no greater severity is counted, this one is
  rw [worstSeverity_ofFiles]
  split
  · exact ⟨_, rfl⟩
  · next hhigh =>
    split
    · exact ⟨_, rfl⟩
    · next hmedium =>
      cases v with
      | high => exact absurd hcount hhigh
      | medium => exact absurd hcount hmedium
      | low => exact ⟨_, if_pos hcount⟩

/-- Some issue has a severity from a limit on exactly if the worst one is. -/
theorem exists_severity_iff {limit : Severity} :
    (∃ i ∈ allIssues files, ∃ v ∈ i.severity, limit.rank ≤ v.rank) ↔
      ∃ worst, (Summary.ofFiles files).worstSeverity = some worst ∧ limit.rank ≤ worst.rank := by
  constructor
  · rintro ⟨i, hi, v, hv, hlimit⟩
    obtain ⟨worst, hworst⟩ := exists_worstSeverity ⟨i, hi, hv⟩
    have hle := (isWorst_of_worstSeverity hworst).2 i hi v hv
    exact ⟨worst, hworst, Nat.le_trans hlimit hle⟩
  · rintro ⟨worst, hworst, hlimit⟩
    obtain ⟨⟨i, hi, hv⟩, -⟩ := isWorst_of_worstSeverity hworst
    exact ⟨i, hi, worst, hv, hlimit⟩

end Worst

/-! ## The code of graded issues -/

/-- Whether the severity of an issue is that of its status. -/
def Issue.IsGraded (i : Issue) : Prop := i.severity = Severity.ofStatus i.status

section Graded

variable {issues : List Issue} (hgraded : ∀ i ∈ issues, i.IsGraded)

include hgraded

theorem exists_severity_eq_iff {v : Severity} :
    (∃ i ∈ issues, i.severity = some v) ↔ ∃ i ∈ issues, i.status = v.status := by
  have hi : ∀ i ∈ issues, i.severity = some v ↔ i.status = v.status := by
    intro i hi
    rw [hgraded i hi, Severity.ofStatus_eq_some_iff]
  constructor
  · rintro ⟨i, hmem, h⟩
    exact ⟨i, hmem, (hi i hmem).1 h⟩
  · rintro ⟨i, hmem, h⟩
    exact ⟨i, hmem, (hi i hmem).2 h⟩

/-- The code of the worst severity tells the riskiest status. -/
theorem code_of_isWorst {worst : Severity} (h : IsWorst issues worst) :
    worst.code =
      if ∃ i ∈ issues, i.status = .limited then 2
      else if ∃ i ∈ issues, i.status = .newly then 3
      else 4 := by
  obtain ⟨hsome, hmax⟩ := h
  rw [exists_severity_eq_iff hgraded] at hsome
  -- a status that goes with a greater severity is not reported
  have habsent : ∀ v : Severity, worst.rank < v.rank → ¬ ∃ i ∈ issues, i.status = v.status := by
    intro v hv hstatus
    obtain ⟨i, hi, hseverity⟩ := (exists_severity_eq_iff hgraded).2 hstatus
    exact absurd (hmax i hi v hseverity) (Nat.not_le.2 hv)
  have hlimited : worst.rank < Severity.high.rank → ¬ ∃ i ∈ issues, i.status = .limited :=
    habsent .high
  have hnewly : worst.rank < Severity.medium.rank → ¬ ∃ i ∈ issues, i.status = .newly :=
    habsent .medium
  cases worst with
  | high => exact (if_pos hsome).symm
  | medium =>
    rw [if_neg (hlimited (by decide))]
    exact (if_pos hsome).symm
  | low =>
    rw [if_neg (hlimited (by decide)), if_neg (hnewly (by decide))]
    rfl

end Graded

/-! ## Codes of summaries -/

theorem exitCode_of_worst {summary : Summary} {worst : Severity}
    (h : summary.worstSeverity = some worst) (limit : Severity) :
    exitCode summary (some limit) = if limit.rank ≤ worst.rank then worst.code else 0 := by
  simp only [exitCode, h]

theorem exitCode_of_no_worst {summary : Summary} (h : summary.worstSeverity = none)
    (threshold : Option Severity) : exitCode summary threshold = 0 := by
  cases threshold <;> simp only [exitCode, h]

/-- A threshold below one that is reached is reached as well, with the same code. -/
theorem exitCode_of_le {summary : Summary} {limit lower : Severity}
    (hle : lower.rank ≤ limit.rank) (h : exitCode summary (some limit) ≠ 0) :
    exitCode summary (some lower) = exitCode summary (some limit) := by
  cases hworst : summary.worstSeverity with
  | none => rw [exitCode_of_no_worst hworst, exitCode_of_no_worst hworst]
  | some worst =>
    rw [exitCode_of_worst hworst] at h
    have hlimit : limit.rank ≤ worst.rank := by
      by_contra hnot
      exact h (if_neg hnot)
    rw [exitCode_of_worst hworst, exitCode_of_worst hworst, if_pos hlimit,
      if_pos (Nat.le_trans hle hlimit)]

section Codes

variable {files others : List FileIssues}

/-- The code of graded issues, by the severities that reach the threshold and the
    statuses that are reported. -/
theorem exitCode_ofFiles (hgraded : ∀ i ∈ allIssues files, i.IsGraded)
    (threshold : Option Severity) :
    exitCode (Summary.ofFiles files) threshold =
      if ∃ limit ∈ threshold, ∃ i ∈ allIssues files, ∃ v ∈ i.severity, limit.rank ≤ v.rank then
        if ∃ i ∈ allIssues files, i.status = .limited then 2
        else if ∃ i ∈ allIssues files, i.status = .newly then 3
        else 4
      else 0 := by
  cases threshold with
  | none => rfl
  | some limit =>
    simp only [Option.mem_some_iff, exists_eq_left', exists_severity_iff]
    cases hworst : (Summary.ofFiles files).worstSeverity with
    | none => simp [exitCode_of_no_worst hworst]
    | some worst =>
      rw [exitCode_of_worst hworst, code_of_isWorst hgraded (isWorst_of_worstSeverity hworst)]
      simp

/-- Only the counts of the severities matter. -/
theorem exitCode_congr (h : ∀ v, countSeverity (allIssues files) v =
    countSeverity (allIssues others) v) (threshold : Option Severity) :
    exitCode (Summary.ofFiles files) threshold = exitCode (Summary.ofFiles others) threshold := by
  have hworst : (Summary.ofFiles files).worstSeverity = (Summary.ofFiles others).worstSeverity := by
    rw [worstSeverity_ofFiles, worstSeverity_ofFiles, h, h, h]
  simp only [exitCode, hworst]

theorem exitCode_of_perm (h : (allIssues files).Perm (allIssues others))
    (threshold : Option Severity) :
    exitCode (Summary.ofFiles files) threshold = exitCode (Summary.ofFiles others) threshold :=
  exitCode_congr (fun _ => h.countP_eq _) threshold

theorem allIssues_sortBySeverity (files : List FileIssues) :
    (allIssues (sortBySeverity files)).Perm (allIssues files) := by
  rw [allIssues, sortBySeverity, List.flatMap_map]
  exact List.Perm.flatMap_left files (fun f _ => List.mergeSort_perm f.issues _)

/-- The files with those of their issues that are kept. -/
def keepIssues (keep : Issue → Bool) (files : List FileIssues) : List FileIssues :=
  files.map (fun f => { f with issues := f.issues.filter keep })

theorem allIssues_keepIssues (keep : Issue → Bool) (files : List FileIssues) :
    allIssues (keepIssues keep files) = (allIssues files).filter keep := by
  rw [allIssues, keepIssues, List.flatMap_map, allIssues, List.filter_flatMap]

/-- Graded issues of unknown status have no severity, so they count for nothing. -/
theorem exitCode_keepIssues (hgraded : ∀ i ∈ allIssues files, i.IsGraded) {keep : Issue → Bool}
    (hkeep : ∀ i, i.status ≠ .unknown → keep i = true) (threshold : Option Severity) :
    exitCode (Summary.ofFiles (keepIssues keep files)) threshold =
      exitCode (Summary.ofFiles files) threshold := by
  refine exitCode_congr (fun v => ?_) threshold
  rw [allIssues_keepIssues, countSeverity, countSeverity, List.countP_filter]
  refine List.countP_congr (fun i hi => ?_)
  -- an issue that is counted has a severity, so its status is known and it is kept
  simp only [Bool.and_eq_true, beq_iff_eq, and_iff_left_iff_imp]
  intro hseverity
  apply hkeep
  intro hunknown
  rw [hgraded i hi, hunknown] at hseverity
  cases hseverity

end Codes

end WebBaseline.Report

/-! ## Results of scans -/

namespace WebBaseline.Scan

open WebBaseline.Baseline (Info)
open WebBaseline.Data (KeyMap)
open WebBaseline.Feature (Occurrence)
open WebBaseline.Files (Disk Path)
open WebBaseline.Lookup (Memory Source resolve)
open WebBaseline.Report

/-- Whether a scanner returns a result, for a file alone or among those of a project,
    from any memory and any state of its sources. -/
inductive Returned : FileIssues → Prop
  | file {σ : Type} {sc : Scanner σ} {d : Disk} {path : Path} {m : Memory} {s : σ}
      {f : FileIssues} (h : (sc.scanFile d path m s).1 = .ok f) : Returned f
  | project {σ : Type} {sc : Scanner σ} {cancelled : Nat → Bool} {d : Disk} {root : Path}
      {m : Memory} {s : σ} {files : List FileIssues} {f : FileIssues}
      (h : (sc.scanProject cancelled d root m s).1 = .ok files) (hf : f ∈ files) : Returned f

section Graded

variable {σ : Type} {sc : Scanner σ}

/-- Whatever the sources answer, every issue is enriched before it is reported. -/
theorem isGraded_issuesOf (os : List Occurrence) (m : Memory) (s : σ) :
    ∀ i ∈ (sc.issuesOf os m s).1, i.IsGraded := by
  induction os generalizing m s with
  | nil => exact fun i hi => absurd hi List.not_mem_nil
  | cons o os ih =>
    rw [Scanner.issuesOf]
    generalize resolve sc.sources o.identifier m s = answer
    obtain ⟨r, m', s'⟩ := answer
    dsimp only
    split
    · exact List.forall_mem_cons.2 ⟨rfl, ih m' s'⟩
    · exact ih m' s'

theorem isGraded_of_scanFile {d : Disk} {path : Path} {m : Memory} {s : σ} {f : FileIssues}
    (h : (sc.scanFile d path m s).1 = .ok f) : ∀ i ∈ f.issues, i.IsGraded := by
  rw [Scanner.scanFile] at h
  split at h
  · cases h
  · split at h
    · cases h
    · cases h
      exact isGraded_issuesOf _ m s

/-- Each result among those of several files comes from the scan of one of them. -/
theorem scanFile_of_mem_scanAll {cancelled : Nat → Bool} {d : Disk} {n : Nat} {paths : List Path}
    {m : Memory} {s : σ} {f : FileIssues} (hf : f ∈ (sc.scanAll cancelled d n paths m s).1) :
    ∃ path m' s', (sc.scanFile d path m' s').1 = .ok f := by
  -- a file is scanned from what the files before it left in the memory and the sources
  induction paths generalizing n m s with
  | nil => exact absurd hf List.not_mem_nil
  | cons path rest ih =>
    rw [Scanner.scanAll] at hf
    split at hf
    · exact absurd hf List.not_mem_nil
    · split at hf
      · next first m' s' hscan =>
        rcases List.mem_cons.1 hf with rfl | hmore
        · exact ⟨path, m, s, by rw [hscan]⟩
        · exact ih hmore
      · exact ih hf

theorem scanFile_of_mem_scanProject {cancelled : Nat → Bool} {d : Disk} {root : Path} {m : Memory}
    {s : σ} {files : List FileIssues} {f : FileIssues}
    (h : (sc.scanProject cancelled d root m s).1 = .ok files) (hf : f ∈ files) :
    ∃ path m' s', (sc.scanFile d path m' s').1 = .ok f := by
  rw [Scanner.scanProject] at h
  split at h
  · cases h
  · split at h
    · cases hscan : (sc.scanFile d root m s).1 with
      | error fault => simp [hscan, Except.map] at h
      | ok g =>
        simp only [hscan, Except.map, Except.ok.injEq] at h
        rw [← h, List.mem_singleton] at hf
        exact ⟨root, m, s, hf ▸ hscan⟩
    · split at h
      · cases h
      · obtain rfl := Except.ok.inj h
        exact scanFile_of_mem_scanAll hf

theorem isGraded_of_returned {f : FileIssues} (h : Returned f) : ∀ i ∈ f.issues, i.IsGraded := by
  cases h with
  | file h => exact isGraded_of_scanFile h
  | project h hf =>
    obtain ⟨path, m, s, hscan⟩ := scanFile_of_mem_scanProject h hf
    exact isGraded_of_scanFile hscan

end Graded

/-! ## The code of a scan -/

/-- The code of results of scanners, sorted or not, is 0 where there is no threshold
    or no issue has a severity that reaches it. Otherwise it tells the riskiest status
    that is reported. It stays if issues of unknown status are left out, if the same
    issues come in another order or in other files, and, unless it is 0, if the
    threshold is lowered. -/
theorem exitCode_of_returned (files : List FileIssues) (hfiles : ∀ f ∈ files, Returned f)
    (threshold : Option Severity) :
    (∀ shown, shown = files ∨ shown = sortBySeverity files →
      exitCode (Summary.ofFiles shown) threshold =
        if ∃ limit ∈ threshold, ∃ i ∈ allIssues files, ∃ v ∈ i.severity, limit.rank ≤ v.rank then
          if ∃ i ∈ allIssues files, i.status = .limited then 2
          else if ∃ i ∈ allIssues files, i.status = .newly then 3
          else 4
        else 0) ∧
    (∀ keep : Issue → Bool, (∀ i, i.status ≠ .unknown → keep i = true) →
      exitCode (Summary.ofFiles (keepIssues keep files)) threshold =
        exitCode (Summary.ofFiles files) threshold) ∧
    (∀ others, (allIssues others).Perm (allIssues files) →
      exitCode (Summary.ofFiles others) threshold = exitCode (Summary.ofFiles files) threshold) ∧
    (∀ limit ∈ threshold, exitCode (Summary.ofFiles files) threshold ≠ 0 →
      ∀ lower : Severity, lower.rank ≤ limit.rank →
        exitCode (Summary.ofFiles files) (some lower) =
          exitCode (Summary.ofFiles files) threshold) := by
  have hgraded : ∀ i ∈ allIssues files, i.IsGraded := by
    intro i hi
    obtain ⟨f, hf, hi⟩ := List.mem_flatMap.1 hi
    exact isGraded_of_returned (hfiles f hf) i hi
  refine ⟨?_, ?_, ?_, ?_⟩
  · -- sorting changes the order of issues, not which there are
    have hcode := exitCode_ofFiles hgraded threshold
    rintro shown (rfl | rfl)
    · exact hcode
    · exact (exitCode_of_perm (allIssues_sortBySeverity files) threshold).trans hcode
  · exact fun keep hkeep => exitCode_keepIssues hgraded hkeep threshold
  · exact fun others hothers => exitCode_of_perm hothers threshold
  · intro limit hlimit hcode lower hle
    obtain rfl := Option.mem_def.1 hlimit
    exact exitCode_of_le hle hcode

/-- A scanner that knows one element. -/
def knowsDetails : Scanner Unit where
  sources := [Source.fixed "details" (fun feature =>
    if feature = "html-element-details" then .found (Info.ofStatus .newly) else .noResult)]

/-- A disk with a page that uses this element and another one. -/
def meterAndDetailsDisk : Disk :=
  { top := .directory [("page.html", .file "<meter>\n<details>".toUTF8 0)] }

/-- What the scanner returns for the page. -/
def meterAndDetails : FileIssues :=
  ⟨"page.html", [
    { feature := "html-element-meter", status := .unknown, line := some 1, column := some 1,
      context := some "<meter>", polyfill := some false },
    { feature := "html-element-details", status := .newly, line := some 2, column := some 1,
      context := some "<details>", severity := some .medium, polyfill := some true }]⟩

theorem exitCode_meterAndDetails :
    (knowsDetails.scanFile meterAndDetailsDisk "page.html" KeyMap.empty ()).1 =
      .ok meterAndDetails ∧
    exitCode (Summary.ofFiles (sortBySeverity [meterAndDetails])) (some .low) = 3 ∧
    exitCode (Summary.ofFiles [meterAndDetails]) (some .high) = 0 := by
  have hscan : (knowsDetails.scanFile meterAndDetailsDisk "page.html" KeyMap.empty ()).1 =
      .ok meterAndDetails := by decide +kernel
  have hfiles : ∀ f ∈ [meterAndDetails], Returned f :=
    List.forall_mem_singleton.2 (.file hscan)
  obtain ⟨hlow, -⟩ := exitCode_of_returned [meterAndDetails] hfiles (some .low)
  obtain ⟨hhigh, -⟩ := exitCode_of_returned [meterAndDetails] hfiles (some .high)
  refine ⟨hscan, ?_, ?_⟩
  · rw [hlow _ (Or.inr rfl)]
    decide
  · rw [hhigh _ (Or.inl rfl)]
    decide

end WebBaseline.Scan

/-
  WebBaseline.Proofs.Report.Summary

  The counts of a summary among each other and against the issues counted.

    * every issue has one status and at most one severity, so the counts of a kind
      come to the number of issues (`StatusCounts.total_ofIssues`,
      `SeverityCounts.total_ofIssues`);
    * counts of two lists together are the sums of their counts (`ofFiles_append`);
    * the worst severity is the greatest that an issue has
      (`worstSeverity_eq_some_iff`, `worstSeverity_eq_none_iff`);
    * a summary is told by how many files there are, how many of them have issues,
      and which issues there are in any order (`ofFiles_congr`), so the order of
      files and of their issues does not matter (`Reordered.ofFiles_eq`).

  The score is no count: it does not add up, but it depends on the counts only.
-/

import Mathlib.Algebra.Order.Ring.Nat
import Mathlib.Data.List.Forall2
import WebBaseline.Proofs.Report.Exit

namespace WebBaseline.Report

open WebBaseline.Baseline (Status)

/-! ## Counts of one kind -/

namespace StatusCounts

/-- How many issues are counted. -/
def total (c : StatusCounts) : Nat := c.widely + c.newly + c.limited + c.unknown

instance : Add StatusCounts :=
  ⟨fun a b => ⟨a.widely + b.widely, a.newly + b.newly, a.limited + b.limited,
    a.unknown + b.unknown⟩⟩

theorem ofIssues_append (issues more : List Issue) :
    ofIssues (issues ++ more) = ofIssues issues + ofIssues more := by
  simp only [ofIssues, countStatus, List.countP_append]
  rfl

theorem ofIssues_perm {issues others : List Issue} (h : issues.Perm others) :
    ofIssues issues = ofIssues others := by
  simp only [ofIssues, countStatus, h.countP_eq]

/-- Every issue has exactly one status. -/
theorem total_ofIssues (issues : List Issue) : (ofIssues issues).total = issues.length := by
  induction issues with
  | nil => rfl
  | cons i issues ih =>
    simp only [total, ofIssues, countStatus, List.countP_cons, List.length_cons] at ih ⊢
    cases i.status <;> simp <;> omega

end StatusCounts

namespace SeverityCounts

/-- How many issues are counted. -/
def total (c : SeverityCounts) : Nat := c.high + c.medium + c.low

instance : Add SeverityCounts :=
  ⟨fun a b => ⟨a.high + b.high, a.medium + b.medium, a.low + b.low⟩⟩

theorem ofIssues_append (issues more : List Issue) :
    ofIssues (issues ++ more) = ofIssues issues + ofIssues more := by
  simp only [ofIssues, countSeverity, List.countP_append]
  rfl

theorem ofIssues_perm {issues others : List Issue} (h : issues.Perm others) :
    ofIssues issues = ofIssues others := by
  simp only [ofIssues, countSeverity, h.countP_eq]

/-- Every issue has one severity or none. -/
theorem total_ofIssues (issues : List Issue) :
    (ofIssues issues).total + issues.countP (fun i => i.severity.isNone) = issues.length := by
  induction issues with
  | nil => rfl
  | cons i issues ih =>
    simp only [total, ofIssues, countSeverity, List.countP_cons, List.length_cons] at ih ⊢
    cases i.severity with
    | none => simp; omega
    | some v => cases v <;> simp <;> omega

end SeverityCounts

/-! ## Files with issues -/

/-- How many files have issues. -/
def countWithIssues (files : List FileIssues) : Nat := files.countP (fun f => !f.issues.isEmpty)

theorem countWithIssues_eq_zero_iff {files : List FileIssues} :
    countWithIssues files = 0 ↔ (allIssues files).length = 0 := by
  rw [countWithIssues, List.countP_eq_zero, List.length_eq_zero_iff, allIssues,
    List.flatMap_eq_nil_iff]
  simp

/-! ## Summaries of two lists -/

theorem allIssues_append (files more : List FileIssues) :
    allIssues (files ++ more) = allIssues files ++ allIssues more := List.flatMap_append

namespace Summary

/-- Every count of a summary, without the score. -/
structure Counts where
  filesScanned : Nat
  filesWithIssues : Nat
  totalIssues : Nat
  byStatus : StatusCounts
  bySeverity : SeverityCounts
  deriving DecidableEq, Repr, Inhabited

instance : Add Counts :=
  ⟨fun a b => ⟨a.filesScanned + b.filesScanned, a.filesWithIssues + b.filesWithIssues,
    a.totalIssues + b.totalIssues, a.byStatus + b.byStatus, a.bySeverity + b.bySeverity⟩⟩

/-- The counts of a summary. -/
def counts (s : Summary) : Counts :=
  ⟨s.filesScanned, s.filesWithIssues, s.totalIssues, s.byStatus, s.bySeverity⟩

theorem counts_ofFiles (files : List FileIssues) :
    (ofFiles files).counts =
      ⟨files.length, countWithIssues files, (allIssues files).length,
        StatusCounts.ofIssues (allIssues files), SeverityCounts.ofIssues (allIssues files)⟩ := rfl

theorem ofFiles_append (files more : List FileIssues) :
    (ofFiles (files ++ more)).counts = (ofFiles files).counts + (ofFiles more).counts := by
  rw [counts_ofFiles, allIssues_append, StatusCounts.ofIssues_append,
    SeverityCounts.ofIssues_append, List.length_append, List.length_append, countWithIssues,
    List.countP_append]
  rfl

/-- A summary is told by its files in number and by its issues in any order. -/
theorem ofFiles_congr {files others : List FileIssues} (hlength : files.length = others.length)
    (hwith : countWithIssues files = countWithIssues others)
    (hissues : (allIssues files).Perm (allIssues others)) : ofFiles files = ofFiles others := by
  have hstatus := StatusCounts.ofIssues_perm hissues
  have hseverity := SeverityCounts.ofIssues_perm hissues
  have htotal := hissues.length_eq
  simp only [countWithIssues] at hwith
  simp only [allIssues] at hstatus hseverity htotal
  simp only [ofFiles, hlength, hwith, hstatus, hseverity, htotal]

end Summary

/-! ## The order of files and issues -/

/-- As many files in another order, each with its issues in another order. -/
def Reordered (files others : List FileIssues) : Prop :=
  ∃ moved, files.Perm moved ∧
    List.Forall₂ (fun f g => f.path = g.path ∧ f.issues.Perm g.issues) moved others

namespace Reordered

/-- A file with issues has issues in any order. -/
theorem countWithIssues_eq {files others : List FileIssues} (h : Reordered files others) :
    countWithIssues files = countWithIssues others := by
  obtain ⟨moved, hmoved, hall⟩ := h
  refine (hmoved.countP_eq _).trans ?_
  clear hmoved
  induction hall with
  | nil => rfl
  | cons hissues _ ih =>
    have hempty := hissues.2.isEmpty_eq
    rw [List.countP_cons, countWithIssues, List.countP_cons, ih, hempty]
    rfl

theorem allIssues_perm {files others : List FileIssues} (h : Reordered files others) :
    (allIssues files).Perm (allIssues others) := by
  obtain ⟨moved, hmoved, hall⟩ := h
  refine (hmoved.flatMap_right _).trans ?_
  clear hmoved
  induction hall with
  | nil => exact List.Perm.refl _
  | cons hissues _ ih =>
    rw [allIssues, List.flatMap_cons, List.flatMap_cons]
    exact hissues.2.append ih

theorem length_eq {files others : List FileIssues} (h : Reordered files others) :
    files.length = others.length := by
  obtain ⟨moved, hmoved, hall⟩ := h
  exact hmoved.length_eq.trans hall.length_eq

theorem ofFiles_eq {files others : List FileIssues} (h : Reordered files others) :
    Summary.ofFiles files = Summary.ofFiles others :=
  Summary.ofFiles_congr h.length_eq h.countWithIssues_eq h.allIssues_perm

end Reordered

/-! ## The worst severity -/

theorem Severity.eq_of_rank_eq {v w : Severity} (h : v.rank = w.rank) : v = w := by
  cases v <;> cases w <;> first | rfl | cases h

section Worst

variable {files : List FileIssues}

theorem IsWorst.unique {issues : List Issue} {v w : Severity} (hv : IsWorst issues v)
    (hw : IsWorst issues w) : v = w := by
  obtain ⟨⟨i, hi, hiv⟩, hmaxv⟩ := hv
  obtain ⟨⟨j, hj, hjw⟩, hmaxw⟩ := hw
  exact Severity.eq_of_rank_eq (Nat.le_antisymm (hmaxw i hi v hiv) (hmaxv j hj w hjw))

theorem worstSeverity_eq_some_iff {v : Severity} :
    (Summary.ofFiles files).worstSeverity = some v ↔ IsWorst (allIssues files) v := by
  constructor
  · exact isWorst_of_worstSeverity
  · intro hv
    obtain ⟨w, hw⟩ := exists_worstSeverity hv.1
    rw [hw, hv.unique (isWorst_of_worstSeverity hw)]

theorem worstSeverity_eq_none_iff :
    (Summary.ofFiles files).worstSeverity = none ↔ ∀ i ∈ allIssues files, i.severity = none := by
  constructor
  · intro hnone i hi
    cases hv : i.severity with
    | none => rfl
    | some v =>
      obtain ⟨w, hw⟩ := exists_worstSeverity ⟨i, hi, hv⟩
      rw [hnone] at hw
      cases hw
  · intro hall
    cases hw : (Summary.ofFiles files).worstSeverity with
    | none => rfl
    | some w =>
      obtain ⟨⟨i, hi, hseverity⟩, -⟩ := isWorst_of_worstSeverity hw
      rw [hall i hi] at hseverity
      cases hseverity

end Worst

/-! ## Laws of summaries -/

/-- Counts of two lists of files add up; the counts by status come to the number of
    all issues, and so do those by severity with the issues that have none; there are
    no more files with issues than files, and none exactly if there are no issues; the
    worst severity is the greatest that an issue has; and the order of the files and
    of the issues of a file does not matter. -/
theorem summary_counts (files : List FileIssues) :
    let s := Summary.ofFiles files
    (∀ more, (Summary.ofFiles (files ++ more)).counts = s.counts + (Summary.ofFiles more).counts) ∧
    s.totalIssues = (files.map (fun f => f.issues.length)).sum ∧
    s.byStatus.widely + s.byStatus.newly + s.byStatus.limited + s.byStatus.unknown =
      s.totalIssues ∧
    s.bySeverity.high + s.bySeverity.medium + s.bySeverity.low +
      (allIssues files).countP (fun i => i.severity.isNone) = s.totalIssues ∧
    s.filesWithIssues ≤ s.filesScanned ∧
    (s.filesWithIssues = 0 ↔ s.totalIssues = 0) ∧
    (∀ v, s.worstSeverity = some v ↔ IsWorst (allIssues files) v) ∧
    (s.worstSeverity = none ↔ ∀ i ∈ allIssues files, i.severity = none) ∧
    (∀ others, Reordered files others → Summary.ofFiles others = s) := by
  intro s
  refine ⟨Summary.ofFiles_append files, ?_, StatusCounts.total_ofIssues _,
    SeverityCounts.total_ofIssues _, List.countP_le_length, countWithIssues_eq_zero_iff,
    fun v => worstSeverity_eq_some_iff, worstSeverity_eq_none_iff, fun others h => h.ofFiles_eq.symm⟩
  exact List.length_flatMap

/-- A file with issues whose severities go against their statuses, and an empty one. -/
def oddlyGraded : List FileIssues :=
  [⟨"a.js", [{ feature := "fetch", status := .widely, severity := some .high },
      { feature := "gap", status := .limited }]⟩, ⟨"b.css", []⟩]

/-- The same with the files and the issues in another order. -/
def oddlyGradedMoved : List FileIssues :=
  [⟨"b.css", []⟩, ⟨"a.js", [{ feature := "gap", status := .limited },
      { feature := "fetch", status := .widely, severity := some .high }]⟩]

theorem summary_counts_oddlyGraded :
    (Summary.ofFiles (oddlyGraded ++ oddlyGraded)).counts = ⟨4, 2, 4, ⟨2, 0, 2, 0⟩, ⟨2, 0, 0⟩⟩ ∧
    (Summary.ofFiles oddlyGraded).worstSeverity = some .high ∧
    Reordered oddlyGraded oddlyGradedMoved ∧
    Summary.ofFiles oddlyGradedMoved = Summary.ofFiles oddlyGraded := by
  obtain ⟨hadd, -, -, -, -, -, hworst, -, horder⟩ := summary_counts oddlyGraded
  have hmoved : Reordered oddlyGraded oddlyGradedMoved := by
    refine ⟨[oddlyGraded[1], oddlyGraded[0]], List.Perm.swap _ _ _, .cons ⟨rfl, .refl _⟩ ?_⟩
    exact .cons ⟨rfl, List.Perm.swap _ _ _⟩ .nil
  refine ⟨?_, ?_, hmoved, horder oddlyGradedMoved hmoved⟩
  · rw [hadd oddlyGraded]
    decide
  · refine (hworst .high).2 ⟨⟨_, List.mem_cons_self, rfl⟩, fun i hi w _ => ?_⟩
    cases w <;> decide

end WebBaseline.Report

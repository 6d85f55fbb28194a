/-
  WebBaseline.Proofs.Report.Order

  Sorting by severity is a stable sort of each file's issues.

    * the places of issues order them by severity, the greatest first and those
      without one last (`Issue.urgency_le_iff`);
    * a sorted file has the same issues in that order, those of one severity as they
      were (`isBySeverity_sorted`), and no other list has all that
      (`IsBySeverity.eq_bySeverity`);
    * so every file is sorted by itself, into its issues severity by severity
      (`sortBySeverity_files`).
-/

import Mathlib.Data.List.Forall2
import WebBaseline.Proofs.Report.Summary
import WebBaseline.Report.Order

namespace WebBaseline.Report

variable {issues sorted : List Issue}

/-! ## Places -/

/-- Severities and the lack of one, in the order in which they are shown. -/
def grades : List (Option Severity) := [some .high, some .medium, some .low, none]

theorem Issue.urgency_eq (i : Issue) : i.urgency = grades.idxOf i.severity := by
  rw [Issue.urgency]
  rcases i.severity with _ | _ | _ | _ <;> rfl

/-- An issue comes no later than another if its severity is as great; those without a
    severity come last. -/
theorem Issue.urgency_le_iff {i j : Issue} :
    i.urgency ≤ j.urgency ↔ ∀ w ∈ j.severity, ∃ v ∈ i.severity, w.rank ≤ v.rank := by
  rw [Issue.urgency, Issue.urgency]
  rcases i.severity with _ | _ | _ | _ <;> rcases j.severity with _ | _ | _ | _ <;> decide

/-- The issues severity by severity. -/
def bySeverity (issues : List Issue) : List Issue :=
  grades.flatMap (fun v => issues.filter (fun i => i.severity == v))

/-- A list with the same issues in the order of their severity, where those of one
    severity keep the order they were in. -/
structure IsBySeverity (issues sorted : List Issue) : Prop where
  perm : sorted.Perm issues
  ordered : sorted.Pairwise (fun i j => ∀ w ∈ j.severity, ∃ v ∈ i.severity, w.rank ≤ v.rank)
  stable : ∀ v, sorted.filter (fun i => i.severity == v) = issues.filter (fun i => i.severity == v)

/-! ## One list of issues -/

/-- The first of the issues in order is the first one severity by severity. -/
theorem bySeverity_cons {i : Issue} (h : ∀ j ∈ issues, i.urgency ≤ j.urgency) :
    bySeverity (i :: issues) = i :: bySeverity issues := by
  have hnone : ∀ v, grades.idxOf v < grades.idxOf i.severity →
      issues.filter (fun j => j.severity == v) = [] := by
    intro v hbefore
    refine List.filter_eq_nil_iff.2 (fun j hj hv => ?_)
    have hle := h j hj
    rw [Issue.urgency_eq, Issue.urgency_eq, beq_iff_eq.1 hv] at hle
    exact Nat.not_le_of_lt hbefore hle
  have hfilter : ∀ v, (i :: issues).filter (fun j => j.severity == v) =
      if i.severity == v then i :: issues.filter (fun j => j.severity == v)
      else issues.filter (fun j => j.severity == v) := fun v => List.filter_cons
  -- what comes before the first issue's severity, no issue has
  simp only [bySeverity, grades, List.flatMap_cons, List.flatMap_nil, hfilter]
  rcases hi : i.severity with _ | _ | _ | _ <;> rw [hi] at hnone
  · rw [hnone (some .high) (by decide), hnone (some .medium) (by decide),
      hnone (some .low) (by decide)]
    rfl
  · rw [hnone (some .high) (by decide), hnone (some .medium) (by decide)]
    rfl
  · rw [hnone (some .high) (by decide)]
    rfl
  · rfl

/-- Issues in order are their own list severity by severity. -/
theorem bySeverity_of_ordered (h : issues.Pairwise (fun i j => i.urgency ≤ j.urgency)) :
    bySeverity issues = issues := by
  induction h with
  | nil => rfl
  | cons hfirst _ ih => rw [bySeverity_cons hfirst, ih]

theorem IsBySeverity.eq_bySeverity (h : IsBySeverity issues sorted) : sorted = bySeverity issues := by
  have hordered : sorted.Pairwise (fun i j => i.urgency ≤ j.urgency) :=
    h.ordered.imp Issue.urgency_le_iff.2
  rw [← bySeverity_of_ordered hordered]
  exact List.flatMap_congr (fun v _ => h.stable v)

/-! ## Sorted files -/

theorem urgency_trans (i j k : Issue) (hij : decide (i.urgency ≤ j.urgency))
    (hjk : decide (j.urgency ≤ k.urgency)) : decide (i.urgency ≤ k.urgency) :=
  decide_eq_true (Nat.le_trans (of_decide_eq_true hij) (of_decide_eq_true hjk))

theorem urgency_total (i j : Issue) :
    decide (i.urgency ≤ j.urgency) || decide (j.urgency ≤ i.urgency) := by
  simpa using Nat.le_total i.urgency j.urgency

namespace FileIssues

variable (f : FileIssues)

theorem pairwise_sorted : f.sorted.issues.Pairwise (fun i j => i.urgency ≤ j.urgency) :=
  (List.pairwise_mergeSort urgency_trans urgency_total f.issues).imp of_decide_eq_true

/-- Issues of one severity are in order already, and sorting keeps lists that are. -/
theorem filter_sorted (v : Option Severity) :
    f.sorted.issues.filter (fun i => i.severity == v) =
      f.issues.filter (fun i => i.severity == v) := by
  have hsame : (f.issues.filter (fun i => i.severity == v)).Pairwise
      (fun i j => decide (i.urgency ≤ j.urgency)) := by
    refine List.pairwise_of_forall_mem_list (fun i hi j hj => decide_eq_true ?_)
    rw [Issue.urgency_eq, Issue.urgency_eq, beq_iff_eq.1 (List.mem_filter.1 hi).2,
      beq_iff_eq.1 (List.mem_filter.1 hj).2]
  have hkept := (List.sublist_mergeSort urgency_trans urgency_total hsame List.filter_sublist).filter
    (fun i => i.severity == v)
  rw [List.filter_filter] at hkept
  simp only [Bool.and_self] at hkept
  have hlength : (f.sorted.issues.filter (fun i => i.severity == v)).length =
      (f.issues.filter (fun i => i.severity == v)).length :=
    ((List.mergeSort_perm f.issues _).filter _).length_eq
  exact (hkept.eq_of_length hlength.symm).symm

theorem isBySeverity_sorted : IsBySeverity f.issues f.sorted.issues where
  perm := List.mergeSort_perm f.issues _
  ordered := f.pairwise_sorted.imp Issue.urgency_le_iff.1
  stable := f.filter_sorted

theorem sorted_sorted : f.sorted.sorted = f.sorted := by
  have hkept : f.sorted.issues.mergeSort (fun i j => i.urgency ≤ j.urgency) = f.sorted.issues :=
    List.mergeSort_of_pairwise (f.pairwise_sorted.imp decide_eq_true)
  exact congrArg (FileIssues.mk f.path) hkept

end FileIssues

/-! ## All files -/

theorem sortBySeverity_eq (files : List FileIssues) :
    sortBySeverity files = files.map (fun f => ⟨f.path, bySeverity f.issues⟩) := by
  refine List.map_congr_left (fun f _ => ?_)
  exact congrArg (FileIssues.mk f.path) f.isBySeverity_sorted.eq_bySeverity

theorem reordered_sortBySeverity (files : List FileIssues) :
    Reordered (sortBySeverity files) files := by
  refine ⟨sortBySeverity files, List.Perm.refl _, ?_⟩
  rw [sortBySeverity, List.forall₂_map_left_iff, List.forall₂_same]
  exact fun f _ => ⟨rfl, f.isBySeverity_sorted.perm⟩

/-- Sorting keeps the files and their order. Each file has its own issues in the order of
    their severity, those of one severity as they were, whatever the other files have:
    the issues of high, of medium and of low severity, then those without one. Sorting
    again changes nothing, and the summary stays the same. -/
theorem sortBySeverity_files (files : List FileIssues) :
    (sortBySeverity files).map FileIssues.path = files.map FileIssues.path ∧
    List.Forall₂ (fun f g => IsBySeverity f.issues g.issues) files (sortBySeverity files) ∧
    sortBySeverity files =
      files.map (fun f => ⟨f.path,
        f.issues.filter (fun i => i.severity == some .high) ++
        f.issues.filter (fun i => i.severity == some .medium) ++
        f.issues.filter (fun i => i.severity == some .low) ++
        f.issues.filter (fun i => i.severity == none)⟩) ∧
    sortBySeverity (sortBySeverity files) = sortBySeverity files ∧
    Summary.ofFiles (sortBySeverity files) = Summary.ofFiles files := by
  refine ⟨?_, ?_, ?_, ?_, (reordered_sortBySeverity files).ofFiles_eq⟩
  · rw [sortBySeverity, List.map_map]
    rfl
  · rw [sortBySeverity, List.forall₂_map_right_iff, List.forall₂_same]
    exact fun f _ => f.isBySeverity_sorted
  · rw [sortBySeverity_eq]
    simp only [bySeverity, grades, List.flatMap_cons, List.flatMap_nil, List.append_nil,
      List.append_assoc]
  · rw [sortBySeverity, sortBySeverity, List.map_map]
    exact List.map_congr_left (fun f _ => f.sorted_sorted)

end WebBaseline.Report

/-
  WebBaseline.Proofs.Scan.Issues

  The issues of a single file against the uses that its text shows.

    * whatever the sources answer and the level leaves out, the issues of
      occurrences tell of some of them, in their order (`occurrences_issuesOf`);
    * so a scanned file has no two issues for one feature at one place, and its
      issues follow what is extracted, which in turn is the first of each use
      that the passes produce (`issues_of_file`).
-/

import WebBaseline.Proofs.Feature.Distinct
import WebBaseline.Proofs.Scan.Uncached

namespace WebBaseline.Scan

open WebBaseline.Feature (Language Occurrence extract produced extract_eq_distinct)
open WebBaseline.Files (Disk Path)
open WebBaseline.Lookup (Memory resolve)
open WebBaseline.Report (Issue)

variable {σ : Type}

/-- The use that an issue tells of. -/
def occurrenceOf (i : Issue) : Occurrence := ⟨i.feature, i.line, i.column, i.context⟩

namespace Scanner

theorem occurrenceOf_enriched (o : Occurrence) (info : Baseline.Info) :
    occurrenceOf (Issue.ofOccurrence o info).enriched = o := rfl

theorem occurrences_issuesOf (sc : Scanner σ) (os : List Occurrence) (m : Memory) (s : σ) :
    ((sc.issuesOf os m s).1.map occurrenceOf).Sublist os := by
  -- each answer may change the memory and the sources for all that follow
  induction os generalizing m s with
  | nil => exact .slnil
  | cons o os ih =>
    rw [issuesOf]
    generalize resolve sc.sources o.identifier m s = answer
    obtain ⟨r, m', s'⟩ := answer
    have hrest := ih m' s'
    dsimp only
    split
    · rw [List.map_cons, occurrenceOf_enriched]
      exact hrest.cons_cons o
    · exact hrest.cons o

theorem scanFile_of_readText (sc : Scanner σ) {d : Disk} {path : Path} {language : Language}
    {text : String} (hlanguage : Language.ofPath? path = some language)
    (htext : d.readText path = .ok text) (m : Memory) (s : σ) :
    sc.scanFile d path m s =
      (.ok ⟨path, (sc.issuesOf (extract language path text) m s).1⟩,
        (sc.issuesOf (extract language path text) m s).2) := by
  rw [scanFile, hlanguage, htext]
  rfl

/-- What is extracted from a text is, for each feature at each place that the
    passes produce, just the first production, in the order of these. A scan of
    the file, from any memory and with any sources and options, has no two issues
    for one feature at one place, and its issues follow what is extracted. -/
theorem issues_of_file {path : Path} {language : Language}
    (hlanguage : Language.ofPath? path = some language) (text : String) :
    (∀ key, (extract language path text).filter (fun o => o.key == key) =
      ((produced language path text).find? (fun o => o.key == key)).toList) ∧
    (extract language path text).Pairwise (fun a b =>
      (produced language path text).findIdx (fun o => o.key == a.key) <
        (produced language path text).findIdx (fun o => o.key == b.key)) ∧
    ∀ (sc : Scanner σ) (d : Disk) (m : Memory) (s : σ), d.readText path = .ok text →
      ∃ issues after, sc.scanFile d path m s = (.ok ⟨path, issues⟩, after) ∧
        issues.Pairwise (fun i j =>
          (i.feature, i.line, i.column) ≠ (j.feature, j.line, j.column)) ∧
        (issues.map occurrenceOf).Sublist (extract language path text) := by
  have hextract := extract_eq_distinct language path text
  refine ⟨fun key => ?_, ?_, fun sc d m s htext => ?_⟩
  · rw [hextract]
    exact Occurrence.filter_distinct key _
  · rw [hextract]
    exact Occurrence.distinct_in_order _
  · have hsublist := occurrences_issuesOf sc (extract language path text) m s
    refine ⟨_, _, scanFile_of_readText sc hlanguage htext m s, ?_, hsublist⟩
    have hkeys : (extract language path text).Pairwise (fun a b => a.key ≠ b.key) := by
      rw [hextract]
      exact Occurrence.distinct_keys _
    have hissues := hkeys.sublist hsublist
    rw [List.pairwise_map] at hissues
    exact hissues

/-- A page that uses an element on two lines, and an attribute with one of them. -/
def twoDialogsPage : String := "<dialog open=\"\">\n<dialog>"

/-- A disk with that page. -/
def twoDialogsDisk : Disk := { top := .directory [("page.html", .file twoDialogsPage.toUTF8 0)] }

theorem issues_of_twoDialogs :
    Language.ofPath? "page.html" = some .markup ∧
    twoDialogsDisk.readText "page.html" = .ok twoDialogsPage ∧
    ∃ issues after, wary.scanFile twoDialogsDisk "page.html" Data.KeyMap.empty () =
        (.ok ⟨"page.html", issues⟩, after) ∧
      issues.Pairwise (fun i j =>
        (i.feature, i.line, i.column) ≠ (j.feature, j.line, j.column)) ∧
      (issues.map occurrenceOf).Sublist (extract .markup "page.html" twoDialogsPage) := by
  have hlanguage : Language.ofPath? "page.html" = some .markup := by decide +kernel
  have htext : twoDialogsDisk.readText "page.html" = .ok twoDialogsPage := by rfl
  obtain ⟨-, -, hscan⟩ := issues_of_file hlanguage twoDialogsPage
  exact ⟨hlanguage, htext, hscan wary twoDialogsDisk Data.KeyMap.empty () htext⟩

end Scanner

end WebBaseline.Scan

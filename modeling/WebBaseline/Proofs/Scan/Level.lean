/-
  WebBaseline.Proofs.Scan.Level

  Scans of one project at different levels.

    * `shownAt` leaves of a file's issues those that a level shows;
    * a scan at a level returns what is left of a scan without one, file by file
      (`plainProject_atLevel`);
    * so a stricter level only takes issues away (`level_filters_issues`).

  The scans that are compared have memories of their own: which features a level
  leaves out does not change what is asked or remembered.
-/

import Mathlib.Data.List.Basic
import Mathlib.Data.List.Forall2
import WebBaseline.Proofs.Scan.Project

/-! ## What a level shows -/

namespace WebBaseline.Report

open WebBaseline.Baseline (Level Status)

/-- A file with the issues that a report at a level shows. -/
def FileIssues.shownAt (l : Level) (f : FileIssues) : FileIssues :=
  { f with issues := f.issues.filter (fun i => l.shows i.status) }

/-- Whether one result tells of the same file as another, and of some of its issues
    in their order. -/
def FileIssues.IsPart (f g : FileIssues) : Prop := f.path = g.path ∧ f.issues.Sublist g.issues

theorem FileIssues.shownAt_all (f : FileIssues) : f.shownAt .all = f := by
  rw [shownAt]
  exact congrArg (FileIssues.mk f.path) (List.filter_true f.issues)

theorem FileIssues.isPart_shownAt (l : Level) (f : FileIssues) : (f.shownAt l).IsPart f :=
  ⟨rfl, List.filter_sublist⟩

/-- What is not baseline is not widely available either. -/
theorem shows_newly {s : Status} (h : Level.widely.shows s = true) :
    Level.newly.shows s = true := by
  cases s with
  | limited => rfl
  | widely => cases h
  | newly => cases h
  | unknown => cases h

theorem FileIssues.isPart_widely_newly (f : FileIssues) :
    (f.shownAt .widely).IsPart (f.shownAt .newly) :=
  ⟨rfl, List.monotone_filter_right f.issues (fun _ => shows_newly)⟩

end WebBaseline.Report

namespace WebBaseline.Scan.Scanner

open WebBaseline.Baseline (Info Level)
open WebBaseline.Feature (Language Occurrence)
open WebBaseline.Files (Disk Path)
open WebBaseline.Lookup (Source)
open WebBaseline.Report (FileIssues Issue)

variable {σ : Type}

/-- The scanner with another level, or with none. -/
def atLevel (sc : Scanner σ) (level : Option Level) : Scanner σ :=
  { sc with options := { sc.options with level := level } }

/-! ## Plain results at a level -/

section Plain

variable (sc : Scanner σ) (l : Level) (s : σ) (d : Disk)

/-- The status of an occurrence is that of its issue, so the level may as well be
    asked afterwards. -/
theorem plainIssues_atLevel (os : List Occurrence) :
    (sc.atLevel (some l)).plainIssues s os =
      ((sc.atLevel none).plainIssues s os).filter (fun i => l.shows i.status) := by
  have hnone : (fun (e : Occurrence × Info) => (sc.atLevel none).options.reports e.2.status) =
      fun _ => true := rfl
  rw [plainIssues, plainIssues, hnone, List.filter_true]
  exact (List.filter_map (f := fun (e : Occurrence × Info) => plainIssue e.1 e.2)
    (p := fun i => l.shows i.status)).symm

theorem plainScan_atLevel (path : Path) :
    (sc.atLevel (some l)).plainScan s d path =
      ((sc.atLevel none).plainScan s d path).map (FileIssues.shownAt l) := by
  rw [plainScan, plainScan]
  cases Language.ofPath? path with
  | none => rfl
  | some language =>
    cases d.readText path with
    | error fault => rfl
    | ok text =>
      simp only [plainIssues_atLevel sc l s]
      rfl

theorem plainFile?_atLevel (path : Path) :
    (sc.atLevel (some l)).plainFile? s d path =
      ((sc.atLevel none).plainFile? s d path).map (FileIssues.shownAt l) := by
  rw [← toOption_plainScan, ← toOption_plainScan, plainScan_atLevel]
  cases (sc.atLevel none).plainScan s d path with
  | error fault => rfl
  | ok f => rfl

/-- A project at a level has the files that it has without one, each with the
    issues that the level shows. -/
theorem plainProject_atLevel (cancelled : Nat → Bool) (root : Path) :
    (sc.atLevel (some l)).plainProject s cancelled d root =
      ((sc.atLevel none).plainProject s cancelled d root).map
        (List.map (FileIssues.shownAt l)) := by
  rw [plainProject, plainProject]
  split
  · rfl
  · split
    · rw [plainScan_atLevel]
      cases (sc.atLevel none).plainScan s d root with
      | error fault => rfl
      | ok f => rfl
    · -- the listing does not look at the level
      have hlist : listPaths (sc.atLevel (some l)).options d root =
          listPaths (sc.atLevel none).options d root := rfl
      rw [hlist]
      cases listPaths (sc.atLevel none).options d root with
      | error fault => rfl
      | ok paths =>
        refine congrArg Except.ok ?_
        rw [List.map_filterMap]
        exact congrArg (fun file? => (started cancelled 0 paths).filterMap file?)
          (funext (plainFile?_atLevel sc l s d))

end Plain

/-! ## Scans at several levels -/

/-- Whatever each scanner was used for before: a scan at a level returns the files
    of a scan without one, each with those of its issues that the level shows. So
    every file has fewer issues at the strictest level than at the next, fewer
    there than without a level, and all of them where everything is shown. A
    directory has such results if all patterns are in order. -/
theorem level_filters_issues (sc : Scanner σ) (hpure : ∀ source ∈ sc.sources, source.IsPure)
    (s : σ) (earlier : Option Level → List Visit) (d : Disk) (root : Path) :
    let result := fun level =>
      (sc.atLevel level).projectAfter s (earlier level) (fun _ => false) d root
    (∀ l, result (some l) = (result none).map (List.map (FileIssues.shownAt l))) ∧
    result (some .all) = result none ∧
    (∀ files, result none = .ok files → ∃ widely newly,
      result (some .widely) = .ok widely ∧ result (some .newly) = .ok newly ∧
      List.Forall₂ FileIssues.IsPart widely newly ∧ List.Forall₂ FileIssues.IsPart newly files) ∧
    (∀ f es, PathFilter.ofOptions sc.options = .ok f → d.node root = .ok (.directory es) →
      ∃ files, result none = .ok files) := by
  intro result
  have hplain : ∀ level, result level =
      (sc.atLevel level).plainProject s (fun _ => false) d root := by
    intro level
    have hpure' : ∀ source ∈ (sc.atLevel level).sources, source.IsPure := hpure
    exact projectAfter_eq hpure' s (earlier level) (fun _ => false) d root
  have hlevel : ∀ l, result (some l) = (result none).map (List.map (FileIssues.shownAt l)) := by
    intro l
    rw [hplain, hplain, plainProject_atLevel]
  refine ⟨hlevel, ?_, ?_, ?_⟩
  · rw [hlevel, funext FileIssues.shownAt_all, List.map_id_fun']
    cases result none with
    | error fault => rfl
    | ok files => rfl
  · intro files hfiles
    refine ⟨files.map (FileIssues.shownAt .widely), files.map (FileIssues.shownAt .newly),
      by rw [hlevel, hfiles]; rfl, by rw [hlevel, hfiles]; rfl, ?_, ?_⟩
    · rw [List.forall₂_map_left_iff, List.forall₂_map_right_iff, List.forall₂_same]
      exact fun f _ => f.isPart_widely_newly
    · rw [List.forall₂_map_left_iff, List.forall₂_same]
      exact fun f _ => f.isPart_shownAt .newly
  · intro f es hf hroot
    have hpaths : listPaths (sc.atLevel none).options d root = _ := listPaths_of_directory hf hroot
    exact ⟨_, (hplain none).trans
      (plainProject_of_listPaths (has_of_directory hroot) (hasFile_of_directory hroot) hpaths)⟩

/-! ## A page with one element of each status -/

/-- A scanner that knows three elements. -/
def mixed : Scanner Unit where
  sources := [Source.fixed "mixed" (fun feature =>
    if feature = "html-element-dialog" then .found (Info.ofStatus .limited)
    else if feature = "html-element-details" then .found (Info.ofStatus .newly)
    else if feature = "html-element-video" then .found (Info.ofStatus .widely)
    else .noResult)]

theorem mixed_isPure : ∀ source ∈ mixed.sources, source.IsPure := by
  intro source hsource
  rw [List.mem_singleton.1 hsource]
  exact Source.isPure_fixed "mixed" _

/-- A disk with a page that uses these and another one. -/
def fourElementsDisk : Disk :=
  { top := .directory [("site", .directory
      [("page.html", .file "<dialog>\n<details>\n<video>\n<meter>".toUTF8 0)])] }

/-- What the scanners of the different levels were used for before. -/
def earlierUses : Option Level → List Visit
  | some .widely => [.feature "html-element-dialog", .feature "fetch"]
  | some .newly => [.project (fun _ => true) fourElementsDisk "site"]
  | _ => []

/-- The features that a scan reports, file by file. -/
def reportedFeatures (level : Option Level) : Except ScanFault (List (List String)) :=
  ((mixed.atLevel level).projectAfter () (earlierUses level) (fun _ => false) fourElementsDisk
    "site").map (List.map (fun f => f.issues.map Issue.feature))

theorem fourElements_by_level :
    reportedFeatures none = .ok [["html-element-dialog", "html-element-details",
      "html-element-video", "html-element-meter"]] ∧
    reportedFeatures (some .newly) = .ok [["html-element-dialog", "html-element-details",
      "html-element-meter"]] ∧
    reportedFeatures (some .widely) = .ok [["html-element-dialog"]] ∧
    reportedFeatures (some .all) = reportedFeatures none := by
  obtain ⟨hlevel, -⟩ :=
    level_filters_issues mixed mixed_isPure () earlierUses fourElementsDisk "site"
  have hpure : ∀ source ∈ (mixed.atLevel none).sources, source.IsPure := mixed_isPure
  simp only [reportedFeatures, hlevel, projectAfter_eq hpure]
  decide +kernel

end WebBaseline.Scan.Scanner

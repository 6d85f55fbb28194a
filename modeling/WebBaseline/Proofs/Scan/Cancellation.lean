/-
  WebBaseline.Proofs.Scan.Cancellation

  Scans that are cancelled on the way.

    * a scan that is cancelled before the file with number `k` has come to the
      first `k` files of the listing (`started_eq_take`);
    * so its results are the first ones of a scan that is not cancelled, each of
      them complete, and nothing of it shows in later scans
      (`cancelled_scan_isPrefix`).

  `cancelled` tells what is found at each question whether to stop. A token that
  is cancelled at some moment, and stays so, gives one such function for every
  moment; nothing here asks that it stays so.
-/

import Mathlib.Data.List.Basic
import WebBaseline.Proofs.Scan.Project

namespace WebBaseline.Scan.Scanner

open WebBaseline.Files (Disk Node Path)
open WebBaseline.Lookup (Source)
open WebBaseline.Report (FileIssues)

variable {σ : Type}

/-! ## Files that a scan comes to -/

section Started

variable {cancelled : Nat → Bool}

theorem started_isPrefix (n : Nat) (paths : List Path) : started cancelled n paths <+: paths := by
  induction paths generalizing n with
  | nil => exact List.prefix_rfl
  | cons path rest ih =>
    rw [started]
    split
    · exact List.nil_prefix
    · exact (List.prefix_cons_inj path).2 (ih (n + 1))

/-- A scan comes to as many files as there are questions before the first one that
    finds it cancelled. -/
theorem started_eq_take {n k : Nat} {paths : List Path}
    (hbefore : ∀ j < k, cancelled (n + j) = false)
    (hstop : cancelled (n + k) = true ∨ paths.length ≤ k) :
    started cancelled n paths = paths.take k := by
  induction paths generalizing n k with
  | nil => rw [started, List.take_nil]
  | cons path rest ih =>
    rw [started]
    cases k with
    | zero =>
      have hn : cancelled n = true := hstop.resolve_right (by simp)
      rw [if_pos hn, List.take_zero]
    | succ k =>
      have hn : cancelled n = false := hbefore 0 k.succ_pos
      have hshift : ∀ j, n + 1 + j = n + (j + 1) := by
        intro j
        omega
      -- the questions that are left are counted from the next file
      have hrest : started cancelled (n + 1) rest = rest.take k := by
        apply ih
        · intro j hj
          rw [hshift]
          exact hbefore (j + 1) (by omega)
        · rw [hshift]
          exact hstop.imp id (fun hlength => by simpa using hlength)
      rw [if_neg (by simp [hn]), hrest, List.take_succ_cons]

end Started

/-! ## Cancelled scans -/

/-- A scan of a directory that is cancelled on the way returns the first results of
    a scan that is not, whatever the scanner was used for before either of them:
    those of the files that it came to, each as if scanned alone, and none if it
    was cancelled at the start. A root that is a file is scanned nevertheless, and
    no later scan is any different for one that was cancelled. -/
theorem cancelled_scan_isPrefix (sc : Scanner σ) (hpure : ∀ source ∈ sc.sources, source.IsPure)
    (s : σ) (visits : List Visit) (cancelled : Nat → Bool) (d : Disk) :
    (∀ root f es, PathFilter.ofOptions sc.options = .ok f → d.node root = .ok (.directory es) →
      ∃ paths part full, listPaths sc.options d root = .ok paths ∧
        sc.projectAfter s visits cancelled d root = .ok part ∧
        (∀ earlier, sc.projectAfter s earlier (fun _ => false) d root = .ok full) ∧
        part <+: full ∧
        (∀ f ∈ part, ∀ earlier, sc.fileAfter s earlier d f.path = .ok f) ∧
        (∀ k, (∀ j < k, cancelled j = false) → cancelled k = true ∨ paths.length ≤ k →
          ∀ earlier, part =
            (paths.take k).filterMap (fun path => (sc.fileAfter s earlier d path).toOption)) ∧
        (cancelled 0 = true → part = [])) ∧
    (∀ root, d.hasFile root = true → ∀ earlier,
      sc.projectAfter s visits cancelled d root =
        (sc.fileAfter s earlier d root).map (fun f => [f])) ∧
    (∀ root later d' root',
      sc.projectAfter s (visits ++ .project cancelled d root :: later) (fun _ => false) d' root' =
        sc.projectAfter s [] (fun _ => false) d' root') := by
  refine ⟨?_, ?_, ?_⟩
  · intro root f es hf hroot
    have hpaths := listPaths_of_directory hf hroot
    generalize (inOrder (sourcesAmong f [] es)).map (pathBelow root) = paths at hpaths
    have hproject : ∀ visits cancelled, sc.projectAfter s visits cancelled d root =
        .ok ((started cancelled 0 paths).filterMap (sc.plainFile? s d)) := by
      intro visits cancelled
      rw [projectAfter_eq hpure]
      exact plainProject_of_listPaths (has_of_directory hroot) (hasFile_of_directory hroot) hpaths
    refine ⟨paths, _, _, hpaths, hproject visits cancelled, fun earlier => hproject earlier _,
      ?_, ?_, ?_, ?_⟩
    · rw [started_never]
      exact (started_isPrefix 0 paths).filterMap _
    · intro f hmem earlier
      rw [fileAfter_eq hpure]
      exact plainScan_of_mem hmem
    · intro k hbefore hstop earlier
      simp only [fileAfter_eq hpure, toOption_plainScan]
      rw [started_eq_take (n := 0) (by simpa using hbefore) (by simpa using hstop)]
    · intro hstart
      rw [started_eq_take (n := 0) (k := 0) (by simp) (Or.inl hstart)]
      rfl
  · intro root hfile earlier
    rw [projectAfter_eq hpure, plainProject_of_hasFile hfile, fileAfter_eq hpure]
  · intro root later d' root'
    rw [projectAfter_eq hpure, projectAfter_eq hpure]

/-! ## A scan cancelled after an unreadable file -/

/-- A scanner of pages that takes every element for one of limited support. -/
def pages : Scanner Unit := { wary with options := { includes := ["**/*.html"], excludes := [] } }

/-- The filter of its options. -/
def pagesFilter : PathFilter where
  includes := [⟨[.deepFront, .star, .literal '.', .literal 'h', .literal 't', .literal 'm',
    .literal 'l']⟩]
  excludes := []

/-- What a directory with three pages holds; the second one is no text. -/
def threePages : List (String × Node) :=
  [("a.html", .file "<dialog>".toUTF8 0), ("b.html", .file ⟨#[255]⟩ 0),
    ("c.html", .file "<video>".toUTF8 0)]

/-- A disk with this directory. -/
def threePagesDisk : Disk := { top := .directory [("site", .directory threePages)] }

theorem pages_isPure : ∀ source ∈ pages.sources, source.IsPure := by
  intro source hsource
  rw [List.mem_singleton.1 hsource]
  exact Source.isPure_fixed "wary" _

theorem threePages_listed : listPaths pages.options threePagesDisk "site" =
    .ok ["site/a.html", "site/b.html", "site/c.html"] := by
  have hf : PathFilter.ofOptions pages.options = .ok pagesFilter := rfl
  have hfound : sourcesAmong pagesFilter [] threePages = [["a.html"], ["b.html"], ["c.html"]] := by
    decide +kernel
  have hordered : inOrder [["a.html"], ["b.html"], ["c.html"]] =
      [["a.html"], ["b.html"], ["c.html"]] := List.mergeSort_of_pairwise (by decide)
  have hroot : threePagesDisk.node "site" = .ok (.directory threePages) := rfl
  rw [listPaths_of_directory hf hroot, hfound, hordered]
  decide +kernel

/-- Cancelled before the third page, the scan has one result of two; scans before
    and after it have both. -/
theorem threePages_cancelled : ∃ part full,
    pages.projectAfter () [.project (fun _ => false) threePagesDisk "site"]
      (fun n => decide (2 ≤ n)) threePagesDisk "site" = .ok part ∧
    (∀ earlier, pages.projectAfter () earlier (fun _ => false) threePagesDisk "site" = .ok full) ∧
    part <+: full ∧
    part.map FileIssues.path = ["site/a.html"] ∧
    full.map FileIssues.path = ["site/a.html", "site/c.html"] := by
  obtain ⟨hdirectory, -, -⟩ := cancelled_scan_isPrefix pages pages_isPure ()
    [.project (fun _ => false) threePagesDisk "site"] (fun n => decide (2 ≤ n)) threePagesDisk
  obtain ⟨paths, part, full, hpaths, hpart, hfull, hprefix, -, htake, -⟩ :=
    hdirectory "site" _ threePages rfl rfl
  obtain rfl := Except.ok.inj (hpaths.symm.trans threePages_listed)
  refine ⟨part, full, hpart, hfull, hprefix, ?_, ?_⟩
  · rw [htake 2 (by decide) (by decide) []]
    decide +kernel
  · have hplain := (projectAfter_eq pages_isPure () [] (fun _ => false) threePagesDisk "site").trans
      (plainProject_of_listPaths (by decide +kernel) (by decide +kernel) threePages_listed)
    rw [Except.ok.inj ((hfull []).symm.trans hplain), started_never]
    decide +kernel

end WebBaseline.Scan.Scanner

/-
  WebBaseline.Proofs.Scan.Project

  What a scan of a project returns, whatever the scanner was used for before.

    * `plainProject` says it without a memory: what is wrong with the root, or the
      files that the scan comes to before it is cancelled, each as if it had been
      scanned alone;
    * `fileAfter` and `projectAfter` are the results of scans after other uses of
      the scanner, and with pure sources they are just that (`fileAfter_eq`,
      `projectAfter_eq`).

  Two scans of one disk are compared by their plain results, in which no memory
  and no state of a source is left.
-/

import WebBaseline.Proofs.Scan.Uncached

namespace WebBaseline.Scan.Scanner

open WebBaseline.Feature (Language)
open WebBaseline.Files (Disk Node Path)
open WebBaseline.Lookup (Memory)
open WebBaseline.Report (FileIssues)

variable {σ : Type}

/-- What a scan of a project returns without a memory. -/
def plainProject (sc : Scanner σ) (s : σ) (cancelled : Nat → Bool) (d : Disk) (root : Path) :
    Except ScanFault (List FileIssues) :=
  if !d.has root then .error (.rootNotFound root)
  else if d.hasFile root then (sc.plainScan s d root).map (fun f => [f])
  else
    (listPaths sc.options d root).map
      (fun paths => (started cancelled 0 paths).filterMap (sc.plainFile? s d))

/-- What a scan of a file returns after other uses of a new scanner. -/
def fileAfter (sc : Scanner σ) (s : σ) (visits : List Visit) (d : Disk) (path : Path) :
    Except ScanFault FileIssues :=
  (sc.scanFile d path (sc.afterVisits s visits).1 (sc.afterVisits s visits).2).1

/-- What a scan of a project returns after other uses of a new scanner. -/
def projectAfter (sc : Scanner σ) (s : σ) (visits : List Visit) (cancelled : Nat → Bool)
    (d : Disk) (root : Path) : Except ScanFault (List FileIssues) :=
  (sc.scanProject cancelled d root (sc.afterVisits s visits).1 (sc.afterVisits s visits).2).1

/-! ## Files -/

/-- A result is for the file that was scanned. -/
theorem path_of_plainScan {sc : Scanner σ} {s : σ} {d : Disk} {path : Path} {f : FileIssues}
    (h : sc.plainScan s d path = .ok f) : f.path = path := by
  rw [plainScan] at h
  cases hlanguage : Language.ofPath? path with
  | none =>
    rw [hlanguage] at h
    cases h
  | some language =>
    cases htext : d.readText path with
    | error fault =>
      rw [hlanguage, htext] at h
      cases h
    | ok text =>
      rw [hlanguage, htext] at h
      cases h
      rfl

/-- Each result among those of several files is that of its file alone. -/
theorem plainScan_of_mem {sc : Scanner σ} {s : σ} {d : Disk} {paths : List Path} {f : FileIssues}
    (h : f ∈ paths.filterMap (sc.plainFile? s d)) : sc.plainScan s d f.path = .ok f := by
  obtain ⟨path, -, hfile⟩ := List.mem_filterMap.1 h
  rw [← toOption_plainScan] at hfile
  cases hscan : sc.plainScan s d path with
  | error fault =>
    rw [hscan] at hfile
    cases hfile
  | ok g =>
    rw [hscan] at hfile
    cases hfile
    rw [path_of_plainScan hscan, hscan]

/-! ## Roots -/

section Root

variable {sc : Scanner σ} {s : σ} {cancelled : Nat → Bool} {d : Disk} {root : Path}

/-- A root that is a file is scanned as a file; nobody asks whether to stop. -/
theorem plainProject_of_hasFile (h : d.hasFile root = true) :
    sc.plainProject s cancelled d root = (sc.plainScan s d root).map (fun f => [f]) := by
  have hhas : d.has root = true := by
    rw [Disk.hasFile, Option.any_eq_true] at h
    obtain ⟨n, hn, -⟩ := h
    rw [Disk.has, hn]
    rfl
  rw [plainProject, hhas, if_neg (by decide), if_pos h]

/-- Any other root is listed, and the listed files are scanned. -/
theorem plainProject_of_listPaths {paths : List Path} (hhas : d.has root = true)
    (hfile : d.hasFile root = false) (hpaths : listPaths sc.options d root = .ok paths) :
    sc.plainProject s cancelled d root =
      .ok ((started cancelled 0 paths).filterMap (sc.plainFile? s d)) := by
  rw [plainProject, hhas, if_neg (by decide), hfile, if_neg (by decide), hpaths]
  rfl

/-- Each result of a project is that of its file alone. -/
theorem plainScan_of_mem_plainProject {files : List FileIssues}
    (h : sc.plainProject s cancelled d root = .ok files) :
    ∀ f ∈ files, sc.plainScan s d f.path = .ok f := by
  intro f hf
  rw [plainProject] at h
  split at h
  · cases h
  · split at h
    · cases hscan : sc.plainScan s d root with
      | error fault =>
        rw [hscan] at h
        cases h
      | ok g =>
        rw [hscan] at h
        cases h
        rw [List.mem_singleton.1 hf, path_of_plainScan hscan, hscan]
    · cases hpaths : listPaths sc.options d root with
      | error fault =>
        rw [hpaths] at h
        cases h
      | ok paths =>
        rw [hpaths] at h
        cases h
        exact plainScan_of_mem hf

theorem has_of_directory {es : List (String × Node)} (h : d.node root = .ok (.directory es)) :
    d.has root = true := by
  rw [Disk.has, h]
  rfl

theorem hasFile_of_directory {es : List (String × Node)} (h : d.node root = .ok (.directory es)) :
    d.hasFile root = false := by
  rw [Disk.hasFile, h]
  rfl

end Root

/-! ## Scans with a memory -/

section Memory

variable {sc : Scanner σ} (hpure : ∀ source ∈ sc.sources, source.IsPure)

include hpure

/-- From a faithful memory a scan returns what it returns without one. -/
theorem scanProject_eq {s : σ} {m : Memory} (hm : m.Faithful sc.sources s)
    (cancelled : Nat → Bool) (d : Disk) (root : Path) (t : σ) :
    (sc.scanProject cancelled d root m t).1 = sc.plainProject s cancelled d root := by
  rw [scanProject, plainProject]
  split
  · rfl
  · split
    · exact congrArg (Except.map (fun f => [f])) (scanFile_eq_plainScan hpure hm d root t).1
    · -- the listing needs neither the memory nor the sources
      cases listPaths sc.options d root with
      | error fault => rfl
      | ok paths => exact congrArg Except.ok (scanAll_eq_started hpure hm cancelled d 0 paths t)

theorem fileAfter_eq (s : σ) (visits : List Visit) (d : Disk) (path : Path) :
    sc.fileAfter s visits d path = sc.plainScan s d path :=
  (scanFile_eq_plainScan hpure (faithful_afterVisits hpure s visits) d path _).1

/-- Earlier uses of a scanner, interrupted scans among them, do not show. -/
theorem projectAfter_eq (s : σ) (visits : List Visit) (cancelled : Nat → Bool) (d : Disk)
    (root : Path) :
    sc.projectAfter s visits cancelled d root = sc.plainProject s cancelled d root :=
  scanProject_eq hpure (faithful_afterVisits hpure s visits) cancelled d root _

end Memory

end WebBaseline.Scan.Scanner

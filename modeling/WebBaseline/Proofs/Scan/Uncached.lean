/-
  WebBaseline.Proofs.Scan.Uncached

  Scans without a memory, and that those with one return the same.

    * `plainIssues`, `plainFile?` and `plainScan` say what a scan returns if every
      feature is asked for anew and every file is scanned on its own, and `started`
      which files it comes to before it is cancelled;
    * each operation of a scanner returns just that from a faithful memory, and
      leaves it faithful (`issuesOf_eq`, `scanFile_eq_plainScan`,
      `scanAll_eq_started`);
    * so whatever a scanner was used for before cannot be seen in its results
      (`scans_after_visits`).
-/

import WebBaseline.Proofs.Lookup.Pure
import WebBaseline.Proofs.Scan.Listing
import WebBaseline.Scan.Scanner

namespace WebBaseline.Scan

open WebBaseline.Baseline (Info)
open WebBaseline.Data (KeyMap)
open WebBaseline.Feature (Catalog.hasPolyfill Catalog.alternative? Language Occurrence extract)
open WebBaseline.Files (Disk Node Path)
open WebBaseline.Lookup (Memory Source resolve verdict faithful_resolve info_resolve)
open WebBaseline.Report (FileIssues Issue Severity)

variable {σ : Type}

namespace Scanner

/-! ## What is returned without a memory -/

/-- The issue of an occurrence whose feature has a status. Everything but the
    place comes from the feature and the status. -/
def plainIssue (o : Occurrence) (info : Info) : Issue where
  feature := o.identifier
  status := info.status
  line := o.line
  column := o.column
  context := o.context
  severity := Severity.ofStatus info.status
  polyfill := some (Catalog.hasPolyfill o.identifier)
  alternative := Catalog.alternative? o.identifier

/-- The issues of occurrences, each feature asked for on its own. -/
def plainIssues (sc : Scanner σ) (s : σ) (os : List Occurrence) : List Issue :=
  ((os.map (fun o => (o, verdict sc.sources s o.identifier))).filter
    (fun e => sc.options.reports e.2.status)).map (fun e => plainIssue e.1 e.2)

/-- The issues of a file on its own; none, if it cannot be read. -/
def plainFile? (sc : Scanner σ) (s : σ) (d : Disk) (path : Path) : Option FileIssues := do
  let language ← Language.ofPath? path
  let text ← (d.readText path).toOption
  some ⟨path, sc.plainIssues s (extract language path text)⟩

theorem plainFile?_of_readText (sc : Scanner σ) (s : σ) {d : Disk} {path : Path}
    {language : Language} {text : String} (hlanguage : Language.ofPath? path = some language)
    (htext : d.readText path = .ok text) :
    sc.plainFile? s d path = some ⟨path, sc.plainIssues s (extract language path text)⟩ := by
  rw [plainFile?, hlanguage, htext]
  rfl

/-- The same, with what is wrong if the file cannot be scanned. -/
def plainScan (sc : Scanner σ) (s : σ) (d : Disk) (path : Path) : Except ScanFault FileIssues :=
  match Language.ofPath? path with
  | none => .error (.unsupported path)
  | some language =>
    match d.readText path with
    | .error fault => .error (.unreadable path fault)
    | .ok text => .ok ⟨path, sc.plainIssues s (extract language path text)⟩

theorem toOption_plainScan (sc : Scanner σ) (s : σ) (d : Disk) (path : Path) :
    (sc.plainScan s d path).toOption = sc.plainFile? s d path := by
  rw [plainScan, plainFile?]
  cases Language.ofPath? path with
  | none => rfl
  | some language =>
    cases d.readText path with
    | error fault => rfl
    | ok text => rfl

/-- The paths that a scan comes to before it is cancelled. -/
def started (cancelled : Nat → Bool) : Nat → List Path → List Path
  | _, [] => []
  | n, path :: rest => if cancelled n then [] else path :: started cancelled (n + 1) rest

theorem started_never (n : Nat) (paths : List Path) :
    started (fun _ => false) n paths = paths := by
  induction paths generalizing n with
  | nil => rfl
  | cons path rest ih => rw [started, if_neg Bool.false_ne_true, ih]

/-! ## One operation -/

section Operation

variable {sc : Scanner σ} (hpure : ∀ source ∈ sc.sources, source.IsPure)
  {s : σ} {m : Memory} (hm : m.Faithful sc.sources s)

include hpure hm

theorem issuesOf_eq (os : List Occurrence) (t : σ) :
    (sc.issuesOf os m t).1 = sc.plainIssues s os ∧
      (sc.issuesOf os m t).2.1.Faithful sc.sources s := by
  induction os generalizing m t with
  | nil => exact ⟨rfl, hm⟩
  | cons o os ih =>
    have hinfo := info_resolve hpure hm o.identifier t
    obtain ⟨hissues, hrest⟩ := ih (faithful_resolve hpure hm o.identifier t)
      (resolve sc.sources o.identifier m t).2.2
    -- the rest is asked for with another memory and other states of the sources
    rw [issuesOf, plainIssues, List.map_cons, List.filter_cons]
    simp only [hinfo]
    split
    · exact ⟨by rw [List.map_cons, hissues]; rfl, hrest⟩
    · exact ⟨hissues, hrest⟩

theorem scanFile_eq_plainScan (d : Disk) (path : Path) (t : σ) :
    (sc.scanFile d path m t).1 = sc.plainScan s d path ∧
      (sc.scanFile d path m t).2.1.Faithful sc.sources s := by
  rw [scanFile, plainScan]
  cases Language.ofPath? path with
  | none => exact ⟨rfl, hm⟩
  | some language =>
    cases d.readText path with
    | error fault => exact ⟨rfl, hm⟩
    | ok text =>
      obtain ⟨hissues, hfaithful⟩ := issuesOf_eq hpure hm (extract language path text) t
      refine ⟨?_, hfaithful⟩
      simp only [check, hissues]

theorem scanFile_eq (d : Disk) (path : Path) (t : σ) :
    (sc.scanFile d path m t).1.toOption = sc.plainFile? s d path ∧
      (sc.scanFile d path m t).2.1.Faithful sc.sources s := by
  obtain ⟨hfile, hfaithful⟩ := scanFile_eq_plainScan hpure hm d path t
  exact ⟨by rw [hfile, toOption_plainScan], hfaithful⟩

/-- A scan of files returns those that can be read among the ones that it comes
    to, each as if it had been scanned alone. -/
theorem scanAll_eq_started (cancelled : Nat → Bool) (d : Disk) (n : Nat) (paths : List Path)
    (t : σ) : (sc.scanAll cancelled d n paths m t).1 =
      (started cancelled n paths).filterMap (sc.plainFile? s d) := by
  induction paths generalizing m n t with
  | nil => rfl
  | cons path rest ih =>
    rw [scanAll, started]
    split
    · rfl
    · obtain ⟨hfile, hfaithful⟩ := scanFile_eq hpure hm d path t
      rw [List.filterMap_cons, ← hfile]
      generalize sc.scanFile d path m t = result at hfaithful ⊢
      obtain ⟨outcome, m', t'⟩ := result
      cases outcome with
      | error fault => exact ih hfaithful (n + 1) t'
      | ok issues => exact congrArg (issues :: ·) (ih hfaithful (n + 1) t')

/-- One that is not cancelled comes to all of them. -/
theorem scanAll_eq (d : Disk) (n : Nat) (paths : List Path) (t : σ) :
    (sc.scanAll (fun _ => false) d n paths m t).1 = paths.filterMap (sc.plainFile? s d) := by
  rw [scanAll_eq_started hpure hm, started_never]

theorem faithful_scanAll (cancelled : Nat → Bool) (d : Disk) (n : Nat) (paths : List Path)
    (t : σ) : (sc.scanAll cancelled d n paths m t).2.1.Faithful sc.sources s := by
  induction paths generalizing m n t with
  | nil => exact hm
  | cons path rest ih =>
    rw [scanAll]
    split
    · exact hm
    · obtain ⟨-, hfaithful⟩ := scanFile_eq hpure hm d path t
      generalize sc.scanFile d path m t = result at hfaithful ⊢
      obtain ⟨outcome, m', t'⟩ := result
      cases outcome with
      | error fault => exact ih hfaithful (n + 1) t'
      | ok issues => exact ih hfaithful (n + 1) t'

theorem faithful_scanProject (cancelled : Nat → Bool) (d : Disk) (root : Path) (t : σ) :
    (sc.scanProject cancelled d root m t).2.1.Faithful sc.sources s := by
  rw [scanProject]
  split
  · exact hm
  · split
    · exact (scanFile_eq hpure hm d root t).2
    · split
      · exact hm
      · exact faithful_scanAll hpure hm cancelled d 0 _ t

end Operation

/-! ## Any use of a scanner -/

/-- One use of a scanner: a file or a project is scanned, or a feature is
    resolved. The disk may be another one each time. -/
inductive Visit where
  | file (d : Disk) (path : Path)
  | project (cancelled : Nat → Bool) (d : Disk) (root : Path)
  | feature (name : String)

/-- The memory of a scanner and the state of its sources after a use. -/
def afterVisit (sc : Scanner σ) (before : Memory × σ) : Visit → Memory × σ
  | .file d path => (sc.scanFile d path before.1 before.2).2
  | .project cancelled d root => (sc.scanProject cancelled d root before.1 before.2).2
  | .feature name => (resolve sc.sources name before.1 before.2).2

/-- The same after any uses of a new scanner, one after the other. -/
def afterVisits (sc : Scanner σ) (s : σ) (visits : List Visit) : Memory × σ :=
  visits.foldl sc.afterVisit (KeyMap.empty, s)

theorem faithful_afterVisit {sc : Scanner σ} (hpure : ∀ source ∈ sc.sources, source.IsPure)
    {s : σ} {before : Memory × σ} (h : before.1.Faithful sc.sources s) (visit : Visit) :
    (sc.afterVisit before visit).1.Faithful sc.sources s := by
  cases visit with
  | file d path => exact (scanFile_eq hpure h d path before.2).2
  | project cancelled d root => exact faithful_scanProject hpure h cancelled d root before.2
  | feature name => exact faithful_resolve hpure h name before.2

theorem faithful_afterVisits {sc : Scanner σ} (hpure : ∀ source ∈ sc.sources, source.IsPure)
    (s : σ) (visits : List Visit) : (sc.afterVisits s visits).1.Faithful sc.sources s := by
  have hrun : ∀ before : Memory × σ, before.1.Faithful sc.sources s →
      (visits.foldl sc.afterVisit before).1.Faithful sc.sources s := by
    induction visits with
    | nil => exact fun before h => h
    | cons visit rest ih =>
      exact fun before h => ih (sc.afterVisit before visit) (faithful_afterVisit hpure h visit)
  exact hrun _ (Memory.faithful_empty sc.sources s)

/-- After any uses of a scanner with pure sources a file that can be read has the
    issues of its own text, and a project those of the listed files that can be
    read, in the order of the listing. -/
theorem scans_after_visits (sc : Scanner σ) (hpure : ∀ source ∈ sc.sources, source.IsPure)
    (s : σ) (visits : List Visit) (d : Disk) :
    (∀ path language text, Language.ofPath? path = some language → d.readText path = .ok text →
      (sc.scanFile d path (sc.afterVisits s visits).1 (sc.afterVisits s visits).2).1 =
        .ok ⟨path, sc.plainIssues s (extract language path text)⟩) ∧
    (∀ root es f, PathFilter.ofOptions sc.options = .ok f → d.node root = .ok (.directory es) →
      ∃ paths, listPaths sc.options d root = .ok paths ∧
        ((Node.directory es).wellNamed = true →
          ∀ path ∈ paths, (Language.ofPath? path).isSome = true) ∧
        (sc.scanProject (fun _ => false) d root (sc.afterVisits s visits).1
          (sc.afterVisits s visits).2).1 = .ok (paths.filterMap (sc.plainFile? s d))) := by
  have hm := faithful_afterVisits hpure s visits
  -- that the memory is faithful is all that has to be known of it
  generalize sc.afterVisits s visits = before at hm
  obtain ⟨m, t⟩ := before
  constructor
  · intro path language text hlanguage htext
    obtain ⟨hfile, -⟩ := scanFile_eq hpure hm d path t
    rw [plainFile?_of_readText sc s hlanguage htext] at hfile
    generalize (sc.scanFile d path m t).1 = result at hfile
    cases result with
    | error fault => cases hfile
    | ok issues =>
      cases hfile
      rfl
  · intro root es f hf hroot
    have hpaths := listPaths_of_directory hf hroot
    refine ⟨_, hpaths, fun hes path hpath => language_of_listed hroot hes hpath, ?_⟩
    have hhas : d.has root = true := by
      rw [Disk.has, hroot]
      rfl
    have hfile : d.hasFile root = false := by
      rw [Disk.hasFile, hroot]
      rfl
    simp only [scanProject, hhas, hfile, hpaths, Bool.not_true, Bool.false_eq_true, if_false]
    rw [scanAll_eq hpure hm]

/-- A scanner that takes every element for one of limited support. -/
def wary : Scanner Unit where
  sources := [Source.fixed "wary" (fun _ => .found (Info.ofStatus .limited))]

/-- A disk with one page, which uses one element. -/
def onePageDisk : Disk :=
  { top := .directory [("page.html", .file "<dialog>".toUTF8 0)] }

theorem wary_onePage : (wary.scanFile onePageDisk "page.html"
      (wary.afterVisits () [.feature "fetch", .file onePageDisk "page.html"]).1
      (wary.afterVisits () [.feature "fetch", .file onePageDisk "page.html"]).2).1 =
    .ok ⟨"page.html", [
      { feature := "html-element-dialog", status := .limited, line := some 1, column := some 1,
        context := some "<dialog>", severity := some .high, polyfill := some true,
        alternative := some "a <div> with role=\"dialog\"" }]⟩ := by
  have hpure : ∀ source ∈ wary.sources, source.IsPure := by
    intro source hsource
    rw [List.mem_singleton.1 hsource]
    exact Source.isPure_fixed "wary" _
  obtain ⟨hfile, -⟩ := scans_after_visits wary hpure ()
    [.feature "fetch", .file onePageDisk "page.html"] onePageDisk
  rw [hfile "page.html" .markup "<dialog>" (by decide +kernel) (by rfl)]
  have hissues : wary.plainIssues () (extract .markup "page.html" "<dialog>") = [
      { feature := "html-element-dialog", status := .limited, line := some 1, column := some 1,
        context := some "<dialog>", severity := some .high, polyfill := some true,
        alternative := some "a <div> with role=\"dialog\"" }] := by decide +kernel
  rw [hissues]

end Scanner

end WebBaseline.Scan

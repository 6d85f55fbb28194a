/-
  WebBaseline.Proofs.Scan.Patterns

  Scans of one project with more patterns and with fewer.

    * a filter with fewer patterns to match and more that must not match accepts
      less and prunes more (`narrows_of_options`);
    * so a walk with it finds a part of what a walk with the other one finds, at
      every depth (`sourcesAmong_sublist`), and the listing is a part of the
      other listing (`isPart_listPaths`);
    * what is found in a file does not depend on the patterns, so a scan returns a
      part of the other scan's results (`patterns_narrow_scans`).
-/

import Mathlib.Data.List.Basic
import Mathlib.Data.List.Sort
import WebBaseline.CommandLine.Run
import WebBaseline.Proofs.Scan.Cancellation
import WebBaseline.Proofs.Scan.Order

namespace WebBaseline.Scan

open WebBaseline.CommandLine (ScanCall)
open WebBaseline.Files (Disk Node Path Place)
open WebBaseline.Glob (Pattern anyMatches)

/-! ## Patterns and their texts -/

section Compile

variable {texts more : List String} {ps qs : List Pattern}

theorem compile_cons_eq_ok_iff {text : String} :
    PathFilter.compile (text :: texts) = .ok ps ↔
      ∃ p rest, Pattern.ofText text = .ok p ∧ PathFilter.compile texts = .ok rest ∧
        ps = p :: rest := by
  rw [PathFilter.compile]
  cases Pattern.ofText text with
  | error flaw => simp
  | ok p =>
    cases PathFilter.compile texts with
    | error fault => simp [Except.map]
    | ok rest => simp [Except.map, eq_comm]

/-- Texts are patterns exactly if each of them is. -/
theorem exists_compile_iff :
    (∃ ps, PathFilter.compile texts = .ok ps) ↔
      ∀ text ∈ texts, ∃ p, Pattern.ofText text = .ok p := by
  induction texts with
  | nil => exact iff_of_true ⟨[], rfl⟩ (List.forall_mem_nil _)
  | cons text texts ih =>
    rw [List.forall_mem_cons, ← ih]
    constructor
    · rintro ⟨ps, hps⟩
      obtain ⟨p, rest, htext, hrest, -⟩ := compile_cons_eq_ok_iff.1 hps
      exact ⟨⟨p, htext⟩, ⟨rest, hrest⟩⟩
    · rintro ⟨⟨p, htext⟩, ⟨rest, hrest⟩⟩
      exact ⟨p :: rest, compile_cons_eq_ok_iff.2 ⟨p, rest, htext, hrest, rfl⟩⟩

theorem mem_compile_iff (h : PathFilter.compile texts = .ok ps) {p : Pattern} :
    p ∈ ps ↔ ∃ text ∈ texts, Pattern.ofText text = .ok p := by
  induction texts generalizing ps with
  | nil =>
    obtain rfl := Except.ok.inj h
    simp
  | cons text texts ih =>
    obtain ⟨q, rest, htext, hrest, rfl⟩ := compile_cons_eq_ok_iff.1 h
    rw [List.mem_cons, ih hrest, List.exists_mem_cons_iff, htext, Except.ok.injEq, eq_comm]

theorem compile_subset (hps : PathFilter.compile texts = .ok ps)
    (hqs : PathFilter.compile more = .ok qs) (h : texts ⊆ more) : ps ⊆ qs := by
  intro p hp
  obtain ⟨text, htext, hread⟩ := (mem_compile_iff hps).1 hp
  exact (mem_compile_iff hqs).2 ⟨text, h htext, hread⟩

theorem anyMatches_mono (h : ps ⊆ qs) {path : String} (hps : anyMatches ps path = true) :
    anyMatches qs path = true := by
  rw [anyMatches, List.any_eq_true] at hps ⊢
  obtain ⟨p, hp, hmatches⟩ := hps
  exact ⟨p, h hp, hmatches⟩

end Compile

/-! ## Narrower filters -/

/-- A filter that accepts no more than another one, and prunes no less. -/
structure PathFilter.Narrows (f g : PathFilter) : Prop where
  accepts : ∀ path, f.accepts path = true → g.accepts path = true
  prunes : ∀ path, g.prunes path = true → f.prunes path = true

/-- Options with fewer patterns to match, and more that must not. -/
structure Options.Narrows (o o' : Options) : Prop where
  includes : o.includes ⊆ o'.includes
  excludes : o'.excludes ⊆ o.excludes

section Filters

variable {o o' : Options} {f g : PathFilter}

theorem ofOptions_eq_ok_iff :
    PathFilter.ofOptions o = .ok f ↔
      PathFilter.compile o.includes = .ok f.includes ∧
        PathFilter.compile o.excludes = .ok f.excludes := by
  rw [PathFilter.ofOptions]
  cases PathFilter.compile o.includes with
  | error fault => simp
  | ok includes =>
    cases PathFilter.compile o.excludes with
    | error fault => simp [Except.map]
    | ok excludes =>
      obtain ⟨fi, fe⟩ := f
      simp [Except.map]

/-- Options have a filter if all of their patterns are among those of options that
    have one. -/
theorem exists_ofOptions (hi : o.includes ⊆ o'.includes) (he : o.excludes ⊆ o'.excludes)
    (h : ∃ g, PathFilter.ofOptions o' = .ok g) : ∃ f, PathFilter.ofOptions o = .ok f := by
  obtain ⟨g, hg⟩ := h
  obtain ⟨hincludes, hexcludes⟩ := ofOptions_eq_ok_iff.1 hg
  have hi' := exists_compile_iff.1 ⟨_, hincludes⟩
  have he' := exists_compile_iff.1 ⟨_, hexcludes⟩
  obtain ⟨includes, hincludes⟩ := exists_compile_iff.2 (fun text h => hi' text (hi h))
  obtain ⟨excludes, hexcludes⟩ := exists_compile_iff.2 (fun text h => he' text (he h))
  exact ⟨⟨includes, excludes⟩, ofOptions_eq_ok_iff.2 ⟨hincludes, hexcludes⟩⟩

theorem narrows_of_options (h : o.Narrows o') (hf : PathFilter.ofOptions o = .ok f)
    (hg : PathFilter.ofOptions o' = .ok g) : f.Narrows g := by
  obtain ⟨hfi, hfe⟩ := ofOptions_eq_ok_iff.1 hf
  obtain ⟨hgi, hge⟩ := ofOptions_eq_ok_iff.1 hg
  have hincludes : f.includes ⊆ g.includes := compile_subset hfi hgi h.includes
  have hexcludes : g.excludes ⊆ f.excludes := compile_subset hge hfe h.excludes
  constructor
  · intro path haccepts
    rw [PathFilter.accepts, Bool.and_eq_true, Bool.not_eq_true'] at haccepts ⊢
    refine ⟨anyMatches_mono hincludes haccepts.1, ?_⟩
    rw [← Bool.not_eq_true]
    intro hexcluded
    rw [anyMatches_mono hexcludes hexcluded] at haccepts
    exact Bool.noConfusion haccepts.2
  · intro path hprunes
    rw [PathFilter.prunes, Bool.or_eq_true] at hprunes ⊢
    exact hprunes.imp (anyMatches_mono hexcludes) (anyMatches_mono hexcludes)

theorem isSource_of_narrows (h : f.Narrows g) {p : Place} (hp : isSource f p = true) :
    isSource g p = true := by
  rw [isSource, Bool.and_eq_true] at hp ⊢
  exact ⟨h.accepts _ hp.1, hp.2⟩

/-! ## Narrower walks -/

mutual

/-- A walk with a narrower filter finds a part, in the same order. -/
theorem sourcesIn_sublist (h : f.Narrows g) (p : Place) (n : Node) :
    (sourcesIn f p n).Sublist (sourcesIn g p n) := by
  cases n with
  | file content written =>
    rw [sourcesIn, sourcesIn]
    split
    · next hp =>
      rw [if_pos (isSource_of_narrows h hp)]
    · exact List.nil_sublist _
  | link target =>
    rw [sourcesIn, sourcesIn]
  | directory es => exact sourcesAmong_sublist h p es

theorem sourcesAmong_sublist (h : f.Narrows g) (p : Place) (es : List (String × Node)) :
    (sourcesAmong f p es).Sublist (sourcesAmong g p es) := by
  cases es with
  | nil => rw [sourcesAmong, sourcesAmong]
  | cons e rest =>
    obtain ⟨name, n⟩ := e
    have hentry := sourcesIn_sublist h (p ++ [name]) n
    have hrest := sourcesAmong_sublist h p rest
    rw [sourcesAmong, sourcesAmong]
    refine List.Sublist.append ?_ hrest
    split
    · exact List.nil_sublist _
    · next hroom =>
      -- what the narrower filter does not prune the other one does not prune either
      rw [if_neg]
      · exact hentry
      · intro hpruned
        rw [Bool.and_eq_true] at hpruned
        exact hroom (Bool.and_eq_true_iff.2 ⟨hpruned.1, h.prunes _ hpruned.2⟩)

end

theorem inOrder_sublist {ps qs : List Place} (h : ps.Sublist qs) :
    (inOrder ps).Sublist (inOrder qs) := by
  have hsubperm : (inOrder ps).Subperm (inOrder qs) :=
    ((List.mergeSort_perm ps placeLE).subperm.trans h.subperm).trans
      (List.mergeSort_perm qs placeLE).symm.subperm
  have hantisymm : Std.Antisymm (fun p q : Place => placeLE p q = true) :=
    ⟨fun _ _ => placeLE_antisymm⟩
  exact List.sublist_of_subperm_of_pairwise hsubperm (pairwise_inOrder ps) (pairwise_inOrder qs)

theorem sourcesOf_sublist (h : f.Narrows g) (root : Path) (n : Node) :
    (sourcesOf f root n).Sublist (sourcesOf g root n) := by
  cases n with
  | file content written =>
    rw [sourcesOf, sourcesOf]
    split
    · next hroot =>
      rw [Bool.and_eq_true] at hroot
      rw [if_pos (Bool.and_eq_true_iff.2 ⟨h.accepts _ hroot.1, hroot.2⟩)]
    · exact List.nil_sublist _
  | link target => exact List.Sublist.slnil
  | directory es => exact inOrder_sublist (sourcesAmong_sublist h [] es)

end Filters

/-! ## Parts of results -/

/-- Both succeed, and the first list is the second one with some entries left out. -/
def IsPart {α : Type} (few many : Except ScanFault (List α)) : Prop :=
  ∃ xs ys, few = .ok xs ∧ many = .ok ys ∧ xs.Sublist ys

section Listing

variable {o o' : Options} {d : Disk} {root : Path}

/-- A root that exists can be listed. -/
theorem exists_rootNode (h : d.has root = true) : ∃ n, rootNode d root = .ok n := by
  rw [Disk.has] at h
  cases hnode : d.node root with
  | error fault =>
    rw [hnode] at h
    cases h
  | ok n =>
    rcases rootNode_of_node hnode with hroot | ⟨-, target, hroot⟩
    · exact ⟨n, hroot⟩
    · exact ⟨.link target, hroot⟩

theorem isPart_listPaths (h : o.Narrows o') (ho : ∃ f, PathFilter.ofOptions o = .ok f)
    (ho' : ∃ g, PathFilter.ofOptions o' = .ok g) (hroot : d.has root = true) :
    IsPart (listPaths o d root) (listPaths o' d root) := by
  obtain ⟨f, hf⟩ := ho
  obtain ⟨g, hg⟩ := ho'
  obtain ⟨n, hn⟩ := exists_rootNode hroot
  refine ⟨(sourcesOf f root n).map (pathBelow root), (sourcesOf g root n).map (pathBelow root),
    ?_, ?_, (sourcesOf_sublist (narrows_of_options h hf hg) root n).map (pathBelow root)⟩
  · rw [listPaths, listFiles, hf, hn]
    rfl
  · rw [listPaths, listFiles, hg, hn]
    rfl

end Listing

namespace Scanner

variable {σ : Type}

/-- The scanner with other options. -/
def withOptions (sc : Scanner σ) (o : Options) : Scanner σ := { sc with options := o }

/-! ## Scans -/

section Scans

variable {sc : Scanner σ} {o o' : Options} {s : σ} {d : Disk} {root : Path}

/-- The level alone says what is found in a file. -/
theorem plainScan_withOptions (hlevel : o.level = o'.level) :
    (sc.withOptions o).plainScan s d = (sc.withOptions o').plainScan s d := by
  have hreports : (sc.withOptions o).options.reports = (sc.withOptions o').options.reports := by
    funext status
    rw [Options.reports, Options.reports]
    exact congrArg (fun level => level.all (fun l => l.shows status)) hlevel
  have hissues : (sc.withOptions o).plainIssues s = (sc.withOptions o').plainIssues s := by
    funext os
    rw [plainIssues, plainIssues, hreports]
    rfl
  funext path
  rw [plainScan, plainScan, hissues]

theorem projectAfter_withOptions (hpure : ∀ source ∈ sc.sources, source.IsPure) (s : σ)
    (earlier : List Visit) :
    (sc.withOptions o).projectAfter s earlier (fun _ => false) d root =
      (sc.withOptions o).plainProject s (fun _ => false) d root := by
  have hpure' : ∀ source ∈ (sc.withOptions o).sources, source.IsPure := hpure
  exact projectAfter_eq hpure' s earlier (fun _ => false) d root

theorem plainProject_withOptions_of_hasFile (hlevel : o.level = o'.level)
    (hfile : d.hasFile root = true) (cancelled : Nat → Bool) :
    (sc.withOptions o).plainProject s cancelled d root =
      (sc.withOptions o').plainProject s cancelled d root := by
  rw [plainProject_of_hasFile hfile, plainProject_of_hasFile hfile, plainScan_withOptions hlevel]

theorem isPart_plainProject (hpart : IsPart (listPaths o d root) (listPaths o' d root))
    (hlevel : o.level = o'.level) (hroot : d.has root = true) (hfile : d.hasFile root = false) :
    IsPart ((sc.withOptions o).plainProject s (fun _ => false) d root)
      ((sc.withOptions o').plainProject s (fun _ => false) d root) := by
  obtain ⟨few, many, hfew, hmany, hsublist⟩ := hpart
  refine ⟨_, _, plainProject_of_listPaths hroot hfile hfew,
    plainProject_of_listPaths hroot hfile hmany, ?_⟩
  have hfile? : (sc.withOptions o).plainFile? s d = (sc.withOptions o').plainFile? s d := by
    funext path
    rw [← toOption_plainScan, ← toOption_plainScan, plainScan_withOptions hlevel]
  rw [started_never, started_never, hfile?]
  exact hsublist.filterMap _

theorem isPart_projectAfter (hpure : ∀ source ∈ sc.sources, source.IsPure) (h : o.Narrows o')
    (hlevel : o.level = o'.level) (ho : ∃ f, PathFilter.ofOptions o = .ok f)
    (ho' : ∃ g, PathFilter.ofOptions o' = .ok g) (hroot : d.has root = true)
    (hfile : d.hasFile root = false) (earlier earlier' : List Visit) :
    IsPart ((sc.withOptions o).projectAfter s earlier (fun _ => false) d root)
      ((sc.withOptions o').projectAfter s earlier' (fun _ => false) d root) := by
  rw [projectAfter_withOptions hpure, projectAfter_withOptions hpure]
  exact isPart_plainProject (isPart_listPaths h ho ho' hroot) hlevel hroot hfile

end Scans

/-- What a call excludes is excluded besides what the settings exclude. -/
theorem narrows_of_call (call : ScanCall) (user : Settings) :
    (call.settings user).scanOptions.Narrows
      (ScanCall.settings { call with excludes := [] } user).scanOptions := by
  constructor
  · exact List.Subset.refl _
  · show user.excludes ++ [] ⊆ user.excludes ++ call.excludes
    rw [List.append_nil]
    exact List.subset_append_left _ _

/-- With more patterns that must not match, or fewer to match, a listing is a part of
    what it was, in the same order, and so are the results of a scan; a root that is
    a file is scanned whatever the patterns are. Two scans at one level agree on each
    file that both report. So what is excluded on the command line only takes files
    away from those that the user's settings choose. -/
theorem patterns_narrow_scans (sc : Scanner σ) (hpure : ∀ source ∈ sc.sources, source.IsPure)
    (s : σ) {d : Disk} {root : Path} (hroot : d.has root = true) :
    let options := fun includes excludes : List String =>
      { sc.options with includes := includes, excludes := excludes }
    let scanned := fun o earlier =>
      (sc.withOptions o).projectAfter s earlier (fun _ => false) d root
    (∀ I I' E E', I ⊆ I' → E ⊆ E' → (∃ f, PathFilter.ofOptions (options I' E') = .ok f) →
      IsPart (listPaths (options I E') d root) (listPaths (options I E) d root) ∧
      IsPart (listPaths (options I E) d root) (listPaths (options I' E) d root) ∧
      (d.hasFile root = false → ∀ earlier earlier',
        IsPart (scanned (options I E') earlier) (scanned (options I E) earlier') ∧
        IsPart (scanned (options I E) earlier) (scanned (options I' E) earlier'))) ∧
    (∀ o o', o.level = o'.level → ∀ earlier earlier',
      (d.hasFile root = true → scanned o earlier = scanned o' earlier') ∧
      (∀ fs gs, scanned o earlier = .ok fs → scanned o' earlier' = .ok gs →
        ∀ f ∈ fs, ∀ g ∈ gs, f.path = g.path → f.issues = g.issues)) ∧
    (∀ (user : Settings) (call : ScanCall),
      let given := fun excludes =>
        (ScanCall.settings { call with excludes := excludes } user).scanOptions
      (∃ f, PathFilter.ofOptions (given call.excludes) = .ok f) →
      IsPart (listPaths (given call.excludes) d root) (listPaths (given []) d root) ∧
      (d.hasFile root = false → ∀ earlier earlier',
        IsPart (scanned (given call.excludes) earlier) (scanned (given []) earlier'))) := by
  intro options scanned
  refine ⟨?_, ?_, ?_⟩
  · intro I I' E E' hI hE hall
    have hexcludes : (options I E').Narrows (options I E) := ⟨List.Subset.refl I, hE⟩
    have hincludes : (options I E).Narrows (options I' E) := ⟨hI, List.Subset.refl E⟩
    -- all patterns of the three pairs are among those of the widest pair
    have hIE' : ∃ f, PathFilter.ofOptions (options I E') = .ok f :=
      exists_ofOptions hI (List.Subset.refl E') hall
    have hIE : ∃ f, PathFilter.ofOptions (options I E) = .ok f := exists_ofOptions hI hE hall
    have hI'E : ∃ f, PathFilter.ofOptions (options I' E) = .ok f :=
      exists_ofOptions (List.Subset.refl I') hE hall
    refine ⟨isPart_listPaths hexcludes hIE' hIE hroot, isPart_listPaths hincludes hIE hI'E hroot,
      fun hfile earlier earlier' => ⟨?_, ?_⟩⟩
    · exact isPart_projectAfter hpure hexcludes rfl hIE' hIE hroot hfile earlier earlier'
    · exact isPart_projectAfter hpure hincludes rfl hIE hI'E hroot hfile earlier earlier'
  · intro o o' hlevel earlier earlier'
    have hplain : ∀ o earlier, scanned o earlier =
        (sc.withOptions o).plainProject s (fun _ => false) d root := fun o earlier =>
      projectAfter_withOptions hpure s earlier
    refine ⟨?_, ?_⟩
    · intro hfile
      rw [hplain, hplain, plainProject_withOptions_of_hasFile hlevel hfile]
    · intro fs gs hfs hgs f hf g hg hpath
      rw [hplain] at hfs hgs
      have hscanF := plainScan_of_mem_plainProject hfs f hf
      have hscanG := plainScan_of_mem_plainProject hgs g hg
      rw [plainScan_withOptions hlevel, hpath, hscanG] at hscanF
      rw [Except.ok.inj hscanF]
  · intro user call given hgiven
    have hnarrows : (given call.excludes).Narrows (given []) := narrows_of_call call user
    have hincludes : (given []).includes ⊆ (given call.excludes).includes := List.Subset.refl _
    have hplain : ∃ f, PathFilter.ofOptions (given []) = .ok f :=
      exists_ofOptions hincludes hnarrows.excludes hgiven
    exact ⟨isPart_listPaths hnarrows hgiven hplain hroot,
      isPart_projectAfter hpure hnarrows rfl hgiven hplain hroot⟩

/-! ## Three pages and one pattern more -/

/-- The options of a scan for pages, some of them left out. -/
def pagesWithout (excludes : List String) : Options :=
  { includes := ["**/*.html"], excludes := excludes }

/-- With a pattern for two of the three pages there is one page left, and a scan of it
    returns a part of what a scan of all returns; so does that of a scan that looks
    for other files as well. -/
theorem threePages_narrowed :
    listPaths (pagesWithout ["[bc]*"]) threePagesDisk "site" = .ok ["site/a.html"] ∧
    listPaths (pagesWithout []) threePagesDisk "site" =
      .ok ["site/a.html", "site/b.html", "site/c.html"] ∧
    IsPart (listPaths (pagesWithout ["[bc]*"]) threePagesDisk "site")
      (listPaths (pagesWithout []) threePagesDisk "site") ∧
    IsPart
      ((pages.withOptions (pagesWithout ["[bc]*"])).projectAfter () [] (fun _ => false)
        threePagesDisk "site")
      ((pages.withOptions (pagesWithout [])).projectAfter () [.feature "fetch"] (fun _ => false)
        threePagesDisk "site") ∧
    IsPart
      ((pages.withOptions (pagesWithout [])).projectAfter () [] (fun _ => false)
        threePagesDisk "site")
      ((pages.withOptions { includes := ["**/*.html", "**/*.css"], excludes := [] }).projectAfter ()
        [.feature "fetch"] (fun _ => false) threePagesDisk "site") := by
  have hroot : threePagesDisk.has "site" = true := by decide +kernel
  obtain ⟨hnarrow, -, -⟩ := patterns_narrow_scans pages pages_isPure () hroot
  obtain ⟨hlisted, -, hscanned⟩ := hnarrow ["**/*.html"] ["**/*.html", "**/*.css"] [] ["[bc]*"]
    (by simp) (by simp) ⟨_, rfl⟩
  obtain ⟨hexcluded, hincluded⟩ := hscanned (by decide +kernel) [] [.feature "fetch"]
  exact ⟨by decide +kernel, threePages_listed, hlisted, hexcluded, hincluded⟩

end Scanner

end WebBaseline.Scan

/-
  WebBaseline.Proofs.Scan.Order

  The order of a listing, and what a listing depends on.

    * places are in one order only (`inOrder_eq_of_perm`), and it is that of
      their paths below any root (`before_pathBelow_iff`);
    * a walk finds no file twice (`nodup_sourcesAmong`), and the same files in
      the same tree, whatever order directories have their entries in
      (`sourcesAmong_perm`);
    * so a listing is in strict order and, seen from the root, the same wherever
      the tree lies (`listPaths_in_order`).
-/

import WebBaseline.Proofs.Files.Below
import WebBaseline.Proofs.Scan.Listing

namespace WebBaseline.Scan

open WebBaseline.Feature (Language)
open WebBaseline.Files (Disk Node Path Place Step)

/-! ## The order of places -/

theorem placeLE_cons_cons_iff {a b : String} {p q : Place} :
    placeLE (a :: p) (b :: q) = true ↔ a < b ∨ a = b ∧ placeLE p q = true := by
  simp [placeLE]

theorem placeLE_trans {p q r : Place} (hpq : placeLE p q = true) (hqr : placeLE q r = true) :
    placeLE p r = true := by
  induction p generalizing q r with
  | nil => rfl
  | cons a p ih =>
    cases q with
    | nil => cases hpq
    | cons b q =>
      cases r with
      | nil => cases hqr
      | cons c r =>
        rw [placeLE_cons_cons_iff] at hpq hqr ⊢
        rcases hpq with hab | ⟨rfl, hpq⟩
        · rcases hqr with hbc | ⟨rfl, -⟩
          · exact Or.inl (String.lt_trans hab hbc)
          · exact Or.inl hab
        · rcases hqr with hbc | ⟨rfl, hqr⟩
          · exact Or.inl hbc
          · exact Or.inr ⟨rfl, ih hpq hqr⟩

theorem placeLE_total (p q : Place) : placeLE p q = true ∨ placeLE q p = true := by
  induction p generalizing q with
  | nil => exact Or.inl rfl
  | cons a p ih =>
    cases q with
    | nil => exact Or.inr rfl
    | cons b q =>
      rw [placeLE_cons_cons_iff, placeLE_cons_cons_iff]
      by_cases hab : a < b
      · exact Or.inl (Or.inl hab)
      · by_cases heq : a = b
        · subst heq
          exact (ih q).imp (fun h => Or.inr ⟨rfl, h⟩) (fun h => Or.inr ⟨rfl, h⟩)
        · exact Or.inr (Or.inl (Data.KeyMap.lt_of_not_lt_of_ne hab heq))

theorem placeLE_antisymm {p q : Place} (hpq : placeLE p q = true) (hqp : placeLE q p = true) :
    p = q := by
  induction p generalizing q with
  | nil =>
    cases q with
    | nil => rfl
    | cons b q => cases hqp
  | cons a p ih =>
    cases q with
    | nil => cases hpq
    | cons b q =>
      rw [placeLE_cons_cons_iff] at hpq hqp
      rcases hpq with hab | ⟨rfl, hpq⟩
      · rcases hqp with hba | ⟨rfl, -⟩
        · exact absurd hba (String.lt_asymm hab)
        · exact absurd hab (String.lt_irrefl _)
      · rcases hqp with haa | ⟨-, hqp⟩
        · exact absurd haa (String.lt_irrefl _)
        · rw [ih hpq hqp]

theorem pairwise_inOrder (places : List Place) :
    (inOrder places).Pairwise (fun p q => placeLE p q = true) := by
  have htrans : ∀ p q r, placeLE p q = true → placeLE q r = true → placeLE p r = true :=
    fun _ _ _ => placeLE_trans
  have htotal : ∀ p q, (placeLE p q || placeLE q p) = true := by
    intro p q
    rw [Bool.or_eq_true]
    exact placeLE_total p q
  exact List.pairwise_mergeSort htrans htotal places

/-- There is one order for the same places. -/
theorem inOrder_eq_of_perm {ps qs : List Place} (h : ps.Perm qs) : inOrder ps = inOrder qs := by
  have hperm : (inOrder ps).Perm (inOrder qs) :=
    (List.mergeSort_perm ps placeLE).trans (h.trans (List.mergeSort_perm qs placeLE).symm)
  exact hperm.eq_of_pairwise (fun p q _ _ hpq hqp => placeLE_antisymm hpq hqp)
    (pairwise_inOrder ps) (pairwise_inOrder qs)

/-! ## Paths of places -/

section Below

variable {root : Path} (hroot : root ≠ "") {p q : Place}

/-- The steps of the text of a place are its names. -/
theorem steps_placeText (hp : p ≠ []) (hnames : ∀ name ∈ p, Path.IsName name) :
    (Path.pieces (placeText p).toList).filterMap Path.stepOf? = p.map Step.name := by
  rw [pieces_placeText hp hnames, List.filterMap_map]
  clear hp
  induction p with
  | nil => rfl
  | cons a p ih =>
    obtain ⟨ha, hrest⟩ := List.forall_mem_cons.1 hnames
    have hstep : (Path.stepOf? ∘ String.toList) a = some (Step.name a) := Path.stepOf?_of_isName ha
    rw [List.filterMap_cons, hstep, List.map_cons]
    exact congrArg (_ :: ·) (ih hrest)

/-- Names compare step by step as they do name by name. -/
theorem stepsBefore_names_iff (p q : Place) :
    Path.stepsBefore (p.map Step.name) (q.map Step.name) = true ↔ placeLE p q = true ∧ p ≠ q := by
  induction p generalizing q with
  | nil =>
    cases q with
    | nil => simp [Path.stepsBefore]
    | cons b q => simp [Path.stepsBefore, placeLE]
  | cons a p ih =>
    cases q with
    | nil => simp [Path.stepsBefore, placeLE]
    | cons b q =>
      have hhead : (Step.name a).before (.name b) = true ↔ a < b := by simp [Step.before]
      rw [List.map_cons, List.map_cons, Path.stepsBefore, Bool.or_eq_true, Bool.and_eq_true, hhead,
        ih, placeLE_cons_cons_iff, beq_iff_eq, Step.name.injEq]
      constructor
      · rintro (hab | ⟨rfl, hle, hne⟩)
        · refine ⟨Or.inl hab, ?_⟩
          rintro heq
          obtain ⟨rfl, -⟩ := List.cons.inj heq
          exact String.lt_irrefl _ hab
        · exact ⟨Or.inr ⟨rfl, hle⟩, fun heq => hne (List.cons.inj heq).2⟩
      · rintro ⟨hab | ⟨rfl, hle⟩, hne⟩
        · exact Or.inl hab
        · exact Or.inr ⟨rfl, hle, fun heq => hne (heq ▸ rfl)⟩

include hroot

/-- The paths of places below a root are in the order of the places. -/
theorem before_pathBelow_iff (hp : p ≠ []) (hq : q ≠ []) (hpn : ∀ name ∈ p, Path.IsName name)
    (hqn : ∀ name ∈ q, Path.IsName name) :
    Path.before (pathBelow root p) (pathBelow root q) = true ↔ placeLE p q = true ∧ p ≠ q := by
  rw [pathBelow_of_ne_nil root hp, pathBelow_of_ne_nil root hq, Path.before_entry hroot,
    steps_placeText hp hpn, steps_placeText hq hqn]
  exact stepsBefore_names_iff p q

/-- The path of a place below a root, seen from the root, is the text of the
    place. -/
theorem below?_pathBelow (hp : p ≠ []) (hnames : ∀ name ∈ p, Path.IsName name) :
    Path.below? root (pathBelow root p) = some (placeText p) := by
  have hsteps : ∀ cs ∈ Path.pieces (placeText p).toList, Path.isIdle cs = false := by
    rw [pieces_placeText hp hnames]
    intro cs hcs
    obtain ⟨name, hname, rfl⟩ := List.mem_map.1 hcs
    rw [Path.isIdle, Path.stepOf?_of_isName (hnames name hname)]
    rfl
  rw [pathBelow_of_ne_nil root hp]
  exact Path.below?_entry hroot hsteps

end Below

/-! ## Files that a walk finds -/

mutual

/-- A walk finds no file twice. -/
theorem nodup_sourcesIn (f : PathFilter) (p : Place) (n : Node) (hn : n.wellNamed = true) :
    (sourcesIn f p n).Nodup := by
  cases n with
  | file content written =>
    rw [sourcesIn]
    split
    · exact List.pairwise_singleton _ p
    · exact List.nodup_nil
  | link target =>
    rw [sourcesIn]
    exact List.nodup_nil
  | directory es => exact nodup_sourcesAmong f p es hn

theorem nodup_sourcesAmong (f : PathFilter) (p : Place) (es : List (String × Node))
    (hes : Node.wellNamedAmong es = true) : (sourcesAmong f p es).Nodup := by
  cases es with
  | nil =>
    rw [sourcesAmong]
    exact List.nodup_nil
  | cons e rest =>
    obtain ⟨name, n⟩ := e
    obtain ⟨-, hfresh, hn, hrest⟩ := Node.wellNamedAmong_cons_iff.1 hes
    have ihn := nodup_sourcesIn f (p ++ [name]) n hn
    have ihrest := nodup_sourcesAmong f p rest hrest
    -- each part has no duplicates, so only the two together are left to look at
    rw [sourcesAmong, List.nodup_append]
    refine ⟨?_, ihrest, ?_⟩
    · split
      · exact List.nodup_nil
      · exact ihn
    · -- what lies behind the first entry does not lie behind another one
      rintro q hq _ hq' rfl
      have hfirst : q ∈ sourcesIn f (p ++ [name]) n := by
        split at hq
        · cases hq
        · exact hq
      obtain ⟨r, hqr, -⟩ := (mem_sourcesIn_iff f (p ++ [name]) n hn q).1 hfirst
      obtain ⟨r', hqr', hreached⟩ := (mem_sourcesAmong_iff f p rest hrest q).1 hq'
      have hr' : r' = name :: r := by
        rw [hqr, List.append_assoc, List.singleton_append] at hqr'
        exact (List.append_cancel_left hqr').symm
      exact not_reached_fresh hfresh (hr' ▸ hreached)

end

section SameTree

variable {es fs : List (String × Node)}

theorem reached_iff_of_sameTree {f : PathFilter} {p r : Place} {t u : Node}
    (hsame : Node.SameTree t u) (ht : t.wellNamed = true) : Reached f p t r ↔ Reached f p u r :=
  ⟨fun h => ⟨(hsame.exists_file_iff ht r).1 h.file, h.source, h.kept⟩,
    fun h => ⟨(hsame.exists_file_iff ht r).2 h.file, h.source, h.kept⟩⟩

/-- A walk finds the same files in the same tree. -/
theorem sourcesAmong_perm (f : PathFilter) (p : Place) (hes : Node.wellNamedAmong es = true)
    (hfs : Node.wellNamedAmong fs = true)
    (hsame : Node.SameTree (.directory es) (.directory fs)) :
    (sourcesAmong f p es).Perm (sourcesAmong f p fs) := by
  -- without duplicates it is enough that both walks find the same places
  have hmem : ∀ q, q ∈ sourcesAmong f p es ↔ q ∈ sourcesAmong f p fs := by
    intro q
    have ht : (Node.directory es).wellNamed = true := hes
    rw [mem_sourcesAmong_iff f p es hes, mem_sourcesAmong_iff f p fs hfs]
    simp only [reached_iff_of_sameTree hsame ht]
  exact (List.perm_ext_iff_of_nodup (nodup_sourcesAmong f p es hes)
    (nodup_sourcesAmong f p fs hfs)).2 hmem

end SameTree

/-! ## Listings -/

section Listing

variable {f : PathFilter} {root : Path} {es : List (String × Node)}

theorem reached_of_mem_inOrder (hes : Node.wellNamedAmong es = true) {r : Place}
    (h : r ∈ inOrder (sourcesAmong f [] es)) : Reached f [] (.directory es) r := by
  rw [inOrder, List.mem_mergeSort, mem_sourcesAmong_iff f [] es hes] at h
  obtain ⟨r', rfl, hreached⟩ := h
  exact hreached

theorem Reached.isName {r : Place} (h : Reached f [] (.directory es) r)
    (hes : Node.wellNamedAmong es = true) : ∀ name ∈ r, Path.IsName name := by
  obtain ⟨content, written, hfile⟩ := h.file
  have hwell : (Node.directory es).wellNamed = true := hes
  exact Node.isName_of_at? hwell hfile

/-- The files of a listing come one before the other. -/
theorem pairwise_before (hroot : root ≠ "") (hes : Node.wellNamedAmong es = true) :
    ((inOrder (sourcesAmong f [] es)).map (pathBelow root)).Pairwise
      (fun a b => Path.before a b = true) := by
  have hnodup : (inOrder (sourcesAmong f [] es)).Nodup :=
    (List.mergeSort_perm _ placeLE).nodup_iff.2 (nodup_sourcesAmong f [] es hes)
  rw [List.pairwise_map]
  -- places in order that are all different are in strict order
  refine (List.Pairwise.and (pairwise_inOrder (sourcesAmong f [] es)) hnodup).imp_of_mem ?_
  intro p q hp hq hpq
  have hp' := reached_of_mem_inOrder hes hp
  have hq' := reached_of_mem_inOrder hes hq
  exact (before_pathBelow_iff hroot hp'.ne_nil hq'.ne_nil (hp'.isName hes) (hq'.isName hes)).2 hpq

/-- The paths of a listing, seen from its root, are the texts of the places. -/
theorem map_below?_listed (hroot : root ≠ "") (hes : Node.wellNamedAmong es = true) :
    ((inOrder (sourcesAmong f [] es)).map (pathBelow root)).map (Path.below? root) =
      (inOrder (sourcesAmong f [] es)).map (fun p => some (placeText p)) := by
  rw [List.map_map]
  refine List.map_congr_left (fun p hp => ?_)
  have hp' := reached_of_mem_inOrder hes hp
  exact below?_pathBelow hroot hp'.ne_nil (hp'.isName hes)

/-- Whether a path below a root is that of a file which the patterns choose and
    whose language is known, in directories that no pattern excludes; patterns
    are for paths seen from the root. -/
structure IsChosen (f : PathFilter) (root : Path) (es : List (String × Node)) (path : Path) :
    Prop where
  file : ∃ r content written, r ≠ [] ∧ path = pathBelow root r ∧
    (Node.directory es).at? r = some (.file content written) ∧
    (∀ a b, r = a ++ b → a ≠ [] → b ≠ [] → ∃ dir, Path.below? root (pathBelow root a) = some dir ∧
      Glob.anyMatches f.excludes dir = false)
  accepted : ∃ rest, Path.below? root path = some rest ∧
    Glob.anyMatches f.includes rest = true ∧ Glob.anyMatches f.excludes rest = false
  language : (Language.ofPath? path).isSome = true

theorem Reached.isChosen {d : Disk} (hroot : d.node root = .ok (.directory es))
    (hes : Node.wellNamedAmong es = true) {r : Place} (h : Reached f [] (.directory es) r) :
    IsChosen f root es (pathBelow root r) := by
  have hne := Disk.ne_empty_of_node hroot
  have hnames := h.isName hes
  obtain ⟨content, written, hfile⟩ := h.file
  have hlisted : pathBelow root r ∈ (inOrder (sourcesAmong f [] es)).map (pathBelow root) :=
    (pathBelow_mem_iff hes hfile h.ne_nil).2 h
  have haccepts : f.accepts (placeText r) = true := (Bool.and_eq_true_iff.1 h.source).1
  rw [PathFilter.accepts, Bool.and_eq_true, Bool.not_eq_true'] at haccepts
  refine ⟨⟨r, content, written, h.ne_nil, rfl, hfile, ?_⟩, ?_, language_of_listed hroot hes hlisted⟩
  · intro a b hab ha hb
    have hkept := h.kept a b hab ha hb
    rw [List.nil_append, PathFilter.prunes, Bool.or_eq_false_iff] at hkept
    have hnamesA : ∀ name ∈ a, Path.IsName name := by
      intro name hname
      apply hnames name
      rw [hab]
      exact List.mem_append_left b hname
    exact ⟨placeText a, below?_pathBelow hne ha hnamesA, hkept.1⟩
  · exact ⟨placeText r, below?_pathBelow hne h.ne_nil hnames, haccepts⟩

/-- A listing is in strict order and holds chosen files only; and of the same tree
    there is the same listing, seen from the root, wherever the tree lies and
    whatever order its directories have their entries in. -/
theorem listPaths_in_order {o : Options} {d : Disk} (hf : PathFilter.ofOptions o = .ok f)
    (hroot : d.node root = .ok (.directory es)) (hes : Node.wellNamedAmong es = true) :
    ∃ paths, listPaths o d root = .ok paths ∧
      paths.Pairwise (fun a b => Path.before a b = true) ∧
      (∀ path ∈ paths, IsChosen f root es path) ∧
      ∀ d' root' fs, Disk.node d' root' = .ok (.directory fs) → Node.wellNamedAmong fs = true →
        Node.SameTree (.directory es) (.directory fs) →
        ∃ paths', listPaths o d' root' = .ok paths' ∧
          paths'.map (Path.below? root') = paths.map (Path.below? root) := by
  have hne := Disk.ne_empty_of_node hroot
  refine ⟨_, listPaths_of_directory hf hroot, pairwise_before hne hes, ?_, ?_⟩
  · intro path hpath
    obtain ⟨r, hr, rfl⟩ := List.mem_map.1 hpath
    exact (reached_of_mem_inOrder hes hr).isChosen hroot hes
  · -- both listings, seen from their roots, are the same places in order
    intro d' root' fs hroot' hfs hsame
    refine ⟨_, listPaths_of_directory hf hroot', ?_⟩
    have hsources := sourcesAmong_perm f [] hes hfs hsame
    rw [map_below?_listed hne hes, map_below?_listed (Disk.ne_empty_of_node hroot') hfs,
      inOrder_eq_of_perm hsources]

end Listing

/-! ## A tree at two places -/

/-- A directory with scripts, some of them in a directory that is not looked at. -/
def site : List (String × Node) :=
  [("src", .directory [("b.js", .file ByteArray.empty 0), ("a.js", .file ByteArray.empty 0)]),
    ("build", .directory [("out.js", .file ByteArray.empty 0)])]

/-- The same directory, read in another order at another time. -/
def siteReordered : List (String × Node) :=
  [("build", .directory [("out.js", .file ByteArray.empty 5)]),
    ("src", .directory [("a.js", .file ByteArray.empty 7), ("b.js", .file ByteArray.empty 7)])]

/-- A disk with both, one of them in a directory whose name is excluded. -/
def siteDisk : Disk :=
  { top := .directory [("build", .directory [("site", .directory site)]),
      ("copy", .directory siteReordered)] }

theorem site_sameTree : Node.SameTree (.directory site) (.directory siteReordered) := by
  have hout : Node.SameTree (.directory [("out.js", .file ByteArray.empty 0)])
      (.directory [("out.js", .file ByteArray.empty 5)]) :=
    ⟨[("out.js", .file ByteArray.empty 5)], ⟨rfl, rfl, trivial⟩, List.Perm.refl _⟩
  have hsrc : Node.SameTree
      (.directory [("b.js", .file ByteArray.empty 0), ("a.js", .file ByteArray.empty 0)])
      (.directory [("a.js", .file ByteArray.empty 7), ("b.js", .file ByteArray.empty 7)]) :=
    ⟨[("b.js", .file ByteArray.empty 7), ("a.js", .file ByteArray.empty 7)],
      ⟨rfl, rfl, rfl, rfl, trivial⟩, List.Perm.swap _ _ _⟩
  have hentries : Node.SameEntries site siteReordered.reverse :=
    ⟨rfl, hsrc, rfl, hout, trivial⟩
  exact ⟨siteReordered.reverse, hentries, List.reverse_perm siteReordered⟩

/-- The listing of a root in an excluded directory, and of a copy elsewhere. -/
theorem site_listed_in_order : ∃ f paths,
    PathFilter.ofOptions (scriptsWithout "**/build/**") = .ok f ∧
    listPaths (scriptsWithout "**/build/**") siteDisk "build/site" = .ok paths ∧
    paths.Pairwise (fun a b => Path.before a b = true) ∧
    (∀ path ∈ paths, IsChosen f "build/site" site path) ∧
    ∃ paths', listPaths (scriptsWithout "**/build/**") siteDisk "copy" = .ok paths' ∧
      paths'.map (Path.below? "copy") = paths.map (Path.below? "build/site") := by
  have hf : PathFilter.ofOptions (scriptsWithout "**/build/**") =
      .ok ⟨[⟨[.deepFront, .star, .literal '.', .literal 'j', .literal 's']⟩],
        [⟨[.deepFront, .literal 'b', .literal 'u', .literal 'i', .literal 'l', .literal 'd',
          .deepEnd]⟩]⟩ := rfl
  have hroot : siteDisk.node "build/site" = .ok (.directory site) := rfl
  obtain ⟨paths, hpaths, hordered, hchosen, hsame⟩ := listPaths_in_order hf hroot (by decide)
  exact ⟨_, paths, hf, hpaths, hordered, hchosen,
    hsame siteDisk "copy" siteReordered rfl (by decide) site_sameTree⟩

end WebBaseline.Scan

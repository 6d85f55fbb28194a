/-
  WebBaseline.Proofs.Scan.Listing

  Which files of a tree a listing holds.

    * `Reached` says of a file what the walk through the tree asks of it: that
      it is a source, and that no directory around it is pruned;
    * the walk finds exactly these files (`mem_sourcesAmong_iff`).

  A directory is pruned for its own path or for the path of an entry `*` in it.
  No entry has to have that name, so a pattern for other entries may prune a
  directory with files that no pattern excludes; `mem_listPaths_iff` says when.
-/

import WebBaseline.Proofs.Files.Entry
import WebBaseline.Scan.Listing

namespace WebBaseline.Scan

open WebBaseline.Data (KeyMap)
open WebBaseline.Feature (Language)
open WebBaseline.Files (Disk Node Path Place)

/-! ## Places as texts -/

/-- The pieces of the text of a place are its names. -/
theorem pieces_placeText {p : Place} (hp : p ≠ []) (hnames : ∀ name ∈ p, Path.IsName name) :
    Path.pieces (placeText p).toList = p.map String.toList := by
  induction p with
  | nil => exact absurd rfl hp
  | cons a rest ih =>
    have ha := Path.pieces_of_no_slash (hnames a List.mem_cons_self).no_slash
    cases rest with
    | nil => rw [placeText, String.intercalate_singleton, ha, List.map_singleton]
    | cons b rest =>
      have hrest := ih (by simp) (fun name hname => hnames name (List.mem_cons_of_mem a hname))
      have htext : (placeText (a :: b :: rest)).toList =
          a.toList ++ '/' :: (placeText (b :: rest)).toList := by
        rw [placeText, String.intercalate_cons_cons]
        simp [placeText]
      rw [htext, Path.pieces_append_slash, ha, hrest]
      rfl

theorem pathBelow_of_ne_nil (root : Path) {p : Place} (hp : p ≠ []) :
    pathBelow root p = Path.entry root (placeText p) := by
  cases p with
  | nil => exact absurd rfl hp
  | cons a rest => rfl

theorem entry_injective {root : Path} {a b : String} (h : Path.entry root a = Path.entry root b) :
    a = b := by
  have hlist := congrArg String.toList h
  rw [Path.entry, Path.entry] at hlist
  split at hlist
  · exact String.toList_injective (by simpa using hlist)
  · exact String.toList_injective (by simpa using hlist)

/-- Different places below a root have different paths. -/
theorem pathBelow_injective (root : Path) {p q : Place} (hp : p ≠ []) (hq : q ≠ [])
    (hpn : ∀ name ∈ p, Path.IsName name) (hqn : ∀ name ∈ q, Path.IsName name)
    (h : pathBelow root p = pathBelow root q) : p = q := by
  rw [pathBelow_of_ne_nil root hp, pathBelow_of_ne_nil root hq] at h
  have htext := congrArg (fun text => Path.pieces text.toList) (entry_injective h)
  simp only [pieces_placeText hp hpn, pieces_placeText hq hqn] at htext
  exact (List.map_inj_right (fun _ _ => String.toList_injective)).1 htext

/-! ## Files that a walk reaches -/

/-- A file at a place below an entry that is found at `p`; it is a source, and
    no directory between is pruned. -/
structure Reached (f : PathFilter) (p : Place) (n : Node) (r : Place) : Prop where
  file : ∃ content written, n.at? r = some (.file content written)
  source : isSource f (p ++ r) = true
  kept : ∀ a b, r = a ++ b → a ≠ [] → b ≠ [] → f.prunes (placeText (p ++ a)) = false

section Reached

variable {f : PathFilter} {p r : Place} {name : String} {n : Node}
  {rest : List (String × Node)}

/-- No file lies at the place of a directory. -/
theorem Reached.ne_nil (h : Reached f p (.directory rest) r) : r ≠ [] := by
  rintro rfl
  obtain ⟨content, written, hfile⟩ := h.file
  cases hfile

theorem reached_file_iff {content : ByteArray} {written : Nat} :
    Reached f p (.file content written) r ↔ r = [] ∧ isSource f p = true := by
  constructor
  · rintro ⟨⟨c, w, hfile⟩, hsource, -⟩
    cases r with
    | nil => exact ⟨rfl, by simpa using hsource⟩
    | cons a r => cases hfile
  · rintro ⟨rfl, hsource⟩
    refine ⟨⟨content, written, rfl⟩, by simpa using hsource, ?_⟩
    intro a b h ha hb
    exact absurd (List.append_eq_nil_iff.1 h.symm).1 ha

theorem not_reached_link {target : Path} : ¬ Reached f p (.link target) r := by
  rintro ⟨⟨c, w, hfile⟩, -, -⟩
  cases r with
  | nil => cases hfile
  | cons a r => cases hfile

/-- No file lies behind a name that a directory does not have. -/
theorem not_reached_fresh (hfresh : rest.lookup name = none) :
    ¬ Reached f p (.directory rest) (name :: r) := by
  rintro ⟨⟨c, w, hfile⟩, -, -⟩
  rw [Node.at?_directory_cons, hfresh] at hfile
  cases hfile

/-- A file behind the first entry of a directory. -/
theorem reached_head_iff :
    Reached f p (.directory ((name, n) :: rest)) (name :: r) ↔
      (n.isDirectory && f.prunes (placeText (p ++ [name]))) = false ∧
        Reached f (p ++ [name]) n r := by
  have hat : (Node.directory ((name, n) :: rest)).at? (name :: r) = n.at? r := by
    rw [Node.at?_directory_cons, KeyMap.lookup_cons_self, Option.bind_some]
  have hplace : p ++ name :: r = p ++ [name] ++ r := by simp
  constructor
  · rintro ⟨⟨content, written, hfile⟩, hsource, hkept⟩
    rw [hat] at hfile
    rw [hplace] at hsource
    refine ⟨?_, ⟨content, written, hfile⟩, hsource, ?_⟩
    · cases r with
      | nil =>
        cases hfile
        rfl
      | cons a r => rw [hkept [name] (a :: r) rfl (by simp) (by simp), Bool.and_false]
    · intro a b hr ha hb
      have hkept' := hkept (name :: a) b (by rw [hr, List.cons_append]) (by simp) hb
      rw [List.append_assoc]
      exact hkept'
  · rintro ⟨hroom, ⟨content, written, hfile⟩, hsource, hkept⟩
    refine ⟨⟨content, written, hat ▸ hfile⟩, hplace ▸ hsource, ?_⟩
    intro a b hr ha hb
    obtain ⟨c, a', rfl⟩ := List.exists_cons_of_ne_nil ha
    obtain ⟨rfl, hr'⟩ := List.cons.inj hr
    by_cases ha' : a' = []
    · subst ha'
      -- more than the entry lies between, so the entry is a directory
      replace hr' : r = b := hr'
      subst hr'
      obtain ⟨x, r', rfl⟩ := List.exists_cons_of_ne_nil hb
      obtain ⟨es, -, rfl, -⟩ := Node.exists_of_at?_cons hfile
      simpa [Node.isDirectory] using hroom
    · have hkept' := hkept a' b hr' ha' hb
      rw [List.append_assoc] at hkept'
      exact hkept'

/-- A file behind another entry of a directory. -/
theorem reached_tail_iff {other : String} (hne : other ≠ name) :
    Reached f p (.directory ((name, n) :: rest)) (other :: r) ↔
      Reached f p (.directory rest) (other :: r) := by
  have hat : (Node.directory ((name, n) :: rest)).at? (other :: r) =
      (Node.directory rest).at? (other :: r) := by
    rw [Node.at?_directory_cons, Node.at?_directory_cons, KeyMap.lookup_cons_eq_ite, if_neg hne]
  constructor
  · rintro ⟨hfile, hsource, hkept⟩
    exact ⟨hat ▸ hfile, hsource, hkept⟩
  · rintro ⟨hfile, hsource, hkept⟩
    exact ⟨hat.symm ▸ hfile, hsource, hkept⟩

end Reached

mutual

/-- A walk finds the files that it reaches. -/
theorem mem_sourcesIn_iff (f : PathFilter) (p : Place) (n : Node) (hn : n.wellNamed = true)
    (q : Place) : q ∈ sourcesIn f p n ↔ ∃ r, q = p ++ r ∧ Reached f p n r := by
  cases n with
  | file content written =>
    rw [sourcesIn]
    constructor
    · intro h
      split at h
      · next hsource =>
        obtain rfl := List.mem_singleton.1 h
        exact ⟨[], by simp, reached_file_iff.2 ⟨rfl, by simpa using hsource⟩⟩
      · cases h
    · rintro ⟨r, rfl, hr⟩
      obtain ⟨rfl, hsource⟩ := reached_file_iff.1 hr
      rw [List.append_nil, if_pos hsource]
      exact List.mem_singleton_self p
  | link target =>
    rw [sourcesIn]
    constructor
    · intro h
      cases h
    · rintro ⟨r, -, hr⟩
      exact absurd hr not_reached_link
  | directory es => exact mem_sourcesAmong_iff f p es hn q

theorem mem_sourcesAmong_iff (f : PathFilter) (p : Place) (es : List (String × Node))
    (hes : Node.wellNamedAmong es = true) (q : Place) :
    q ∈ sourcesAmong f p es ↔ ∃ r, q = p ++ r ∧ Reached f p (.directory es) r := by
  cases es with
  | nil =>
    rw [sourcesAmong]
    constructor
    · intro h
      cases h
    · rintro ⟨r, -, hr⟩
      obtain ⟨a, r, rfl⟩ := List.exists_cons_of_ne_nil hr.ne_nil
      exact absurd hr (not_reached_fresh rfl)
  | cons e rest =>
    obtain ⟨name, n⟩ := e
    obtain ⟨-, hfresh, hn, hrest⟩ := Node.wellNamedAmong_cons_iff.1 hes
    have ihn := mem_sourcesIn_iff f (p ++ [name]) n hn q
    have ihrest := mem_sourcesAmong_iff f p rest hrest q
    rw [sourcesAmong, List.mem_append, ihrest]
    -- a file lies behind the first entry, or else behind another one
    constructor
    · rintro (hq | ⟨r, hq, hr⟩)
      · split at hq
        · cases hq
        · next hroom =>
          obtain ⟨r, rfl, hr⟩ := ihn.1 hq
          exact ⟨name :: r, by simp, reached_head_iff.2 ⟨by simpa using hroom, hr⟩⟩
      · obtain ⟨a, r, rfl⟩ := List.exists_cons_of_ne_nil hr.ne_nil
        refine ⟨a :: r, hq, (reached_tail_iff ?_).2 hr⟩
        rintro rfl
        exact not_reached_fresh hfresh hr
    · rintro ⟨r, rfl, hr⟩
      obtain ⟨a, r, rfl⟩ := List.exists_cons_of_ne_nil hr.ne_nil
      by_cases ha : a = name
      · subst ha
        obtain ⟨hroom, hr⟩ := reached_head_iff.1 hr
        refine Or.inl ?_
        rw [hroom, if_neg Bool.false_ne_true]
        exact ihn.2 ⟨r, by simp, hr⟩
      · exact Or.inr ⟨a :: r, rfl, (reached_tail_iff ha).1 hr⟩

end

/-! ## Listings -/

/-- The root of a scan is what its path leads to, or else a link to something that is
    no directory. -/
theorem rootNode_of_node {d : Disk} {root : Path} {n : Node} (h : d.node root = .ok n) :
    rootNode d root = .ok n ∨
      n.isDirectory = false ∧ ∃ target, rootNode d root = .ok (.link target) := by
  obtain ⟨p, hplace, hat⟩ := Disk.node_eq_ok_iff.1 h
  obtain ⟨hok, hwalk⟩ := Disk.place_eq_ok_iff.1 hplace
  -- the way is gone first without following a link at its end
  obtain ⟨r, hr, hcase⟩ := Files.walk_unfollowed hwalk
  have hunfollowed : d.place false root = .ok r := Disk.place_eq_ok_iff.2 ⟨hok, hr⟩
  have hlink : ∀ target, d.nodeAt r = .ok (.link target) →
      rootNode d root = .ok n ∨
        n.isDirectory = false ∧ ∃ target, rootNode d root = .ok (.link target) := by
    intro target hnode
    -- the root is a link, so the way is gone once more
    rw [rootNode, hunfollowed]
    simp only [Except.bind, hnode, h]
    cases n with
    | directory es => exact Or.inl rfl
    | file content written => exact Or.inr ⟨rfl, target, rfl⟩
    | link other => exact Or.inr ⟨rfl, target, rfl⟩
  rcases hcase with rfl | ⟨target, hat'⟩
  · have hnode : d.nodeAt r = .ok n := by rw [Disk.nodeAt, hat]
    cases n with
    | link target => exact hlink target hnode
    | file content written =>
      rw [rootNode, hunfollowed]
      simp only [Except.bind, hnode]
      exact Or.inl rfl
    | directory es =>
      rw [rootNode, hunfollowed]
      simp only [Except.bind, hnode]
      exact Or.inl rfl
  · exact hlink target (by rw [Disk.nodeAt, hat'])

/-- The root of a scan is the directory that its path leads to, through links. -/
theorem rootNode_of_directory {d : Disk} {root : Path} {es : List (String × Node)}
    (h : d.node root = .ok (.directory es)) : rootNode d root = .ok (.directory es) := by
  rcases rootNode_of_node h with hroot | ⟨hno, -⟩
  · exact hroot
  · cases hno

/-- The path of a file below a root has the extension of its name. -/
theorem extension?_pathBelow {root : Path} (hroot : root ≠ "") {dirs : Place} {name : String}
    (hnames : ∀ a ∈ dirs ++ [name], Path.IsName a) :
    Path.extension? (pathBelow root (dirs ++ [name])) = (Path.splitName name).2 := by
  have hne : dirs ++ [name] ≠ [] := by simp
  obtain ⟨cs, hentry, -⟩ := Path.toList_entry hroot (placeText (dirs ++ [name]))
  have hbelow : Path.pieces (pathBelow root (dirs ++ [name])).toList =
      (Path.pieces cs ++ dirs.map String.toList) ++ [name.toList] := by
    rw [pathBelow_of_ne_nil root hne, hentry, Path.pieces_append_slash,
      pieces_placeText hne hnames]
    simp
  exact Path.extension?_of_pieces (hnames name (by simp)) hbelow

/-- The path of a file below a root has the language of its name. -/
theorem ofPath?_pathBelow {root : Path} (hroot : root ≠ "") {dirs : Place} {name : String}
    (hnames : ∀ a ∈ dirs ++ [name], Path.IsName a) :
    Language.ofPath? (pathBelow root (dirs ++ [name])) = Language.ofPath? name := by
  rw [Language.ofPath?, Language.ofPath?, extension?_pathBelow hroot hnames,
    Path.extension?_of_isName (hnames name (by simp))]

section Listing

variable {o : Options} {f : PathFilter} {d : Disk} {root : Path} {es : List (String × Node)}

theorem listPaths_of_directory (hf : PathFilter.ofOptions o = .ok f)
    (hroot : d.node root = .ok (.directory es)) :
    listPaths o d root = .ok ((inOrder (sourcesAmong f [] es)).map (pathBelow root)) := by
  rw [listPaths, listFiles, hf, rootNode_of_directory hroot]
  rfl

/-- A listing holds the path of a file exactly if the walk reaches the file. -/
theorem pathBelow_mem_iff (hes : Node.wellNamedAmong es = true) {r : Place} {n : Node}
    (hr : (Node.directory es).at? r = some n) (hne : r ≠ []) :
    pathBelow root r ∈ (inOrder (sourcesAmong f [] es)).map (pathBelow root) ↔
      Reached f [] (.directory es) r := by
  have hwell : (Node.directory es).wellNamed = true := hes
  rw [List.mem_map]
  constructor
  · rintro ⟨q, hq, hpath⟩
    rw [inOrder, List.mem_mergeSort, mem_sourcesAmong_iff f [] es hes] at hq
    obtain ⟨q', rfl, hreached⟩ := hq
    obtain ⟨content, written, hfile⟩ := hreached.file
    have heq := pathBelow_injective root hreached.ne_nil hne
      (Node.isName_of_at? hwell hfile) (Node.isName_of_at? hwell hr) hpath
    exact heq ▸ hreached
  · intro hreached
    refine ⟨r, ?_, rfl⟩
    rw [inOrder, List.mem_mergeSort, mem_sourcesAmong_iff f [] es hes]
    exact ⟨r, rfl, hreached⟩

/-- The language of every listed file is known by its path. -/
theorem language_of_listed (hroot : d.node root = .ok (.directory es))
    (hes : Node.wellNamedAmong es = true) {path : Path}
    (hpath : path ∈ (inOrder (sourcesAmong f [] es)).map (pathBelow root)) :
    (Language.ofPath? path).isSome = true := by
  have hwell : (Node.directory es).wellNamed = true := hes
  obtain ⟨r, hr, rfl⟩ := List.mem_map.1 hpath
  rw [inOrder, List.mem_mergeSort, mem_sourcesAmong_iff f [] es hes] at hr
  obtain ⟨r, rfl, hreached⟩ := hr
  obtain ⟨content, written, hfile⟩ := hreached.file
  obtain ⟨dirs, name, rfl⟩ := List.eq_nil_or_concat r |>.resolve_left hreached.ne_nil
  have hsource := hreached.source
  rw [List.concat_eq_append] at hfile hsource ⊢
  rw [List.nil_append, isSource, Bool.and_eq_true, List.getLast?_concat] at hsource
  rw [ofPath?_pathBelow (Disk.ne_empty_of_node hroot)
    (Node.isName_of_at? hwell hfile)]
  exact hsource.2

/-- A file that the patterns choose, in directories that no pattern excludes, is
    listed exactly if no pattern excludes an entry `*` of one of these
    directories either. -/
theorem mem_listPaths_iff_of_no_directory_excluded (hf : PathFilter.ofOptions o = .ok f)
    (hroot : d.node root = .ok (.directory es)) (hes : Node.wellNamedAmong es = true)
    {dirs : Place} {name : String} {content : ByteArray} {written : Nat}
    (hfile : (Node.directory es).at? (dirs ++ [name]) = some (.file content written))
    (haccepts : f.accepts (placeText (dirs ++ [name])) = true)
    (hlanguage : (Language.ofPath? name).isSome = true)
    (hdirs : ∀ a b, dirs = a ++ b → a ≠ [] → Glob.anyMatches f.excludes (placeText a) = false) :
    ∃ paths, listPaths o d root = .ok paths ∧
      (pathBelow root (dirs ++ [name]) ∈ paths ↔
        ∀ a b, dirs = a ++ b → a ≠ [] →
          Glob.anyMatches f.excludes (Path.entry (placeText a) "*") = false) := by
  refine ⟨_, listPaths_of_directory hf hroot, ?_⟩
  rw [pathBelow_mem_iff hes hfile (by simp)]
  constructor
  · intro hreached a b hab ha
    have hkept := hreached.kept a (b ++ [name]) (by rw [hab, List.append_assoc]) ha (by simp)
    rw [List.nil_append, PathFilter.prunes, Bool.or_eq_false_iff] at hkept
    exact hkept.2
  · intro hprobe
    refine ⟨⟨content, written, hfile⟩, ?_, ?_⟩
    · rw [List.nil_append, isSource, haccepts, List.getLast?_concat]
      exact hlanguage
    · intro a b hab ha hb
      -- the last name is behind the directory
      obtain ⟨b', rfl⟩ : ∃ b', b = b' ++ [name] := by
        obtain ⟨b', x, rfl⟩ := List.eq_nil_or_concat b |>.resolve_left hb
        rw [List.concat_eq_append, ← List.append_assoc] at hab
        exact ⟨b', by rw [List.append_inj_right' hab rfl]; simp⟩
      rw [← List.append_assoc] at hab
      have hab' := List.append_inj_left' hab rfl
      rw [List.nil_append, PathFilter.prunes, hdirs a b' hab' ha, hprobe a b' hab' ha]
      rfl

end Listing

/-! ## A directory pruned for an entry that it does not have -/

/-- What a directory with one script in a directory holds. -/
def oneScript : List (String × Node) := [("src", .directory [("app.js", .file ByteArray.empty 0)])]

/-- A disk with this directory. -/
def oneScriptDisk : Disk := { top := .directory [("proj", .directory oneScript)] }

/-- The filter of all scripts but those that a pattern excludes. -/
def scriptsWithout (pattern : String) : Options :=
  { includes := ["**/*.js"], excludes := [pattern] }

theorem eq_of_append_eq_singleton {a b : Place} {name : String} (h : [name] = a ++ b)
    (ha : a ≠ []) : a = [name] := by
  obtain ⟨x, a', rfl⟩ := List.exists_cons_of_ne_nil ha
  obtain ⟨rfl, hnil⟩ := List.cons.inj h
  rw [(List.append_eq_nil_iff.1 hnil.symm).1]

/-- Where a pattern is for what lies in another directory, the script is listed. -/
theorem oneScript_listed : ∃ paths, listPaths (scriptsWithout "dist/**") oneScriptDisk "proj" =
    .ok paths ∧ "proj/src/app.js" ∈ paths := by
  have hf : PathFilter.ofOptions (scriptsWithout "dist/**") =
      .ok ⟨[⟨[.deepFront, .star, .literal '.', .literal 'j', .literal 's']⟩],
        [⟨[.literal 'd', .literal 'i', .literal 's', .literal 't', .deepEnd]⟩]⟩ := rfl
  have hfile : (Node.directory oneScript).at? (["src"] ++ ["app.js"]) =
      some (.file ByteArray.empty 0) := rfl
  obtain ⟨paths, hpaths, hiff⟩ := mem_listPaths_iff_of_no_directory_excluded hf
    (show oneScriptDisk.node "proj" = .ok (.directory oneScript) from rfl) (by decide) hfile
    (by decide +kernel) (by decide +kernel) (by
      intro a b hab ha
      rw [eq_of_append_eq_singleton hab ha]
      decide +kernel)
  have hpath : pathBelow "proj" (["src"] ++ ["app.js"]) = "proj/src/app.js" := by decide +kernel
  rw [hpath] at hiff
  refine ⟨paths, hpaths, hiff.2 ?_⟩
  intro a b hab ha
  rw [eq_of_append_eq_singleton hab ha]
  decide +kernel

/-- A pattern for names of one character excludes neither the directory nor the
    script in it, and yet the script is not listed. -/
theorem oneScript_not_listed : ∃ f, PathFilter.ofOptions (scriptsWithout "src/?") = .ok f ∧
    oneScriptDisk.node "proj" = .ok (.directory oneScript) ∧
    (Node.directory oneScript).at? ["src", "app.js"] = some (.file ByteArray.empty 0) ∧
    f.accepts (placeText ["src", "app.js"]) = true ∧
    (Language.ofPath? "app.js").isSome = true ∧
    Glob.anyMatches f.excludes (placeText ["src"]) = false ∧
    listPaths (scriptsWithout "src/?") oneScriptDisk "proj" = .ok [] := by
  have hf : PathFilter.ofOptions (scriptsWithout "src/?") =
      .ok ⟨[⟨[.deepFront, .star, .literal '.', .literal 'j', .literal 's']⟩],
        [⟨[.literal 's', .literal 'r', .literal 'c', .literal '/', .any]⟩]⟩ := rfl
  refine ⟨_, hf, rfl, rfl, by decide +kernel, by decide +kernel, by decide +kernel, ?_⟩
  have hnone : sourcesAmong
      ⟨[⟨[.deepFront, .star, .literal '.', .literal 'j', .literal 's']⟩],
        [⟨[.literal 's', .literal 'r', .literal 'c', .literal '/', .any]⟩]⟩ [] oneScript = [] := by
    decide +kernel
  have hroot : oneScriptDisk.node "proj" = .ok (.directory oneScript) := rfl
  rw [listPaths_of_directory hf hroot, hnone, inOrder, List.mergeSort_nil, List.map_nil]

end WebBaseline.Scan

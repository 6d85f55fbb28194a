/-
  WebBaseline.Proofs.Files.Entry

  The entries of a directory that a path leads to, by paths that are one name
  longer.

    * `LeadsTo` says that a path leads to a directory with some entries;
    * `node_entry`, `write_entry` and `removeFile_entry` say what reading, writing
      and removing such an entry comes to, and `LeadsTo.change` what the directory
      holds after that.

  Everything is stated of the entries of the one directory, so that callers
  never follow a path themselves.
-/

import WebBaseline.Proofs.Files.Names
import WebBaseline.Proofs.Files.Walk

namespace WebBaseline.Files

namespace Disk

/-! ## What a path leads to -/

theorem node_eq_ok_iff {d : Disk} {path : Path} {n : Node} :
    d.node path = .ok n ↔ ∃ p, d.place true path = .ok p ∧ d.top.at? p = some n := by
  rw [node]
  cases h : d.place true path with
  | error fault => simp [Except.bind]
  | ok p =>
    simp only [Except.bind, nodeAt, Except.ok.injEq, exists_eq_left']
    cases h' : d.top.at? p <;> simp

/-- A path leads to a directory at a place, with some entries. -/
def LeadsTo (d : Disk) (dir : Path) (p : Place) (es : List (String × Node)) : Prop :=
  d.place true dir = .ok p ∧ d.top.at? p = some (.directory es)

theorem exists_leadsTo {d : Disk} {dir : Path} {es : List (String × Node)}
    (h : d.node dir = .ok (.directory es)) : ∃ p, d.LeadsTo dir p es :=
  node_eq_ok_iff.1 h

/-- What a path has to be like for it to be looked up at all. -/
theorem namesOf_eq_ok_iff {path : Path} {names : List String} :
    namesOf path = .ok names ↔
      '\x00' ∉ path.toList ∧ path ≠ "" ∧ path.utf8ByteSize ≤ maxPath ∧ Path.names path = names := by
  rw [namesOf]
  split
  · next hnul => simp_all
  · next hnul =>
    split
    · next hempty => simp_all
    · next hempty =>
      split
      · next hlong => simp [Nat.not_le.2 hlong]
      · next hshort =>
        have hshort : path.utf8ByteSize ≤ maxPath := Nat.not_lt.1 hshort
        simp_all

/-- A path that leads to a place can be looked up, and its pieces lead there. -/
theorem place_eq_ok_iff {d : Disk} {follow : Bool} {path : Path} {p : Place} :
    d.place follow path = .ok p ↔
      namesOf path = .ok (Path.names path) ∧
        walk d.top follow maxLinks (d.start (Path.names path)) (Path.names path) = .ok p := by
  rw [place]
  cases hn : namesOf path with
  | error fault => simp [Except.bind]
  | ok names =>
    obtain ⟨-, -, -, rfl⟩ := namesOf_eq_ok_iff.1 hn
    simp [Except.bind, placeOf]

theorem ne_empty_of_node {d : Disk} {path : Path} {n : Node} (h : d.node path = .ok n) :
    path ≠ "" := by
  obtain ⟨p, hplace, -⟩ := node_eq_ok_iff.1 h
  exact (namesOf_eq_ok_iff.1 (place_eq_ok_iff.1 hplace).1).2.1

theorem start_singleton (d : Disk) (a : String) : d.start [a] = d.here := by
  rw [start.eq_def]
  split
  · next h => cases h
  · rfl

theorem start_cons_cons (d : Disk) (a b : String) (rest : List String) :
    d.start (a :: b :: rest) = if a = "" then [] else d.here := by
  rw [start.eq_def]
  split
  · next h =>
    cases h
    rfl
  · next h =>
    rw [if_neg]
    rintro rfl
    exact h b rest rfl

/-- More pieces do not change where a path starts. -/
theorem start_append (d : Disk) {before : List String} (hne : before ≠ []) (hblank : before ≠ [""])
    (after : List String) : d.start (before ++ after) = d.start before := by
  cases before with
  | nil => exact absurd rfl hne
  | cons a rest =>
    cases rest with
    | cons b rest => rw [List.cons_append, List.cons_append, start_cons_cons, start_cons_cons]
    | nil =>
      have ha : a ≠ "" := fun h => hblank (by rw [h])
      cases after with
      | nil => rfl
      | cons b after =>
        rw [List.cons_append, List.nil_append, start_cons_cons, start_singleton, if_neg ha]

/-- Which piece comes last does not matter for where a path starts. -/
theorem start_snoc (d : Disk) {before : List String} (hne : before ≠ []) (a b : String) :
    d.start (before ++ [a]) = d.start (before ++ [b]) := by
  cases before with
  | nil => exact absurd rfl hne
  | cons c rest =>
    cases rest with
    | nil =>
      rw [List.cons_append, List.cons_append, List.nil_append, List.nil_append,
        start_cons_cons, start_cons_cons]
    | cons e rest =>
      rw [List.cons_append, List.cons_append, List.cons_append, List.cons_append,
        start_cons_cons, start_cons_cons]

/-- A blank piece leads from a directory to itself, and from nothing else. -/
theorem walk_blank_eq_ok_iff {top : Node} {follow : Bool} {n : Nat} {q p : Place} :
    walk top follow n q [""] = .ok p ↔ q = p ∧ ∃ es, top.at? p = some (.directory es) := by
  rw [walk_idle_cons (Or.inl rfl), walk_nil, Except.ok.injEq]
  constructor
  · rintro ⟨hq, rfl⟩
    exact ⟨rfl, hq⟩
  · rintro ⟨rfl, hq⟩
    exact ⟨hq, rfl⟩

/-- A blank piece at the end only asks for a directory. -/
theorem walk_blank_iff {top : Node} {n : Nat} {place p : Place} {before : List String}
    {es : List (String × Node)} (hp : top.at? p = some (.directory es)) :
    walk top true n place (before ++ [""]) = .ok p ↔ walk top true n place before = .ok p := by
  obtain ⟨m, hm⟩ := walk_append top true n place before (List.cons_ne_nil "" [])
  rw [hm]
  cases walk top true n place before with
  | error fault => simp [Except.bind]
  | ok q =>
    simp only [Except.bind, Except.ok.injEq]
    rw [walk_blank_eq_ok_iff]
    exact and_iff_left ⟨es, hp⟩

/-- The pieces of a directory lead to it exactly if those do that stand before
    the name of an entry. -/
theorem walk_before_iff (d : Disk) {dir : Path} (hdir : dir ≠ "") {before : List String}
    (hne : before ≠ []) (hbefore : Path.names dir = before ∨ Path.names dir = before ++ [""])
    (name : String) {p : Place} {es : List (String × Node)}
    (hp : d.top.at? p = some (.directory es)) :
    walk d.top true maxLinks (d.start (before ++ [name])) before = .ok p ↔
      walk d.top true maxLinks (d.start (Path.names dir)) (Path.names dir) = .ok p := by
  rcases hbefore with hbefore | hbefore
  · have hblank : before ≠ [""] := by
      rintro rfl
      exact hdir (Path.eq_empty_of_names hbefore)
    rw [start_append d hne hblank, hbefore]
  · rw [hbefore, start_snoc d hne "" name]
    exact (walk_blank_iff hp).symm

/-! ## The clock -/

/-- The disk at another time. -/
def atTime (d : Disk) (time : Nat) : Disk := { d with now := time }

theorem LeadsTo.atTime {d : Disk} {dir : Path} {p : Place} {es : List (String × Node)}
    (h : d.LeadsTo dir p es) (time : Nat) : (d.atTime time).LeadsTo dir p es := h

/-- Directories are made in the same way at any time. -/
theorem makeDirectoryAt_atTime (d : Disk) (time : Nat) (names : List String) :
    (d.atTime time).makeDirectoryAt names =
      (d.makeDirectoryAt names).map (fun d => d.atTime time) := by
  have hplace : (d.atTime time).placeOf false (names.reverse.dropWhile (· = "")).reverse =
      d.placeOf false (names.reverse.dropWhile (· = "")).reverse := rfl
  rw [makeDirectoryAt, makeDirectoryAt, hplace]
  cases d.placeOf false (names.reverse.dropWhile (· = "")).reverse with
  | error fault => rfl
  | ok p =>
    have htop : (d.atTime time).top = d.top := rfl
    simp only [bind, Except.bind, htop]
    cases d.top.at? p with
    | some n => rfl
    | none => rfl

theorem tryDirectoriesAt_atTime (d : Disk) (time : Nat) (above : List (List String)) :
    (d.atTime time).tryDirectoriesAt above =
      ((d.tryDirectoriesAt above).1, (d.tryDirectoriesAt above).2.atTime time) := by
  have hor : ∀ (d : Disk) names fault,
      (d.atTime time).orDirectoryAt names fault = d.orDirectoryAt names fault := fun _ _ _ => rfl
  induction above with
  | nil => rfl
  | cons names above ih =>
    rw [tryDirectoriesAt.eq_def, tryDirectoriesAt.eq_def d]
    simp only [makeDirectoryAt_atTime, ih]
    cases d.makeDirectoryAt names with
    | ok made => rfl
    | error fault =>
      -- directories above are made only where one is missing
      by_cases hfault : fault = .notFound
      · subst hfault
        obtain ⟨result, made⟩ := d.tryDirectoriesAt above
        cases result with
        | error fault => rfl
        | ok =>
          simp only [Except.map, makeDirectoryAt_atTime]
          cases made.makeDirectoryAt names with
          | ok made => rfl
          | error fault => simp only [hor]
      · cases fault with
        | notFound => exact absurd rfl hfault
        | _ => simp only [Except.map, hor]

theorem tryDirectories_atTime (d : Disk) (time : Nat) (path : Path) :
    (d.atTime time).tryDirectories path =
      ((d.tryDirectories path).1, (d.tryDirectories path).2.atTime time) := by
  rw [tryDirectories, tryDirectories]
  split
  · rfl
  · cases namesOf path with
    | error fault => rfl
    | ok names => exact tryDirectoriesAt_atTime d time _

theorem makeDirectories_eq_ok_iff {d made : Disk} {path : Path} :
    d.makeDirectories path = .ok made ↔ d.tryDirectories path = (.ok (), made) := by
  rw [makeDirectories]
  obtain ⟨result, made'⟩ := d.tryDirectories path
  cases result with
  | error fault => simp [Except.map]
  | ok => simp [Except.map]

theorem makeDirectories_atTime (d : Disk) (time : Nat) (path : Path) :
    (d.atTime time).makeDirectories path =
      (d.makeDirectories path).map (fun d => d.atTime time) := by
  rw [makeDirectories, makeDirectories, tryDirectories_atTime]
  obtain ⟨result, made⟩ := d.tryDirectories path
  cases result <;> rfl

/-- Making directories takes no time. -/
theorem now_makeDirectories {d d' : Disk} {path : Path} (h : d.makeDirectories path = .ok d') :
    d'.now = d.now := by
  have hsame := makeDirectories_atTime d d.now path
  rw [h] at hsame
  have hd : d.atTime d.now = d := rfl
  rw [hd, h] at hsame
  have heq : d' = d'.atTime d.now := Except.ok.inj hsame
  rw [heq]
  rfl

/-! ## The entries of a directory -/

/-- Whether a name behind a path is not too long, for itself and with the path. -/
def Fits (dir : Path) (name : String) : Prop :=
  name.utf8ByteSize ≤ maxName ∧ (Path.entry dir name).utf8ByteSize ≤ maxPath

instance (dir : Path) (name : String) : Decidable (Fits dir name) := by
  unfold Fits
  infer_instance

section Entry

variable {d : Disk} {dir : Path} {p : Place} {es : List (String × Node)}

/-- The pieces of the path of an entry, and where those of the directory lead
    that stand before its name. -/
theorem LeadsTo.names_entry (h : d.LeadsTo dir p es) {name : String}
    (hname : '/' ∉ name.toList) :
    ∃ before, Path.names (Path.entry dir name) = before ++ [name] ∧
      walk d.top true maxLinks (d.start (before ++ [name])) before = .ok p := by
  obtain ⟨hok, hwalk⟩ := place_eq_ok_iff.1 h.1
  obtain ⟨-, hdir, -, -⟩ := namesOf_eq_ok_iff.1 hok
  obtain ⟨before, hne, hentry, hbefore⟩ := Path.names_entry hdir hname
  exact ⟨before, hentry, (walk_before_iff d hdir hne hbefore name h.2).2 hwalk⟩

/-- The pieces of the path of an entry can be looked up unless it is too long. -/
theorem LeadsTo.namesOf_entry (h : d.LeadsTo dir p es) {name : String}
    (hname : Path.IsName name) :
    namesOf (Path.entry dir name) =
      if maxPath < (Path.entry dir name).utf8ByteSize then .error .nameTooLong
      else .ok (Path.names (Path.entry dir name)) := by
  obtain ⟨hok, -⟩ := place_eq_ok_iff.1 h.1
  obtain ⟨hdirnul, hdir, -, -⟩ := namesOf_eq_ok_iff.1 hok
  obtain ⟨cs, hentry, hcs⟩ := Path.toList_entry hdir name
  have hnul : '\x00' ∉ (Path.entry dir name).toList := by
    have hcs' : '\x00' ∉ cs := by
      rcases hcs with hcs | hcs
      · exact hcs ▸ hdirnul
      · exact fun hmem => hdirnul (hcs ▸ List.mem_append_left _ hmem)
    simp [hentry, hcs', hname.no_nul]
  have hempty : (Path.entry dir name).isEmpty = false := by
    have hne : (Path.entry dir name).toList ≠ [] := by simp [hentry]
    simpa using hne
  rw [namesOf, if_neg (by simpa using hnul), hempty]
  simp

/-- The pieces of the path of an entry lead to it, unless its name is too long. -/
theorem LeadsTo.placeOf_entry (h : d.LeadsTo dir p es) {name : String}
    (hname : Path.IsName name) (hlink : ∀ target, es.lookup name ≠ some (.link target))
    (follow : Bool) :
    d.placeOf follow (Path.names (Path.entry dir name)) =
      if maxName < name.utf8ByteSize then .error .nameTooLong else .ok (p ++ [name]) := by
  obtain ⟨before, hnames, hbefore⟩ := h.names_entry hname.no_slash
  obtain ⟨m, hm⟩ := walk_append d.top follow maxLinks (d.start (before ++ [name])) before
    (List.cons_ne_nil name [])
  rw [placeOf, hnames, hm, hbefore]
  exact walk_name h.2 hlink hname.not_idle hname.not_parent follow m

/-- The path of an entry leads to its place. -/
theorem LeadsTo.place_entry (h : d.LeadsTo dir p es) {name : String}
    (hname : Path.IsName name) (hlink : ∀ target, es.lookup name ≠ some (.link target))
    (follow : Bool) :
    d.place follow (Path.entry dir name) =
      if Fits dir name then .ok (p ++ [name]) else .error .nameTooLong := by
  rw [place, h.namesOf_entry hname]
  by_cases hpath : maxPath < (Path.entry dir name).utf8ByteSize
  · rw [if_pos hpath, if_neg (fun hf => absurd hpath (Nat.not_lt.2 hf.2))]
    rfl
  · rw [if_neg hpath]
    have hpath' := Nat.not_lt.1 hpath
    refine (h.placeOf_entry hname hlink follow).trans ?_
    by_cases hlong : maxName < name.utf8ByteSize
    · rw [if_pos hlong, if_neg (fun hf => absurd hlong (Nat.not_lt.2 hf.1))]
    · rw [if_neg hlong, if_pos ⟨Nat.not_lt.1 hlong, hpath'⟩]

/-- What the path of an entry leads to. -/
theorem LeadsTo.node_entry (h : d.LeadsTo dir p es) {name : String} (hname : Path.IsName name)
    (hlink : ∀ target, es.lookup name ≠ some (.link target)) :
    d.node (Path.entry dir name) =
      if Fits dir name then
        match es.lookup name with
        | some n => .ok n
        | none => .error .notFound
      else .error .nameTooLong := by
  rw [node, h.place_entry hname hlink]
  split
  · have hat := Node.at?_snoc h.2 name
    cases hentry : es.lookup name with
    | none => simp only [Except.bind, nodeAt, hat, hentry]
    | some n => simp only [Except.bind, nodeAt, hat, hentry]
  · rfl

/-- A file is written among the entries of a directory if its name is not too
    long. -/
theorem LeadsTo.write_entry (h : d.LeadsTo dir p es) {name : String} (hname : Path.IsName name)
    (hfile : ∀ n, es.lookup name = some n → n.isFile = true) (content : ByteArray) :
    d.write (Path.entry dir name) content =
      if Fits dir name then .ok (d.put (p ++ [name]) content) else .error .nameTooLong := by
  have hlink : ∀ target, es.lookup name ≠ some (.link target) := by
    intro target hl
    have hn := hfile _ hl
    cases hn
  have hplace := h.place_entry hname hlink true
  obtain ⟨before, hnames, -⟩ := h.names_entry hname.no_slash
  have hne : name ≠ "" := fun he => hname.not_idle (Or.inl he)
  rw [place, h.namesOf_entry hname] at hplace
  rw [write, h.namesOf_entry hname]
  split at hplace
  · next hlong =>
    rw [if_pos hlong, if_neg (fun hf => absurd hlong (Nat.not_lt.2 hf.2))]
    rfl
  · next hshort =>
    replace hplace : d.placeOf true (Path.names (Path.entry dir name)) =
      if Fits dir name then .ok (p ++ [name]) else .error .nameTooLong := hplace
    -- no blank piece stands behind the name
    have hlast : (Path.names (Path.entry dir name)).getLast? ≠ some "" := by
      simp [hnames, hne]
    have hdrop : (Path.names (Path.entry dir name)).reverse.dropWhile (· = "") =
        name :: before.reverse := by
      simp [hnames, hne]
    rw [if_neg hshort]
    by_cases hfits : Fits dir name
    · have hat := Node.at?_snoc h.2 name
      rw [if_pos hfits] at hplace
      simp only [bind, Except.bind, hdrop, if_neg hlast, hplace, if_pos hfits, hat]
      cases hl : es.lookup name with
      | none => rfl
      | some n =>
        cases n with
        | file c w => rfl
        | link target => exact absurd hl (hlink target)
        | directory fs => exact absurd (hfile _ hl) (by simp [Node.isFile])
    · rw [if_neg hfits] at hplace
      simp only [bind, Except.bind, hdrop, if_neg hlast, hplace, if_neg hfits]

/-- The directory after one of its files, or a name of no entry, is given up for
    something else or for nothing. -/
theorem LeadsTo.change (h : d.LeadsTo dir p es) {name : String}
    (hfile : ∀ n, es.lookup name = some n → n.isFile = true) (new : Option Node) :
    (d.change (p ++ [name]) new).LeadsTo dir p (Node.changeEntry name new es) := by
  obtain ⟨hplace, hat⟩ := h
  refine ⟨?_, Node.at?_change hat name _⟩
  obtain ⟨hok, hwalk⟩ := place_eq_ok_iff.1 hplace
  have hways := Node.keepsWays_change hat hfile new
  refine place_eq_ok_iff.2 ⟨hok, walk_keepsWays hways (fun target hlink => ?_) hwalk⟩
  -- the directory is one still, and no link
  obtain ⟨m, hm, hkind⟩ := hways p _ hat rfl
  obtain ⟨fs, rfl⟩ := Node.SameKind.directory_iff.1 hkind
  cases hm.symm.trans hlink

/-- A file of a directory is removed. -/
theorem LeadsTo.removeFile_entry (h : d.LeadsTo dir p es) {name : String}
    (hname : Path.IsName name) (hfits : Fits dir name) {content : ByteArray} {written : Nat}
    (hfile : es.lookup name = some (.file content written)) :
    d.removeFile (Path.entry dir name) = .ok (d.change (p ++ [name]) none) := by
  have hlink : ∀ target, es.lookup name ≠ some (.link target) := by
    intro target hl
    rw [hfile] at hl
    cases hl
  have hplace := h.place_entry hname hlink false
  have hat := Node.at?_snoc h.2 name
  rw [if_pos hfits] at hplace
  rw [hfile] at hat
  have hnode : d.nodeAt (p ++ [name]) = .ok (.file content written) := by rw [nodeAt, hat]
  simp only [removeFile, bind, Except.bind, hplace, hnode]

end Entry

/-- Removing takes away what is at one place. -/
theorem exists_of_removeFile {d removed : Disk} {path : Path}
    (h : d.removeFile path = .ok removed) : ∃ p, removed = d.change p none := by
  simp only [removeFile, bind, Except.bind] at h
  cases hplace : d.place false path with
  | error fault =>
    rw [hplace] at h
    cases h
  | ok p =>
    refine ⟨p, ?_⟩
    rw [hplace] at h
    simp only at h
    split at h
    · cases h
    · split at h
      · cases h
      · exact (Except.ok.inj h).symm

/-- A path with a name behind it leads anywhere only if it leads to a directory. -/
theorem exists_of_place_entry {d : Disk} {dir : Path} {name : String} {q' : Place} (hdir : dir ≠ "")
    (hname : '/' ∉ name.toList) (hplace : d.place true (Path.entry dir name) = .ok q') :
    ∃ es, d.node dir = .ok (.directory es) := by
  obtain ⟨before, hne, hentry, hbefore⟩ := Path.names_entry hdir hname
  obtain ⟨hok, hwalk⟩ := place_eq_ok_iff.1 hplace
  obtain ⟨hnul, -, hlong, -⟩ := namesOf_eq_ok_iff.1 hok
  have hokdir : namesOf dir = .ok (Path.names dir) := by
    obtain ⟨rest, hrest⟩ := Path.exists_entry_eq_append dir name
    rw [hrest] at hnul hlong
    rw [String.utf8ByteSize_append] at hlong
    refine namesOf_eq_ok_iff.2 ⟨fun hmem => hnul ?_, hdir, by omega, rfl⟩
    rw [String.toList_append]
    exact List.mem_append_left _ hmem
  -- the way to the entry leads through the directory
  rw [hentry] at hwalk
  obtain ⟨m, hm⟩ := walk_append d.top true maxLinks (d.start (before ++ [name])) before
    (List.cons_ne_nil name [])
  rw [hm] at hwalk
  cases hw : walk d.top true maxLinks (d.start (before ++ [name])) before with
  | error fault =>
    rw [hw] at hwalk
    cases hwalk
  | ok q =>
    rw [hw] at hwalk
    obtain ⟨es, hq, -⟩ := walk_cons_eq_ok_iff.1 hwalk
    have hwalkdir := (walk_before_iff d hdir hne hbefore name hq).1 hw
    exact ⟨es, node_eq_ok_iff.2 ⟨q, place_eq_ok_iff.2 ⟨hokdir, hwalkdir⟩, hq⟩⟩

/-- What has an entry is a directory. -/
theorem exists_of_node_entry {d : Disk} {dir : Path} {name : String} {n : Node} (hdir : dir ≠ "")
    (hname : '/' ∉ name.toList) (h : d.node (Path.entry dir name) = .ok n) :
    ∃ es, d.node dir = .ok (.directory es) := by
  obtain ⟨q, hplace, -⟩ := node_eq_ok_iff.1 h
  exact exists_of_place_entry hdir hname hplace

/-- What is written goes to where the path leads. -/
theorem exists_place_of_write {d d' : Disk} {path : Path} {content : ByteArray}
    (h : d.write path content = .ok d') : ∃ p, d.place true path = .ok p := by
  cases hok : namesOf path with
  | error fault =>
    simp only [write, bind, Except.bind, hok] at h
    cases h
  | ok names =>
    simp only [write, bind, Except.bind, hok] at h
    cases hp : d.placeOf true names with
    | ok p => exact ⟨p, by rw [place, hok, Except.bind, hp]⟩
    | error fault =>
      rw [hp] at h
      split at h
      · split at h
        · split at h <;> cases h
        · cases h
      · cases h

end Disk

end WebBaseline.Files

/-
  WebBaseline.Proofs.Files.Directories

  Making directories.

    * every path that led to a file leads to the same one (`KeepsFiles`,
      `keepsFiles_tryDirectories`), whether the directories could be made or not;
    * where a path names entries one in another, the first of which is missing in
      a directory that is there, all but the last are made as directories
      (`exists_tryDirectories_parent`).
-/

import Mathlib.Data.List.Induction
import WebBaseline.Proofs.Files.Parent

namespace WebBaseline.Files

namespace Disk

/-! ## Files that stay -/

/-- Every path that led to a file in one disk leads to the same one in another. -/
def KeepsFiles (d d' : Disk) : Prop :=
  ∀ path content written, d.node path = .ok (.file content written) →
    d'.node path = .ok (.file content written)

theorem KeepsFiles.refl (d : Disk) : KeepsFiles d d := fun _ _ _ h => h

theorem KeepsFiles.trans {d₁ d₂ d₃ : Disk} (h : KeepsFiles d₁ d₂) (h' : KeepsFiles d₂ d₃) :
    KeepsFiles d₁ d₃ := fun path content written hfile =>
  h' path content written (h path content written hfile)

/-- A new directory where there was nothing keeps all files. -/
theorem keepsFiles_change {d : Disk} {p : Place} (hp : d.top.at? p = none) (new : Option Node) :
    KeepsFiles d (d.change p new) := by
  intro path content written hnode
  obtain ⟨q, hplace, hq⟩ := node_eq_ok_iff.1 hnode
  obtain ⟨hok, hwalk⟩ := place_eq_ok_iff.1 hplace
  have hsame : (Node.change new p d.top).at? q = some (.file content written) := by
    rcases Node.at?_change_elsewhere new d.top p q with ⟨r, rfl⟩ | ⟨fs, gs, hfs, -⟩ | hsame
    · rw [Node.at?_append_of_missing hp] at hq
      cases hq
    · cases hfs.symm.trans hq
    · exact hsame.trans hq
  have hways : Node.KeepsWays d.top (Node.change new p d.top) := by
    intro r n hr hn
    rcases Node.at?_change_elsewhere new d.top p r with ⟨r', rfl⟩ | ⟨fs, gs, hfs, hgs⟩ | hsame
    · rw [Node.at?_append_of_missing hp] at hr
      cases hr
    · cases hfs.symm.trans hr
      exact ⟨_, hgs, trivial⟩
    · exact ⟨n, hsame.trans hr, Node.SameKind.refl n⟩
  refine node_eq_ok_iff.2 ⟨q, place_eq_ok_iff.2 ⟨hok, ?_⟩, hsame⟩
  refine walk_keepsWays hways (fun target hnew => ?_) hwalk
  cases hsame.symm.trans hnew

theorem keepsFiles_makeDirectoryAt {d d' : Disk} {names : List String}
    (h : d.makeDirectoryAt names = .ok d') : KeepsFiles d d' := by
  simp only [makeDirectoryAt, bind, Except.bind] at h
  split at h
  · cases h
  · split at h
    · cases h
    · next p _ hp =>
      obtain rfl := Except.ok.inj h
      exact keepsFiles_change hp _

/-- What each new directory does to a disk, all that are made for one path do,
    whether they could be made to the end or not. -/
theorem rel_tryDirectoriesAt {r : Disk → Disk → Prop} (hrefl : ∀ d, r d d)
    (htrans : ∀ {d₁ d₂ d₃}, r d₁ d₂ → r d₂ d₃ → r d₁ d₃)
    (hmake : ∀ {d d' names}, makeDirectoryAt d names = .ok d' → r d d') (d : Disk)
    (above : List (List String)) : r d (d.tryDirectoriesAt above).2 := by
  induction above with
  | nil => exact hrefl d
  | cons names above ih =>
    rw [tryDirectoriesAt]
    split
    · next made hmade => exact hmake hmade
    · split
      · next made hmade =>
        rw [hmade] at ih
        exact ih
      · next made hmade =>
        rw [hmade] at ih
        split
        · next last hlast => exact htrans ih (hmake hlast)
        · exact ih
    · exact hrefl d

theorem rel_tryDirectories {r : Disk → Disk → Prop} (hrefl : ∀ d, r d d)
    (htrans : ∀ {d₁ d₂ d₃}, r d₁ d₂ → r d₂ d₃ → r d₁ d₃)
    (hmake : ∀ {d d' names}, makeDirectoryAt d names = .ok d' → r d d') (d : Disk)
    (path : Path) : r d (d.tryDirectories path).2 := by
  rw [tryDirectories]
  split
  · exact hrefl d
  · split
    · exact hrefl d
    · exact rel_tryDirectoriesAt hrefl htrans hmake d _

/-- Making directories keeps all files, whether they could be made or not. -/
theorem keepsFiles_tryDirectories (d : Disk) (path : Path) :
    KeepsFiles d (d.tryDirectories path).2 :=
  rel_tryDirectories KeepsFiles.refl KeepsFiles.trans keepsFiles_makeDirectoryAt d path

/-! ## Directories that are missing -/

/-- The way to a name in a directory where no link has it. -/
theorem walk_snoc {top : Node} {n : Nat} {start p : Place} {front : List String} {name : String}
    {es : List (String × Node)} (hname : AsksByName name)
    (hfront : walk top true n start front = .ok p) (hp : top.at? p = some (.directory es))
    (hlink : ∀ target, es.lookup name ≠ some (.link target)) (follow : Bool) :
    walk top follow n start (front ++ [name]) = .ok (p ++ [name]) := by
  obtain ⟨m, hm⟩ := walk_append top follow n start front (List.cons_ne_nil name [])
  obtain ⟨hidle, hparent, hlong⟩ := hname
  have hlast := walk_name hp hlink hidle hparent follow m
  rw [if_neg (Nat.not_lt.2 hlong)] at hlast
  rw [hm, hfront]
  exact hlast

/-- No blank piece stands behind a name. -/
theorem withoutBlanks_concat {name : String} (hname : AsksByName name) (front : List String) :
    ((front ++ [name]).reverse.dropWhile (· = "")).reverse = front ++ [name] := by
  have hne : name ≠ "" := fun heq => hname.1 (Or.inl heq)
  rw [List.reverse_concat, List.dropWhile_cons_of_neg (by simpa using hne), List.reverse_cons,
    List.reverse_reverse]

/-- A name that is missing in a directory becomes that of a new one. -/
theorem exists_makeDirectoryAt {d : Disk} {front : List String} {name : String} {p : Place}
    {es : List (String × Node)} (hname : AsksByName name) (hmissing : es.lookup name = none)
    (hfront : walk d.top true maxLinks (d.start (front ++ [name])) front = .ok p)
    (hp : d.top.at? p = some (.directory es)) :
    ∃ made, d.makeDirectoryAt (front ++ [name]) = .ok made ∧ made.here = d.here ∧
      walk made.top true maxLinks (d.start (front ++ [name])) (front ++ [name]) =
        .ok (p ++ [name]) ∧
      made.top.at? (p ++ [name]) = some (.directory []) := by
  have hlink : ∀ target, es.lookup name ≠ some (.link target) := fun target heq => by
    rw [hmissing] at heq
    cases heq
  have hplace : d.placeOf false (front ++ [name]) = .ok (p ++ [name]) :=
    walk_snoc hname hfront hp hlink false
  have hat : d.top.at? (p ++ [name]) = none := by rw [Node.at?_snoc hp, hmissing]
  -- the way to the directory stays, and the new one is in it
  have hways := Node.keepsWays_change hp (fun n hn => by rw [hmissing] at hn; cases hn)
    (some (.directory []))
  have hp' := Node.at?_change hp name (some (.directory []))
  have hentry : (Node.changeEntry name (some (.directory [])) es).lookup name =
      some (.directory []) := by rw [Node.lookup_changeEntry, if_pos rfl]
  have hfront' := walk_keepsWays hways (fun target heq => by cases hp'.symm.trans heq) hfront
  refine ⟨d.change (p ++ [name]) (some (.directory [])), ?_, rfl, ?_, ?_⟩
  · simp only [makeDirectoryAt, bind, Except.bind, withoutBlanks_concat hname, hplace, hat]
  · exact walk_snoc hname hfront' hp' (fun target heq => by cases hentry.symm.trans heq) true
  · exact (Node.at?_snoc hp' name).trans hentry

/-- Where a directory is missing nothing leads on. -/
theorem walk_missing {top : Node} {follow : Bool} {n : Nat} {place : Place}
    {es : List (String × Node)} {name : String} (hname : AsksByName name)
    (hmissing : es.lookup name = none) (hplace : top.at? place = some (.directory es))
    {rest : List String} (hrest : rest ≠ []) :
    walk top follow n place (name :: rest) = .error .notFound := by
  obtain ⟨hidle, hparent, hlong⟩ := hname
  rw [walk_cons, hplace]
  simp only [if_neg hidle, if_neg hparent, if_neg (Nat.not_lt.2 hlong), hmissing,
    List.isEmpty_iff, if_neg hrest]

theorem start_of_here {d d' : Disk} (h : d'.here = d.here) (names : List String) :
    d'.start names = d.start names := by
  rw [start.eq_def, start.eq_def d, h]

/-- What comes behind a name does not change where pieces start. -/
theorem start_of_name (d : Disk) {name : String} (hname : AsksByName name)
    (front after : List String) :
    d.start (front ++ name :: after) = d.start (front ++ [name]) := by
  have hblank : front ++ [name] ≠ [""] := by
    intro heq
    have hlast := congrArg List.getLast? heq
    rw [List.getLast?_concat] at hlast
    exact hname.1 (Or.inl (Option.some.inj hlast))
  rw [← start_append d (by simp) hblank after, List.append_assoc, List.singleton_append]

theorem lineage_concat {name : String} (hname : AsksByName name) (front : List String) :
    lineage (front ++ [name]).reverse = (front ++ [name]) :: lineage front.reverse := by
  rw [List.reverse_concat, lineage, if_neg hname.1, List.reverse_cons, List.reverse_reverse]

/-- Pieces with names at their end come first in their own lineage. -/
theorem cons_tail_lineage {name : String} {more : List String}
    (hnames : ∀ m ∈ name :: more, AsksByName m) (front : List String) :
    (front ++ name :: more) :: (lineage (front ++ name :: more).reverse).tail =
      lineage (front ++ name :: more).reverse := by
  obtain ⟨init, last, hall⟩ :=
    (List.eq_nil_or_concat (name :: more)).resolve_left (List.cons_ne_nil name more)
  rw [List.concat_eq_append] at hall
  have hlast : AsksByName last := hnames last (by rw [hall]; simp)
  rw [hall, ← List.append_assoc, lineage_concat hlast, List.tail_cons]

/-- Names that are entries one in another are made, where the first one is missing
    in a directory: for the last one those before it are made, from the first one
    on. -/
theorem exists_tryDirectoriesAt_missing {d : Disk} {front : List String} {name : String}
    {p : Place} {es : List (String × Node)} {more : List String}
    (hnames : ∀ m ∈ name :: more, AsksByName m) (hmissing : es.lookup name = none)
    (hfront : walk d.top true maxLinks (d.start (front ++ [name])) front = .ok p)
    (hp : d.top.at? p = some (.directory es)) :
    ∃ made, d.tryDirectoriesAt (lineage (front ++ name :: more).reverse) = (.ok (), made) ∧
      made.here = d.here ∧
      walk made.top true maxLinks (d.start (front ++ [name])) (front ++ name :: more) =
        .ok (p ++ name :: more) ∧
      made.top.at? (p ++ name :: more) = some (.directory []) := by
  obtain ⟨hname, hmore⟩ := List.forall_mem_cons.1 hnames
  induction more using List.reverseRecOn with
  | nil =>
    obtain ⟨made, hmade, hrest⟩ := exists_makeDirectoryAt hname hmissing hfront hp
    refine ⟨made, ?_, hrest⟩
    rw [lineage_concat hname, tryDirectoriesAt, hmade]
  | append_singleton more last ih =>
    have hlast : AsksByName last := hmore last (by simp)
    have hbefore : ∀ m ∈ more, AsksByName m := fun m hm => hmore m (List.mem_append_left _ hm)
    obtain ⟨made, hmade, hhere, hway, hat⟩ :=
      ih (List.forall_mem_cons.2 ⟨hname, hbefore⟩) hbefore
    have hstart := start_of_name d hname front
    have hassoc : ∀ q : List String,
        q ++ name :: (more ++ [last]) = q ++ name :: more ++ [last] := fun q => by simp
    -- the last one cannot be made before the others are
    have hnotFound : d.makeDirectoryAt (front ++ name :: more ++ [last]) = .error .notFound := by
      have hplace : d.placeOf false (front ++ name :: more ++ [last]) = .error .notFound := by
        obtain ⟨m, hm⟩ := walk_append d.top false maxLinks (d.start (front ++ [name])) front
          (List.cons_ne_nil name (more ++ [last]))
        rw [placeOf, ← hassoc, hstart, hm, hfront]
        exact walk_missing hname hmissing hp (by simp)
      simp only [makeDirectoryAt, bind, Except.bind, withoutBlanks_concat hlast, hplace]
    have hmadeStart : made.start (front ++ name :: more ++ [last]) = d.start (front ++ [name]) := by
      rw [start_of_here hhere, ← hassoc, hstart]
    rw [← hmadeStart] at hway
    obtain ⟨last', hlast', hhere', hway', hat'⟩ := exists_makeDirectoryAt hlast rfl hway hat
    refine ⟨last', ?_, hhere'.trans hhere, ?_, ?_⟩
    · rw [hassoc, lineage_concat hlast, tryDirectoriesAt, hnotFound, hmade]
      simp only [hlast']
    · rw [hassoc, hassoc, ← hmadeStart]
      exact hway'
    · rw [hassoc]
      exact hat'

/-- Names the first of which is missing lead to nothing. -/
theorem at?_of_walk_missing {top : Node} {follow : Bool} {n : Nat} {place q : Place}
    {es : List (String × Node)} {name : String} {more : List String} (hname : AsksByName name)
    (hmissing : es.lookup name = none) (hplace : top.at? place = some (.directory es))
    (h : walk top follow n place (name :: more) = .ok q) : top.at? q = none := by
  by_cases hmore : more = []
  · subst hmore
    obtain ⟨hidle, hparent, hlong⟩ := hname
    have hlink : ∀ target, es.lookup name ≠ some (.link target) := fun target heq => by
      rw [hmissing] at heq
      cases heq
    rw [walk_name hplace hlink hidle hparent, if_neg (Nat.not_lt.2 hlong)] at h
    rw [← Except.ok.inj h, Node.at?_snoc hplace, hmissing]
  · rw [walk_missing hname hmissing hplace hmore] at h
    cases h

/-- A directory behind one that is there and has the first name on the way not: it
    is missing and can be made. -/
theorem exists_tryDirectories_missing {d : Disk} {dir : Path} {front : List String}
    {name : String} {more : List String} {p : Place} {es : List (String × Node)}
    (hok : namesOf dir = .ok (front ++ name :: more)) (hnames : ∀ m ∈ name :: more, AsksByName m)
    (hfront : walk d.top true maxLinks (d.start (front ++ [name])) front = .ok p)
    (hp : d.top.at? p = some (.directory es)) (hmissing : es.lookup name = none) :
    d.has dir = false ∧ ∃ made, d.tryDirectories dir = (.ok (), made) ∧
      made.here = d.here ∧
      walk made.top true maxLinks (d.start (front ++ [name])) (front ++ name :: more) =
        .ok (p ++ name :: more) ∧
      made.top.at? (p ++ name :: more) = some (.directory []) := by
  have hname := hnames name List.mem_cons_self
  obtain ⟨-, hne, -, hpieces⟩ := namesOf_eq_ok_iff.1 hok
  constructor
  · rw [has]
    cases hnode : d.node dir with
    | error fault => rfl
    | ok n =>
      obtain ⟨q, hplace, hq⟩ := node_eq_ok_iff.1 hnode
      obtain ⟨-, hwalk⟩ := place_eq_ok_iff.1 hplace
      obtain ⟨m, hm⟩ := walk_append d.top true maxLinks (d.start (front ++ [name])) front
        (List.cons_ne_nil name more)
      rw [hpieces, start_of_name d hname, hm, hfront] at hwalk
      cases (at?_of_walk_missing hname hmissing hp hwalk).symm.trans hq
  · obtain ⟨made, hmade, hrest⟩ := exists_tryDirectoriesAt_missing hnames hmissing hfront hp
    refine ⟨made, ?_, hrest⟩
    have hempty : dir.isEmpty = false := by simpa using hne
    rw [tryDirectories, hempty, if_neg Bool.false_ne_true, hok]
    dsimp only
    rw [cons_tail_lineage hnames, hmade]

/-- Names that are entries one in another, behind a directory that is there and
    has the first one not: the directory of the last one is missing and can be
    made, and the last one is missing in it. -/
theorem exists_tryDirectories_parent {d : Disk} {path : Path} {front : List String}
    {name last : String} {more : List String} {p : Place} {es : List (String × Node)}
    (hok : namesOf path = .ok (front ++ name :: more ++ [last]))
    (hnames : ∀ m ∈ name :: more, AsksByName m) (hlast : AsksByName last)
    (hfront : walk d.top true maxLinks (d.start (front ++ [name])) front = .ok p)
    (hp : d.top.at? p = some (.directory es)) (hmissing : es.lookup name = none) :
    ∃ parent made q, Path.parent? path = some parent ∧ d.has parent = false ∧
      d.tryDirectories parent = (.ok (), made) ∧ made.place true path = .ok q ∧
      made.top.at? q = none := by
  have hname := hnames name List.mem_cons_self
  obtain ⟨-, -, -, hpieces⟩ := namesOf_eq_ok_iff.1 hok
  have hparent : ∃ parent rest, Path.parent? path = some parent ∧
      Path.names parent = front ++ name :: more ∧ parent ≠ "" ∧ path = parent ++ rest := by
    rcases Path.parent?_of_names hpieces hlast.1 with ⟨hnil, -⟩ | ⟨mid, hall, hmid, -⟩ |
      ⟨parent, idle, rest, hparent, hall, hidle, hne, hpath⟩
    · simp at hnil
    · -- one of the pieces is a name
      have hmem : name ∈ "" :: mid := hall ▸ by simp
      rcases List.mem_cons.1 hmem with rfl | hmem
      · exact absurd (Or.inl rfl) hname.1
      · exact absurd (hmid name hmem) hname.1
    · -- the last piece is a name, so none is idle
      rcases List.eq_nil_or_concat idle with rfl | ⟨init, x, rfl⟩
      · exact ⟨parent, rest, hparent, by rw [hall, List.append_nil], hne, hpath⟩
      · have hx : (name :: more).getLast? = some x := by
          have hlastPiece : (front ++ name :: more).getLast? = (name :: more).getLast? := by
            simp [List.getLast?_append, List.getLast?_cons]
          rw [← hlastPiece, hall, List.concat_eq_append, ← List.append_assoc,
            List.getLast?_concat]
        have hidleX : x = "" ∨ x = "." := hidle x (by simp)
        exact absurd hidleX (hnames x (List.mem_of_getLast? hx)).1
  obtain ⟨parent, rest, hparent, hnamesParent, hne, hpath⟩ := hparent
  have hokParent := namesOf_of_append hok hpath hne
  rw [hnamesParent] at hokParent
  obtain ⟨hno, made, hmade, hhere, hway, hat⟩ :=
    exists_tryDirectories_missing hokParent hnames hfront hp hmissing
  refine ⟨parent, made, p ++ name :: more ++ [last], hparent, hno, hmade, ?_, ?_⟩
  · have hstart : made.start (front ++ name :: more ++ [last]) = d.start (front ++ [name]) := by
      rw [start_of_here hhere, List.append_assoc, List.cons_append, start_of_name d hname]
    rw [place, hok]
    show walk made.top true maxLinks (made.start _) _ = _
    rw [hstart]
    exact walk_snoc hlast hway hat (fun target h => by cases h) true
  · rw [Node.at?_snoc hat]
    rfl

end Disk

end WebBaseline.Files

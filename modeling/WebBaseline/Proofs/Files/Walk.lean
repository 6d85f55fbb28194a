/-
  WebBaseline.Proofs.Files.Walk

  How the pieces of a path lead through a tree, and what a change of one entry
  does to that.

    * `walk_cons` says what one piece does, and `walk_cons_eq_ok_iff` in which
      ways it can lead on (`Leads`);
    * pieces with more pieces behind them are followed in two stretches
      (`walk_append`);
    * `Node.at?_change` reads a changed tree in the directory of the change, and
      `Node.at?_change_elsewhere` anywhere else;
    * a tree `KeepsWays` of another one if it has all directories and links of
      it; a path leads to the same place in that tree, unless a new link is there
      (`walk_keepsWays`);
    * a path with links followed ends at a directory, or in one (`isEnd_of_walk`).
-/

import WebBaseline.Proofs.Files.Names

namespace WebBaseline.Files

/-! ## Entries of a tree -/

namespace Node

/-- An entry of a directory is what the directory has under its name. -/
theorem at?_snoc {t : Node} {p : Place} {es : List (String × Node)}
    (h : t.at? p = some (.directory es)) (name : String) :
    t.at? (p ++ [name]) = es.lookup name := by
  rw [at?_append, h, Option.bind_some, at?_directory_cons]
  cases es.lookup name <;> rfl

theorem change_cons {p : Place} (hp : p ≠ []) (new : Option Node) (name : String)
    (es : List (String × Node)) :
    change new (name :: p) (.directory es) =
      match es.lookup name with
      | some n => .directory (changeEntry name (some (change new p n)) es)
      | none => .directory es := by
  cases p with
  | nil => exact absurd rfl hp
  | cons a q => rfl

/-- Only a directory has an entry at a place below it. -/
theorem exists_of_at?_cons {t n : Node} {name : String} {p : Place}
    (h : t.at? (name :: p) = some n) :
    ∃ es m, t = .directory es ∧ es.lookup name = some m ∧ m.at? p = some n := by
  rw [at?_cons, entry?] at h
  obtain ⟨m, hm, hn⟩ := Option.bind_eq_some_iff.1 h
  cases t with
  | directory es => exact ⟨es, m, rfl, hm, hn⟩
  | file content written => cases hm
  | link target => cases hm

/-- A change of an entry, read in the directory that it lies in. -/
theorem at?_change {t : Node} {p : Place} {es : List (String × Node)}
    (h : t.at? p = some (.directory es)) (name : String) (new : Option Node) :
    (change new (p ++ [name]) t).at? p = some (.directory (changeEntry name new es)) := by
  induction p generalizing t with
  | nil =>
    cases h
    rfl
  | cons a p ih =>
    obtain ⟨fs, m, rfl, hm, hmp⟩ := exists_of_at?_cons h
    rw [List.cons_append, change_cons (by simp), hm, at?_directory_cons, lookup_changeEntry,
      if_pos rfl, Option.bind_some]
    exact ih hmp

/-- Where something is taken out of a tree, every file that is left was there
    before. -/
theorem file_of_change_none {p : Place} {t : Node} {q : Place} {content : ByteArray}
    {written : Nat} (h : (change none p t).at? q = some (.file content written)) :
    t.at? q = some (.file content written) := by
  induction p generalizing t q with
  | nil => exact h
  | cons name p ih =>
    cases t with
    | file c w => cases p <;> exact h
    | link target => cases p <;> exact h
    | directory es =>
      by_cases hp : p = []
      · subst hp
        cases q with
        | nil => cases h
        | cons b q =>
          rw [change, at?_directory_cons, lookup_changeEntry] at h
          rw [at?_directory_cons]
          split at h
          · cases h
          · exact h
      · rw [change_cons hp] at h
        cases hn : es.lookup name with
        | none =>
          rw [hn] at h
          exact h
        | some n =>
          rw [hn] at h
          cases q with
          | nil => cases h
          | cons b q =>
            rw [at?_directory_cons, lookup_changeEntry] at h
            rw [at?_directory_cons]
            by_cases hb : b = name
            · subst hb
              rw [if_pos rfl, Option.bind_some] at h
              rw [hn, Option.bind_some]
              exact ih h
            · rw [if_neg hb] at h
              exact h

/-! ## Trees with the same ways -/

/-- Entries of one kind: two files, two directories, or links to one path. -/
def SameKind : Node → Node → Prop
  | file _ _, file _ _ => True
  | link t, link u => t = u
  | directory _, directory _ => True
  | _, _ => False

theorem SameKind.refl (n : Node) : SameKind n n := by
  cases n <;> simp [SameKind]

theorem SameKind.directory_iff {es : List (String × Node)} {n : Node} :
    SameKind (.directory es) n ↔ ∃ fs, n = .directory fs := by
  cases n <;> simp [SameKind]

theorem SameKind.link_iff {target : Path} {n : Node} :
    SameKind (.link target) n ↔ n = .link target := by
  cases n <;> simp [SameKind, eq_comm]

theorem SameKind.not_link {n m : Node} (h : SameKind n m) (hn : ∀ target, n ≠ .link target)
    (target : Path) : m ≠ .link target := by
  rintro rfl
  cases n with
  | link t => exact hn t rfl
  | _ => cases h

/-- A tree that has every directory and every link of another one. Its files may
    be others. -/
def KeepsWays (t u : Node) : Prop :=
  ∀ p n, t.at? p = some n → n.isFile = false → ∃ m, u.at? p = some m ∧ SameKind n m

/-- A place in a changed tree: it lies on the way to the change, or at the change
    or below it, or the change does not concern it. -/
theorem at?_change_cases {t : Node} {p : Place} {es : List (String × Node)}
    (h : t.at? p = some (.directory es)) (name : String) (new : Option Node) (q : Place) :
    (∃ fs gs, t.at? q = some (.directory fs) ∧
      (change new (p ++ [name]) t).at? q = some (.directory gs)) ∨
    (∃ r, q = p ++ name :: r ∧ t.at? q = (es.lookup name).bind (fun n => n.at? r) ∧
      (change new (p ++ [name]) t).at? q = new.bind (fun n => n.at? r)) ∨
    (change new (p ++ [name]) t).at? q = t.at? q := by
  induction p generalizing t q with
  | nil =>
    cases h
    cases q with
    | nil => exact Or.inl ⟨_, _, rfl, rfl⟩
    | cons b q =>
      rw [List.nil_append, change, at?_directory_cons, at?_directory_cons, lookup_changeEntry]
      by_cases hb : b = name
      · subst hb
        rw [if_pos rfl]
        exact Or.inr (Or.inl ⟨q, rfl, rfl, rfl⟩)
      · rw [if_neg hb]
        exact Or.inr (Or.inr rfl)
  | cons a p ih =>
    -- the change lies in the entry `a`; every other entry stays as it is
    obtain ⟨fs, k, rfl, hk, hkp⟩ := exists_of_at?_cons h
    have hchange : change new (a :: p ++ [name]) (directory fs) =
        directory (changeEntry a (some (change new (p ++ [name]) k)) fs) := by
      rw [List.cons_append, change_cons (by simp), hk]
    rw [hchange]
    cases q with
    | nil => exact Or.inl ⟨_, _, rfl, rfl⟩
    | cons b q =>
      rw [at?_directory_cons, at?_directory_cons, lookup_changeEntry]
      by_cases hb : b = a
      · subst hb
        have hinside := ih hkp q
        rw [if_pos rfl, hk, Option.bind_some, Option.bind_some]
        rcases hinside with hway | ⟨r, rfl, hbelow⟩ | hsame
        · exact Or.inl hway
        · exact Or.inr (Or.inl ⟨r, rfl, hbelow⟩)
        · exact Or.inr (Or.inr hsame)
      · rw [if_neg hb]
        exact Or.inr (Or.inr rfl)

/-- A place in a changed tree that is not at the change or below it: it is a
    directory as before, or the change does not concern it. -/
theorem at?_change_elsewhere (new : Option Node) (t : Node) (p q : Place) :
    (∃ r, q = p ++ r) ∨
    (∃ fs gs, t.at? q = some (.directory fs) ∧ (change new p t).at? q = some (.directory gs)) ∨
    (change new p t).at? q = t.at? q := by
  induction p generalizing t q with
  | nil => exact Or.inl ⟨q, rfl⟩
  | cons a p ih =>
    cases t with
    | file content written => exact Or.inr (Or.inr (by cases p <;> rfl))
    | link target => exact Or.inr (Or.inr (by cases p <;> rfl))
    | directory es =>
      cases q with
      | nil =>
        refine Or.inr (Or.inl ?_)
        by_cases hp : p = []
        · subst hp
          exact ⟨es, _, rfl, rfl⟩
        · rw [change_cons hp]
          cases es.lookup a with
          | none => exact ⟨es, _, rfl, rfl⟩
          | some n => exact ⟨es, _, rfl, rfl⟩
      | cons b q =>
        by_cases hp : p = []
        · subst hp
          rw [change, at?_directory_cons, at?_directory_cons, lookup_changeEntry]
          by_cases hb : b = a
          · exact Or.inl ⟨q, by rw [hb]; rfl⟩
          · exact Or.inr (Or.inr (by rw [if_neg hb]))
        · rw [change_cons hp]
          cases hn : es.lookup a with
          | none => exact Or.inr (Or.inr rfl)
          | some n =>
            dsimp only
            rw [at?_directory_cons, at?_directory_cons, lookup_changeEntry]
            by_cases hb : b = a
            · subst hb
              rw [if_pos rfl, hn]
              rcases ih n q with ⟨r, rfl⟩ | hway | hsame
              · exact Or.inl ⟨r, rfl⟩
              · exact Or.inr (Or.inl hway)
              · exact Or.inr (Or.inr hsame)
            · exact Or.inr (Or.inr (by rw [if_neg hb]))

/-- Below a place where there is nothing there is nothing. -/
theorem at?_append_of_missing {t : Node} {p : Place} (h : t.at? p = none) (r : Place) :
    t.at? (p ++ r) = none := by
  rw [at?_append, h, Option.bind_none]

/-- Whatever is put where there is nothing or a file, all directories and links
    are still there. -/
theorem keepsWays_change {t : Node} {p : Place} {es : List (String × Node)} {name : String}
    (h : t.at? p = some (.directory es))
    (hfile : ∀ n, es.lookup name = some n → n.isFile = true) (new : Option Node) :
    KeepsWays t (change new (p ++ [name]) t) := by
  intro q n hq hn
  rcases at?_change_cases h name new q with ⟨fs, gs, hfs, hgs⟩ | ⟨r, -, hbelow, -⟩ | hsame
  · rw [hfs] at hq
    cases hq
    exact ⟨_, hgs, trivial⟩
  · -- only a file can have been there, and nothing lies below a file
    rw [hbelow] at hq
    obtain ⟨m, hm, hr⟩ := Option.bind_eq_some_iff.1 hq
    have hm' := hfile m hm
    cases m with
    | file content written =>
      cases r with
      | nil =>
        cases hr
        cases hn
      | cons c r => cases hr
    | link target => cases hm'
    | directory fs => cases hm'
  · exact ⟨n, hsame.trans hq, SameKind.refl n⟩

end Node

/-! ## Following pieces -/

/-- What becomes of the way behind a link when `n` links may still be followed. -/
def followLink (top : Node) (follow : Bool) : Nat → Place → List String → Except Fault Place
  | 0 => fun _ _ => .error .tooManyLinks
  | n + 1 => walk top follow n

theorem walk_eq (top : Node) (follow : Bool) (n : Nat) :
    walk top follow n = walkPieces top follow (followLink top follow n) := by
  cases n <;> rfl

theorem walk_nil (top : Node) (follow : Bool) (n : Nat) (place : Place) :
    walk top follow n place [] = .ok place := by
  rw [walk_eq, walkPieces]

/-- What one piece does. -/
theorem walk_cons (top : Node) (follow : Bool) (n : Nat) (place : Place) (piece : String)
    (rest : List String) :
    walk top follow n place (piece :: rest) =
      match top.at? place with
      | none => .error .notFound
      | some (.directory entries) =>
        if piece = "" ∨ piece = "." then walk top follow n place rest
        else if piece = ".." then walk top follow n place.dropLast rest
        else if maxName < piece.utf8ByteSize then .error .nameTooLong
        else
          match entries.lookup piece with
          | none => if rest.isEmpty then .ok (place ++ [piece]) else .error .notFound
          | some (.link target) =>
            if rest.isEmpty && !follow then .ok (place ++ [piece])
            else followLink top follow n (if Path.isAbsolute target then [] else place)
              (Path.names target ++ rest)
          | some _ => walk top follow n (place ++ [piece]) rest
      | some _ => .error .notDirectory := by
  rw [walk_eq]
  rfl

/-- A piece that asks for an entry by its name. -/
def AsksByName (piece : String) : Prop :=
  ¬ (piece = "" ∨ piece = ".") ∧ piece ≠ ".." ∧ piece.utf8ByteSize ≤ maxName

instance (piece : String) : Decidable (AsksByName piece) :=
  inferInstanceAs (Decidable (_ ∧ _ ∧ _))

/-- The ways in which a piece leads from a directory to a place, with more pieces
    behind it. -/
inductive Leads (top : Node) (follow : Bool) (n : Nat) (place : Place)
    (es : List (String × Node)) (piece : String) (rest : List String) (q : Place) : Prop where
  | idle (h : piece = "" ∨ piece = ".") (hrest : walk top follow n place rest = .ok q)
  | parent (h : piece = "..") (hrest : walk top follow n place.dropLast rest = .ok q)
  /-- To an entry that is not there yet. -/
  | missing (h : AsksByName piece) (hentry : es.lookup piece = none) (hrest : rest = [])
      (hq : q = place ++ [piece])
  /-- To a link at the end of the way. -/
  | unfollowed (target : Path) (h : AsksByName piece)
      (hentry : es.lookup piece = some (.link target)) (hrest : rest = [])
      (hfollow : follow = false) (hq : q = place ++ [piece])
  | followed (target : Path) (h : AsksByName piece)
      (hentry : es.lookup piece = some (.link target)) (hmore : rest ≠ [] ∨ follow = true)
      (hrest : followLink top follow n (if Path.isAbsolute target then [] else place)
        (Path.names target ++ rest) = .ok q)
  | entry (m : Node) (h : AsksByName piece) (hentry : es.lookup piece = some m)
      (hlink : ∀ target, m ≠ .link target)
      (hrest : walk top follow n (place ++ [piece]) rest = .ok q)

/-- Pieces lead on from a directory only, and in one of these ways. -/
theorem walk_cons_eq_ok_iff {top : Node} {follow : Bool} {n : Nat} {place q : Place}
    {piece : String} {rest : List String} :
    walk top follow n place (piece :: rest) = .ok q ↔
      ∃ es, top.at? place = some (.directory es) ∧ Leads top follow n place es piece rest q := by
  rw [walk_cons]
  constructor
  · intro h
    split at h
    · cases h
    · next es hplace =>
      refine ⟨es, hplace, ?_⟩
      split at h
      · next hidle => exact .idle hidle h
      · next hidle =>
        split at h
        · next hparent => exact .parent hparent h
        · next hparent =>
          split at h
          · cases h
          · next hlong =>
            have hname : AsksByName piece := ⟨hidle, hparent, Nat.not_lt.1 hlong⟩
            split at h
            · next hentry =>
              split at h
              · next hrest =>
                cases h
                exact .missing hname hentry (List.isEmpty_iff.1 hrest) rfl
              · cases h
            · next target hentry =>
              split at h
              · next hlast =>
                cases h
                rw [Bool.and_eq_true, List.isEmpty_iff, Bool.not_eq_true'] at hlast
                exact .unfollowed target hname hentry hlast.1 hlast.2 rfl
              · next hmore =>
                refine .followed target hname hentry ?_ h
                by_cases hrest : rest = []
                · exact Or.inr (by simpa [hrest] using hmore)
                · exact Or.inl hrest
            · next m hlink hentry =>
              exact .entry m hname hentry (fun target heq => hlink target heq) h
    · cases h
  · rintro ⟨es, hplace, hleads⟩
    rw [hplace]
    cases hleads with
    | idle h hrest => simpa only [if_pos h] using hrest
    | parent h hrest =>
      subst h
      exact hrest
    | missing h hentry hrest hq =>
      subst hrest hq
      simp only [if_neg h.1, if_neg h.2.1, if_neg (Nat.not_lt.2 h.2.2), hentry]
      rfl
    | unfollowed target h hentry hrest hfollow hq =>
      subst hrest hq hfollow
      simp only [if_neg h.1, if_neg h.2.1, if_neg (Nat.not_lt.2 h.2.2), hentry]
      rfl
    | followed target h hentry hmore hrest =>
      have hlast : (rest.isEmpty && !follow) = false := by
        rcases hmore with hmore | hmore <;> simp [hmore]
      simp only [if_neg h.1, if_neg h.2.1, if_neg (Nat.not_lt.2 h.2.2), hentry, hlast,
        Bool.false_eq_true, if_false]
      exact hrest
    | entry m h hentry hlink hrest =>
      simp only [if_neg h.1, if_neg h.2.1, if_neg (Nat.not_lt.2 h.2.2), hentry]
      cases m with
      | link target => exact absurd rfl (hlink target)
      | file content written => exact hrest
      | directory fs => exact hrest

/-- From a place where there is nothing no piece leads on. -/
theorem walk_of_missing {top : Node} {place : Place} (h : top.at? place = none)
    (follow : Bool) (n : Nat) {pieces : List String} (hp : pieces ≠ []) :
    walk top follow n place pieces = .error .notFound := by
  cases pieces with
  | nil => exact absurd rfl hp
  | cons piece rest => rw [walk_cons, h]

/-- A piece that is no step leads on from a directory, to where the rest leads. -/
theorem walk_idle_cons {top : Node} {follow : Bool} {n : Nat} {place q : Place} {piece : String}
    (hidle : piece = "" ∨ piece = ".") {rest : List String} :
    walk top follow n place (piece :: rest) = .ok q ↔
      (∃ es, top.at? place = some (.directory es)) ∧ walk top follow n place rest = .ok q := by
  rw [walk_cons]
  split
  · next hnone => simp [hnone]
  · next es hes => simp [hes, if_pos hidle]
  · next m hno hm =>
    constructor
    · intro h
      cases h
    · rintro ⟨⟨es, hes⟩, -⟩
      exact (hno es (Option.some.inj (hm.symm.trans hes))).elim

/-- Pieces with more pieces behind them are followed in two stretches, if that
    holds behind links. -/
theorem walk_append_of_followLink {top : Node} {follow : Bool} {n : Nat}
    {after : List String} (hafter : after ≠ [])
    (hlink : ∀ place before, ∃ m, followLink top follow n place (before ++ after) =
      (followLink top true n place before).bind (fun q => walk top follow m q after))
    (place : Place) (before : List String) :
    ∃ m, walk top follow n place (before ++ after) =
      (walk top true n place before).bind (fun q => walk top follow m q after) := by
  induction before generalizing place with
  | nil => exact ⟨n, by rw [walk_nil]; rfl⟩
  | cons piece rest ih =>
    have hne : (rest ++ after).isEmpty = false := by simp [hafter]
    rw [List.cons_append, walk_cons, walk_cons]
    cases hplace : top.at? place with
    | none => exact ⟨0, rfl⟩
    | some node =>
      cases node with
      | file content written => exact ⟨0, rfl⟩
      | link target => exact ⟨0, rfl⟩
      | directory es =>
        simp only [hne, Bool.false_and, Bool.not_true, Bool.and_false, Bool.false_eq_true,
          if_false]
        split
        · exact ih place
        · split
          · exact ih place.dropLast
          · split
            · exact ⟨0, rfl⟩
            · cases hentry : es.lookup piece with
              | none =>
                -- the first stretch may end at an entry that is not there yet
                refine ⟨0, ?_⟩
                by_cases hrest : rest.isEmpty = true
                · have hmissing : top.at? (place ++ [piece]) = none := by
                    rw [Node.at?_snoc hplace, hentry]
                  rw [if_pos hrest]
                  exact (walk_of_missing hmissing follow 0 hafter).symm
                · rw [if_neg hrest]
                  rfl
              | some entry =>
                cases entry with
                | link target =>
                  have h := hlink (if Path.isAbsolute target then [] else place)
                    (Path.names target ++ rest)
                  rw [List.append_assoc] at h
                  exact h
                | file content written => exact ih (place ++ [piece])
                | directory fs => exact ih (place ++ [piece])

/-- Pieces with more pieces behind them are followed in two stretches. In the
    second one fewer links may be left to follow. -/
theorem walk_append (top : Node) (follow : Bool) (n : Nat) (place : Place)
    (before : List String) {after : List String} (hafter : after ≠ []) :
    ∃ m, walk top follow n place (before ++ after) =
      (walk top true n place before).bind (fun q => walk top follow m q after) := by
  induction n generalizing place before with
  | zero => exact walk_append_of_followLink hafter (fun _ _ => ⟨0, rfl⟩) place before
  | succ n ih =>
    have hlink : ∀ place before, ∃ m, followLink top follow (n + 1) place (before ++ after) =
        (followLink top true (n + 1) place before).bind (fun q => walk top follow m q after) := ih
    exact walk_append_of_followLink hafter hlink place before

/-- A last piece that is the name of an entry leads to its place, unless the
    entry is a link. -/
theorem walk_name {top : Node} {place : Place} {es : List (String × Node)} {name : String}
    (hplace : top.at? place = some (.directory es))
    (hlink : ∀ target, es.lookup name ≠ some (.link target))
    (hblank : ¬ (name = "" ∨ name = ".")) (hparent : name ≠ "..") (follow : Bool) (n : Nat) :
    walk top follow n place [name] =
      if maxName < name.utf8ByteSize then .error .nameTooLong else .ok (place ++ [name]) := by
  rw [walk_cons, hplace]
  simp only [if_neg hblank, if_neg hparent]
  split
  · rfl
  · cases hentry : es.lookup name with
    | none => rfl
    | some entry =>
      cases entry with
      | link target => exact absurd hentry (hlink target)
      | file content written => exact walk_nil ..
      | directory fs => exact walk_nil ..

/-! ## The same way in another tree -/

/-- Pieces that lead to a place lead there in any tree that keeps the ways and has
    no new link at the place, if that holds behind links. -/
theorem walk_keepsWays_of_followLink {t u : Node} (hways : Node.KeepsWays t u) {follow : Bool}
    {n : Nat} {q : Place}
    (hend : ∀ target, u.at? q = some (.link target) → t.at? q = some (.link target))
    (hlink : ∀ place pieces, followLink t follow n place pieces = .ok q →
      followLink u follow n place pieces = .ok q)
    {place : Place} {pieces : List String} (h : walk t follow n place pieces = .ok q) :
    walk u follow n place pieces = .ok q := by
  induction pieces generalizing place with
  | nil =>
    rw [walk_nil] at h ⊢
    exact h
  | cons piece rest ih =>
    obtain ⟨fs, hplace, hleads⟩ := walk_cons_eq_ok_iff.1 h
    obtain ⟨node, hplace', hkind⟩ := hways place _ hplace rfl
    obtain ⟨gs, rfl⟩ := Node.SameKind.directory_iff.1 hkind
    refine walk_cons_eq_ok_iff.2 ⟨gs, hplace', ?_⟩
    -- what is no file in the one directory is something of the same kind in the other
    have hentry : ∀ m, fs.lookup piece = some m → m.isFile = false →
        ∃ m', gs.lookup piece = some m' ∧ Node.SameKind m m' := by
      intro m hm hfile
      rw [← Node.at?_snoc hplace] at hm
      rw [← Node.at?_snoc hplace']
      exact hways _ m hm hfile
    -- where the way ends at an entry that is no link, it ends there in both
    have hstop : AsksByName piece → rest = [] → q = place ++ [piece] →
        (∀ target, fs.lookup piece ≠ some (.link target)) →
        Leads u follow n place gs piece rest q := by
      intro hname hrest hq hno
      cases hm : gs.lookup piece with
      | none => exact .missing hname hm hrest hq
      | some m =>
        refine .entry m hname hm ?_ (by rw [hrest, walk_nil, hq])
        rintro target rfl
        rw [← Node.at?_snoc hplace', ← hq] at hm
        have hold := hend target hm
        rw [hq, Node.at?_snoc hplace] at hold
        exact hno target hold
    cases hleads with
    | idle hidle hrest => exact .idle hidle (ih hrest)
    | parent hparent hrest => exact .parent hparent (ih hrest)
    | missing hname hnone hrest hq =>
      exact hstop hname hrest hq (fun target heq => by rw [hnone] at heq; cases heq)
    | unfollowed target hname hm hrest hfollow hq =>
      obtain ⟨m', hm', hsame⟩ := hentry _ hm rfl
      obtain rfl := Node.SameKind.link_iff.1 hsame
      exact .unfollowed target hname hm' hrest hfollow hq
    | followed target hname hm hmore hrest =>
      obtain ⟨m', hm', hsame⟩ := hentry _ hm rfl
      obtain rfl := Node.SameKind.link_iff.1 hsame
      exact .followed target hname hm' hmore (hlink _ _ hrest)
    | entry m hname hm hno hrest =>
      by_cases hfile : m.isFile = true
      · -- nothing leads on from a file
        cases rest with
        | nil =>
          rw [walk_nil] at hrest
          refine hstop hname rfl (Except.ok.inj hrest).symm (fun target heq => ?_)
          exact hno target (Option.some.inj (hm.symm.trans heq))
        | cons next rest =>
          obtain ⟨es, hes, -⟩ := walk_cons_eq_ok_iff.1 hrest
          rw [Node.at?_snoc hplace, hm] at hes
          cases hes
          cases hfile
      · obtain ⟨m', hm', hsame⟩ := hentry m hm (Bool.eq_false_iff.2 hfile)
        exact .entry m' hname hm' (hsame.not_link hno) (ih hrest)

/-- Pieces that lead to a place lead there in any tree that keeps the ways and has
    no new link at the place. -/
theorem walk_keepsWays {t u : Node} (hways : Node.KeepsWays t u) {follow : Bool} {n : Nat}
    {place : Place} {pieces : List String} {q : Place}
    (hend : ∀ target, u.at? q = some (.link target) → t.at? q = some (.link target))
    (h : walk t follow n place pieces = .ok q) : walk u follow n place pieces = .ok q := by
  induction n generalizing place pieces with
  | zero => exact walk_keepsWays_of_followLink hways hend (fun _ _ h => by cases h) h
  | succ n ih =>
    have hlink : ∀ place pieces, followLink t follow (n + 1) place pieces = .ok q →
        followLink u follow (n + 1) place pieces = .ok q := fun _ _ => ih
    exact walk_keepsWays_of_followLink hways hend hlink h

/-! ## Where a way ends -/

/-- A place where a way may end that follows links: a directory, or a place in
    one where no link is. -/
def IsEnd (top : Node) (q : Place) : Prop :=
  (∃ es, top.at? q = some (.directory es)) ∨
    ∃ p name es, q = p ++ [name] ∧ top.at? p = some (.directory es) ∧
      ∀ target, es.lookup name ≠ some (.link target)

/-- What a directory lies in is a directory. -/
theorem exists_directory_dropLast {top : Node} {place : Place} {es : List (String × Node)}
    (h : top.at? place = some (.directory es)) :
    ∃ fs, top.at? place.dropLast = some (.directory fs) := by
  rcases List.eq_nil_or_concat place with rfl | ⟨p, name, rfl⟩
  · exact ⟨es, h⟩
  · rw [List.concat_eq_append] at h ⊢
    rw [Node.at?_append] at h
    obtain ⟨m, hm, hentry⟩ := Option.bind_eq_some_iff.1 h
    obtain ⟨fs, -, rfl, -⟩ := Node.exists_of_at?_cons hentry
    rw [List.dropLast_concat]
    exact ⟨fs, hm⟩

/-- A way ends at such a place, if that holds behind links. -/
theorem isEnd_of_followLink {top : Node} {n : Nat} {q : Place}
    (hlink : ∀ place pieces, pieces ≠ [] → followLink top true n place pieces = .ok q →
      IsEnd top q)
    {place : Place} {pieces : List String} (hstart : pieces = [] → IsEnd top place)
    (h : walk top true n place pieces = .ok q) : IsEnd top q := by
  induction pieces generalizing place with
  | nil =>
    rw [walk_nil] at h
    exact Except.ok.inj h ▸ hstart rfl
  | cons piece rest ih =>
    obtain ⟨es, hplace, hleads⟩ := walk_cons_eq_ok_iff.1 h
    cases hleads with
    | idle hidle hrest => exact ih (fun _ => Or.inl ⟨es, hplace⟩) hrest
    | parent hparent hrest => exact ih (fun _ => Or.inl (exists_directory_dropLast hplace)) hrest
    | missing hname hnone hrest hq =>
      exact Or.inr ⟨place, piece, es, hq, hplace, fun target heq => by rw [hnone] at heq; cases heq⟩
    | unfollowed target hname hm hrest hfollow hq => cases hfollow
    | followed target hname hm hmore hrest =>
      exact hlink _ _ (List.append_ne_nil_of_left_ne_nil (Path.names_ne_nil target) rest) hrest
    | entry m hname hm hno hrest =>
      refine ih (fun _ => Or.inr ⟨place, piece, es, rfl, hplace, fun target heq => ?_⟩) hrest
      exact hno target (Option.some.inj (hm.symm.trans heq))

/-- A way of one piece at least ends at a directory, or in one where no link is. -/
theorem isEnd_of_walk {top : Node} {n : Nat} {place : Place} {pieces : List String} {q : Place}
    (hne : pieces ≠ []) (h : walk top true n place pieces = .ok q) : IsEnd top q := by
  induction n generalizing place pieces with
  | zero =>
    exact isEnd_of_followLink (fun _ _ _ h => by cases h) (fun hnil => absurd hnil hne) h
  | succ n ih =>
    have hlink : ∀ place pieces, pieces ≠ [] → followLink top true (n + 1) place pieces = .ok q →
        IsEnd top q := fun _ _ => ih
    exact isEnd_of_followLink hlink (fun hnil => absurd hnil hne) h

/-! ## A link at the end of the way -/

/-- Where a way leads that does not follow a link at its end: to the same place,
    or to the link; if that holds behind links. -/
theorem walk_unfollowed_of_followLink {top : Node} {n : Nat}
    (hlink : ∀ place pieces q, followLink top true n place pieces = .ok q →
      ∃ r, followLink top false n place pieces = .ok r ∧
        (r = q ∨ ∃ target, top.at? r = some (.link target)))
    {place : Place} {pieces : List String} {q : Place} (h : walk top true n place pieces = .ok q) :
    ∃ r, walk top false n place pieces = .ok r ∧
      (r = q ∨ ∃ target, top.at? r = some (.link target)) := by
  induction pieces generalizing place with
  | nil =>
    rw [walk_nil] at h ⊢
    exact ⟨q, h, Or.inl rfl⟩
  | cons piece rest ih =>
    obtain ⟨es, hplace, hleads⟩ := walk_cons_eq_ok_iff.1 h
    have hstep : ∀ {r}, Leads top false n place es piece rest r →
        walk top false n place (piece :: rest) = .ok r := fun hr =>
      walk_cons_eq_ok_iff.2 ⟨es, hplace, hr⟩
    cases hleads with
    | idle hidle hrest =>
      obtain ⟨r, hr, hcase⟩ := ih hrest
      exact ⟨r, hstep (.idle hidle hr), hcase⟩
    | parent hparent hrest =>
      obtain ⟨r, hr, hcase⟩ := ih hrest
      exact ⟨r, hstep (.parent hparent hr), hcase⟩
    | missing hname hnone hrest heq =>
      exact ⟨q, hstep (.missing hname hnone hrest heq), Or.inl rfl⟩
    | unfollowed target hname hm hrest hfollow heq => cases hfollow
    | followed target hname hm hmore hrest =>
      -- the way that stops at links goes on behind this one unless it is the last
      by_cases hlast : rest = []
      · refine ⟨place ++ [piece], hstep (.unfollowed target hname hm hlast rfl rfl), ?_⟩
        exact Or.inr ⟨target, (Node.at?_snoc hplace piece).trans hm⟩
      · obtain ⟨r, hr, hcase⟩ := hlink _ _ _ hrest
        exact ⟨r, hstep (.followed target hname hm (Or.inl hlast) hr), hcase⟩
    | entry m hname hm hno hrest =>
      obtain ⟨r, hr, hcase⟩ := ih hrest
      exact ⟨r, hstep (.entry m hname hm hno hr), hcase⟩

/-- A way that does not follow a link at its end leads to the same place, or to
    that link. -/
theorem walk_unfollowed {top : Node} {n : Nat} {place : Place} {pieces : List String}
    {q : Place} (h : walk top true n place pieces = .ok q) :
    ∃ r, walk top false n place pieces = .ok r ∧
      (r = q ∨ ∃ target, top.at? r = some (.link target)) := by
  induction n generalizing place pieces q with
  | zero => exact walk_unfollowed_of_followLink (fun _ _ _ h => by cases h) h
  | succ n ih =>
    have hlink : ∀ place pieces q, followLink top true (n + 1) place pieces = .ok q →
        ∃ r, followLink top false (n + 1) place pieces = .ok r ∧
          (r = q ∨ ∃ target, top.at? r = some (.link target)) := fun _ _ _ => ih
    exact walk_unfollowed_of_followLink hlink h

end WebBaseline.Files

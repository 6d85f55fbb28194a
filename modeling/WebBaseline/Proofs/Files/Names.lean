/-
  WebBaseline.Proofs.Files.Names

  Names of entries, in paths and in trees.

    * `IsName` says of a text that it can name an entry of a directory;
    * the pieces of a path that ends with a name are those of the path before it
      and the name (`names_entry`), and the name is what the path leads to
      (`fileName?_of_pieces`);
    * a tree is `wellNamed` if its entries have such names, no two entries of a
      directory the same one. Every tree that a file system holds is.
-/

import WebBaseline.Files.Disk

namespace WebBaseline.Files

/-! ## Names behind a path -/

namespace Path

/-- A text that can name an entry of a directory. -/
structure IsName (name : String) : Prop where
  not_idle : ¬ (name = "" ∨ name = ".")
  not_parent : name ≠ ".."
  no_slash : '/' ∉ name.toList
  no_nul : '\x00' ∉ name.toList

instance (name : String) : Decidable (IsName name) :=
  decidable_of_iff
    (¬ (name = "" ∨ name = ".") ∧ name ≠ ".." ∧ '/' ∉ name.toList ∧ '\x00' ∉ name.toList)
    ⟨fun ⟨h₁, h₂, h₃, h₄⟩ => ⟨h₁, h₂, h₃, h₄⟩, fun ⟨h₁, h₂, h₃, h₄⟩ => ⟨h₁, h₂, h₃, h₄⟩⟩

theorem pieces_ne_nil (cs : List Char) : pieces cs ≠ [] := by
  cases cs with
  | nil => simp [pieces]
  | cons c cs =>
    rw [pieces.eq_def]
    split
    · simp
    · simp
    · split <;> simp

theorem names_ne_nil (path : Path) : names path ≠ [] := fun h =>
  pieces_ne_nil path.toList (List.map_eq_nil_iff.1 h)

theorem pieces_cons_slash (cs : List Char) : pieces ('/' :: cs) = [] :: pieces cs := by
  rw [pieces]

theorem pieces_cons_of_ne {c : Char} (hc : c ≠ '/') (cs : List Char) :
    pieces (c :: cs) =
      match pieces cs with
      | [] => [[c]]
      | p :: ps => (c :: p) :: ps := by
  rw [pieces.eq_def]
  split
  · next h => cases h
  · next h =>
    cases h
    exact absurd rfl hc
  · next h =>
    cases h
    rfl

/-- A slash divides the pieces before it from those behind it. -/
theorem pieces_append_slash (cs ds : List Char) :
    pieces (cs ++ '/' :: ds) = pieces cs ++ pieces ds := by
  induction cs with
  | nil =>
    rw [List.nil_append, pieces_cons_slash]
    rfl
  | cons c cs ih =>
    rw [List.cons_append]
    by_cases hc : c = '/'
    · subst hc
      rw [pieces_cons_slash, pieces_cons_slash, ih, List.cons_append]
    · rw [pieces_cons_of_ne hc, pieces_cons_of_ne hc, ih]
      cases h : pieces cs with
      | nil => exact absurd h (pieces_ne_nil cs)
      | cons p ps => rfl

theorem pieces_of_no_slash {cs : List Char} (h : '/' ∉ cs) : pieces cs = [cs] := by
  induction cs with
  | nil => rfl
  | cons c cs ih =>
    rw [List.mem_cons, not_or] at h
    rw [pieces_cons_of_ne (Ne.symm h.1), ih h.2]

/-- What has no slash goes to the last piece. -/
theorem pieces_append_of_no_slash (cs : List Char) {ds : List Char} (h : '/' ∉ ds) :
    ∃ before last, pieces cs = before ++ [last] ∧ pieces (cs ++ ds) = before ++ [last ++ ds] := by
  induction cs with
  | nil => exact ⟨[], [], rfl, pieces_of_no_slash h⟩
  | cons c cs ih =>
    obtain ⟨before, last, hcs, hboth⟩ := ih
    rw [List.cons_append]
    by_cases hc : c = '/'
    · subst hc
      rw [pieces_cons_slash, pieces_cons_slash, hcs, hboth]
      exact ⟨[] :: before, last, rfl, rfl⟩
    · rw [pieces_cons_of_ne hc, pieces_cons_of_ne hc, hcs, hboth]
      cases before with
      | nil => exact ⟨[], c :: last, rfl, rfl⟩
      | cons p ps => exact ⟨(c :: p) :: ps, last, rfl, rfl⟩

theorem endsWith_slash_iff (path : Path) :
    path.endsWith "/" = true ↔ ∃ cs, path.toList = cs ++ ['/'] := by
  rw [← String.endsWith_toSlice, String.Slice.endsWith_string_iff, String.copy_toSlice]
  constructor
  · rintro ⟨cs, h⟩
    exact ⟨cs, h.symm⟩
  · rintro ⟨cs, h⟩
    exact ⟨cs, h.symm⟩

/-- The characters of the path of an entry: a slash stands before the name,
    whether or not the path of the directory ends with one. -/
theorem toList_entry {dir : Path} (hdir : dir ≠ "") (name : String) :
    ∃ cs, (entry dir name).toList = cs ++ '/' :: name.toList ∧
      (dir.toList = cs ∨ dir.toList = cs ++ ['/']) := by
  have hne : dir.isEmpty = false := by simpa using hdir
  rw [entry, hne, Bool.false_or]
  by_cases h : dir.endsWith "/" = true
  · obtain ⟨cs, hcs⟩ := (endsWith_slash_iff dir).1 h
    rw [if_pos h]
    exact ⟨cs, by simp [hcs], Or.inr hcs⟩
  · rw [if_neg h]
    exact ⟨dir.toList, by simp, Or.inl rfl⟩

/-- The path of an entry starts with that of the directory. -/
theorem exists_entry_eq_append (dir : Path) (name : String) :
    ∃ rest, entry dir name = dir ++ rest := by
  rw [entry]
  split
  · exact ⟨name, rfl⟩
  · exact ⟨"/" ++ name, by rw [String.append_assoc]⟩

/-- The pieces of the path of an entry: its name comes last, and before it the
    pieces of the directory, without a blank one at their end. -/
theorem names_entry {dir : Path} (hdir : dir ≠ "") {name : String} (hname : '/' ∉ name.toList) :
    ∃ before, before ≠ [] ∧ names (entry dir name) = before ++ [name] ∧
      (names dir = before ∨ names dir = before ++ [""]) := by
  obtain ⟨cs, hentry, hcs⟩ := toList_entry hdir name
  refine ⟨(pieces cs).map String.ofList, by simp [pieces_ne_nil], ?_, ?_⟩
  · rw [names, hentry, pieces_append_slash, pieces_of_no_slash hname, List.map_append]
    simp
  · rw [names]
    rcases hcs with hcs | hcs
    · exact Or.inl (by rw [hcs])
    · refine Or.inr ?_
      rw [hcs, pieces_append_slash, List.map_append]
      rfl

/-- Only the empty path is a single blank piece. -/
theorem eq_empty_of_names {path : Path} (h : names path = [""]) : path = "" := by
  rw [names, List.map_eq_singleton_iff] at h
  obtain ⟨p, hp, hempty⟩ := h
  have hnil : p = [] := by simpa using hempty
  subst hnil
  cases hcs : path.toList with
  | nil => simpa using hcs
  | cons c cs =>
    rw [hcs] at hp
    by_cases hc : c = '/'
    · subst hc
      rw [pieces_cons_slash] at hp
      exact absurd (List.cons.inj hp).2 (pieces_ne_nil cs)
    · rw [pieces_cons_of_ne hc] at hp
      cases h' : pieces cs with
      | nil => exact absurd h' (pieces_ne_nil cs)
      | cons q qs => simp [h'] at hp

/-! ## The name that a path leads to -/

theorem stepOf?_of_isName {name : String} (h : IsName name) :
    stepOf? name.toList = some (.name name) := by
  rw [stepOf?.eq_def]
  split
  · next hcs => exact absurd (Or.inl (by simpa using hcs)) h.not_idle
  · next hcs =>
    exact absurd (Or.inr (String.toList_injective hcs)) h.not_idle
  · next hcs => exact absurd (String.toList_injective hcs) h.not_parent
  · rw [String.ofList_toList]

/-- The last step of a path whose last piece is a name. -/
theorem fileName?_of_pieces {path : Path} {name : String} (h : IsName name)
    {before : List (List Char)} (hp : pieces path.toList = before ++ [name.toList]) :
    fileName? path = some name := by
  have hstep := stepOf?_of_isName h
  -- a piece that is no step cannot be the name
  have hidle : ∀ {p : List Char}, stepOf? p = none → p ≠ name.toList := by
    rintro p hp rfl
    rw [hstep] at hp
    cases hp
  have hend : ∀ (front : List Step) (mid : List (List Char)),
      (front ++ (mid ++ [name.toList]).filterMap stepOf?).getLast? = some (.name name) := by
    intro front mid
    rw [List.filterMap_append, List.filterMap_cons, hstep, ← List.append_assoc]
    exact List.getLast?_concat
  have hlast : (steps path).getLast? = some (.name name) := by
    rw [steps, hp]
    split
    · next hnil => simp at hnil
    · next hblank =>
      cases before with
      | nil => exact absurd (List.cons.inj hblank).1.symm (hidle rfl)
      | cons first mid => simp at hblank
    · next rest hroot hcons =>
      cases before with
      | nil => exact absurd (List.cons.inj hcons).1.symm (hidle rfl)
      | cons first mid =>
        rw [show rest = mid ++ [name.toList] from (List.cons.inj hcons).2.symm]
        exact hend [_] mid
    · next rest hcons =>
      cases before with
      | nil => exact absurd (List.cons.inj hcons).1.symm (hidle rfl)
      | cons first mid =>
        rw [show rest = mid ++ [name.toList] from (List.cons.inj hcons).2.symm]
        exact hend [_] mid
    · next hcons =>
      rw [← hcons]
      exact hend [] before
  rw [fileName?, hlast]

/-- The extension of a name: what has no dot behind a dot that does not stand
    first. -/
theorem splitName_eq_some_iff (name e : String) :
    (splitName name).2 = some e ↔
      '.' ∉ e.toList ∧ ∃ front, front ≠ [] ∧ name.toList = front ++ '.' :: e.toList := by
  -- the name is read from its end
  have hnot : ∀ cs : List Char, ∀ c ∈ cs.takeWhile (· ≠ '.'), c ≠ '.' := fun cs c hc => by
    simpa using (List.all_eq_true.1 (List.all_takeWhile (p := (· ≠ '.')) (l := cs))) c hc
  constructor
  · intro h
    rw [splitName] at h
    split at h
    · next c before hback =>
      obtain rfl := Option.some.inj h
      rw [String.toList_ofList]
      refine ⟨fun hdot => hnot _ _ (List.mem_reverse.1 hdot) rfl, (c :: before).reverse,
        by simp, ?_⟩
      have hname := List.takeWhile_append_dropWhile (p := (· ≠ '.')) (l := name.toList.reverse)
      rw [hback] at hname
      have hreverse := congrArg List.reverse hname
      rw [List.reverse_reverse] at hreverse
      refine hreverse.symm.trans ?_
      rw [List.reverse_append, List.reverse_cons, List.append_assoc, List.singleton_append]
    · cases h
  · rintro ⟨hdot, front, hfront, hname⟩
    have hreverse : name.toList.reverse = e.toList.reverse ++ '.' :: front.reverse := by
      rw [hname]
      simp
    have hall : ∀ c ∈ e.toList.reverse, decide (c ≠ '.') = true := by
      intro c hc
      refine decide_eq_true ?_
      rintro rfl
      exact hdot (List.mem_reverse.1 hc)
    have hafter : name.toList.reverse.takeWhile (· ≠ '.') = e.toList.reverse := by
      rw [hreverse, List.takeWhile_append_of_pos hall, List.takeWhile_cons_of_neg (by simp),
        List.append_nil]
    have hback : name.toList.reverse.dropWhile (· ≠ '.') = '.' :: front.reverse := by
      rw [hreverse, List.dropWhile_append_of_pos hall, List.dropWhile_cons_of_neg (by simp)]
    obtain ⟨c, before, hcons⟩ := List.exists_cons_of_ne_nil
      (show front.reverse ≠ [] by simpa using hfront)
    rw [splitName]
    simp only [hafter, hback, hcons, List.reverse_reverse, String.ofList_toList]

/-- The extension of a path whose last piece is a name. -/
theorem extension?_of_pieces {path : Path} {name : String} (h : IsName name)
    {before : List (List Char)} (hp : pieces path.toList = before ++ [name.toList]) :
    extension? path = (splitName name).2 := by
  rw [extension?, fileName?_of_pieces h hp, Option.bind_some]

theorem extension?_of_isName {name : String} (h : IsName name) :
    extension? name = (splitName name).2 := by
  have hself : pieces name.toList = [] ++ [name.toList] := pieces_of_no_slash h.no_slash
  exact extension?_of_pieces h hself

end Path

/-! ## Trees -/

namespace Node

mutual

/-- Whether all entries in a tree have names, and different ones in each
    directory. -/
def wellNamed : Node → Bool
  | file _ _ => true
  | link _ => true
  | directory es => wellNamedAmong es

/-- The same for the entries of one directory. -/
def wellNamedAmong : List (String × Node) → Bool
  | [] => true
  | (name, n) :: rest =>
    decide (Path.IsName name) && (rest.lookup name).isNone && wellNamed n && wellNamedAmong rest

end

theorem wellNamedAmong_cons_iff {name : String} {n : Node} {rest : List (String × Node)} :
    wellNamedAmong ((name, n) :: rest) = true ↔
      Path.IsName name ∧ rest.lookup name = none ∧ wellNamed n = true ∧
        wellNamedAmong rest = true := by
  rw [wellNamedAmong]
  simp only [Bool.and_eq_true, decide_eq_true_eq, Option.isNone_iff_eq_none, and_assoc]

/-- An entry of a well-named directory has a name and is well-named. -/
theorem wellNamed_of_lookup {es : List (String × Node)} (hes : wellNamedAmong es = true)
    {name : String} {n : Node} (h : es.lookup name = some n) :
    Path.IsName name ∧ wellNamed n = true := by
  induction es with
  | nil => cases h
  | cons e rest ih =>
    obtain ⟨k, m⟩ := e
    obtain ⟨hk, -, hm, hrest⟩ := wellNamedAmong_cons_iff.1 hes
    rw [Data.KeyMap.lookup_cons_eq_ite] at h
    split at h
    · next heq =>
      cases h
      exact ⟨heq ▸ hk, hm⟩
    · exact ih hrest h

/-- Whatever lies in a well-named tree lies there under names. -/
theorem isName_of_at? {t n : Node} (ht : t.wellNamed = true) {p : Place} (h : t.at? p = some n) :
    ∀ name ∈ p, Path.IsName name := by
  induction p generalizing t with
  | nil => simp
  | cons a p ih =>
    rw [at?] at h
    obtain ⟨m, hm, hn⟩ := Option.bind_eq_some_iff.1 h
    cases t with
    | file content written => cases hm
    | link target => cases hm
    | directory es =>
      obtain ⟨ha, hwell⟩ := wellNamed_of_lookup ht hm
      intro name hname
      rcases List.mem_cons.1 hname with rfl | hname
      · exact ha
      · exact ih hwell hn name hname

theorem nodup_keys {es : List (String × Node)} (hes : wellNamedAmong es = true) :
    (es.map Prod.fst).Nodup := by
  induction es with
  | nil => exact List.nodup_nil
  | cons e rest ih =>
    obtain ⟨name, n⟩ := e
    obtain ⟨-, hfresh, -, hrest⟩ := wellNamedAmong_cons_iff.1 hes
    rw [List.map_cons, List.nodup_cons]
    refine ⟨fun hname => ?_, ih hrest⟩
    obtain ⟨x, hx, rfl⟩ := List.mem_map.1 hname
    have hne := List.lookup_eq_none_iff.1 hfresh x hx
    simp at hne

/-! ## Trees in another order -/

mutual

/-- Whether two trees are the same but for the order that directories have their
    entries in, and for when files were written. -/
def SameTree : Node → Node → Prop
  | file content _, file content' _ => content = content'
  | link target, link target' => target = target'
  | directory es, directory fs => ∃ gs, SameEntries es gs ∧ gs.Perm fs
  | _, _ => False

/-- The same for entries that are in the same order. -/
def SameEntries : List (String × Node) → List (String × Node) → Prop
  | [], [] => True
  | (name, n) :: es, (other, m) :: fs => name = other ∧ SameTree n m ∧ SameEntries es fs
  | _, _ => False

end

section SameTree

variable {es fs : List (String × Node)}

/-- What two trees are that are the same. -/
theorem SameTree.cases {t u : Node} (h : SameTree t u) :
    (∃ content written written', t = .file content written ∧ u = .file content written') ∨
    (∃ target, t = .link target ∧ u = .link target) ∨
    (∃ es gs fs, t = .directory es ∧ u = .directory fs ∧ SameEntries es gs ∧ gs.Perm fs) := by
  rw [SameTree.eq_def] at h
  split at h
  · next content written content' written' =>
    subst h
    exact Or.inl ⟨content, written, written', rfl, rfl⟩
  · next target target' =>
    subst h
    exact Or.inr (Or.inl ⟨target, rfl, rfl⟩)
  · next es fs =>
    obtain ⟨gs, hsame, hperm⟩ := h
    exact Or.inr (Or.inr ⟨es, gs, fs, rfl, rfl, hsame, hperm⟩)
  · exact h.elim

theorem SameEntries.keys (h : SameEntries es fs) : es.map Prod.fst = fs.map Prod.fst := by
  induction es generalizing fs with
  | nil =>
    rw [SameEntries.eq_def] at h
    split at h
    · rfl
    · next heq => cases heq
    · exact h.elim
  | cons e es ih =>
    rw [SameEntries.eq_def] at h
    split at h
    · next heq => cases heq
    · next heq =>
      cases heq
      obtain ⟨rfl, -, hrest⟩ := h
      exact congrArg (_ :: ·) (ih hrest)
    · exact h.elim

theorem SameEntries.lookup (h : SameEntries es fs) (name : String) :
    Option.Rel SameTree (es.lookup name) (fs.lookup name) := by
  induction es generalizing fs with
  | nil =>
    rw [SameEntries.eq_def] at h
    split at h
    · exact .none
    · next heq => cases heq
    · exact h.elim
  | cons e es ih =>
    rw [SameEntries.eq_def] at h
    split at h
    · next heq => cases heq
    · next heq =>
      cases heq
      obtain ⟨rfl, hsame, hrest⟩ := h
      rw [Data.KeyMap.lookup_cons_eq_ite, Data.KeyMap.lookup_cons_eq_ite]
      split
      · exact .some hsame
      · exact ih hrest
    · exact h.elim

/-- At each place there is the same in both trees. -/
theorem SameTree.at? {t u : Node} (h : SameTree t u) (ht : t.wellNamed = true) (p : Place) :
    Option.Rel SameTree (t.at? p) (u.at? p) := by
  induction p generalizing t u with
  | nil => exact .some h
  | cons name p ih =>
    rcases h.cases with ⟨content, written, written', rfl, rfl⟩ | ⟨target, rfl, rfl⟩ |
      ⟨es, gs, fs, rfl, rfl, hsame, hperm⟩
    · exact .none
    · exact .none
    · -- the order of entries does not matter for what is under a name
      have hkeys : (gs.map Prod.fst).Nodup := hsame.keys ▸ nodup_keys ht
      have hentry := hsame.lookup name
      rw [Data.KeyMap.lookup_perm hperm hkeys] at hentry
      rw [at?_directory_cons, at?_directory_cons]
      generalize hn : es.lookup name = n at hentry ⊢
      generalize fs.lookup name = m at hentry ⊢
      cases hentry with
      | none => exact .none
      | some hnm => exact ih hnm (wellNamed_of_lookup ht hn).2

theorem SameTree.exists_file_iff {t u : Node} (h : SameTree t u) (ht : t.wellNamed = true)
    (p : Place) :
    (∃ content written, t.at? p = some (.file content written)) ↔
      ∃ content written, u.at? p = some (.file content written) := by
  have hat := h.at? ht p
  generalize t.at? p = n at hat ⊢
  generalize u.at? p = m at hat ⊢
  cases hat with
  | none => simp
  | some hnm =>
    rcases hnm.cases with ⟨content, written, written', rfl, rfl⟩ | ⟨target, rfl, rfl⟩ |
      ⟨es, gs, fs, rfl, rfl, -, -⟩
    · simp
    · simp
    · simp

end SameTree

end Node

end WebBaseline.Files

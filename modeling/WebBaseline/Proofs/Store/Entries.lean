/-
  WebBaseline.Proofs.Store.Entries

  What each call of a cache makes of the entries of its directory.

    * the entries are `Orderly`: files in the order of their names, none of them
      too long; every call keeps them so;
    * `exists_set` writes one entry, if its name is not too long, and concerns no
      other file of the disk;
    * `get_fst` reads one entry;
    * `exists_clear` takes away the entries whose names have the ending behind
      something else (`isEntryName_iff`). The name for the empty key has nothing in
      front of the ending (`isEntryName_fileName_iff`), so that entry stays.
-/

import WebBaseline.Proofs.Data.KeyMap
import WebBaseline.Proofs.Store.DiskCache

namespace WebBaseline.Store

open WebBaseline.Data (InOrder KeyMap)
open WebBaseline.Files (AsksByName Disk Node Path Place maxLinks walk)
open WebBaseline.Json (Value)

namespace DiskCache

/-! ## Names with the ending -/

/-- Whether a name ends like those of the files that hold values. -/
def HasEnding (name : String) : Prop := ".json".toList <:+ name.toList

instance (name : String) : Decidable (HasEnding name) :=
  inferInstanceAs (Decidable (_ <:+ _))

theorem hasEnding_fileName (key : String) : HasEnding (fileName key) :=
  ⟨(safeName key).toList, (toList_fileName key).symm⟩

/-- Names count as entries if something stands in front of the ending. -/
theorem isEntryName_iff {name : String} (hname : Path.IsName name) :
    isEntryName name = true ↔ HasEnding name ∧ name ≠ ".json" := by
  have hdots : '.' ∉ ending.toList := by decide
  have hending : '.' :: ending.toList = ".json".toList := rfl
  rw [isEntryName, beq_iff_eq, Path.extension?_of_isName hname, Path.splitName_eq_some_iff,
    and_iff_right hdots, hending]
  constructor
  · rintro ⟨front, hfront, hlist⟩
    refine ⟨⟨front, hlist.symm⟩, ?_⟩
    rintro rfl
    exact hfront (List.append_cancel_right (hlist.symm.trans (List.nil_append _).symm))
  · rintro ⟨⟨front, hlist⟩, hne⟩
    refine ⟨front, ?_, hlist.symm⟩
    rintro rfl
    exact hne (String.toList_injective hlist.symm)

/-- Only the empty key has a file with nothing in front of the ending. -/
theorem fileName_eq_ending_iff {key : String} : fileName key = ".json" ↔ key = "" := by
  constructor
  · intro h
    have hlist := toList_fileName key
    rw [h] at hlist
    have hsafe : (safeName key).toList = [] :=
      List.append_cancel_right (hlist.symm.trans (List.nil_append _).symm)
    rw [safeName, String.toList_ofList, List.map_eq_nil_iff] at hsafe
    exact String.toList_injective hsafe
  · rintro rfl
    decide

theorem isEntryName_fileName_iff {key : String} :
    isEntryName (fileName key) = true ↔ key ≠ "" := by
  rw [isEntryName_iff (isName_fileName key), and_iff_right (hasEnding_fileName key), Ne,
    fileName_eq_ending_iff]

theorem length_le_utf8ByteSize (cs : List Char) :
    cs.length ≤ (String.ofList cs).utf8ByteSize := by
  induction cs with
  | nil => exact Nat.zero_le _
  | cons c cs ih =>
    have hsize := Char.utf8Size_pos c
    rw [String.ofList_cons, String.utf8ByteSize_append, String.utf8ByteSize_singleton,
      List.length_cons]
    omega

/-- The file of a key of more than 250 characters has too long a name. -/
theorem not_fits_of_long (dir : Path) {key : String} (h : 250 < key.toList.length) :
    ¬ Disk.Fits dir (fileName key) := by
  rintro ⟨hshort, -⟩
  have hsize := length_le_utf8ByteSize (fileName key).toList
  rw [String.ofList_toList, toList_fileName, List.length_append, safeName, String.toList_ofList,
    List.length_map] at hsize
  have hending : ".json".toList.length = 5 := rfl
  have hmax : Files.maxName = 255 := rfl
  omega

/-! ## Orderly entries -/

/-- Entries as the calls of a cache leave them: files in the order of their names,
    none of which is too long. -/
structure Orderly (dir : Path) (es : List (String × Node)) : Prop where
  inOrder : InOrder es
  onlyFiles : OnlyFiles es
  named : ∀ name n, es.lookup name = some n → Path.IsName name ∧ Disk.Fits dir name

namespace Orderly

variable {dir : Path} {es : List (String × Node)}

theorem nil : Orderly dir [] :=
  ⟨List.Pairwise.nil, fun _ _ h => (nomatch h), fun _ _ h => (nomatch h)⟩

/-- A file is written. -/
theorem put (h : Orderly dir es) {name : String} (hname : Path.IsName name)
    (hfits : Disk.Fits dir name) (content : ByteArray) (written : Nat) :
    Orderly dir (Node.changeEntry name (some (.file content written)) es) := by
  refine ⟨KeyMap.inOrder_put _ _ h.inOrder, h.onlyFiles.changeEntry name content written, ?_⟩
  intro other n hn
  rw [Node.lookup_changeEntry] at hn
  split at hn
  · next heq =>
    rw [heq]
    exact ⟨hname, hfits⟩
  · exact h.named other n hn

/-- Some files are taken away. -/
theorem filter (h : Orderly dir es) (p : String → Bool) :
    Orderly dir (es.filter (fun e => p e.1)) := by
  have hsub : ∀ {name n}, (es.filter (fun e => p e.1)).lookup name = some n →
      es.lookup name = some n := by
    intro name n hn
    rw [KeyMap.lookup_filter_key] at hn
    split at hn
    · exact hn
    · cases hn
  exact ⟨List.Pairwise.filter _ h.inOrder, fun name n hn => h.onlyFiles name n (hsub hn),
    fun name n hn => h.named name n (hsub hn)⟩

theorem nodup_names (h : Orderly dir es) : (es.map Prod.fst).Nodup :=
  KeyMap.nodup_of_inOrder h.inOrder

/-- What is found under a name is a file. -/
theorem exists_file (h : Orderly dir es) {name : String} {n : Node}
    (hn : es.lookup name = some n) : ∃ content written, n = .file content written := by
  have hfile := h.onlyFiles name n hn
  cases n with
  | file content written => exact ⟨content, written, rfl⟩
  | link target => cases hfile
  | directory fs => cases hfile

end Orderly

/-! ## A directory that is missing -/

/-- A directory is made where the first name on the way to it is missing in one that
    is there. -/
theorem holds_of_missing {d : Disk} {dir : Path} {front : List String} {name : String}
    {more : List String} {p : Place} {es : List (String × Node)}
    (hok : Disk.namesOf dir = .ok (front ++ name :: more))
    (hnames : ∀ m ∈ name :: more, AsksByName m)
    (hfront : walk d.top true maxLinks (d.start (front ++ [name])) front = .ok p)
    (hp : d.top.at? p = some (.directory es)) (hmissing : es.lookup name = none) :
    Holds d dir [] := by
  obtain ⟨hhas, made, hmade, hhere, hway, hat⟩ :=
    Disk.exists_tryDirectories_missing hok hnames hfront hp hmissing
  have hpieces := (Disk.namesOf_eq_ok_iff.1 hok).2.2.2
  have hplace : made.place true dir = .ok (p ++ name :: more) := by
    refine Disk.place_eq_ok_iff.2 ⟨hpieces ▸ hok, ?_⟩
    rw [hpieces, Disk.start_of_here hhere, Disk.start_of_name d (hnames name List.mem_cons_self)]
    exact hway
  exact Or.inr ⟨rfl, hhas, made, p ++ name :: more, Disk.makeDirectories_eq_ok_iff.2 hmade,
    hplace, hat⟩

section Holds

variable {d : Disk} {dir : Path} {es : List (String × Node)}

/-- What can be read in the directory is what is in it. -/
theorem Orderly.node_eq_ok_iff (hes : Orderly dir es) (h : Holds d dir es) {name : String}
    (hname : Path.IsName name) (n : Node) :
    d.node (Path.entry dir name) = .ok n ↔ es.lookup name = some n := by
  cases hentry : es.lookup name with
  | none => exact iff_of_false (h.node_ne_ok hes.onlyFiles hname hentry n) (fun heq => nomatch heq)
  | some m =>
    rw [h.node_of_file hes.onlyFiles hname (hes.named name m hentry).2 hentry]
    simp

end Holds

section Calls

variable {c : DiskCache} {d : Disk} {es : List (String × Node)}

/-! ## Writing -/

theorem set_ok_iff (h : Holds d c.dir es) (hes : OnlyFiles es) (key : String) (value : Value) :
    (c.set key value d).1 = .ok () ↔ Disk.Fits c.dir (fileName key) := by
  obtain ⟨made, p, -, -, -, hset⟩ := exists_set h hes key value
  rw [hset]
  split
  · next hfits => exact iff_of_true rfl hfits
  · next hlong => exact iff_of_false (fun heq => nomatch heq) hlong

/-! ## Reading -/

/-- Whether the file of a key, if there is one, still counts. -/
def FindsFresh (c : DiskCache) (key : String) (d : Disk) : Prop :=
  ∀ content written, d.node (c.path key) = .ok (.file content written) →
    c.isExpired written d.now = false

/-- Only what has expired is removed when it is looked up. -/
theorem get_snd {α : Type} (read : Value → Option α) {key : String} (h : c.FindsFresh key d) :
    (c.get read key d).2 = d := by
  rw [get]
  split
  · next content written hnode =>
    rw [h content written hnode]
    rfl
  · rfl

/-- The value of an entry at a time. -/
def valueAt {α : Type} (c : DiskCache) (read : Value → Option α) (now : Nat) :
    Option Node → Option α
  | some (.file content written) =>
    if c.isExpired written now then none else valueOf? read content
  | _ => none

theorem get_fst {α : Type} (h : Holds d c.dir es) (hes : Orderly c.dir es)
    (read : Value → Option α) (key : String) :
    (c.get read key d).1 = c.valueAt read d.now (es.lookup (fileName key)) := by
  cases hn : es.lookup (fileName key) with
  | none =>
    rw [get_of_lookup_eq_none h hes.onlyFiles read hn]
    rfl
  | some n =>
    obtain ⟨hname, hfits⟩ := hes.named _ n hn
    obtain ⟨content, written, rfl⟩ := hes.exists_file hn
    rw [get, path, h.node_of_file hes.onlyFiles hname hfits hn, valueAt]
    dsimp only
    split <;> rfl

/-! ## Clearing -/

/-- Entries are removed one after the other, each of them by its name. -/
theorem exists_removeAll {p : Place} {names : List String} (hnames : names.Nodup)
    (h : d.LeadsTo c.dir p es) (hes : Orderly c.dir es)
    (hall : ∀ name ∈ names, ∃ n, es.lookup name = some n) :
    ∃ after, c.removeAll names d = (names.length, after) ∧
      after.LeadsTo c.dir p (es.filter (fun e => decide (e.1 ∉ names))) ∧
      Disk.SameBut (fun q => ∃ name ∈ names, q = p ++ [name]) d after := by
  induction names generalizing d es with
  | nil =>
    have hfilter : es.filter (fun e => decide (e.1 ∉ ([] : List String))) = es :=
      List.filter_eq_self.2 (by simp)
    rw [hfilter]
    exact ⟨d, rfl, h, Disk.SameBut.refl _ d⟩
  | cons name names ih =>
    obtain ⟨hfresh, hnames⟩ := List.nodup_cons.1 hnames
    obtain ⟨⟨n, hn⟩, hall⟩ := List.forall_mem_cons.1 hall
    obtain ⟨hname, hfits⟩ := hes.named name n hn
    have hfile := hes.onlyFiles name
    obtain ⟨content, written, rfl⟩ := hes.exists_file hn
    have hremove := h.removeFile_entry hname hfits hn
    have hleads := h.change hfile none
    have hrest : ∀ other ∈ names, ∃ m, (Node.changeEntry name none es).lookup other = some m := by
      intro other hother
      have hne : other ≠ name := fun heq => hfresh (heq ▸ hother)
      rw [Node.lookup_changeEntry, if_neg hne]
      exact hall other hother
    obtain ⟨after, hafter, hleads, hsame⟩ := ih hnames hleads (hes.filter (· != name)) hrest
    refine ⟨after, ?_, ?_, ?_⟩
    · rw [removeAll, hremove]
      simp only [hafter, List.length_cons]
    · have hboth : (Node.changeEntry name none es).filter (fun e => decide (e.1 ∉ names)) =
          es.filter (fun e => decide (e.1 ∉ name :: names)) := by
        rw [Node.changeEntry, List.filter_filter]
        refine List.filter_congr fun e _ => ?_
        by_cases heq : e.1 = name <;> simp [heq]
      rw [← hboth]
      exact hleads
    · have hone := Disk.sameBut_change h.2 hfile none (fun n hn => nomatch hn)
      refine (hone.mono ?_).trans (hsame.mono ?_)
      · rintro q rfl
        exact ⟨name, List.mem_cons_self, rfl⟩
      · rintro q ⟨other, hother, rfl⟩
        exact ⟨other, List.mem_cons_of_mem _ hother, rfl⟩

/-- The entries that clearing takes away. -/
def cleared (es : List (String × Node)) : List (String × Node) :=
  es.filter (fun e => isEntryName e.1)

/-- The entries that clearing leaves. -/
def uncleared (es : List (String × Node)) : List (String × Node) :=
  es.filter (fun e => !isEntryName e.1)

theorem lookup_uncleared (es : List (String × Node)) (name : String) :
    (uncleared es).lookup name = if isEntryName name then none else es.lookup name := by
  rw [uncleared, KeyMap.lookup_filter_key (fun name => !isEntryName name)]
  cases isEntryName name <;> rfl

theorem Orderly.uncleared {dir : Path} (h : Orderly dir es) : Orderly dir (uncleared es) :=
  h.filter (fun name => !isEntryName name)

theorem mem_cleared_iff {dir : Path} (h : Orderly dir es) (name : String) :
    name ∈ (cleared es).map Prod.fst ↔
      (HasEnding name ∧ ∃ n, es.lookup name = some n) ∧ name ≠ ".json" := by
  rw [List.mem_map]
  constructor
  · rintro ⟨⟨_, n⟩, he, rfl⟩
    obtain ⟨he, hentry⟩ := List.mem_filter.1 he
    have hn := (KeyMap.lookup_eq_some_iff_mem h.nodup_names).2 he
    obtain ⟨hending, hne⟩ := (isEntryName_iff (h.named _ n hn).1).1 hentry
    exact ⟨⟨hending, n, hn⟩, hne⟩
  · rintro ⟨⟨hending, n, hn⟩, hne⟩
    have hentry := (isEntryName_iff (h.named _ n hn).1).2 ⟨hending, hne⟩
    have he := (KeyMap.lookup_eq_some_iff_mem h.nodup_names).1 hn
    exact ⟨(name, n), List.mem_filter.2 ⟨he, hentry⟩, rfl⟩

/-- Whether a place is that of an entry of the directory with the given name. -/
def IsEntryPlace (d : Disk) (dir : Path) (name : String) (q : Place) : Prop :=
  ∃ p es, d.LeadsTo dir p es ∧ q = p ++ [name]

/-- Clearing takes away the entries whose names count, counts them, and concerns no
    other file of the disk. -/
theorem exists_clear (h : Holds d c.dir es) (hes : Orderly c.dir es) :
    ∃ after, c.clear d = .ok ((cleared es).length, after) ∧ Holds after c.dir (uncleared es) ∧
      Disk.SameBut (fun q => ∃ name ∈ (cleared es).map Prod.fst, IsEntryPlace d c.dir name q)
        d after := by
  rcases h with ⟨p, h⟩ | ⟨rfl, hhas, hmade⟩
  · have hnode : d.node c.dir = .ok (.directory es) := Disk.node_eq_ok_iff.2 ⟨p, h⟩
    have hhas : d.has c.dir = true := by rw [Disk.has, hnode]; rfl
    have hlist : d.list c.dir = .ok es := by simp only [Disk.list, bind, Except.bind, hnode]
    have hnames : (es.map Prod.fst).filter isEntryName = (cleared es).map Prod.fst :=
      List.filter_map
    have hnodup : ((cleared es).map Prod.fst).Nodup := (hes.filter isEntryName).nodup_names
    obtain ⟨after, hremove, hleads, hsame⟩ := exists_removeAll (c := c) hnodup h hes
      (fun name hname => ((mem_cleared_iff hes name).1 hname).1.2)
    refine ⟨after, ?_, Or.inl ⟨p, ?_⟩, hsame.mono ?_⟩
    · rw [clear, if_pos hhas, hlist]
      simp only [bind, Except.bind, pure, Except.pure, hnames]
      exact congrArg Except.ok (hremove.trans (by rw [List.length_map]))
    · have hfilter : es.filter (fun e => decide (e.1 ∉ (cleared es).map Prod.fst)) =
          uncleared es := by
        refine List.filter_congr fun e he => ?_
        have hname : e.1 ∈ es.map Prod.fst := List.mem_map_of_mem he
        rw [← hnames]
        simp [List.mem_filter, hname]
      rw [← hfilter]
      exact hleads
    · rintro q ⟨name, hname, rfl⟩
      exact ⟨name, hname, p, es, h, rfl⟩
  · refine ⟨d, ?_, Or.inr ⟨rfl, hhas, hmade⟩, Disk.SameBut.refl _ d⟩
    rw [clear, hhas, if_neg Bool.false_ne_true]
    rfl

end Calls

end DiskCache

end WebBaseline.Store

/-
  WebBaseline.Proofs.Store.DiskCache

  What a cache reads and writes, in terms of the files in its directory.

    * a directory `Holds` files: it is there with them, or it is missing and
      would be made;
    * `get_of_lookup_eq_some` reads one of these files, and `holds_set` says
      what they are after one was written, if its name is not too long;
    * a value that is written is read back (`valueOf?_toUTF8`).

  Keys with the same file name share a file, so a value may be read under
  another key than it was written under.
-/

import WebBaseline.Proofs.Files.SameFiles
import WebBaseline.Proofs.Files.Write
import WebBaseline.Proofs.Json.Record
import WebBaseline.Store.DiskCache

namespace WebBaseline.Store

open WebBaseline.Data (KeyMap)
open WebBaseline.Files (Disk Node Path Place fromUTF8?_toUTF8)
open WebBaseline.Json (Inverse Value)

namespace DiskCache

/-- A value that is written is read back. -/
theorem valueOf?_toUTF8 {α : Type} {write : α → Value} {read : Value → Option α}
    (h : Inverse write read) (a : α) : valueOf? read (write a).compact.toUTF8 = some a := by
  rw [valueOf?, fromUTF8?_toUTF8, Option.bind_some]
  exact h.parse_compact a

/-! ## Names of files -/

theorem mem_safeName {key : String} {c : Char} (h : c ∈ (safeName key).toList) :
    isSafe c = true ∨ c = '_' := by
  rw [safeName, String.toList_ofList] at h
  obtain ⟨k, -, hk⟩ := List.mem_map.1 h
  split at hk
  · next hsafe => exact Or.inl (hk ▸ hsafe)
  · exact Or.inr hk.symm

theorem toList_fileName (key : String) :
    (fileName key).toList = (safeName key).toList ++ ".json".toList := by
  rw [fileName, ending, String.toList_append, String.toList_append, List.append_assoc]
  rfl

/-- Every key has a file name that can name an entry. -/
theorem isName_fileName (key : String) : Path.IsName (fileName key) := by
  have hlist := toList_fileName key
  have hlong : 5 ≤ (fileName key).toList.length := by
    rw [hlist, List.length_append]
    exact Nat.le_add_left 5 _
  have hmem : ∀ c, isSafe c = false → c ≠ '_' → c ∉ ".json".toList → c ∉ (fileName key).toList := by
    intro c hsafe hline hending hc
    rw [hlist, List.mem_append] at hc
    rcases hc with hc | hc
    · rcases mem_safeName hc with h | h
      · rw [hsafe] at h
        cases h
      · exact hline h
    · exact hending hc
  refine ⟨?_, ?_, hmem '/' (by decide) (by decide) (by decide),
    hmem '\x00' (by decide) (by decide) (by decide)⟩
  · rintro (h | h) <;> simp [h] at hlong
  · intro h
    simp [h] at hlong

/-! ## Files in the directory -/

/-- Whether all entries are files. -/
def OnlyFiles (es : List (String × Node)) : Prop :=
  ∀ name n, es.lookup name = some n → n.isFile = true

/-- A directory is there with some entries; or there is none yet, and it would be
    made without entries. -/
def Holds (d : Disk) (dir : Path) (es : List (String × Node)) : Prop :=
  (∃ p, d.LeadsTo dir p es) ∨
    (es = [] ∧ d.has dir = false ∧ ∃ made p, d.makeDirectories dir = .ok made ∧
      made.LeadsTo dir p [])

theorem holds_of_node {d : Disk} {dir : Path} {es : List (String × Node)}
    (h : d.node dir = .ok (.directory es)) : Holds d dir es :=
  Or.inl (Disk.exists_leadsTo h)

section Holds

variable {d : Disk} {dir : Path} {es : List (String × Node)}

theorem Holds.atTime (h : Holds d dir es) (time : Nat) : Holds (d.atTime time) dir es := by
  rcases h with ⟨p, h⟩ | ⟨hes, hhas, made, p, hmade, h⟩
  · exact Or.inl ⟨p, h.atTime time⟩
  · refine Or.inr ⟨hes, hhas, made.atTime time, p, ?_, h.atTime time⟩
    rw [Disk.makeDirectories_atTime, hmade]
    rfl

theorem Holds.ne_empty (h : Holds d dir es) : dir ≠ "" := by
  have hne : ∀ {d : Disk} {p es}, d.LeadsTo dir p es → dir ≠ "" := fun h =>
    Disk.ne_empty_of_node (Disk.node_eq_ok_iff.2 ⟨_, h⟩)
  rcases h with ⟨p, h⟩ | ⟨-, -, made, p, -, h⟩
  · exact hne h
  · exact hne h

theorem OnlyFiles.not_link (hes : OnlyFiles es) (name : String) (target : Path) :
    es.lookup name ≠ some (.link target) := by
  intro h
  have hfile := hes name _ h
  cases hfile

/-- No entry can be read that the directory does not have. -/
theorem Holds.node_ne_ok (h : Holds d dir es) (hes : OnlyFiles es) {name : String}
    (hname : Path.IsName name) (hnone : es.lookup name = none) (n : Node) :
    d.node (Path.entry dir name) ≠ .ok n := by
  intro hnode
  rcases h with ⟨p, h⟩ | ⟨-, hhas, made, p, hmade, h⟩
  · rw [h.node_entry hname (hes.not_link name), hnone] at hnode
    split at hnode <;> cases hnode
  · have hne := Holds.ne_empty (Or.inr ⟨rfl, hhas, made, p, hmade, h⟩)
    obtain ⟨fs, hdir⟩ := Disk.exists_of_node_entry hne hname.no_slash hnode
    rw [Disk.has, hdir] at hhas
    cases hhas

/-- A file of the directory is read, if its name is not too long. -/
theorem Holds.node_of_file (h : Holds d dir es) (hes : OnlyFiles es) {name : String}
    (hname : Path.IsName name) (hfits : Disk.Fits dir name) {n : Node}
    (hn : es.lookup name = some n) : d.node (Path.entry dir name) = .ok n := by
  rcases h with ⟨p, h⟩ | ⟨rfl, -⟩
  · rw [h.node_entry hname (hes.not_link name), if_pos hfits, hn]
  · cases hn

theorem OnlyFiles.changeEntry (hes : OnlyFiles es) (name : String) (content : ByteArray)
    (written : Nat) : OnlyFiles (Node.changeEntry name (some (.file content written)) es) := by
  intro other n hn
  rw [Node.lookup_changeEntry] at hn
  split at hn
  · cases hn
    rfl
  · exact hes other n hn

end Holds

/-! ## Reading and writing -/

theorem isExpired_iff {c : DiskCache} {written now : Nat} :
    c.isExpired written now = true ↔ c.ttl.toNat * 1000000000 < now - written := decide_eq_true_iff

/-- Nothing has expired before the time to live is over. -/
theorem isExpired_of_young {c : DiskCache} {now : Nat} (h : now ≤ c.ttl.toNat * 1000000000)
    (written : Nat) : c.isExpired written now = false :=
  decide_eq_false (Nat.not_lt.2 (Nat.le_trans (Nat.sub_le now written) h))

section Cache

variable {c : DiskCache} {d : Disk} {es : List (String × Node)}

theorem get_of_lookup_eq_none {α : Type} (h : Holds d c.dir es) (hes : OnlyFiles es)
    (read : Value → Option α) {key : String} (hnone : es.lookup (fileName key) = none) :
    c.get read key d = (none, d) := by
  have hnode := h.node_ne_ok hes (isName_fileName key) hnone
  rw [get, path]
  cases hcase : d.node (Path.entry c.dir (fileName key)) with
  | error fault => rfl
  | ok n => exact absurd hcase (hnode n)

theorem get_of_lookup_eq_some {α : Type} (h : Holds d c.dir es) (hes : OnlyFiles es)
    (read : Value → Option α) {key : String} (hfits : Disk.Fits c.dir (fileName key))
    {content : ByteArray} {written : Nat}
    (hfile : es.lookup (fileName key) = some (.file content written))
    (hfresh : c.isExpired written d.now = false) :
    c.get read key d = (valueOf? read content, d) := by
  rw [get, path, h.node_of_file hes (isName_fileName key) hfits hfile]
  simp only [hfresh, Bool.false_eq_true, if_false]

/-- Looking a value up takes away at most something at one place. -/
theorem get_eq_or_removed {α : Type} (c : DiskCache) (read : Value → Option α) (key : String)
    (d : Disk) :
    (c.get read key d).2 = d ∨ ∃ p, (c.get read key d).2 = d.change p none := by
  rw [get]
  split
  · split
    · cases hremove : d.removeFile (c.path key) with
      | error fault => exact Or.inl rfl
      | ok removed => exact Or.inr (Disk.exists_of_removeFile hremove)
    · exact Or.inl rfl
  · exact Or.inl rfl

/-- Every file that is there after a value was looked up was there before. -/
theorem file_of_get {α : Type} (c : DiskCache) (read : Value → Option α) (key : String)
    {d : Disk} {p : Place} {content : ByteArray} {written : Nat}
    (h : (c.get read key d).2.top.at? p = some (.file content written)) :
    d.top.at? p = some (.file content written) := by
  rcases c.get_eq_or_removed read key d with hsame | ⟨q, hremoved⟩
  · rw [hsame] at h
    exact h
  · rw [hremoved] at h
    exact Node.file_of_change_none h

/-- What the directory holds after a value has been looked up: the same files, or
    all but the one that has expired. -/
theorem exists_holds_get {α : Type} (h : Holds d c.dir es) (hes : OnlyFiles es)
    (read : Value → Option α) (key : String) :
    ∃ fs, Holds (c.get read key d).2 c.dir fs ∧ ∀ e ∈ fs, e ∈ es := by
  have hsame : Holds d c.dir es ∧ ∀ e ∈ es, e ∈ es := ⟨h, fun _ he => he⟩
  cases hentry : es.lookup (fileName key) with
  | none =>
    rw [get_of_lookup_eq_none h hes read hentry]
    exact ⟨es, hsame⟩
  | some n =>
    have hleads : ∃ p, d.LeadsTo c.dir p es := by
      rcases h with h | ⟨rfl, -⟩
      · exact h
      · cases hentry
    obtain ⟨p, hleads⟩ := hleads
    have hname := isName_fileName key
    have hnode := hleads.node_entry hname (hes.not_link (fileName key))
    have hfile := hes (fileName key) n hentry
    cases n with
    | link target => cases hfile
    | directory gs => cases hfile
    | file content written =>
      rw [get, path, hnode]
      by_cases hfits : Disk.Fits c.dir (fileName key)
      · rw [if_pos hfits, hentry]
        by_cases hexpired : c.isExpired written d.now = true
        · -- the expired file goes, and no other one
          have hremove := hleads.removeFile_entry hname hfits hentry
          simp only [hexpired, if_true, hremove, Except.toOption, Option.getD_some]
          refine ⟨_, Or.inl ⟨p, hleads.change (hes (fileName key)) none⟩, fun e he => ?_⟩
          exact (List.mem_filter.1 he).1
        · simp only [if_neg hexpired]
          exact ⟨es, hsame⟩
      · rw [if_neg hfits]
        exact ⟨es, hsame⟩

/-- The directory is there, or it is made without concern to any file. -/
theorem exists_withDirectory (h : Holds d c.dir es) :
    ∃ made p, c.withDirectory d = (.ok (), made) ∧ made.LeadsTo c.dir p es ∧
      made.now = d.now ∧ Disk.SameBut (fun _ => False) d made := by
  rcases h with ⟨p, h⟩ | ⟨rfl, hhas, made, p, hmade, h⟩
  · have hhas : d.has c.dir = true := by
      rw [Disk.has, Disk.node_eq_ok_iff.2 ⟨p, h⟩]
      rfl
    exact ⟨d, p, by rw [withDirectory, if_pos hhas], h, rfl, Disk.SameBut.refl _ d⟩
  · refine ⟨made, p, ?_, h, Disk.now_makeDirectories hmade, Disk.sameBut_makeDirectories hmade⟩
    rw [withDirectory, hhas, if_neg Bool.false_ne_true]
    exact Disk.makeDirectories_eq_ok_iff.1 hmade

/-- A value is written to one entry of the directory, if the name of its file is not
    too long. -/
theorem exists_set (h : Holds d c.dir es) (hes : OnlyFiles es) (key : String) (value : Value) :
    ∃ made p, made.LeadsTo c.dir p es ∧ made.now = d.now ∧
      Disk.SameBut (fun _ => False) d made ∧
      c.set key value d =
        if Disk.Fits c.dir (fileName key) then
          (.ok (), made.put (p ++ [fileName key]) value.compact.toUTF8)
        else (.error .nameTooLong, made) := by
  obtain ⟨made, p, hmade, hleads, hnow, hsame⟩ := exists_withDirectory h
  refine ⟨made, p, hleads, hnow, hsame, ?_⟩
  have hwrite := hleads.write_entry (isName_fileName key) (hes (fileName key)) value.compact.toUTF8
  rw [set, hmade]
  simp only [path, hwrite]
  by_cases hfits : Disk.Fits c.dir (fileName key)
  · rw [if_pos hfits, if_pos hfits]
  · rw [if_neg hfits, if_neg hfits]

/-- What the directory holds after a value has been written, as far as the name
    of its file lets it. -/
def entriesAfter (c : DiskCache) (key : String) (value : Value) (time : Nat)
    (es : List (String × Node)) : List (String × Node) :=
  if Disk.Fits c.dir (fileName key) then
    Node.changeEntry (fileName key) (some (.file value.compact.toUTF8 time)) es
  else es

/-- What the directory holds after a value has been written. -/
theorem holds_set (h : Holds d c.dir es) (hes : OnlyFiles es) (key : String) (value : Value) :
    Holds (c.set key value d).2 c.dir (c.entriesAfter key value d.now es) := by
  obtain ⟨made, p, hleads, hnow, -, hset⟩ := exists_set h hes key value
  rw [hset, entriesAfter, ← hnow]
  by_cases hfits : Disk.Fits c.dir (fileName key)
  · rw [if_pos hfits, if_pos hfits]
    exact Or.inl ⟨p, hleads.change (hes (fileName key)) _⟩
  · rw [if_neg hfits, if_neg hfits]
    exact Or.inl ⟨p, hleads⟩

end Cache

end DiskCache

end WebBaseline.Store

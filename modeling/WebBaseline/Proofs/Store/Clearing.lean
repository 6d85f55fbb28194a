/-
  WebBaseline.Proofs.Store.Clearing

  What is left of a cache that is cleared after values were written to it.

    * after writes alone there is an entry for each file that was set, and for no
      other name with the ending (`exists_lookup_iff`);
    * `clear_after_writes`: these entries are counted and taken away, all but the one
      of the empty key, and nobody else's file is concerned.

  The name for the empty key is the ending alone. A name that starts with its last
  dot has no extension, so it does not count as the name of an entry, and its value
  is still read after clearing (`clear_keeps_empty_key`).
-/

import WebBaseline.Proofs.Store.Calls

namespace WebBaseline.Store

open WebBaseline.Data (KeyMap)
open WebBaseline.Files (Disk Node Path)
open WebBaseline.Json (Value)

namespace DiskCache

/-- Whether a call writes a file, a value or someone else's. -/
def Call.isWrite (x : Call) : Bool :=
  match x.act with
  | .set _ _ => true
  | .other _ _ => true
  | _ => false

/-! ## What was set -/

section Writes

variable {dir : Path} {d : Disk} {xs : List Call}

theorem wasSet_concat_iff {x : Call} {file : String} :
    WasSet dir d (xs ++ [x]) file ↔
      WasSet dir d xs file ∨ ∃ value, x.Sets dir (run dir xs d) file value := by
  constructor
  · rintro ⟨front, y, value, hprefix, hsets⟩
    rcases prefix_concat_cases hprefix with ⟨rfl, rfl⟩ | hfront
    · exact Or.inr ⟨value, hsets⟩
    · exact Or.inl ⟨front, y, value, hfront, hsets⟩
  · rintro (⟨front, y, value, hfront, hsets⟩ | ⟨value, hsets⟩)
    · exact ⟨front, y, value, hfront.trans (List.prefix_append xs [x]), hsets⟩
    · exact ⟨xs, x, value, List.prefix_refl _, hsets⟩

/-- Only files of keys are set. -/
theorem WasSet.exists_key {file : String} (h : WasSet dir d xs file) :
    ∃ key, fileName key = file := by
  obtain ⟨front, x, value, -, key, -, hfile, -⟩ := h
  exact ⟨key, hfile⟩

/-- Writes look nothing up. -/
theorem nothingExpires_of_writes (h : ∀ x ∈ xs, x.isWrite = true) : NothingExpires dir d xs := by
  intro front x hx α read key hact
  have hwrite := h x (hx.subset (List.mem_append_right front List.mem_cons_self))
  rw [Call.isWrite, hact] at hwrite
  cases hwrite

/-- Writes leave an entry for each file that was set. -/
theorem isSome_lastEntry_iff (hempty : Holds d dir []) (hwrites : ∀ x ∈ xs, x.isWrite = true)
    (file : String) : (lastEntry dir file xs).isSome = true ↔ WasSet dir d xs file := by
  induction xs using List.reverseRecOn with
  | nil =>
    refine iff_of_false (by simp [lastEntry]) ?_
    rintro ⟨front, x, value, hprefix, -⟩
    simp at hprefix
  | append_singleton xs x ih =>
    rw [List.forall_mem_append] at hwrites
    obtain ⟨hxs, hx⟩ := hwrites
    have hx : x.isWrite = true := hx x List.mem_cons_self
    obtain ⟨es, hes⟩ := exists_mirrors hempty (nothingExpires_of_writes hxs)
    rw [lastEntry_concat, wasSet_concat_iff]
    by_cases hsets : ∃ value, x.Sets dir (run dir xs d) file value
    · obtain ⟨value, hsets⟩ := hsets
      rw [Call.entry_of_sets hes.holds hes.orderly.onlyFiles hsets]
      exact iff_of_true rfl (Or.inr ⟨value, hsets⟩)
    · rw [or_iff_left hsets, ← ih hxs]
      rcases Call.entry_of_not_sets hes.holds hes.orderly.onlyFiles (not_exists.1 hsets)
        (lastEntry dir file xs) with hsame | ⟨hclear, -⟩
      · rw [hsame]
      · rw [Call.isWrite, hclear] at hx
        cases hx

/-- The entries with the ending, after writes, are the files that were set. -/
theorem exists_lookup_iff {es : List (String × Node)} (hempty : Holds d dir [])
    (hwrites : ∀ x ∈ xs, x.isWrite = true) (hes : Mirrors dir xs (run dir xs d) es)
    (name : String) :
    (HasEnding name ∧ ∃ n, es.lookup name = some n) ↔ WasSet dir d xs name := by
  constructor
  · rintro ⟨hending, n, hn⟩
    rw [hes.lookup name hending] at hn
    rw [← isSome_lastEntry_iff hempty hwrites, hn]
    rfl
  · intro hset
    obtain ⟨key, rfl⟩ := hset.exists_key
    have hentry := (isSome_lastEntry_iff hempty hwrites _).2 hset
    refine ⟨hasEnding_fileName key, ?_⟩
    rw [hes.lookup _ (hasEnding_fileName key)]
    exact Option.isSome_iff_exists.1 hentry

end Writes

/-! ## Clearing after writes -/

section Cleared

variable {c : DiskCache} {d after : Disk} {es : List (String × Node)}

/-- Once the entries are cleared, only the empty key is read as before. -/
theorem get_uncleared {α : Type} (h : Holds d c.dir es) (hes : Orderly c.dir es)
    (hafter : Holds after c.dir (uncleared es)) (read : Value → Option α) (key : String)
    (time : Nat) :
    (c.get read key (after.atTime time)).1 =
      if key = "" then (c.get read key (d.atTime time)).1 else none := by
  rw [get_fst (hafter.atTime time) hes.uncleared, get_fst (h.atTime time) hes, lookup_uncleared]
  by_cases hkey : key = ""
  · have hkept : ¬ isEntryName (fileName key) = true := fun hentry =>
      isEntryName_fileName_iff.1 hentry hkey
    rw [if_pos hkey, if_neg hkept]
    rfl
  · rw [if_neg hkey, if_pos (isEntryName_fileName_iff.2 hkey)]
    rfl

/-- Others' files are as before. -/
theorem node_uncleared (h : Holds d c.dir es) (hes : Orderly c.dir es)
    (hafter : Holds after c.dir (uncleared es)) (file : ForeignName) (n : Node) :
    after.node (Path.entry c.dir file.name) = .ok n ↔
      d.node (Path.entry c.dir file.name) = .ok n := by
  have hkept : ¬ isEntryName file.name = true := fun hentry =>
    file.noEnding ((isEntryName_iff file.isName).1 hentry).1
  rw [hes.uncleared.node_eq_ok_iff hafter file.isName, hes.node_eq_ok_iff h file.isName,
    lookup_uncleared, if_neg hkept]

/-- A cache whose directory is empty at first, or missing and can be made, is cleared
    after values and others' files have been written.

    As many files are counted as were set under different names, but for the name of
    the empty key. Afterwards no other key is read as anything, at any time; the empty
    key is read as before; and others' files are as before, as is every file of the
    disk but those counted. So the cache is empty unless a value was set under the
    empty key. -/
theorem clear_after_writes (hempty : Holds d c.dir []) {xs : List Call}
    (hwrites : ∀ x ∈ xs, x.isWrite = true) (time : Nat) :
    let before := run c.dir xs d
    ∃ (names : List String) (after : Disk),
      c.clear (before.atTime time) = .ok (names.length, after) ∧ names.Nodup ∧
      (∀ name, name ∈ names ↔ WasSet c.dir d xs name ∧ name ≠ ".json") ∧
      (∀ (α : Type) (read : Value → Option α) key later,
        (c.get read key (after.atTime later)).1 =
          if key = "" then (c.get read key (before.atTime later)).1 else none) ∧
      (∀ (file : ForeignName) n, after.node (Path.entry c.dir file.name) = .ok n ↔
        before.node (Path.entry c.dir file.name) = .ok n) ∧
      Disk.SameBut (fun q => ∃ name ∈ names, IsEntryPlace before c.dir name q) before after ∧
      (¬ WasSet c.dir d xs ".json" → (∀ name, name ∈ names ↔ WasSet c.dir d xs name) ∧
        ∀ (α : Type) (read : Value → Option α) key later,
          (c.get read key (after.atTime later)).1 = none) := by
  intro before
  have hfresh : NothingExpires c.dir d xs := nothingExpires_of_writes hwrites
  obtain ⟨es, hes⟩ := exists_mirrors hempty hfresh
  obtain ⟨after, hclear, hafter, hsame⟩ := exists_clear (hes.holds.atTime time) hes.orderly
  have hmem : ∀ name, name ∈ (cleared es).map Prod.fst ↔
      WasSet c.dir d xs name ∧ name ≠ ".json" := fun name => by
    rw [mem_cleared_iff hes.orderly, exists_lookup_iff hempty hwrites hes]
  have hget := fun (α : Type) (read : Value → Option α) =>
    get_uncleared hes.holds hes.orderly hafter read
  refine ⟨(cleared es).map Prod.fst, after, ?_, (hes.orderly.filter isEntryName).nodup_names,
    hmem, hget, node_uncleared hes.holds hes.orderly hafter, hsame,
    fun hnot => ⟨fun name => ?_, ?_⟩⟩
  · rw [List.length_map]
    exact hclear
  · refine (hmem name).trans (and_iff_left_of_imp ?_)
    rintro hname rfl
    exact hnot hname
  · intro α read key later
    rw [hget]
    split
    · next hkey =>
      -- nothing was ever kept under the empty key
      have hnone : lastEntry c.dir (fileName key) xs = none := by
        rw [fileName_eq_ending_iff.2 hkey, ← Option.not_isSome_iff_eq_none,
          isSome_lastEntry_iff hempty hwrites]
        exact hnot
      rw [get_run hempty hfresh, hnone]
      rfl
    · rfl

end Cleared

/-- The name of someone else's file. -/
def noteName : ForeignName := ⟨"note.txt", by decide, by decide⟩

/-- Writes to two files of a cache, one of them twice, and someone else's file. -/
def someWrites : List Call :=
  [⟨.set "a/b" (.int 1), 60, 1⟩, ⟨.set "a.b" (.int 2), 60, 2⟩,
    ⟨.other noteName "note".toUTF8, 60, 3⟩, ⟨.set "c" (.int 3), 60, 4⟩]

theorem clear_after_writes_someWrites :
    ∃ after, (inDir "cache").clear ((run "cache" someWrites blankDisk).atTime 5) = .ok (2, after) ∧
      (∀ (α : Type) (read : Value → Option α) key later,
        ((inDir "cache").get read key (after.atTime later)).1 = none) ∧
      after.readText (Path.entry "cache" "note.txt") = .ok "note" := by
  have hwrites : ∀ x ∈ someWrites, x.isWrite = true := by decide
  obtain ⟨names, after, hclear, -, -, -, hforeign, -, hall⟩ :=
    clear_after_writes (c := inDir "cache") holds_blankDisk hwrites 5
  have hcount : ((inDir "cache").clear ((run "cache" someWrites blankDisk).atTime 5)).map Prod.fst =
      .ok 2 := by decide +kernel
  have hlength : names.length = 2 :=
    Except.ok.inj ((congrArg (Except.map Prod.fst) hclear).symm.trans hcount)
  have hnot : ¬ WasSet "cache" blankDisk someWrites ".json" := by
    rw [← isSome_lastEntry_iff holds_blankDisk hwrites]
    decide +kernel
  have hnote : (run "cache" someWrites blankDisk).readText (Path.entry "cache" "note.txt") =
      .ok "note" := by decide +kernel
  refine ⟨after, hlength ▸ hclear, (hall hnot).2, ?_⟩
  cases hnode : (run "cache" someWrites blankDisk).node (Path.entry "cache" "note.txt") with
  | error fault =>
    rw [Disk.readText, Disk.readBytes, hnode] at hnote
    cases hnote
  | ok n =>
    have hafter : after.node (Path.entry "cache" "note.txt") = .ok n :=
      (hforeign noteName n).2 hnode
    rw [Disk.readText, Disk.readBytes, hnode] at hnote
    rw [Disk.readText, Disk.readBytes, hafter]
    exact hnote

/-- A value under the empty key is neither counted nor taken away. -/
theorem clear_keeps_empty_key :
    let written := (inDir "cache").set "" (.int 1) blankDisk
    let cleared := (inDir "cache").clear written.2
    written.1 = .ok () ∧ cleared.map Prod.fst = .ok 0 ∧
      cleared.toOption.bind (fun r => ((inDir "cache").get (Value.natBelow? 256) "" r.2).1) =
        some 1 := by
  decide +kernel

end DiskCache

end WebBaseline.Store

/-
  WebBaseline.Proofs.Store.Calls

  A cache directory through any calls, one after the other.

    * `Act` lists what can happen to the directory, and `run` is the disk after calls
      at their times;
    * `Mirrors` is the invariant: the directory holds orderly entries, and the entry
      of each key is the one that the calls leave (`lastEntry`). `exists_entries`
      says what one call does to that, `exists_mirrors` follows a run;
    * the value last set to a file is what its keys are read as
      (`lastEntry_of_lastSet`), whatever happens to other files (`lastEntry_filter`);
    * `store_confined` puts this together for the files of the disk.

  Times to live are those of the caches that are called, so one directory may be used
  through several of them. Times need not go up.
-/

import Mathlib.Data.List.Induction
import WebBaseline.Proofs.Store.Entries

namespace WebBaseline.Store

open WebBaseline.Files (Disk Node Path Place walk)
open WebBaseline.Json (Value)

namespace DiskCache

/-! ## Calls -/

/-- The name of a file that is none of a cache. -/
structure ForeignName where
  name : String
  isName : Path.IsName name
  noEnding : ¬ HasEnding name

/-- What can happen to the directory of a cache. -/
inductive Act : Type 1 where
  | set (key : String) (value : Value)
  | get {α : Type} (read : Value → Option α) (key : String)
  | clear
  /-- Someone else writes a file that is none of the cache. -/
  | other (file : ForeignName) (content : ByteArray)

/-- An act at a time, with the time to live of the cache that is called. -/
structure Call : Type 1 where
  act : Act
  ttl : UInt64
  time : Nat

namespace Call

/-- The cache of a call. -/
def cache (dir : Path) (x : Call) : DiskCache := ⟨dir, x.ttl⟩

/-- The disk after an act on a cache. -/
def diskOf (c : DiskCache) (act : Act) (d : Disk) : Disk :=
  match act with
  | .set key value => (c.set key value d).2
  | .get read key => (c.get read key d).2
  | .clear => (c.clear d).toOption.elim d Prod.snd
  | .other file content => (d.write (Path.entry c.dir file.name) content).toOption.getD d

/-- The disk after a call. -/
def disk (dir : Path) (x : Call) (d : Disk) : Disk :=
  diskOf (x.cache dir) x.act (d.atTime x.time)

/-- Whether a call is one on a key with the given file, or on all keys. -/
def concerns (file : String) (x : Call) : Bool :=
  match x.act with
  | .set key _ => fileName key == file
  | .get _ key => fileName key == file
  | .clear => true
  | .other _ _ => false

/-- Whether a call sets a file to a value, and succeeds. -/
def Sets (dir : Path) (d : Disk) (x : Call) (file : String) (value : Value) : Prop :=
  ∃ key, x.act = .set key value ∧ fileName key = file ∧
    ((x.cache dir).set key value (d.atTime x.time)).1 = .ok ()

/-- Whether a call looks up no expired file. -/
def Fresh (dir : Path) (d : Disk) (x : Call) : Prop :=
  ∀ (α : Type) (read : Value → Option α) key, x.act = .get read key →
    (x.cache dir).FindsFresh key (d.atTime x.time)

/-- What a call makes of the entry of a key's file. -/
def entry (dir : Path) (file : String) (x : Call) (old : Option Node) : Option Node :=
  match x.act with
  | .set key value =>
    if fileName key = file ∧ Disk.Fits dir file then some (.file value.compact.toUTF8 x.time)
    else old
  | .clear => if isEntryName file then none else old
  | _ => old

end Call

/-- The disk after calls, one after the other. -/
def run (dir : Path) (xs : List Call) (d : Disk) : Disk := xs.foldl (fun d x => x.disk dir d) d

/-- Whether no call looks up an expired file. -/
def NothingExpires (dir : Path) (d : Disk) (xs : List Call) : Prop :=
  ∀ front x, front ++ [x] <+: xs → x.Fresh dir (run dir front d)

/-- Whether some call sets a file and succeeds. -/
def WasSet (dir : Path) (d : Disk) (xs : List Call) (file : String) : Prop :=
  ∃ front x value, front ++ [x] <+: xs ∧ x.Sets dir (run dir front d) file value

/-- Whether a file is set to a value with success, and by no later call. -/
def LastSet (dir : Path) (d : Disk) (xs : List Call) (file : String) (value : Value) : Prop :=
  ∃ front x, front ++ [x] <+: xs ∧ x.Sets dir (run dir front d) file value ∧
    ∀ later y, front ++ [x] <+: later → later ++ [y] <+: xs →
      ∀ newer, ¬ y.Sets dir (run dir later d) file newer

/-- The entry of a key's file that calls leave, when there was none at first. -/
def lastEntry (dir : Path) (file : String) (xs : List Call) : Option Node :=
  xs.foldl (fun old x => x.entry dir file old) none

theorem run_concat (dir : Path) (xs : List Call) (x : Call) (d : Disk) :
    run dir (xs ++ [x]) d = x.disk dir (run dir xs d) := by
  rw [run, List.foldl_append]
  rfl

theorem lastEntry_concat (dir : Path) (file : String) (xs : List Call) (x : Call) :
    lastEntry dir file (xs ++ [x]) = x.entry dir file (lastEntry dir file xs) := by
  rw [lastEntry, List.foldl_append]
  rfl

/-- A call of a longer run is its last one, or one of those before. -/
theorem prefix_concat_cases {front xs : List Call} {y x : Call}
    (h : front ++ [y] <+: xs ++ [x]) : front = xs ∧ y = x ∨ front ++ [y] <+: xs := by
  rcases List.prefix_concat_iff.1 h with heq | hfront
  · obtain ⟨hfront, hlast⟩ := List.append_inj' heq rfl
    exact Or.inl ⟨hfront, List.singleton_inj.1 hlast⟩
  · exact Or.inr hfront

theorem nothingExpires_concat_iff {dir : Path} {d : Disk} {xs : List Call} {x : Call} :
    NothingExpires dir d (xs ++ [x]) ↔
      NothingExpires dir d xs ∧ x.Fresh dir (run dir xs d) := by
  constructor
  · intro h
    refine ⟨fun front y hy => h front y (hy.trans (List.prefix_append xs [x])), ?_⟩
    exact h xs x (List.prefix_refl _)
  · rintro ⟨hxs, hx⟩ front y hy
    rcases prefix_concat_cases hy with ⟨rfl, rfl⟩ | hy
    · exact hx
    · exact hxs front y hy

/-- Nothing expires in calls whose times are all within their times to live. -/
theorem nothingExpires_of_young {dir : Path} {d : Disk} {xs : List Call}
    (h : ∀ x ∈ xs, x.time ≤ x.ttl.toNat * 1000000000) : NothingExpires dir d xs := by
  intro front x hx α read key _ content written _
  have hmem : x ∈ xs := hx.subset (List.mem_append_right front List.mem_cons_self)
  have hyoung : x.time ≤ (x.cache dir).ttl.toNat * 1000000000 := h x hmem
  exact isExpired_of_young hyoung written

/-! ## One call -/

section Step

variable {dir : Path} {d : Disk} {es : List (String × Node)}

/-- A file of the directory is written. -/
theorem exists_put {p : Place} (h : d.LeadsTo dir p es) (hes : Orderly dir es) {name : String}
    (hname : Path.IsName name) (hfits : Disk.Fits dir name) (content : ByteArray) :
    ∃ fs, Holds (d.put (p ++ [name]) content) dir fs ∧ Orderly dir fs ∧
      ∀ other, fs.lookup other =
        if other = name then some (.file content d.now) else es.lookup other :=
  ⟨_, Or.inl ⟨p, h.change (hes.onlyFiles name) _⟩, hes.put hname hfits content d.now,
    fun _ => Node.lookup_changeEntry ..⟩

/-- Someone else's file leaves those of a cache. -/
theorem exists_entries_other {c : DiskCache} (h : Holds d c.dir es) (hes : Orderly c.dir es)
    (file : ForeignName) (content : ByteArray) :
    ∃ fs, Holds (Call.diskOf c (.other file content) d) c.dir fs ∧ Orderly c.dir fs ∧
      ∀ name, HasEnding name → fs.lookup name = es.lookup name := by
  have hsame : ∃ fs, Holds d c.dir fs ∧ Orderly c.dir fs ∧
      ∀ name, HasEnding name → fs.lookup name = es.lookup name := ⟨es, h, hes, fun _ _ => rfl⟩
  rw [Call.diskOf]
  rcases h with ⟨p, h⟩ | ⟨rfl, hhas, made, p, hmade, hleads⟩
  · rw [h.write_entry file.isName (hes.onlyFiles file.name)]
    by_cases hfits : Disk.Fits c.dir file.name
    · obtain ⟨fs, hfs, horderly, hlookup⟩ := exists_put h hes file.isName hfits content
      rw [if_pos hfits]
      refine ⟨fs, hfs, horderly, fun name hname => ?_⟩
      have hne : name ≠ file.name := by
        rintro rfl
        exact file.noEnding hname
      rw [hlookup, if_neg hne]
    · rw [if_neg hfits]
      exact hsame
  · -- nothing is written to a directory that is missing
    have hne := Holds.ne_empty (Or.inr ⟨rfl, hhas, made, p, hmade, hleads⟩)
    cases hwrite : d.write (Path.entry c.dir file.name) content with
    | error fault => exact hsame
    | ok written =>
      obtain ⟨q, hq⟩ := Disk.exists_place_of_write hwrite
      obtain ⟨fs, hdir⟩ := Disk.exists_of_place_entry hne file.isName.no_slash hq
      rw [Disk.has, hdir] at hhas
      cases hhas

/-- What one call makes of the entries. -/
theorem exists_entries (h : Holds d dir es) (hes : Orderly dir es) {x : Call}
    (hfresh : x.Fresh dir d) :
    ∃ fs, Holds (x.disk dir d) dir fs ∧ Orderly dir fs ∧
      ∀ name, HasEnding name → fs.lookup name = x.entry dir name (es.lookup name) := by
  have hnow : Holds (d.atTime x.time) (x.cache dir).dir es := h.atTime x.time
  have horderly : Orderly (x.cache dir).dir es := hes
  simp only [Call.disk, Call.entry]
  cases hact : x.act with
  | set key value =>
    dsimp only
    obtain ⟨made, p, hleads, htime, -, hset⟩ := exists_set hnow hes.onlyFiles key value
    have hleads : made.LeadsTo dir p es := hleads
    have htime : made.now = x.time := htime
    have hdir : (x.cache dir).dir = dir := rfl
    rw [Call.diskOf, hset, hdir]
    by_cases hfits : Disk.Fits dir (fileName key)
    · obtain ⟨fs, hfs, horderly, hlookup⟩ :=
        exists_put hleads hes (isName_fileName key) hfits value.compact.toUTF8
      rw [if_pos hfits]
      refine ⟨fs, hfs, horderly, fun name _ => ?_⟩
      rw [hlookup, htime]
      by_cases hsame : name = fileName key
      · rw [if_pos hsame, hsame, if_pos ⟨rfl, hfits⟩]
      · rw [if_neg hsame, if_neg (fun hboth => hsame hboth.1.symm)]
    · rw [if_neg hfits]
      refine ⟨es, Or.inl ⟨p, hleads⟩, hes, fun name _ => ?_⟩
      rw [if_neg]
      rintro ⟨heq, hother⟩
      rw [heq] at hfits
      exact hfits hother
  | get read key =>
    rw [Call.diskOf, get_snd read (hfresh _ read key hact)]
    exact ⟨es, hnow, hes, fun _ _ => rfl⟩
  | clear =>
    obtain ⟨after, hclear, hafter, -⟩ := exists_clear hnow horderly
    rw [Call.diskOf, hclear]
    exact ⟨_, hafter, hes.uncleared, fun name _ => lookup_uncleared es name⟩
  | other file content => exact exists_entries_other hnow horderly file content

/-- A call sets a file exactly if it is asked to and the name is not too long. -/
theorem Call.sets_iff (h : Holds d dir es) (hes : OnlyFiles es) {x : Call} {file : String}
    {value : Value} :
    x.Sets dir d file value ↔
      ∃ key, x.act = .set key value ∧ fileName key = file ∧ Disk.Fits dir file := by
  refine exists_congr fun key => and_congr_right fun _ => and_congr_right fun hfile => ?_
  rw [← hfile]
  exact set_ok_iff (c := x.cache dir) (h.atTime x.time) hes key value

theorem Call.entry_of_sets (h : Holds d dir es) (hes : OnlyFiles es) {x : Call} {file : String}
    {value : Value} (hsets : x.Sets dir d file value) (old : Option Node) :
    x.entry dir file old = some (.file value.compact.toUTF8 x.time) := by
  obtain ⟨key, hact, hboth⟩ := (Call.sets_iff h hes).1 hsets
  rw [Call.entry, hact]
  exact if_pos hboth

/-- A call that does not set a file leaves it, unless it clears the cache. -/
theorem Call.entry_of_not_sets (h : Holds d dir es) (hes : OnlyFiles es) {x : Call}
    {file : String} (hsets : ∀ value, ¬ x.Sets dir d file value) (old : Option Node) :
    x.entry dir file old = old ∨ x.act = .clear ∧ x.entry dir file old = none := by
  rw [Call.entry]
  split
  · next key value hact =>
    refine Or.inl (if_neg fun hboth => hsets value ?_)
    exact (Call.sets_iff h hes).2 ⟨key, hact, hboth⟩
  · next hact =>
    split
    · exact Or.inr ⟨hact, rfl⟩
    · exact Or.inl rfl
  · exact Or.inl rfl

end Step

/-! ## Many calls -/

/-- What a cache directory holds after calls: orderly entries, and under each name
    with the ending the one that the calls leave. -/
structure Mirrors (dir : Path) (xs : List Call) (d : Disk) (es : List (String × Node)) : Prop where
  holds : Holds d dir es
  orderly : Orderly dir es
  lookup : ∀ name, HasEnding name → es.lookup name = lastEntry dir name xs

section Run

variable {dir : Path} {d : Disk} {xs : List Call}

theorem exists_mirrors (hempty : Holds d dir []) (hfresh : NothingExpires dir d xs) :
    ∃ es, Mirrors dir xs (run dir xs d) es := by
  induction xs using List.reverseRecOn with
  | nil => exact ⟨[], hempty, Orderly.nil, fun _ _ => rfl⟩
  | append_singleton xs x ih =>
    obtain ⟨hxs, hx⟩ := nothingExpires_concat_iff.1 hfresh
    obtain ⟨es, hes⟩ := ih hxs
    obtain ⟨fs, hfs, horderly, hlookup⟩ := exists_entries hes.holds hes.orderly hx
    rw [run_concat]
    refine ⟨fs, hfs, horderly, fun name hname => ?_⟩
    rw [hlookup name hname, hes.lookup name hname, lastEntry_concat]

/-- What is read is the value in the entry that the calls leave. -/
theorem get_run {α : Type} {c : DiskCache} (hempty : Holds d c.dir [])
    (hfresh : NothingExpires c.dir d xs) (read : Value → Option α) (key : String) (time : Nat) :
    (c.get read key ((run c.dir xs d).atTime time)).1 =
      c.valueAt read time (lastEntry c.dir (fileName key) xs) := by
  obtain ⟨es, hes⟩ := exists_mirrors hempty hfresh
  rw [get_fst (hes.holds.atTime time) hes.orderly, hes.lookup _ (hasEnding_fileName key)]
  rfl

/-- The file of a key is there exactly if the calls leave an entry. -/
theorem node_run_iff (hempty : Holds d dir []) (hfresh : NothingExpires dir d xs) (key : String)
    (n : Node) :
    (run dir xs d).node (Path.entry dir (fileName key)) = .ok n ↔
      lastEntry dir (fileName key) xs = some n := by
  obtain ⟨es, hes⟩ := exists_mirrors hempty hfresh
  rw [← hes.lookup _ (hasEnding_fileName key),
    hes.orderly.node_eq_ok_iff hes.holds (isName_fileName key)]

/-! ## The last value -/

/-- The last value set is that of the last call, or of those before if it sets none. -/
theorem lastSet_concat_iff {x : Call} {file : String} {value : Value} :
    LastSet dir d (xs ++ [x]) file value ↔
      x.Sets dir (run dir xs d) file value ∨
        (∀ newer, ¬ x.Sets dir (run dir xs d) file newer) ∧ LastSet dir d xs file value := by
  constructor
  · rintro ⟨front, y, hprefix, hsets, hlater⟩
    rcases prefix_concat_cases hprefix with ⟨rfl, rfl⟩ | hfront
    · exact Or.inl hsets
    · refine Or.inr ⟨hlater xs x hfront (List.prefix_refl _), front, y, hfront, hsets, ?_⟩
      intro later z hz hxs
      exact hlater later z hz (hxs.trans (List.prefix_append xs [x]))
  · rintro (hsets | ⟨hnot, front, y, hfront, hsets, hlater⟩)
    · refine ⟨xs, x, List.prefix_refl _, hsets, fun later y hxs hlater => ?_⟩
      -- nothing comes behind the last call
      have hlong := (hxs.trans (List.prefix_append later [y])).length_le
      have hshort := hlater.length_le
      have hbetween := hxs.length_le
      simp only [List.length_append, List.length_singleton] at hlong hshort hbetween
      omega
    · refine ⟨front, y, hfront.trans (List.prefix_append xs [x]), hsets, ?_⟩
      intro later z hz hxs
      rcases prefix_concat_cases hxs with ⟨rfl, rfl⟩ | hbefore
      · exact hnot
      · exact hlater later z hz hbefore

/-- The entry that is left is that of the last value set, unless it was taken away. -/
theorem lastEntry_of_lastSet (hempty : Holds d dir []) (hfresh : NothingExpires dir d xs)
    {file : String} {value : Value} (h : LastSet dir d xs file value) :
    lastEntry dir file xs = none ∨
      ∃ time, lastEntry dir file xs = some (.file value.compact.toUTF8 time) := by
  induction xs using List.reverseRecOn with
  | nil =>
    obtain ⟨front, x, hprefix, -⟩ := h
    simp at hprefix
  | append_singleton xs x ih =>
    obtain ⟨hxs, -⟩ := nothingExpires_concat_iff.1 hfresh
    obtain ⟨es, hes⟩ := exists_mirrors hempty hxs
    rw [lastEntry_concat]
    rcases lastSet_concat_iff.1 h with hsets | ⟨hnot, hbefore⟩
    · exact Or.inr ⟨x.time, Call.entry_of_sets hes.holds hes.orderly.onlyFiles hsets _⟩
    · rcases Call.entry_of_not_sets hes.holds hes.orderly.onlyFiles hnot
        (lastEntry dir file xs) with hsame | ⟨-, hnone⟩
      · rw [hsame]
        exact ih hxs hbefore
      · exact Or.inl hnone

/-! ## Other files -/

theorem Call.entry_of_not_concerns {x : Call} {file : String}
    (h : x.concerns file = false) (old : Option Node) : x.entry dir file old = old := by
  rw [Call.entry]
  cases hact : x.act with
  | set key value =>
    rw [Call.concerns, hact] at h
    exact if_neg (fun hboth => beq_eq_false_iff_ne.1 h hboth.1)
  | get read key => rfl
  | clear =>
    rw [Call.concerns, hact] at h
    cases h
  | other foreign content => rfl

/-- Calls that do not concern a file can be left out. -/
theorem lastEntry_filter (dir : Path) (file : String) (xs : List Call) :
    lastEntry dir file (xs.filter (Call.concerns file)) = lastEntry dir file xs := by
  induction xs using List.reverseRecOn with
  | nil => rfl
  | append_singleton xs x ih =>
    rw [List.filter_append, lastEntry_concat]
    cases hx : x.concerns file with
    | true => rw [List.filter_cons_of_pos hx, List.filter_nil, lastEntry_concat, ih]
    | false =>
      rw [List.filter_cons_of_neg (by simp [hx]), List.filter_nil, List.append_nil, ih,
        Call.entry_of_not_concerns hx]

/-- Without them nothing expires that does not expire with them. -/
theorem nothingExpires_filter (hempty : Holds d dir []) (hfresh : NothingExpires dir d xs)
    (file : String) : NothingExpires dir d (xs.filter (Call.concerns file)) := by
  induction xs using List.reverseRecOn with
  | nil => exact hfresh
  | append_singleton xs x ih =>
    obtain ⟨hxs, hx⟩ := nothingExpires_concat_iff.1 hfresh
    have hbefore := ih hxs
    rw [List.filter_append]
    cases hconcerns : x.concerns file with
    | false =>
      rw [List.filter_cons_of_neg (by simp [hconcerns]), List.filter_nil, List.append_nil]
      exact hbefore
    | true =>
      rw [List.filter_cons_of_pos hconcerns, List.filter_nil, nothingExpires_concat_iff]
      refine ⟨hbefore, fun α read key hact content written hnode => ?_⟩
      -- what is looked up is the same file in both runs
      rw [Call.concerns, hact] at hconcerns
      replace hconcerns : fileName key = file := beq_iff_eq.1 hconcerns
      have hleft := (node_run_iff hempty hbefore key _).1 hnode
      rw [hconcerns, lastEntry_filter, ← hconcerns] at hleft
      exact hx α read key hact content written ((node_run_iff hempty hxs key _).2 hleft)

end Run

/-! ## A confined store -/

section Confined

variable {c : DiskCache} {d : Disk} {xs : List Call}

/-- Writing a value concerns one file in the directory; or none, where the name of
    the file is too long. -/
theorem set_concerns {es : List (String × Node)} (h : Holds d c.dir es) (hes : OnlyFiles es)
    (key : String) (value : Value) :
    let written := c.set key value d
    (written.1 = .ok () ∧ Path.IsName (fileName key) ∧
      ∃ p fs, written.2.LeadsTo c.dir p fs ∧
        written.2.top.at? (p ++ [fileName key]) = some (.file value.compact.toUTF8 d.now) ∧
        Disk.SameBut (fun q => q = p ++ [fileName key]) d written.2) ∨
    (written.1 = .error .nameTooLong ∧ Disk.SameBut (fun _ => False) d written.2) := by
  intro written
  obtain ⟨made, p, hleads, hnow, hmade, hset⟩ := exists_set h hes key value
  have hwritten : written = _ := hset
  rw [hwritten, ← hnow]
  split
  · have hfile := hes (fileName key)
    have hput := hleads.change hfile (some (.file value.compact.toUTF8 made.now))
    refine Or.inl ⟨rfl, isName_fileName key, p, _, hput, ?_, ?_⟩
    · exact (Node.at?_snoc hput.2 _).trans ((Node.lookup_changeEntry ..).trans (if_pos rfl))
    · have hnew : ∀ n, some (Node.file value.compact.toUTF8 made.now) = some n →
          n.isFile = true := by
        intro n hn
        cases hn
        rfl
      exact (hmade.mono (fun _ h => h.elim)).trans (Disk.sameBut_change hleads.2 hfile _ hnew)
  · exact Or.inr ⟨rfl, hmade⟩

/-- A key is read as the value that its file was last set to, if the file is still
    there and has not expired. -/
theorem get_of_lastSet {α : Type} (hempty : Holds d c.dir [])
    (hfresh : NothingExpires c.dir d xs) (read : Value → Option α) {key : String} {value : Value}
    {time : Nat} (hlast : LastSet c.dir d xs (fileName key) value)
    (hfile : (run c.dir xs d).hasFile (c.path key) = true)
    (hcounts : c.FindsFresh key ((run c.dir xs d).atTime time)) :
    (c.get read key ((run c.dir xs d).atTime time)).1 = (Json.parse value.compact).bind read := by
  rcases lastEntry_of_lastSet hempty hfresh hlast with hnone | ⟨written, hentry⟩
  · -- there would be no file then
    cases hnode : (run c.dir xs d).node (c.path key) with
    | error fault =>
      rw [Disk.hasFile, hnode] at hfile
      cases hfile
    | ok n => cases hnone.symm.trans ((node_run_iff hempty hfresh key n).1 hnode)
  · have hnode := (node_run_iff hempty hfresh key _).2 hentry
    have hkept : c.isExpired written time = false := hcounts _ written hnode
    rw [get_run hempty hfresh, hentry, valueAt, hkept, valueOf?, Files.fromUTF8?_toUTF8,
      Option.bind_some]
    rfl

/-- A key is read as without the calls that do not concern its file. -/
theorem get_filter {α : Type} (hempty : Holds d c.dir []) (hfresh : NothingExpires c.dir d xs)
    (read : Value → Option α) (key : String) (time : Nat) :
    (c.get read key ((run c.dir xs d).atTime time)).1 =
      (c.get read key
        ((run c.dir (xs.filter (Call.concerns (fileName key))) d).atTime time)).1 := by
  rw [get_run hempty hfresh, get_run hempty (nothingExpires_filter hempty hfresh (fileName key)),
    lastEntry_filter]

/-- A cache whose directory is empty at first, or missing and can be made, after any
    calls that look up nothing expired.

    A further value is written to one file that lies in the directory, and concerns no
    other file of the disk; where its name is too long no file is concerned at all.
    A key is read as the value that its file was last set to with success, as long as
    the file is there; and as without the calls on keys that have other files. -/
theorem store_confined (hempty : Holds d c.dir []) (hfresh : NothingExpires c.dir d xs) :
    let before := run c.dir xs d
    (∀ key value time, let written := c.set key value (before.atTime time)
      (written.1 = .ok () ∧ Path.IsName (fileName key) ∧
        ∃ p es, written.2.LeadsTo c.dir p es ∧
          written.2.top.at? (p ++ [fileName key]) = some (.file value.compact.toUTF8 time) ∧
          Disk.SameBut (fun q => q = p ++ [fileName key]) before written.2) ∨
      (written.1 = .error .nameTooLong ∧ Disk.SameBut (fun _ => False) before written.2)) ∧
    (∀ key value time, LastSet c.dir d xs (fileName key) value →
      before.hasFile (c.path key) = true → c.FindsFresh key (before.atTime time) →
      ∀ (α : Type) (read : Value → Option α),
        (c.get read key (before.atTime time)).1 = (Json.parse value.compact).bind read ∧
        (value.exact = true → (c.get read key (before.atTime time)).1 = read value)) ∧
    (∀ (α : Type) (read : Value → Option α) key time,
      (c.get read key (before.atTime time)).1 =
        (c.get read key ((run c.dir (xs.filter (Call.concerns (fileName key)))
          d).atTime time)).1) := by
  intro before
  obtain ⟨es, hes⟩ := exists_mirrors hempty hfresh
  refine ⟨fun key value time => ?_, ?_, ?_⟩
  · exact set_concerns (hes.holds.atTime time) hes.orderly.onlyFiles key value
  · intro key value time hlast hfile hcounts α read
    have hread := get_of_lastSet hempty hfresh read hlast hfile hcounts
    refine ⟨hread, fun hexact => ?_⟩
    rw [hread, Json.parse_compact hexact]
    rfl
  · intro α read key time
    exact get_filter hempty hfresh read key time

end Confined

/-- A disk without files. -/
def blankDisk : Disk := { top := .directory [] }

theorem holds_blankDisk : Holds blankDisk "cache" [] := by
  have hok : Disk.namesOf "cache" = .ok ([] ++ "cache" :: []) := rfl
  exact holds_of_missing hok (by decide) rfl rfl rfl

/-- Calls on two keys with one file, and on a key that looks like another
    directory. -/
def sharedFile : List Call :=
  [⟨.set "a/b" (.str "old"), 86400, 1⟩, ⟨.set "a\x00b" (.str "new"), 86400, 2⟩,
    ⟨.get Value.text? "a.b", 86400, 3⟩, ⟨.set "../up" (.int 1), 86400, 4⟩]

/-- A key of too many characters. -/
def longKey : String := String.ofList (List.replicate 251 'x')

theorem length_longKey : longKey.toList.length = 251 :=
  (congrArg List.length String.toList_ofList).trans List.length_replicate

/-- The disk after these calls. -/
def sharedDisk : Disk := run "cache" sharedFile blankDisk

theorem store_confined_sharedFile :
    (∃ p es, ((inDir "cache").set ".." (.int 1) (sharedDisk.atTime 5)).2.LeadsTo "cache" p es ∧
      ((inDir "cache").set ".." (.int 1) (sharedDisk.atTime 5)).2.top.at? (p ++ ["__.json"]) =
        some (.file (Value.int 1).compact.toUTF8 5) ∧
      Disk.SameBut (fun q => q = p ++ ["__.json"]) sharedDisk
        ((inDir "cache").set ".." (.int 1) (sharedDisk.atTime 5)).2) ∧
    Disk.SameBut (fun _ => False) sharedDisk
      ((inDir "cache").set longKey (.int 1) (sharedDisk.atTime 5)).2 ∧
    ((inDir "cache").get Value.text? "a.b" (sharedDisk.atTime 5)).1 = some "new" ∧
    ((inDir "cache").get Value.text? "a.b"
      ((run "cache" (sharedFile.filter (Call.concerns "a_b.json")) blankDisk).atTime 5)).1 =
        some "new" := by
  have hyoung : NothingExpires "cache" blankDisk sharedFile :=
    nothingExpires_of_young (by decide)
  obtain ⟨hset, hget, hother⟩ := store_confined (c := inDir "cache") holds_blankDisk hyoung
  have hparent : fileName ".." = "__.json" := by decide +kernel
  have hshared : fileName "a.b" = "a_b.json" := by decide +kernel
  have hlast : LastSet "cache" blankDisk sharedFile (fileName "a.b") (.str "new") := by
    show LastSet "cache" blankDisk (sharedFile.take 3 ++ [_]) _ _
    refine lastSet_concat_iff.2 (Or.inr ⟨?_, ?_⟩)
    · rintro newer ⟨key, hact, hfile, -⟩
      cases hact
      exact absurd hfile (by decide +kernel)
    show LastSet "cache" blankDisk (sharedFile.take 2 ++ [_]) _ _
    refine lastSet_concat_iff.2 (Or.inr ⟨?_, ?_⟩)
    · rintro newer ⟨key, hact, -⟩
      cases hact
    show LastSet "cache" blankDisk (sharedFile.take 1 ++ [_]) _ _
    refine lastSet_concat_iff.2 (Or.inl ?_)
    exact ⟨"a\x00b", rfl, by decide +kernel, by decide +kernel⟩
  have hfresh : (inDir "cache").FindsFresh "a.b" (sharedDisk.atTime 5) := fun _ written _ =>
    isExpired_of_young (by decide) written
  have hread := (hget "a.b" _ 5 hlast (by decide +kernel) hfresh _ Value.text?).2 rfl
  refine ⟨?_, ?_, hread, ?_⟩
  · rcases hset ".." (.int 1) 5 with ⟨-, -, hfile⟩ | ⟨hfault, -⟩
    · rw [hparent] at hfile
      exact hfile
    · exact absurd hfault (by decide +kernel)
  · rcases hset longKey (.int 1) 5 with ⟨hok, -⟩ | ⟨-, hsame⟩
    · obtain ⟨es, hes⟩ := exists_mirrors holds_blankDisk hyoung
      have hfits := (set_ok_iff (c := inDir "cache") (hes.holds.atTime 5) hes.orderly.onlyFiles
        longKey (.int 1)).1 hok
      have hlong : 250 < longKey.toList.length := by
        rw [length_longKey]
        exact Nat.lt_succ_self 250
      exact absurd hfits (not_fits_of_long "cache" hlong)
    · exact hsame
  · have hsame := hother _ Value.text? "a.b" 5
    rw [hshared] at hsame
    exact hsame.symm.trans hread

end DiskCache

end WebBaseline.Store

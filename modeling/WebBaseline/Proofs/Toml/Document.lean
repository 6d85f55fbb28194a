/-
  WebBaseline.Proofs.Toml.Document

  What is written as a document is read back as one. Each line is read as the
  statement of its pair (`statement?_pairChars`), so the lines as the statements
  of all pairs (`statementsFrom_pairs`), and these put each value under its key
  (`gather_pairs`).
-/

import WebBaseline.Proofs.Toml.Value

namespace WebBaseline.Toml

/-- Keys that stand without quotes. -/
def IsBareKey (key : String) : Prop :=
  key.toList ≠ [] ∧ ∀ c ∈ key.toList, isKeyChar c = true

instance (key : String) : Decidable (IsBareKey key) :=
  decidable_of_iff (key.toList ≠ [] ∧ key.toList.all isKeyChar = true)
    (and_congr_right fun _ => List.all_eq_true)

/-! ## Lines -/

theorem ne_of_isKeyChar {c d : Char} (hc : isKeyChar c = true) (hd : isKeyChar d = false) :
    c ≠ d := by
  rintro rfl
  exact Bool.false_ne_true (hd.symm.trans hc)

/-- A text that starts with a key starts with one of its characters. -/
theorem IsBareKey.start {key : String} (hkey : IsBareKey key) (rest : List Char) :
    ∃ c more, key.toList ++ rest = c :: more ∧ isKeyChar c = true := by
  obtain ⟨c, cs, hcs⟩ := List.exists_cons_of_ne_nil hkey.1
  exact ⟨c, cs ++ rest, by rw [hcs, List.cons_append], hkey.2 c (hcs ▸ List.mem_cons_self)⟩

theorem isBlank_of_isKeyChar {c : Char} (h : isKeyChar c = true) : isBlank c = false := by
  refine Bool.eq_false_iff.2 fun hblank => ?_
  rw [isBlank, Bool.or_eq_true, beq_iff_eq, beq_iff_eq] at hblank
  rcases hblank with rfl | rfl
  · exact absurd h (by decide)
  · exact absurd h (by decide)

/-- A key without quotes goes up to the blank behind it. -/
theorem simpleKey?_bare {key : String} (hkey : IsBareKey key) (rest : List Char) :
    simpleKey? (key.toList ++ ' ' :: rest) = some (key, ' ' :: rest) := by
  obtain ⟨hne, hchars⟩ := hkey
  have hname : (key.toList ++ ' ' :: rest).takeWhile isKeyChar = key.toList := by
    rw [List.takeWhile_append_of_pos hchars, List.takeWhile_cons_of_neg (by decide),
      List.append_nil]
  have hquotes : shortQuoted? (key.toList ++ ' ' :: rest) = none := by
    obtain ⟨c, more, hstart, hc⟩ := IsBareKey.start ⟨hne, hchars⟩ (' ' :: rest)
    rw [hstart, shortQuoted?.eq_def]
    split
    · next heq => exact absurd (List.cons.inj heq).1 (ne_of_isKeyChar hc rfl)
    · next heq => exact absurd (List.cons.inj heq).1 (ne_of_isKeyChar hc rfl)
    · rfl
  rw [simpleKey?, hquotes]
  dsimp only
  rw [hname, if_neg (by rwa [List.isEmpty_iff]), List.drop_left, String.ofList_toList]

theorem skipBlanks_bare {key : String} (hkey : IsBareKey key) (rest : List Char) :
    skipBlanks (key.toList ++ rest) = key.toList ++ rest := by
  obtain ⟨c, more, hstart, hc⟩ := hkey.start rest
  rw [hstart, skipBlanks_of_not_blank (isBlank_of_isKeyChar hc)]

theorem keys?_bare {key : String} (hkey : IsBareKey key) (rest : List Char) :
    keys? (key.toList ++ ' ' :: '=' :: rest) = some ([key], '=' :: rest) := by
  show keysFrom (78 + 1) _ = _
  rw [keysFrom, skipBlanks_bare hkey, simpleKey?_bare hkey]
  rfl

/-- The line of a pair, without the end of the line. -/
theorem pairChars_append (p : String × Plain) (rest : List Char) :
    pairChars p ++ rest =
      p.1.toList ++ ' ' :: '=' :: ' ' :: (p.2.chars ++ '\n' :: rest) := by
  simp [pairChars]

/-- The statement that a pair is written as. -/
def pairStatement (p : String × Plain) : Statement := .pair [p.1] p.2.value

/-- The line of a pair is read as its statement. -/
theorem statement?_pairChars {p : String × Plain} (hkey : IsBareKey p.1) (hfits : p.2.fits = true)
    (rest : List Char) :
    statement? (pairChars p ++ rest) = some (pairStatement p, '\n' :: rest) := by
  have hkeys := keys?_bare hkey (' ' :: (p.2.chars ++ '\n' :: rest))
  have hblank : skipBlanks (' ' :: (p.2.chars ++ '\n' :: rest)) =
      p.2.chars ++ '\n' :: rest := skipBlanks_chars p.2 _
  obtain ⟨c, more, hstart, hc⟩ :=
    hkey.start (' ' :: '=' :: ' ' :: (p.2.chars ++ '\n' :: rest))
  rw [pairChars_append]
  rw [hstart] at hkeys ⊢
  rw [statement?.eq_def]
  -- a line that starts with a key is no header
  split
  · next heq => exact absurd (List.cons.inj heq).1 (ne_of_isKeyChar hc rfl)
  · next heq => exact absurd (List.cons.inj heq).1 (ne_of_isKeyChar hc rfl)
  · rw [hkeys]
    show (value? (skipBlanks _)).map _ = _
    rw [hblank, value?_chars hfits, Option.map_some]
    rfl

/-- Lines of pairs are read as the statements of all. -/
theorem statementsFrom_pairs {pairs : List (String × Plain)}
    (hkeys : ∀ p ∈ pairs, IsBareKey p.1) (hfits : ∀ p ∈ pairs, p.2.fits = true) {fuel : Nat}
    (hfuel : pairs.length < fuel) :
    statementsFrom fuel (pairs.flatMap pairChars) = some (pairs.map pairStatement) := by
  induction pairs generalizing fuel with
  | nil =>
    obtain ⟨fuel, rfl⟩ := Nat.exists_eq_add_of_lt hfuel
    rfl
  | cons p pairs ih =>
    obtain ⟨hkey, hkeys⟩ := List.forall_mem_cons.1 hkeys
    obtain ⟨hfit, hfits⟩ := List.forall_mem_cons.1 hfits
    obtain ⟨fuel, rfl⟩ : ∃ n, fuel = n + 1 := ⟨fuel - 1, by omega⟩
    have hmore := ih hkeys hfits (Nat.lt_of_succ_lt_succ hfuel)
    have hline := statement?_pairChars hkey hfit (pairs.flatMap pairChars)
    obtain ⟨c, more, hstart, hc⟩ :=
      hkey.start (' ' :: '=' :: ' ' :: (p.2.chars ++ '\n' :: pairs.flatMap pairChars))
    rw [List.flatMap_cons, statementsFrom]
    rw [pairChars_append] at hline ⊢
    rw [skipBlanks_bare hkey]
    rw [hstart] at hline ⊢
    -- the line is neither blank nor a comment, so it is read as a statement
    split
    · next heq => cases heq
    · next heq => exact absurd (List.cons.inj heq).1 (ne_of_isKeyChar hc rfl)
    · next heq => exact absurd (List.cons.inj heq).1 (ne_of_isKeyChar hc rfl)
    · next heq => exact absurd (List.cons.inj heq).1 (ne_of_isKeyChar hc rfl)
    · next heq =>
      rw [← heq, hline]
      dsimp only
      show (statementsFrom fuel (pairs.flatMap pairChars)).map _ = _
      rw [hmore]
      rfl

/-! ## Entries -/

/-- A pair with a single key makes an entry, unless the key is taken. -/
theorem gather_pair {entries : Entries} {p : String × Plain} (hfresh : entries.lookup p.1 = none)
    (rest : List Statement) :
    gather [] (pairStatement p :: rest) entries =
      gather [] rest (Data.KeyMap.put p.1 (.value p.2.value) entries) := by
  have hentry : addEntry p.1 (.value p.2.value) entries =
      some (Data.KeyMap.put p.1 (.value p.2.value) entries) := by
    rw [addEntry, hfresh]
  show (addEntry p.1 (.value p.2.value) entries).bind (gather [] rest) = _
  rw [hentry, Option.bind_some]

/-- Statements of pairs put each value under its key and leave what lies under
    other keys. -/
theorem gather_pairs {pairs : List (String × Plain)} (hkeys : (pairs.map Prod.fst).Nodup)
    {entries : Entries} (hfresh : ∀ p ∈ pairs, entries.lookup p.1 = none) :
    ∃ all, gather [] (pairs.map pairStatement) entries = some all ∧
      (∀ p ∈ pairs, all.lookup p.1 = some (.value p.2.value)) ∧
      ∀ key, key ∉ pairs.map Prod.fst → all.lookup key = entries.lookup key := by
  -- by induction on the pairs; the keys of the rest stay free, and so does the value just put
  induction pairs generalizing entries with
  | nil => exact ⟨entries, rfl, by simp, fun key _ => rfl⟩
  | cons p pairs ih =>
    rw [List.map_cons, List.nodup_cons] at hkeys
    obtain ⟨hkey, hkeys⟩ := hkeys
    obtain ⟨hfirst, hfresh⟩ := List.forall_mem_cons.1 hfresh
    have hnext : ∀ q ∈ pairs,
        (Data.KeyMap.put p.1 (.value p.2.value) entries).lookup q.1 = none := by
      intro q hq
      have hne : q.1 ≠ p.1 := fun heq => hkey (heq ▸ List.mem_map_of_mem hq)
      rw [Data.KeyMap.lookup_put, if_neg hne, hfresh q hq]
    obtain ⟨all, hall, hvalues, hothers⟩ := ih hkeys hnext
    refine ⟨all, ?_, List.forall_mem_cons.2 ⟨?_, hvalues⟩, fun key hmem => ?_⟩
    · rw [List.map_cons, gather_pair hfirst, hall]
    · rw [hothers p.1 hkey, Data.KeyMap.lookup_put, if_pos rfl]
    · rw [List.map_cons, List.mem_cons, not_or] at hmem
      rw [hothers key hmem.2, Data.KeyMap.lookup_put, if_neg hmem.1]

theorem lookup_entriesToValues (key : String) (entries : Entries) :
    (entriesToValues entries).lookup key = (entries.lookup key).map Item.toValue := by
  induction entries with
  | nil => rfl
  | cons e entries ih =>
    obtain ⟨k, item⟩ := e
    rw [entriesToValues, Data.KeyMap.lookup_cons_eq_ite, Data.KeyMap.lookup_cons_eq_ite, ih]
    split <;> rfl

/-! ## Documents -/

/-- A key takes no byte order mark for its start. -/
theorem withoutMark_pairs {pairs : List (String × Plain)} (hkeys : ∀ p ∈ pairs, IsBareKey p.1) :
    withoutMark (pairs.flatMap pairChars) = pairs.flatMap pairChars := by
  cases pairs with
  | nil => rfl
  | cons p pairs =>
    obtain ⟨c, more, hstart, hc⟩ := (List.forall_mem_cons.1 hkeys).1.start
      (' ' :: '=' :: ' ' :: (p.2.chars ++ '\n' :: pairs.flatMap pairChars))
    rw [List.flatMap_cons, pairChars_append, hstart, withoutMark.eq_def]
    split
    · next heq => exact absurd (List.cons.inj heq).1 (ne_of_isKeyChar hc rfl)
    · rfl

/-- A document of pairs, each under a key of its own, is read back: every key
    has its value. -/
theorem parse_write {pairs : List (String × Plain)} (hkeys : ∀ p ∈ pairs, IsBareKey p.1)
    (hnodup : (pairs.map Prod.fst).Nodup) {text : String} (h : write? pairs = some text) :
    ∃ entries, parse text = some entries ∧
      ∀ p ∈ pairs, entries.lookup p.1 = some p.2.value := by
  rw [write?] at h
  split at h
  · next hall =>
    have hfits := List.all_eq_true.1 hall
    obtain rfl := Option.some.inj h
    have hlength : pairs.length ≤ (pairs.flatMap pairChars).length := by
      refine length_le_length_flatMap (fun p => ?_) pairs
      rw [pairChars, List.length_append, List.length_singleton]
      exact Nat.le_add_left 1 _
    have hfresh : ∀ p ∈ pairs, ([] : Entries).lookup p.1 = none := fun p _ => rfl
    obtain ⟨all, hgather, hvalues, -⟩ := gather_pairs hnodup hfresh
    refine ⟨entriesToValues all, ?_, fun p hp => ?_⟩
    · rw [parse, String.toList_ofList, withoutMark_pairs hkeys, statementsFrom_pairs hkeys hfits (Nat.lt_succ_of_le hlength),
        Option.bind_some, hgather, Option.map_some]
    · rw [lookup_entriesToValues, hvalues p hp]
      rfl
  · cases h

end WebBaseline.Toml

/-
  WebBaseline.Proofs.Settings.Toml

  Settings are read back from their TOML document (`ofToml?_toToml?`). There is
  one unless a number is beyond the integers of TOML (`toToml?_isSome_iff`).
-/

import WebBaseline.Proofs.Toml.Document
import WebBaseline.Settings.Encoding

namespace WebBaseline.Settings

open WebBaseline.Baseline (Level)

/-- Both numbers are integers of 64 bits with a sign, so at most 2^63 - 1. -/
def NumbersFit (s : Settings) : Prop :=
  s.timeout.toNat ≤ 9223372036854775807 ∧ s.keepHours.toNat ≤ 9223372036854775807

instance (s : Settings) : Decidable s.NumbersFit := inferInstanceAs (Decidable (_ ∧ _))

theorem fits_word (w : UInt64) :
    (Toml.Plain.integer w.toNat).fits = true ↔ w.toNat ≤ 9223372036854775807 := by
  rw [Toml.Plain.fits, decide_eq_true_eq, Toml.Value.minInteger, Toml.Value.maxInteger]
  omega

/-- Settings can be written just if their numbers are not too great. -/
theorem toToml?_isSome_iff (s : Settings) : s.toToml?.isSome = true ↔ s.NumbersFit := by
  have hall : s.pairs.all (fun p => p.2.fits) = true ↔ s.NumbersFit := by
    rw [NumbersFit, ← fits_word, ← fits_word]
    simp [pairs, Toml.Plain.fits]
  rw [← hall, toToml?, Toml.write?]
  split
  · next hfits => exact iff_of_true rfl hfits
  · next hfits => exact iff_of_false Bool.false_ne_true hfits

theorem isBareKey_names : ∀ name ∈ names, Toml.IsBareKey name := by decide

theorem texts?_texts (items : List String) :
    (Toml.Plain.texts items).value.texts? = some items := by
  show (items.map Toml.Value.text).mapM Toml.Value.text? = some items
  induction items with
  | nil => rfl
  | cons s items ih =>
    rw [List.map_cons, List.mapM_cons, ih]
    rfl

theorem wordOfToml?_word (w : UInt64) :
    wordOfToml? (Toml.Plain.integer w.toNat).value = some w := by
  show some (UInt64.ofNat w.toNat) = some w
  rw [UInt64.ofNat_toNat]

theorem levelOfToml?_word (l : Level) :
    levelOfToml? (Toml.Plain.text l.word).value = some l := Level.ofWord?_word l

/-- Settings that could be written are read back. -/
theorem ofToml?_toToml? {s : Settings} {text : String} (h : s.toToml? = some text) :
    ofToml? text = some s := by
  have hkeys : ∀ p ∈ s.pairs, Toml.IsBareKey p.1 := fun p hp =>
    isBareKey_names p.1 (List.mem_map_of_mem hp)
  have hnodup : (s.pairs.map Prod.fst).Nodup := by
    show names.Nodup
    decide
  obtain ⟨entries, hparse, hvalues⟩ := Toml.parse_write hkeys hnodup h
  -- every setting is given, so none falls back on its usual value
  have hgiven : ∀ {α : Type} {name : String} {p : Toml.Plain} {fallback x : α}
      {read : Toml.Value → Option α}, (name, p) ∈ s.pairs → read p.value = some x →
      givenOr entries name fallback read = some x := by
    intro α name p fallback x read hp hread
    rw [givenOr, hvalues _ hp]
    exact hread
  have level : givenOr entries "baseline_level" plain.level levelOfToml? = some s.level :=
    hgiven (by simp [pairs]) (levelOfToml?_word s.level)
  have includes : givenOr entries "include" plain.includes Toml.Value.texts? =
      some s.includes := hgiven (by simp [pairs]) (texts?_texts s.includes)
  have excludes : givenOr entries "exclude" plain.excludes Toml.Value.texts? =
      some s.excludes := hgiven (by simp [pairs]) (texts?_texts s.excludes)
  have remote : givenOr entries "remote_lookup" plain.remote Toml.Value.boolean? =
      some s.remote := hgiven (p := .boolean s.remote) (by simp [pairs]) rfl
  have timeout : givenOr entries "remote_timeout_secs" plain.timeout wordOfToml? =
      some s.timeout := hgiven (by simp [pairs]) (wordOfToml?_word s.timeout)
  have keepHours : givenOr entries "cache_ttl_hours" plain.keepHours wordOfToml? =
      some s.keepHours := hgiven (by simp [pairs]) (wordOfToml?_word s.keepHours)
  have format : givenOr entries "default_format" plain.format Toml.Value.text? =
      some s.format := hgiven (p := .text s.format) (by simp [pairs]) rfl
  rw [ofToml?, hparse, Option.bind_some, ofEntries?]
  simp only [Option.bind_eq_bind, Option.bind_some, level, includes, excludes, remote, timeout,
    keepHours, format]
  rfl

end WebBaseline.Settings

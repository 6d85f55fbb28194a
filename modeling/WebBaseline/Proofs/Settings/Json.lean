/-
  WebBaseline.Proofs.Settings.Json

  Settings are read back from their JSON (`codec_settings`). All fields are
  written, so none falls back on its usual value.
-/

import WebBaseline.Proofs.Baseline.Encoding
import WebBaseline.Proofs.Json.Codec
import WebBaseline.Settings.Encoding

namespace WebBaseline

open WebBaseline.Baseline (Level)
open WebBaseline.Json (Codec Inverse Record inverse_variant codec_text codec_bool codec_count)

theorem codec_level : Codec (fun _ => True) Level.toValue Level.ofValue? :=
  Inverse.codec (inverse_variant Level.ofWord?_word)

namespace Settings

theorem codec_texts :
    Codec (fun _ => True) (fun texts => .arr (texts.map .str)) texts? where
  read_write texts _ := codec_text.list.read_write texts (fun _ _ => trivial)
  exact_write texts _ := codec_text.list.exact_write texts (fun _ _ => trivial)
  write_ne_null := codec_text.list.write_ne_null
  fits_of_read _ _ _ := trivial

/-- A word is a number below the bound that is asked for. -/
theorem codec_word : Codec (fun _ => True) (fun w : UInt64 => .int w.toNat) word? where
  read_write w _ := by
    have hcount := codec_count.read_write w.toNat w.toNat_lt
    rw [word?, hcount, Option.map_some, UInt64.ofNat_toNat]
  exact_write w _ := codec_count.exact_write w.toNat w.toNat_lt
  write_ne_null _ := by simp
  fits_of_read _ _ _ := trivial

/-- The fields of settings, in order. -/
def fields (s : Settings) : List (String × Option Json.Value) :=
  [("baseline_level", some s.level.toValue), ("include", some (.arr (s.includes.map .str))),
    ("exclude", some (.arr (s.excludes.map .str))), ("remote_lookup", some (.bool s.remote)),
    ("remote_timeout_secs", some (.int s.timeout.toNat)),
    ("cache_ttl_hours", some (.int s.keepHours.toNat)), ("default_format", some (.str s.format))]

theorem ofJson?_fields (s : Settings) : ofJson? (.obj (Json.members s.fields)) = some s := by
  have hnames : (s.fields.map Prod.fst).Nodup := by
    show Settings.names.Nodup
    decide
  have hrecord : Record.ofValue? names (.obj (Json.members s.fields)) =
      some ⟨false, Json.members s.fields⟩ := Record.ofValue?_members hnames
  rw [ofJson?, hrecord]
  simp only [Option.bind_eq_bind, Option.bind_some,
    Record.orElse_members codec_level hnames "baseline_level" rfl trivial,
    Record.orElse_members codec_texts hnames "include" rfl trivial,
    Record.orElse_members codec_texts hnames "exclude" rfl trivial,
    Record.orElse_members codec_bool hnames "remote_lookup" rfl trivial,
    Record.orElse_members codec_word hnames "remote_timeout_secs" rfl trivial,
    Record.orElse_members codec_word hnames "cache_ttl_hours" rfl trivial,
    Record.orElse_members codec_text hnames "default_format" rfl trivial]
  rfl

theorem codec_settings : Codec (fun _ => True) toJson ofJson? := by
  refine Codec.ofFields (fun s => rfl) (fun s _ => ofJson?_fields s) (fun s _ f hf => ?_)
    (fun _ _ _ => trivial)
  simp only [fields, List.mem_cons, List.not_mem_nil, or_false] at hf
  rcases hf with rfl | rfl | rfl | rfl | rfl | rfl | rfl
  · exact codec_level.exact_some trivial
  · exact codec_texts.exact_some trivial
  · exact codec_texts.exact_some trivial
  · exact codec_bool.exact_some trivial
  · exact codec_word.exact_some trivial
  · exact codec_word.exact_some trivial
  · exact codec_text.exact_some trivial

end Settings

end WebBaseline

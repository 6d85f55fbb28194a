/-
  WebBaseline.Proofs.Lookup.NearMiss

  What a dataset answers to a misspelt name.

    * an entry that alone is a near miss of the name does not always answer: another
      one with a smaller key may occur in the name (`typo_not_resolved`);
    * if no such entry is there the near miss answers, otherwise the first one that
      overlaps with the name does (`lookup_of_only_near_miss`).
-/

import WebBaseline.Proofs.Lookup.Dataset

namespace WebBaseline.Lookup.Dataset

open WebBaseline.Baseline (Info)
open WebBaseline.Data (KeyMap)

variable {d : Dataset} {wanted : List Char} {feature key other : String} {e f : Entry}

/-! ## Near misses and overlaps -/

/-- Whether an entry is the only usable one that is a near miss of what is wanted,
    which is not empty. -/
structure IsOnlyNearMiss (d : Dataset) (wanted : List Char) (key : String) (e : Entry) :
    Prop where
  nonempty : wanted ≠ []
  entry : d.entries.get? key = some e
  usable : e.IsUsable
  near : e.IsNearMiss key wanted
  only : ∀ other f, d.entries.get? other = some f → f.IsUsable → f.IsNearMiss other wanted →
    other = key

/-- Whether an entry is usable and overlaps with what is wanted. -/
def OffersOverlap (d : Dataset) (wanted : List Char) (key : String) (e : Entry) : Prop :=
  d.entries.get? key = some e ∧ e.IsUsable ∧ e.Overlaps key wanted

theorem OffersOverlap.offers (h : d.OffersOverlap wanted key e) : d.Offers wanted key e :=
  ⟨h.1, h.2.1, Or.inl h.2.2⟩

theorem IsOnlyNearMiss.offers (h : d.IsOnlyNearMiss wanted key e) : d.Offers wanted key e :=
  ⟨h.entry, h.usable, Or.inr h.near⟩

/-- Beside the only near miss, an entry can match by overlapping alone. -/
theorem IsOnlyNearMiss.eq_or_overlap (h : d.IsOnlyNearMiss wanted key e)
    (hf : d.Offers wanted other f) : other = key ∨ d.OffersOverlap wanted other f := by
  obtain ⟨hget, husable, hoverlaps | hnear⟩ := hf
  · exact Or.inr ⟨hget, husable, hoverlaps⟩
  · exact Or.inl (h.only other f hget husable hnear)

theorem lookup_of_offersFirst (hexact : ∀ f, d.entries.get? feature = some f → ¬ f.IsUsable)
    (hform : IsNormalForm feature wanted) (hwanted : wanted ≠ [])
    (h : d.OffersFirst wanted key e) :
    ∃ info, e.info? = some info ∧ d.lookup feature = some info := by
  obtain ⟨info, hinfo⟩ := Entry.exists_info?_iff.2 h.1.2.1
  refine ⟨info, hinfo, ?_⟩
  rw [lookup_of_no_exact hexact hform]
  exact close?_eq_some_iff.2 ⟨hwanted, key, e, h, hinfo⟩

/-! ## The answer to a misspelt name -/

/-- The only near miss of a name answers, if no usable entry with a smaller key
    overlaps with the name. If one does, the first of those answers. -/
theorem lookup_of_only_near_miss
    (hexact : ∀ f, d.entries.get? feature = some f → ¬ f.IsUsable)
    (hform : IsNormalForm feature wanted) (h : d.IsOnlyNearMiss wanted key e) :
    ((∀ other f, d.OffersOverlap wanted other f →
        key.toUTF8.toList ≤ other.toUTF8.toList) →
      ∃ info, e.info? = some info ∧ d.lookup feature = some info) ∧
    (∀ other f, d.OffersOverlap wanted other f →
      other.toUTF8.toList < key.toUTF8.toList →
      (∀ third g, d.OffersOverlap wanted third g →
        other.toUTF8.toList ≤ third.toUTF8.toList) →
      ∃ info, f.info? = some info ∧ d.lookup feature = some info) := by
  constructor
  · intro hfirst
    refine lookup_of_offersFirst hexact hform h.nonempty ⟨h.offers, ?_⟩
    intro other f hf
    rcases h.eq_or_overlap hf with rfl | hoverlap
    · exact List.le_refl _
    · exact hfirst other f hoverlap
  · intro other f hf hlt hleast
    refine lookup_of_offersFirst hexact hform h.nonempty ⟨hf.offers, ?_⟩
    intro third g hg
    rcases h.eq_or_overlap hg with rfl | hoverlap
    · exact List.le_of_lt hlt
    · exact hleast third g hoverlap

/-! ## One misspelt name -/

/-- A feature with a short name, which occurs in many others. -/
def short : Entry := { name := "E", standing := some { tier := some .notBaseline } }

/-- A feature whose name is easily misspelt. -/
def long : Entry := { name := "Fetch", standing := some { tier := some .high } }

/-- Both features. -/
def shortAndLong : Dataset where
  entries := KeyMap.ofList [("e", short), ("fetch", long)]

/-- The misspelt one, with an unusable entry before it and an overlapping one behind. -/
def longAndLate : Dataset where
  entries := KeyMap.ofList [("e", { name := "E" }), ("fetch", long), ("zz-fecth-zz", short)]

theorem isNormalForm_fecth : IsNormalForm "fecth" "fecth".toList := by decide +kernel

theorem shortAndLong_only : shortAndLong.IsOnlyNearMiss "fecth".toList "fetch" long where
  nonempty := by decide
  entry := by rfl
  usable := by decide
  near := by decide
  only := by
    refine (KeyMap.forall_get?_iff _).2 ?_
    decide

theorem longAndLate_only : longAndLate.IsOnlyNearMiss "fecth".toList "fetch" long where
  nonempty := by decide
  entry := by rfl
  usable := by decide
  near := by decide
  only := by
    refine (KeyMap.forall_get?_iff _).2 ?_
    decide

theorem shortAndLong_not_exact :
    ∀ f, shortAndLong.entries.get? "fecth" = some f → ¬ f.IsUsable := by
  intro f hf
  cases hf

theorem longAndLate_not_exact :
    ∀ f, longAndLate.entries.get? "fecth" = some f → ¬ f.IsUsable := by
  intro f hf
  cases hf

/-- An entry that alone is a near miss of a name need not answer. -/
theorem typo_not_resolved :
    ¬ ∀ (d : Dataset) (feature : String) (wanted : List Char) (key : String) (e : Entry),
      (∀ f, d.entries.get? feature = some f → ¬ f.IsUsable) → IsNormalForm feature wanted →
      d.IsOnlyNearMiss wanted key e → d.lookup feature = e.info? := by
  intro h
  have hanswer := h shortAndLong "fecth" _ "fetch" long shortAndLong_not_exact
    isNormalForm_fecth shortAndLong_only
  exact absurd hanswer (by decide)

theorem typo_answered :
    IsNormalForm "fecth" "fecth".toList ∧
    (longAndLate.IsOnlyNearMiss "fecth".toList "fetch" long ∧
      ∃ info, long.info? = some info ∧ longAndLate.lookup "fecth" = some info) ∧
    (shortAndLong.IsOnlyNearMiss "fecth".toList "fetch" long ∧
      ∃ info, short.info? = some info ∧ shortAndLong.lookup "fecth" = some info) := by
  have hlate := lookup_of_only_near_miss longAndLate_not_exact isNormalForm_fecth longAndLate_only
  have hshort := lookup_of_only_near_miss shortAndLong_not_exact isNormalForm_fecth
    shortAndLong_only
  refine ⟨isNormalForm_fecth, ⟨longAndLate_only, ?_⟩, shortAndLong_only, ?_⟩
  · refine hlate.1 ?_
    rintro other f ⟨hf, husable, hoverlaps⟩
    refine not_lt_iff_bytes_le.1 ?_
    have hall : ∀ other f, longAndLate.entries.get? other = some f → f.IsUsable →
        f.Overlaps other "fecth".toList → ¬ other < "fetch" := by
      refine (KeyMap.forall_get?_iff _).2 ?_
      decide
    exact hall other f hf husable hoverlaps
  · refine hshort.2 "e" short ⟨by rfl, by decide, by decide⟩ ?_ ?_
    · rw [← Text.lt_iff_bytes_lt]
      decide
    · rintro third g ⟨hg, -, -⟩
      refine not_lt_iff_bytes_le.1 ?_
      have hall : ∀ third g, shortAndLong.entries.get? third = some g → ¬ third < "e" := by
        refine (KeyMap.forall_get?_iff _).2 ?_
        decide
      exact hall third g hg

end WebBaseline.Lookup.Dataset

/-
  WebBaseline.Proofs.Lookup.Dataset

  What a dataset answers, said without a search.

    * an entry is usable if it states a tier; it matches a name if a term of it
      overlaps with the name or is a near miss of it, both in normal form;
    * among the usable entries that match, the one whose key has the least bytes
      answers (`close?_eq_some_iff`);
    * entries that are not usable change no answer (`SameUsable.lookup_eq`);
    * all together, with an exact key before all others: `lookup_first_offered`.
-/

import WebBaseline.Proofs.Lookup.Encoding
import WebBaseline.Proofs.Lookup.NormalForm
import WebBaseline.Proofs.Text.ByteOrder
import WebBaseline.Proofs.Text.EditDistance

namespace WebBaseline.Lookup

open WebBaseline.Baseline (Info)
open WebBaseline.Data (KeyMap)
open WebBaseline.Json (Value)

/-! ## Entries -/

namespace Entry

variable {e : Entry} {key : String} {wanted : List Char} {info : Info}

/-- Whether an entry states a tier. -/
def IsUsable (e : Entry) : Prop :=
  ∃ standing tier, e.standing = some standing ∧ standing.tier = some tier

theorem exists_info?_iff : (∃ info, e.info? = some info) ↔ e.IsUsable := by
  rw [info?, IsUsable]
  cases hstanding : e.standing with
  | none => simp
  | some standing =>
    cases htier : standing.tier with
    | none => simp [htier]
    | some tier => simp [htier]

instance (e : Entry) : Decidable e.IsUsable :=
  decidable_of_iff (e.info?.isSome = true) (Option.isSome_iff_exists.trans exists_info?_iff)

/-- Whether a term of an entry contains what is wanted or occurs in it. -/
def Overlaps (e : Entry) (key : String) (wanted : List Char) : Prop :=
  ∃ term ∈ e.terms key, ∃ form, IsNormalForm term form ∧ form ≠ [] ∧
    (form <:+: wanted ∨ wanted <:+: form)

/-- Whether a term of an entry is at most two edits away from what is wanted. -/
def IsNearMiss (e : Entry) (key : String) (wanted : List Char) : Prop :=
  ∃ term ∈ e.terms key, ∃ form, IsNormalForm term form ∧ form ≠ [] ∧
    ∃ k ≤ 2, Text.Edits k wanted form

/-- Whether an entry is close to what is wanted, in either way. -/
def Matches (e : Entry) (key : String) (wanted : List Char) : Prop :=
  e.Overlaps key wanted ∨ e.IsNearMiss key wanted

theorem overlaps_iff : e.Overlaps key wanted ↔ ∃ term ∈ e.terms key,
    normalForm term ≠ [] ∧
      (occursIn (normalForm term) wanted || occursIn wanted (normalForm term)) = true := by
  simp only [Overlaps, isNormalForm_iff, exists_eq_left, Bool.or_eq_true, occursIn_iff]

theorem isNearMiss_iff : e.IsNearMiss key wanted ↔ ∃ term ∈ e.terms key,
    normalForm term ≠ [] ∧ Text.editDistance wanted (normalForm term) ≤ tolerance := by
  simp only [IsNearMiss, isNormalForm_iff, exists_eq_left, Text.editDistance_eq_distance,
    tolerance, Text.distance_le_iff]

instance (e : Entry) (key : String) (wanted : List Char) : Decidable (e.Overlaps key wanted) :=
  decidable_of_iff _ overlaps_iff.symm

instance (e : Entry) (key : String) (wanted : List Char) : Decidable (e.IsNearMiss key wanted) :=
  decidable_of_iff _ isNearMiss_iff.symm

theorem any_isClose_iff :
    (e.terms key).any (fun t => isClose wanted (normalForm t)) = true ↔ e.Matches key wanted := by
  rw [List.any_eq_true, Matches, overlaps_iff, isNearMiss_iff, ← exists_or]
  refine exists_congr fun term => ?_
  rw [isClose, Bool.and_eq_true, Bool.or_eq_true, decide_eq_true_eq, Bool.not_eq_true',
    List.isEmpty_eq_false_iff, Bool.or_comm, ← and_or_left, ← and_or_left]

end Entry

/-! ## The first of the entries that match -/

namespace Dataset

variable {d d' : Dataset} {wanted : List Char} {feature key : String} {e : Entry} {info : Info}

/-- Whether a usable entry stands under a key and matches what is wanted. -/
def Offers (d : Dataset) (wanted : List Char) (key : String) (e : Entry) : Prop :=
  d.entries.get? key = some e ∧ e.IsUsable ∧ e.Matches key wanted

/-- The same for the entry with the least key, byte by byte. -/
def OffersFirst (d : Dataset) (wanted : List Char) (key : String) (e : Entry) : Prop :=
  d.Offers wanted key e ∧
    ∀ other f, d.Offers wanted other f → key.toUTF8.toList ≤ other.toUTF8.toList

theorem not_lt_iff_bytes_le {key other : String} :
    ¬ other < key ↔ key.toUTF8.toList ≤ other.toUTF8.toList := by
  rw [Text.lt_iff_bytes_lt, List.not_lt]

theorem closeInfo?_eq_some_iff :
    closeInfo? wanted (key, e) = some info ↔ e.Matches key wanted ∧ e.info? = some info := by
  rw [closeInfo?, ← Entry.any_isClose_iff]
  split
  · next hclose => simp only [hclose, true_and]
  · next hclose => simp only [hclose, false_and, reduceCtorEq]

theorem closeInfo?_eq_none_iff :
    closeInfo? wanted (key, e) = none ↔ ¬ (e.IsUsable ∧ e.Matches key wanted) := by
  rw [← Entry.exists_info?_iff, Option.eq_none_iff_forall_ne_some]
  constructor
  · rintro h ⟨⟨info, hinfo⟩, hmatches⟩
    exact h info (closeInfo?_eq_some_iff.2 ⟨hmatches, hinfo⟩)
  · intro h info hclose
    obtain ⟨hmatches, hinfo⟩ := closeInfo?_eq_some_iff.1 hclose
    exact h ⟨⟨info, hinfo⟩, hmatches⟩

theorem close?_eq_some_iff :
    d.close? wanted = some info ↔
      wanted ≠ [] ∧ ∃ key e, d.OffersFirst wanted key e ∧ e.info? = some info := by
  rw [close?]
  by_cases hwanted : wanted = []
  · simp [hwanted]
  rw [if_neg (by simpa using hwanted), KeyMap.findSome?_entries_eq_some_iff]
  constructor
  · rintro ⟨key, e, he, hclose, hbefore⟩
    obtain ⟨hmatches, hinfo⟩ := closeInfo?_eq_some_iff.1 hclose
    have husable : e.IsUsable := Entry.exists_info?_iff.1 ⟨info, hinfo⟩
    refine ⟨hwanted, key, e, ⟨⟨he, husable, hmatches⟩, ?_⟩, hinfo⟩
    rintro other f ⟨hf, hfits⟩
    refine not_lt_iff_bytes_le.1 fun hlt => ?_
    exact closeInfo?_eq_none_iff.1 (hbefore other f hf hlt) hfits
  · rintro ⟨-, key, e, ⟨⟨he, -, hmatches⟩, hleast⟩, hinfo⟩
    refine ⟨key, e, he, closeInfo?_eq_some_iff.2 ⟨hmatches, hinfo⟩, ?_⟩
    intro other f hf hlt
    refine closeInfo?_eq_none_iff.2 fun hfits => ?_
    exact not_lt_iff_bytes_le.2 (hleast other f ⟨hf, hfits⟩) hlt

theorem close?_eq_none_iff :
    d.close? wanted = none ↔ wanted = [] ∨ ∀ key e, ¬ d.Offers wanted key e := by
  rw [close?]
  by_cases hwanted : wanted = []
  · simp [hwanted]
  rw [if_neg (by simpa using hwanted), KeyMap.findSome?_entries_eq_none_iff]
  constructor
  · intro h
    refine Or.inr ?_
    rintro key e ⟨he, hfits⟩
    exact closeInfo?_eq_none_iff.1 (h key e he) hfits
  · intro h key e he
    have hnone := h.resolve_left hwanted
    exact closeInfo?_eq_none_iff.2 (fun hfits => hnone key e ⟨he, hfits⟩)

/-! ## What a dataset answers -/

theorem lookup_of_exact (he : d.entries.get? feature = some e) (hinfo : e.info? = some info) :
    d.lookup feature = some info := by
  have hexact : d.atKey? feature = some info := by
    rw [atKey?, he]
    exact hinfo
  rw [lookup, hexact, Option.some_or]

/-- Without a usable entry under exactly the name, the entries that match answer. -/
theorem lookup_of_no_exact (h : ∀ e, d.entries.get? feature = some e → ¬ e.IsUsable)
    (hwanted : IsNormalForm feature wanted) : d.lookup feature = d.close? wanted := by
  have hnone : d.atKey? feature = none := by
    rw [atKey?, Option.bind_eq_none_iff]
    intro e he
    rw [Option.eq_none_iff_forall_ne_some]
    intro info hinfo
    exact h e he (Entry.exists_info?_iff.1 ⟨info, hinfo⟩)
  rw [lookup, hnone, Option.none_or, isNormalForm_iff.1 hwanted]

/-- Whether two datasets have the same usable entries. -/
def SameUsable (d d' : Dataset) : Prop :=
  ∀ key e, e.IsUsable → (d.entries.get? key = some e ↔ d'.entries.get? key = some e)

theorem SameUsable.offers_iff (h : SameUsable d d') :
    d.Offers wanted key e ↔ d'.Offers wanted key e := by
  have hkey : e.IsUsable → (d.entries.get? key = some e ↔ d'.entries.get? key = some e) := h key e
  constructor
  · rintro ⟨he, husable, hmatches⟩
    exact ⟨(hkey husable).1 he, husable, hmatches⟩
  · rintro ⟨he, husable, hmatches⟩
    exact ⟨(hkey husable).2 he, husable, hmatches⟩

theorem SameUsable.close?_eq (h : SameUsable d d') (wanted : List Char) :
    d.close? wanted = d'.close? wanted := by
  refine Option.ext fun info => ?_
  rw [close?_eq_some_iff, close?_eq_some_iff]
  simp only [OffersFirst, h.offers_iff]

/-- Entries that are not usable change no answer. -/
theorem SameUsable.lookup_eq (h : SameUsable d d') (feature : String) :
    d.lookup feature = d'.lookup feature := by
  by_cases hexact : ∃ e, d.entries.get? feature = some e ∧ e.IsUsable
  · obtain ⟨e, he, husable⟩ := hexact
    obtain ⟨info, hinfo⟩ := Entry.exists_info?_iff.2 husable
    have he' : d'.entries.get? feature = some e := (h feature e husable).1 he
    rw [lookup_of_exact he hinfo, lookup_of_exact he' hinfo]
  · have hno : ∀ e, d.entries.get? feature = some e → ¬ e.IsUsable := by
      intro e he husable
      exact hexact ⟨e, he, husable⟩
    have hno' : ∀ e, d'.entries.get? feature = some e → ¬ e.IsUsable := by
      intro e he husable
      exact hno e ((h feature e husable).2 he) husable
    have hwanted : IsNormalForm feature (normalForm feature) := isNormalForm_iff.2 rfl
    rw [lookup_of_no_exact hno hwanted, lookup_of_no_exact hno' hwanted, h.close?_eq]

/-- A usable entry under exactly the name answers. Otherwise the usable entry with
    the least key among those that match the normal form of the name does, and
    nothing is answered just where that form is empty or no such entry is there.
    So the order in which a document lists the features does not matter, and nor
    do entries that are not usable. -/
theorem lookup_first_offered (d : Dataset) (feature : String) :
    (∀ e info, d.entries.get? feature = some e → e.info? = some info →
      d.lookup feature = some info) ∧
    ((∀ e, d.entries.get? feature = some e → ¬ e.IsUsable) →
      ∃ wanted, IsNormalForm feature wanted ∧
        (∀ info, d.lookup feature = some info ↔ wanted ≠ [] ∧
          ∃ key e, d.OffersFirst wanted key e ∧ e.info? = some info) ∧
        (d.lookup feature = none ↔ wanted = [] ∨ ∀ key e, ¬ d.Offers wanted key e)) ∧
    (∀ document document', Relisted document document' →
      Dataset.ofValue? document = some d →
      ∃ d', Dataset.ofValue? document' = some d' ∧ d'.lookup feature = d.lookup feature) ∧
    (∀ d', SameUsable d d' → d'.lookup feature = d.lookup feature) := by
  refine ⟨fun e info he hinfo => lookup_of_exact he hinfo, fun hexact => ?_, ?_, ?_⟩
  · have hwanted : IsNormalForm feature (normalForm feature) := isNormalForm_iff.2 rfl
    rw [lookup_of_no_exact hexact hwanted]
    exact ⟨_, hwanted, fun info => close?_eq_some_iff, close?_eq_none_iff⟩
  · intro document document' hlisted hread
    rw [ofValue?_of_relisted hlisted] at hread
    exact ⟨d, hread, rfl⟩
  · intro d' hsame
    exact (hsame.lookup_eq feature).symm

/-! ## Widgets -/

/-- Four widgets. Two of them, the one with the least key and the one behind it, state
    no tier. -/
def widgets : Dataset where
  entries := KeyMap.ofList [
    ("CSS-ÉLAN_Widget()", { name := "Widget", standing := some { tier := none } }),
    ("a-widget", { name := "Élan-Widget" }),
    ("z-widget", { name := "Élan-Widget", standing := some { tier := some .high } }),
    ("élan-widget", { name := "Widget", standing := some { tier := some .low } })]

/-- A document with some features, listed from `z` to `a` or the other way. -/
def widgetDocument (reversed : Bool) : Value :=
  let features : List (String × Value) := [
    ("élan-widget", .obj [("name", .str "Widget"), ("status", .obj [("baseline", .str "low")])]),
    ("z-widget",
      .obj [("status", .obj [("baseline", .str "high")]), ("name", .str "Élan-Widget")]),
    ("a-widget", .obj [("name", .str "Élan-Widget")]),
    ("CSS-ÉLAN_Widget()",
      .obj [("name", .str "Widget"), ("status", .obj [("baseline", .bool true)])])]
  .obj [("version", .int 2), ("features", .obj (if reversed then features.reverse else features))]

theorem widgetDocument_relisted : Relisted (widgetDocument false) (widgetDocument true) :=
  Relisted.named [("version", .int 2)] [] (List.reverse_perm _).symm (by decide)

/-- The widgets that state a tier. -/
def usableWidgets : Dataset where
  entries := KeyMap.ofList [
    ("z-widget", { name := "Élan-Widget", standing := some { tier := some .high } }),
    ("élan-widget", { name := "Widget", standing := some { tier := some .low } })]

theorem widgets_sameUsable : SameUsable widgets usableWidgets := by
  intro key e husable
  rw [KeyMap.get?_eq_some_iff, KeyMap.get?_eq_some_iff]
  constructor
  · intro he
    have hall : ∀ x ∈ widgets.entries.entries, x.2.IsUsable → x ∈ usableWidgets.entries.entries := by
      decide
    exact hall (key, e) he husable
  · intro he
    have hall : ∀ x ∈ usableWidgets.entries.entries, x ∈ widgets.entries.entries := by
      decide
    exact hall (key, e) he

/-- The third widget answers to a name in capital letters, with a namespace and an
    argument list, that is the key of the first one. -/
theorem widget_first_offered :
    (∀ e, widgets.entries.get? "CSS-ÉLAN_Widget()" = some e → ¬ e.IsUsable) ∧
    (IsNormalForm "CSS-ÉLAN_Widget()" "élanwidget".toList ∧
      ∃ key e, widgets.OffersFirst "élanwidget".toList key e ∧
        e.info? = some { status := .widely, support := some KeyMap.empty }) ∧
    Relisted (widgetDocument false) (widgetDocument true) ∧
    Dataset.ofValue? (widgetDocument false) = some widgets ∧
    (∃ d, Dataset.ofValue? (widgetDocument true) = some d ∧
      d.lookup "CSS-ÉLAN_Widget()" = widgets.lookup "CSS-ÉLAN_Widget()") ∧
    SameUsable widgets usableWidgets ∧
    usableWidgets.lookup "CSS-ÉLAN_Widget()" = widgets.lookup "CSS-ÉLAN_Widget()" := by
  have hexact : ∀ e, widgets.entries.get? "CSS-ÉLAN_Widget()" = some e → ¬ e.IsUsable := by
    intro e he
    obtain rfl : ({ name := "Widget", standing := some { tier := none } } : Entry) = e :=
      Option.some.inj he
    decide
  have hread : Dataset.ofValue? (widgetDocument false) = some widgets := by rfl
  have hform : IsNormalForm "CSS-ÉLAN_Widget()" "élanwidget".toList := by decide +kernel
  have hanswer : widgets.lookup "CSS-ÉLAN_Widget()" =
      some { status := .widely, support := some KeyMap.empty } := by decide +kernel
  obtain ⟨-, hfirst, hlisted, hsame⟩ := lookup_first_offered widgets "CSS-ÉLAN_Widget()"
  obtain ⟨wanted, hwanted, hfound, -⟩ := hfirst hexact
  obtain rfl : wanted = "élanwidget".toList :=
    (isNormalForm_iff.1 hwanted).trans (isNormalForm_iff.1 hform).symm
  refine ⟨hexact, ⟨hform, ((hfound _).1 hanswer).2⟩, widgetDocument_relisted, hread, ?_,
    widgets_sameUsable, ?_⟩
  · exact hlisted _ _ widgetDocument_relisted hread
  · exact hsame usableWidgets widgets_sameUsable

end Dataset

end WebBaseline.Lookup

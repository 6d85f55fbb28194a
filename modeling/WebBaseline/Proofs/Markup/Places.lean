/-
  WebBaseline.Proofs.Markup.Places

  Where the features of markup stand.

    * a line shows what its hits show, if their names count (`mem_lineOccurrences_iff`),
      and a text what its lines show (`mem_occurrencesFrom_iff`);
    * an occurrence stands where a whole name is read in a line of the text
      (`shows_of_mem`); of two occurrences of one kind the first ends before the second
      starts (`pairwise_occurrences`);
    * so no feature is shown twice at one place, and the features are the elements,
      then the attributes (`features_eq_append`), all in the order of their places
      (`features_in_order`).
-/

import WebBaseline.Markup.Features
import WebBaseline.Proofs.Feature.Distinct
import WebBaseline.Proofs.Markup.Hits

namespace WebBaseline.Markup

open WebBaseline.Feature

variable {q : Quarry} {number : Nat} {line : List Char} {ls : List (List Char)} {o : Occurrence}

/-! ## What lines show -/

theorem hitOccurrence?_eq_some_iff {column : Nat} {hit : Hit} :
    hitOccurrence? q number column hit = some o ↔
      q.counts (Text.lowercase (String.ofList hit.name)) = true ∧
        o = .located (q.family ++ Text.lowercase (String.ofList hit.name)) number column
          (String.ofList hit.whole) := by
  rw [hitOccurrence?]
  split
  · rename_i hcounts
    rw [Option.some.injEq, eq_comm]
    exact ⟨fun h => ⟨hcounts, h⟩, fun h => h.2⟩
  · rename_i hcounts
    constructor
    · intro h
      cases h
    · intro h
      exact absurd h.1 hcounts

/-- A line shows the hits in it whose names count. -/
theorem mem_lineOccurrences_iff :
    o ∈ lineOccurrences q number line ↔ ∃ h ∈ hits q.pattern line,
      q.counts (Text.lowercase (String.ofList h.2.name)) = true ∧
        o = .located (q.family ++ Text.lowercase (String.ofList h.2.name)) number h.1
          (String.ofList h.2.whole) := by
  rw [lineOccurrences, List.mem_filterMap]
  simp only [hitOccurrence?_eq_some_iff]

/-- Lines that are counted from a number on show what each of them shows. -/
theorem mem_occurrencesFrom_iff :
    o ∈ occurrencesFrom q number ls ↔
      ∃ k line, ls[k]? = some line ∧ o ∈ lineOccurrences q (number + k) line := by
  induction ls generalizing number with
  | nil => simp [occurrencesFrom]
  | cons l ls ih =>
    rw [occurrencesFrom, List.mem_append, ih]
    constructor
    · rintro (hfirst | ⟨k, line, hline, ho⟩)
      · exact ⟨0, l, rfl, hfirst⟩
      · refine ⟨k + 1, line, hline, ?_⟩
        have hnumber : number + (k + 1) = number + 1 + k := by omega
        rw [hnumber]
        exact ho
    · rintro ⟨k, line, hline, ho⟩
      cases k with
      | zero =>
        obtain rfl : l = line := by simpa using hline
        exact Or.inl ho
      | succ k =>
        have hnumber : number + (k + 1) = number + 1 + k := by omega
        rw [hnumber] at ho
        exact Or.inr ⟨k, line, hline, ho⟩

/-- What a text shows in a line starts where a hit in that line starts. -/
theorem exists_hit_of_mem {text : String} (ho : o ∈ occurrences q text)
    (honLine : o.line = some number) (hline : (Text.lines text.toList)[number - 1]? = some line) :
    ∃ h ∈ hits q.pattern line, o.column = some h.1 := by
  obtain ⟨k, line', hat, ho⟩ := mem_occurrencesFrom_iff.1 ho
  obtain ⟨h, hmem, -, rfl⟩ := mem_lineOccurrences_iff.1 ho
  obtain rfl : 1 + k = number := Option.some.inj honLine
  have hindex : 1 + k - 1 = k := by omega
  rw [hindex, hat, Option.some.injEq] at hline
  subst hline
  exact ⟨h, hmem, rfl⟩

/-! ## Order -/

/-- One occurrence stands in an earlier line than another, or further left in the same
    line, where it ends before the other starts. -/
def Precedes (a b : Occurrence) : Prop :=
  ∃ m c n d context, a.line = some m ∧ a.column = some c ∧ b.line = some n ∧ b.column = some d ∧
    a.context = some context ∧ (m < n ∨ m = n ∧ c < d ∧ c + context.utf8ByteSize ≤ d)

theorem Precedes.key_ne {a b : Occurrence} (h : Precedes a b) : a.key ≠ b.key := by
  obtain ⟨m, c, n, d, context, hm, hc, hn, hd, -, hplace⟩ := h
  intro hkey
  simp only [Occurrence.key, hm, hc, hn, hd, Prod.mk.injEq, Option.some.injEq] at hkey
  omega

theorem pairwise_lineOccurrences (hq : q.pattern.IsAnchored) (number : Nat) (line : List Char) :
    (lineOccurrences q number line).Pairwise Precedes := by
  have hfinds := finds_hits hq line
  rw [lineOccurrences, List.pairwise_filterMap]
  refine hfinds.pairwise.imp_of_mem ?_
  intro a b ha hb hbehind o ho o' ho'
  obtain ⟨-, rfl⟩ := hitOccurrence?_eq_some_iff.1 ho
  obtain ⟨-, rfl⟩ := hitOccurrence?_eq_some_iff.1 ho'
  obtain ⟨before, behind, -, -, hread⟩ := hfinds.placed ha
  have hlong : 0 < byteCount a.2.whole := byteCount_pos (hq _ _ hread).1
  refine ⟨number, a.1, number, b.1, String.ofList a.2.whole, rfl, rfl, rfl, rfl, rfl, ?_⟩
  exact Or.inr ⟨rfl, by omega, hbehind⟩

theorem pairwise_occurrencesFrom (hq : q.pattern.IsAnchored) (number : Nat)
    (ls : List (List Char)) : (occurrencesFrom q number ls).Pairwise Precedes := by
  induction ls generalizing number with
  | nil => exact .nil
  | cons l ls ih =>
    rw [occurrencesFrom, List.pairwise_append]
    refine ⟨pairwise_lineOccurrences hq number l, ih (number + 1), ?_⟩
    -- what later lines show stands in lines with greater numbers
    intro a ha b hb
    obtain ⟨h, -, -, rfl⟩ := mem_lineOccurrences_iff.1 ha
    obtain ⟨k, line, -, hb⟩ := mem_occurrencesFrom_iff.1 hb
    obtain ⟨h', -, -, rfl⟩ := mem_lineOccurrences_iff.1 hb
    refine ⟨number, h.1, number + 1 + k, h'.1, _, rfl, rfl, rfl, rfl, rfl, Or.inl ?_⟩
    omega

theorem pairwise_occurrences (hq : q.pattern.IsAnchored) (text : String) :
    (occurrences q text).Pairwise Precedes :=
  pairwise_occurrencesFrom hq 1 (Text.lines text.toList)

/-! ## Elements, then attributes -/

/-- The features of one kind among those of a text. -/
def found (q : Quarry) (text : String) : List Occurrence :=
  (features text).filter (fun o => o.identifier.startsWith q.family)

theorem identifier_of_mem_occurrences {text : String} (ho : o ∈ occurrences q text) :
    ∃ name, o.identifier = q.family ++ name := by
  obtain ⟨k, line, -, ho⟩ := mem_occurrencesFrom_iff.1 ho
  obtain ⟨h, -, -, rfl⟩ := mem_lineOccurrences_iff.1 ho
  exact ⟨_, rfl⟩

/-- Whether the identifiers of one kind begin like those of another is told from the
    families of both. -/
theorem filter_occurrences {family : String} {b : Bool}
    (hfamily : ∀ name, (q.family ++ name).startsWith family = b) (text : String) :
    (occurrences q text).filter (fun o => o.identifier.startsWith family) =
      if b then occurrences q text else [] := by
  have hall : ∀ o ∈ occurrences q text, o.identifier.startsWith family = b := by
    intro o ho
    obtain ⟨name, hname⟩ := identifier_of_mem_occurrences ho
    rw [hname, hfamily]
  cases b with
  | true => exact List.filter_eq_self.2 hall
  | false =>
    rw [if_neg Bool.false_ne_true, List.filter_eq_nil_iff]
    intro o ho
    rw [hall o ho]
    exact Bool.false_ne_true

theorem startsWith_family (q : Quarry) (name : String) :
    (q.family ++ name).startsWith q.family = true := by
  rw [String.startsWith_string_iff, String.toList_append]
  exact List.prefix_append _ _

theorem attributes_startsWith_elements (name : String) :
    (attributes.family ++ name).startsWith elements.family = false := by
  rw [Bool.eq_false_iff, ne_eq, String.startsWith_string_iff, String.toList_append]
  simp [attributes, elements]

theorem elements_startsWith_attributes (name : String) :
    (elements.family ++ name).startsWith attributes.family = false := by
  rw [Bool.eq_false_iff, ne_eq, String.startsWith_string_iff, String.toList_append]
  simp [attributes, elements]

/-- The features of markup are the occurrences of elements, then those of attributes:
    none of them has to be left out. -/
theorem features_eq_append (text : String) :
    features text = occurrences elements text ++ occurrences attributes text := by
  refine Occurrence.distinct_eq_self (List.pairwise_append.2 ⟨?_, ?_, ?_⟩)
  · exact (pairwise_occurrences openingTag_reads.isAnchored text).imp Precedes.key_ne
  · exact (pairwise_occurrences assignment_reads.isAnchored text).imp Precedes.key_ne
  · -- an element and an attribute differ in how their identifiers begin
    intro a ha b hb hkey
    obtain ⟨name, hname⟩ := identifier_of_mem_occurrences ha
    obtain ⟨name', hname'⟩ := identifier_of_mem_occurrences hb
    have hidentifier : a.identifier = b.identifier := congrArg Prod.fst hkey
    have hfamily := attributes_startsWith_elements name'
    rw [← hname', ← hidentifier, hname, startsWith_family] at hfamily
    cases hfamily

theorem found_elements (text : String) : found elements text = occurrences elements text := by
  rw [found, features_eq_append, List.filter_append,
    filter_occurrences (startsWith_family elements),
    filter_occurrences attributes_startsWith_elements]
  exact List.append_nil _

theorem found_attributes (text : String) : found attributes text = occurrences attributes text := by
  rw [found, features_eq_append, List.filter_append,
    filter_occurrences elements_startsWith_attributes,
    filter_occurrences (startsWith_family attributes)]
  rfl

theorem features_eq_found (text : String) :
    features text = found elements text ++ found attributes text := by
  rw [found_elements, found_attributes, features_eq_append]

/-! ## Places -/

/-- An occurrence stands in a line of a text behind some characters, and its context is
    the part of the line that begins there. -/
structure IsAt (text : String) (o : Occurrence) (number : Nat) (before context behind : List Char) :
    Prop where
  line : o.line = some number
  pos : 1 ≤ number
  le : number ≤ (Text.lines text.toList).length
  split : (Text.lines text.toList)[number - 1]? = some (before ++ context ++ behind)
  column : o.column = some (byteCount before + 1)
  context : o.context = some (String.ofList context)

/-- An occurrence shows a name that counts: its context begins with a mark and the name,
    which is the whole run of characters of its class that stands there in the line. -/
def Shows (text : String) (mark : List Char) (isPart : Char → Bool) (counts : String → Bool)
    (family : String) (o : Occurrence) : Prop :=
  ∃ number before name rest behind, IsAt text o number before (mark ++ name ++ rest) behind ∧
    name ≠ [] ∧ (name ++ rest ++ behind).takeWhile isPart = name ∧
    o.identifier = family ++ Text.lowercase (String.ofList name) ∧
    counts (Text.lowercase (String.ofList name)) = true

theorem shows_of_mem {mark : List Char} {isPart : Char → Bool} {text : String}
    (hq : q.pattern.Reads mark isPart) (ho : o ∈ occurrences q text) :
    Shows text mark isPart q.counts q.family o := by
  obtain ⟨k, line, hline, ho⟩ := mem_occurrencesFrom_iff.1 ho
  obtain ⟨h, hmem, hcounts, rfl⟩ := mem_lineOccurrences_iff.1 ho
  obtain ⟨before, behind, hsplit, hcolumn, hread⟩ := (finds_hits hq.isAnchored line).placed hmem
  obtain ⟨rest, behind', hwhole, hbehind, hname, hrun⟩ := hq _ _ hread
  obtain rfl : behind = behind' := List.append_cancel_left hbehind
  refine ⟨1 + k, before, h.2.name, rest, behind, ?_, hname, hrun, rfl, hcounts⟩
  rw [← hwhole]
  have hshort : k < (Text.lines text.toList).length := (List.getElem?_eq_some_iff.1 hline).1
  have hindex : 1 + k - 1 = k := by omega
  exact {
    line := rfl
    pos := by omega
    le := by omega
    split := by rw [hindex, hline, hsplit]
    column := by
      show some h.1 = some (byteCount before + 1)
      rw [hcolumn, Nat.add_comm]
    context := rfl }

/-- Every feature stands in a line of the text, at the byte column of a character, and its
    context is what the line reads there: elements begin with an angle bracket and a word,
    attributes with their name, each of them in the catalog once in lower case. All elements
    come before all attributes; within each kind a feature ends before the next one starts. -/
theorem features_in_order (text : String) :
    features text = found elements text ++ found attributes text ∧
      (∀ o ∈ found elements text,
        Shows text ['<'] Text.isWordChar Catalog.isElement "html-element-" o) ∧
      (∀ o ∈ found attributes text,
        Shows text [] isNameChar Catalog.isAttribute "html-attribute-" o) ∧
      (found elements text).Pairwise Precedes ∧ (found attributes text).Pairwise Precedes := by
  refine ⟨features_eq_found text, ?_, ?_, ?_, ?_⟩
  · intro o ho
    rw [found_elements] at ho
    exact shows_of_mem openingTag_reads ho
  · intro o ho
    rw [found_attributes] at ho
    exact shows_of_mem assignment_reads ho
  · rw [found_elements]
    exact pairwise_occurrences openingTag_reads.isAnchored text
  · rw [found_attributes]
    exact pairwise_occurrences assignment_reads.isAnchored text

example : features "<p data-ÉTÉ='1'>\n<DIALOG>" =
    [.located "html-element-dialog" 2 1 "<DIALOG>",
      .located "html-attribute-data-été" 1 4 "data-ÉTÉ='1'"] := by decide +kernel

end WebBaseline.Markup

/-
  WebBaseline.Proofs.Markup.Values

  Values between quotes, as the search for attributes sees them.

    * a value in quotes is read at least up to its first quote of either kind
      (`quotedValue?_reaches`), so the hit of its attribute goes on behind all before that
      quote (`assignment_reaches`, `HasValue.exists_hit`);
    * a value that holds a quote of the other kind is not covered as a whole: an
      attribute may be shown behind that quote (`value_not_opaque`);
    * no attribute is shown inside a beginning of a value that holds no quote, so none
      inside a value without quotes (`not_shown_before_quote`).
-/

import WebBaseline.Proofs.Markup.Places

namespace WebBaseline.Markup

open WebBaseline.Data (takeWhile_append_cons dropWhile_append_cons through?_append exists_through?)
open WebBaseline.Feature

/-! ## What a hit covers -/

/-- A quoted value goes on behind all that holds no quote. -/
theorem quotedValue?_reaches {quote : Char} {front back : List Char}
    (hquote : isQuote quote = true) (hfront : ∀ c ∈ front, isQuote c = false)
    (hback : ∃ c ∈ back, isQuote c = true) :
    ∃ more, more ≠ [] ∧ quotedValue? (quote :: (front ++ back)) =
      some (quote :: (front ++ more)) := by
  obtain ⟨more, hmore, hne⟩ := exists_through? hback
  refine ⟨more, hne, ?_⟩
  rw [quotedValue?_eq, if_pos hquote, through?_append hfront, hmore]
  rfl

/-- The hit of an attribute with a quoted value goes on behind each beginning of the value
    that holds no quote. -/
theorem assignment_reaches {name front back : List Char} {quote : Char} {hit : Hit}
    (hname : ∀ c ∈ name, isNameChar c = true) (hquote : isQuote quote = true)
    (hfront : ∀ c ∈ front, isQuote c = false) (hback : ∃ c ∈ back, isQuote c = true)
    (hhit : assignment (name ++ '=' :: quote :: (front ++ back)) = some hit) :
    ∃ more, more ≠ [] ∧ hit.whole = name ++ '=' :: quote :: (front ++ more) := by
  obtain ⟨more, hne, hvalue⟩ := quotedValue?_reaches hquote hfront hback
  have hequals : isNameChar '=' = false := by decide
  have hassigned : assigned ('=' :: quote :: (front ++ back)) =
      '=' :: quote :: (front ++ more) := by
    rw [assigned.eq_1, hvalue, Option.some_or]
  rw [assignment_eq, takeWhile_append_cons hname hequals, dropWhile_append_cons hname hequals,
    hassigned] at hhit
  split at hhit
  · cases hhit
  · cases hhit
    exact ⟨more, hne, rfl⟩

/-! ## Inside a value -/

/-- In a line of a text stands a name with a value between two quotes of one kind, which the
    value does not hold, and the search for attributes has a hit at the name. -/
structure HasValue (text : String) (number : Nat) (before name value behind : List Char)
    (quote : Char) : Prop where
  pos : 1 ≤ number
  line : (Text.lines text.toList)[number - 1]? =
    some (before ++ (name ++ '=' :: quote :: (value ++ quote :: behind)))
  named : name ≠ [] ∧ ∀ c ∈ name, isNameChar c = true
  quoted : isQuote quote = true
  whole : quote ∉ value
  hit : ∃ h ∈ hits assignment (before ++ (name ++ '=' :: quote :: (value ++ quote :: behind))),
    h.1 = byteCount before + 1

/-- A column that lies inside characters which stand behind others in a line. -/
def Inside (before inside : List Char) (column : Nat) : Prop :=
  byteCount before < column ∧ column ≤ byteCount (before ++ inside)

instance (before inside : List Char) (column : Nat) : Decidable (Inside before inside column) :=
  inferInstanceAs (Decidable (_ ∧ _))

theorem utf8Size_of_isQuote {quote : Char} (h : isQuote quote = true) : quote.utf8Size = 1 := by
  rw [isQuote, Bool.or_eq_true, beq_iff_eq, beq_iff_eq] at h
  rcases h with rfl | rfl
  · decide
  · decide

/-- The hit at the name goes on behind each beginning of the value that holds no quote. -/
theorem HasValue.exists_hit {text : String} {number : Nat}
    {before name value behind front back : List Char} {quote : Char}
    (hvalue : HasValue text number before name value behind quote)
    (hsplit : value = front ++ back) (hfront : ∀ c ∈ front, isQuote c = false) :
    ∃ h ∈ hits assignment (before ++ (name ++ '=' :: quote :: (value ++ quote :: behind))),
      h.1 = byteCount before + 1 ∧
        byteCount (name ++ '=' :: quote :: front) < byteCount h.2.whole := by
  obtain ⟨h, hmem, hstart⟩ := hvalue.hit
  obtain ⟨before', behind', htext, hcolumn, hread⟩ :=
    (finds_hits assignment_reads.isAnchored _).placed hmem
  -- the column tells where in the line the hit stands, and so what it reads
  rw [List.append_assoc] at htext
  obtain rfl : before = before' := eq_of_byteCount_eq htext (by omega)
  have hwhole := List.append_cancel_left htext
  rw [← hwhole, hsplit, List.append_assoc] at hread
  obtain ⟨more, hne, hcovered⟩ := assignment_reaches hvalue.named.2 hvalue.quoted hfront
    ⟨quote, List.mem_append_right back List.mem_cons_self, hvalue.quoted⟩ hread
  have hmore : 0 < byteCount more := byteCount_pos hne
  refine ⟨h, hmem, hstart, ?_⟩
  rw [hcovered]
  simp only [byteCount_append, byteCount_cons]
  omega

/-- A title with an apostrophe in it. -/
theorem hasValue_apostrophe :
    HasValue "<p title=\"it's hidden\">" 1 "<p ".toList "title".toList "it's hidden".toList
      ">".toList '\x22' where
  pos := by decide
  line := by decide +kernel
  named := ⟨by decide +kernel, List.all_eq_true.1 (by decide +kernel)⟩
  quoted := by decide
  whole := by decide +kernel
  hit := by decide +kernel

/-- A quoted value is not always opaque: behind a quote of the other kind in it, an attribute
    may be shown. -/
theorem value_not_opaque :
    ¬ ∀ (text : String) (number : Nat) (before name value behind : List Char) (quote : Char),
      HasValue text number before name value behind quote →
      ∀ o ∈ found attributes text, o.line = some number → ∀ column, o.column = some column →
        ¬ Inside (before ++ name ++ ['=', quote]) value column := by
  intro h
  have hshown : Occurrence.located "html-attribute-hidden" 1 16 "hidden" ∈
      found attributes "<p title=\"it's hidden\">" := by decide +kernel
  exact h _ _ _ _ _ _ _ hasValue_apostrophe _ hshown rfl 16 rfl (by decide +kernel)

/-- No attribute is shown inside a beginning of a quoted value that holds no quote of either
    kind, and so none inside a value that holds no quote at all. -/
theorem not_shown_before_quote {text : String} {number : Nat}
    {before name value behind front back : List Char} {quote : Char}
    (hvalue : HasValue text number before name value behind quote)
    (hsplit : value = front ++ back) (hfront : ∀ c ∈ front, isQuote c = false) :
    ∀ o ∈ found attributes text, o.line = some number → ∀ column, o.column = some column →
      ¬ Inside (before ++ name ++ ['=', quote]) front column := by
  intro o ho honLine column hcolumn hinside
  obtain ⟨h, hmem, hstart, hlong⟩ := hvalue.exists_hit hsplit hfront
  rw [found_attributes] at ho
  obtain ⟨h', hmem', hcolumn'⟩ := exists_hit_of_mem ho honLine hvalue.line
  obtain rfl : h'.1 = column := Option.some.inj (hcolumn'.symm.trans hcolumn)
  -- a hit whose column lies there would start inside the one at the name
  refine (finds_hits assignment_reads.isAnchored _).not_inside assignment_reads.isAnchored hmem
    hmem' ?_
  have hquoteSize := utf8Size_of_isQuote hvalue.quoted
  have hequalsSize : '='.utf8Size = 1 := by decide
  obtain ⟨hbehind, hahead⟩ := hinside
  simp only [byteCount_append, byteCount_cons, byteCount_nil] at hbehind hahead hlong
  omega

/-- A title that looks like an attribute and like the end of a tag. -/
theorem hasValue_hidden :
    HasValue "<p title=\"hidden >\" role='x'>" 1 "<p ".toList "title".toList "hidden >".toList
      " role='x'>".toList '\x22' where
  pos := by decide
  line := by decide +kernel
  named := ⟨by decide +kernel, List.all_eq_true.1 (by decide +kernel)⟩
  quoted := by decide
  whole := by decide +kernel
  hit := by decide +kernel

theorem hidden_not_shown_in_title :
    (HasValue "<p title=\"hidden >\" role='x'>" 1 "<p ".toList "title".toList "hidden >".toList
        " role='x'>".toList '\x22' ∧
      (∀ c ∈ "hidden >".toList, isQuote c = false) ∧
      found attributes "<p title=\"hidden >\" role='x'>" =
        [.located "html-attribute-role" 1 21 "role='x'"] ∧
      ∀ o ∈ found attributes "<p title=\"hidden >\" role='x'>", o.line = some 1 →
        ∀ column, o.column = some column →
          ¬ Inside ("<p ".toList ++ "title".toList ++ ['=', '\x22']) "hidden >".toList column) ∧
    ∀ o ∈ found attributes "<p title=\"it's hidden\">", o.line = some 1 →
      ∀ column, o.column = some column →
        ¬ Inside ("<p ".toList ++ "title".toList ++ ['=', '\x22']) "it".toList column := by
  have hplain : ∀ c ∈ "hidden >".toList, isQuote c = false :=
    fun c hc => Bool.eq_false_iff.2 (List.any_eq_false.1 (by decide +kernel) c hc)
  have hbeginning : ∀ c ∈ "it".toList, isQuote c = false :=
    fun c hc => Bool.eq_false_iff.2 (List.any_eq_false.1 (by decide +kernel) c hc)
  refine ⟨⟨hasValue_hidden, hplain, by decide +kernel, ?_⟩, ?_⟩
  · exact not_shown_before_quote hasValue_hidden (List.append_nil _).symm hplain
  · have hsplit : "it's hidden".toList = "it".toList ++ "'s hidden".toList := by decide +kernel
    exact not_shown_before_quote hasValue_apostrophe hsplit hbeginning

end WebBaseline.Markup

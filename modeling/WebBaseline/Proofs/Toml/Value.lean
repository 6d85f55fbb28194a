/-
  WebBaseline.Proofs.Toml.Value

  What is written as a value of a setting is read back.

    * integers and truth values, which stand without quotes (`bareValue?_intChars`,
      `bare?_append`);
    * lists of texts, on one line or with a line for each item
      (`itemsFrom_lines`);
    * so every value is, up to the end of its line (`value?_chars`).
-/

import Mathlib.Algebra.BigOperators.Group.List.Basic
import WebBaseline.Proofs.Json.Scalars
import WebBaseline.Proofs.Toml.Quoted
import WebBaseline.Toml.Reader
import WebBaseline.Toml.Writer

namespace WebBaseline.Toml

/-- The value that a value of a setting is read as. -/
def Plain.value : Plain → Value
  | .text s => .text s
  | .integer i => .integer i
  | .boolean b => .boolean b
  | .texts items => .list (items.map Value.text)

/-! ## Integers and truth values -/

/-- Digits without underscores between them are grouped already. -/
theorem grouped?_of_all {isDigit : Char → Bool} (hline : isDigit '_' = false) {ds : List Char}
    (hne : ds ≠ []) (hds : ∀ c ∈ ds, isDigit c = true) : grouped? isDigit ds = some ds := by
  induction ds with
  | nil => exact absurd rfl hne
  | cons c ds ih =>
    obtain ⟨hc, hds⟩ := List.forall_mem_cons.1 hds
    cases ds with
    | nil => rw [grouped?, if_pos hc]
    | cons d ds =>
      have hd : d ≠ '_' := by
        rintro rfl
        rw [(List.forall_mem_cons.1 hds).1] at hline
        cases hline
      rw [grouped?, if_pos hc, ih (by simp) hds]
      · rfl
      · simp
      · intro rest heq
        exact hd (List.cons.inj heq).1

theorem whole?_digits (n : Nat) : whole? (Decimal.digits n) = some (Decimal.digits n) := by
  rw [whole?, grouped?_of_all (by decide) (Json.digits_ne_nil n) (Decimal.digits_isDigit n)]
  split
  · next heq => cases Json.digits_eq_zero_cons (Option.some.inj heq)
  · rfl

/-- Digits are read as the number that they stand for, with its sign. -/
theorem integer?_intChars (i : Int) : integer? (Decimal.intChars i) = some i := by
  cases i with
  | ofNat n =>
    show integer? (Decimal.digits n) = _
    have hsigned : signed (Decimal.digits n) = (false, Decimal.digits n) := by
      rw [signed.eq_def]
      split
      · next heq =>
        exact absurd (Decimal.digits_isDigit n '-' (by rw [heq]; exact List.mem_cons_self)) (by decide)
      · next heq =>
        exact absurd (Decimal.digits_isDigit n '+' (by rw [heq]; exact List.mem_cons_self)) (by decide)
      · rfl
    rw [integer?.eq_def]
    split
    · next heq => cases Json.digits_eq_zero_cons heq
    · next heq => cases Json.digits_eq_zero_cons heq
    · next heq => cases Json.digits_eq_zero_cons heq
    · rw [hsigned]
      dsimp only
      rw [whole?_digits, Option.map_some, Decimal.ofDigits_digits]
      rfl
  | negSucc n =>
    show integer? ('-' :: Decimal.digits (n + 1)) = _
    rw [integer?.eq_def]
    show (whole? (Decimal.digits (n + 1))).map _ = _
    rw [whole?_digits, Option.map_some]
    dsimp only
    rw [Decimal.ofDigits_digits]
    rfl

theorem bareValue?_intChars {i : Int} (h : (Plain.integer i).fits = true) :
    bareValue? (Decimal.intChars i) = some (.integer i) := by
  have hbounds : Value.minInteger ≤ i ∧ i ≤ Value.maxInteger := of_decide_eq_true h
  -- a truth value is no integer
  have hword : ∀ word : String, integer? word.toList = none →
      Decimal.intChars i ≠ word.toList := by
    intro word hnone heq
    rw [← heq, integer?_intChars] at hnone
    cases hnone
  rw [bareValue?, if_neg (hword "true" rfl), if_neg (hword "false" rfl), integer?_intChars]
  exact if_pos hbounds

theorem isBareChar_intChars (i : Int) : ∀ c ∈ Decimal.intChars i, isBareChar c = true := by
  have hdigits : ∀ n, ∀ c ∈ Decimal.digits n, isBareChar c = true := by
    intro n c hc
    have hdigit := Decimal.digits_isDigit n c hc
    simp [isBareChar, Char.isAlphanum, hdigit]
  cases i with
  | ofNat n => exact hdigits n
  | negSucc n => exact List.forall_mem_cons.2 ⟨rfl, hdigits (n + 1)⟩

/-- What stands without quotes goes up to the end of its line. -/
theorem bare?_append {token : List Char} (h : ∀ c ∈ token, isBareChar c = true)
    (more : List Char) :
    bare? (token ++ '\n' :: more) = (bareValue? token).map (fun v => (v, '\n' :: more)) := by
  have htoken : (token ++ '\n' :: more).takeWhile isBareChar = token := by
    rw [List.takeWhile_append_of_pos h, List.takeWhile_cons_of_neg (by decide), List.append_nil]
  rw [bare?]
  simp only [htoken, List.drop_left]
  rfl

/-! ## Lists of texts -/

theorem exists_quote (cs : List Char) :
    ∃ q tail, quote cs = q :: tail ∧ (q = '\x22' ∨ q = '\x27') := by
  rw [quote]
  cases styleOf cs with
  | basic => exact ⟨'\x22', _, rfl, Or.inl rfl⟩
  | literal => exact ⟨'\x27', _, rfl, Or.inr rfl⟩
  | longBasic => exact ⟨'\x22', _, rfl, Or.inl rfl⟩
  | longLiteral => exact ⟨'\x27', _, rfl, Or.inr rfl⟩

/-- A text as a value, with no further quote behind it. -/
theorem valueFrom_quote (s : String) {fuel : Nat} (hfuel : 0 < fuel) (depth : Nat)
    {c : Char} (hquote : c ≠ '\x22') (hliteral : c ≠ '\x27') (rest : List Char) :
    valueFrom fuel depth (quote s.toList ++ c :: rest) = some (.text s, c :: rest) := by
  obtain ⟨fuel, rfl⟩ := Nat.exists_eq_add_of_lt hfuel
  have hread : quoted? (quote s.toList ++ c :: rest) = some (s.toList, c :: rest) :=
    quoted?_quote s.toList (fun more h => hquote (List.cons.inj h).1)
      (fun more h => hliteral (List.cons.inj h).1)
  obtain ⟨q, tail, htext, hq⟩ := exists_quote s.toList
  rw [htext, List.cons_append] at hread ⊢
  rcases hq with rfl | rfl
  · rw [Nat.zero_add, valueFrom, hread, Option.map_some, String.ofList_toList]
  · rw [Nat.zero_add, valueFrom, hread, Option.map_some, String.ofList_toList]

/-- Characters that are no blank, comment or end of a line. -/
def Solid (c : Char) : Prop := isBlank c = false ∧ c ≠ '\n' ∧ c ≠ '\r' ∧ c ≠ '#'

theorem skipBlanks_of_not_blank {c : Char} (h : isBlank c = false) (cs : List Char) :
    skipBlanks (c :: cs) = c :: cs := List.dropWhile_cons_of_neg (by simp [h])

theorem skipLines_of_solid {c : Char} (h : Solid c) (fuel : Nat) (cs : List Char) :
    skipLines fuel (c :: cs) = c :: cs := by
  obtain ⟨hblank, hn, hr, hcomment⟩ := h
  cases fuel with
  | zero => rfl
  | succ fuel =>
    rw [skipLines, skipBlanks_of_not_blank hblank]
    split
    · next heq => exact absurd (List.cons.inj heq).1 hn
    · next heq => exact absurd (List.cons.inj heq).1 hr
    · next heq => exact absurd (List.cons.inj heq).1 hcomment
    · rfl

theorem skipLines_newline (fuel : Nat) (cs : List Char) :
    skipLines (fuel + 1) ('\n' :: cs) = skipLines fuel cs := rfl

/-- The line of an item. -/
def itemLine (s : String) : List Char :=
  [' ', ' ', ' ', ' '] ++ quote s.toList ++ [',', '\n']

theorem skipLines_indent (fuel : Nat) (cs : List Char) :
    skipLines (fuel + 1) (' ' :: ' ' :: ' ' :: ' ' :: cs) = skipLines (fuel + 1) cs := by
  have hblanks : skipBlanks (' ' :: ' ' :: ' ' :: ' ' :: cs) = skipBlanks cs := rfl
  rw [skipLines, skipLines, hblanks]

theorem solid_of_quote {q : Char} (h : q = '\x22' ∨ q = '\x27') : Solid q ∧ q ≠ ']' := by
  rcases h with rfl | rfl
  · exact ⟨⟨rfl, by decide, by decide, by decide⟩, by decide⟩
  · exact ⟨⟨rfl, by decide, by decide, by decide⟩, by decide⟩

/-- A text as an item of a list, and a comma or the end of the list behind it. -/
theorem itemsFrom_quote (s : String) {fuel : Nat} (hfuel : 0 < fuel) (depth : Nat) {cs : List Char}
    {c : Char} {rest : List Char} (hskip : skipLines cs.length cs = quote s.toList ++ c :: rest)
    (hc : c = ',' ∨ c = ']') :
    itemsFrom (fuel + 1) depth cs =
      if c = ',' then (itemsFrom fuel depth rest).map (fun r => (.text s :: r.1, r.2))
      else some ([.text s], rest) := by
  obtain ⟨q, tail, htext, hq⟩ := exists_quote s.toList
  obtain ⟨-, hclose⟩ := solid_of_quote hq
  have hsolid : Solid c ∧ c ≠ '\x22' ∧ c ≠ '\x27' := by
    rcases hc with rfl | rfl
    · exact ⟨⟨rfl, by decide, by decide, by decide⟩, by decide, by decide⟩
    · exact ⟨⟨rfl, by decide, by decide, by decide⟩, by decide, by decide⟩
  have hvalue := valueFrom_quote s hfuel depth hsolid.2.1 hsolid.2.2 rest
  rw [itemsFrom, hskip]
  split
  · next heq =>
    rw [htext, List.cons_append] at heq
    exact absurd (List.cons.inj heq).1 hclose
  · rw [hvalue]
    dsimp only
    rw [skipLines_of_solid hsolid.1]
    rcases hc with rfl | rfl
    · rfl
    · rfl

/-- The items of a list, each on a line of its own. -/
theorem itemsFrom_lines (items : List String) {fuel : Nat} (hfuel : items.length < fuel)
    (depth : Nat) (rest : List Char) :
    itemsFrom fuel depth ('\n' :: (items.flatMap itemLine ++ ']' :: rest)) =
      some (items.map Value.text, rest) := by
  induction items generalizing fuel with
  | nil =>
    obtain ⟨fuel, rfl⟩ := Nat.exists_eq_add_of_lt hfuel
    rw [List.flatMap_nil, List.nil_append, itemsFrom, List.length_cons, skipLines_newline,
      skipLines_of_solid ⟨rfl, by decide, by decide, by decide⟩]
    rfl
  | cons s items ih =>
    obtain ⟨fuel, rfl⟩ : ∃ n, fuel = n + 1 := ⟨fuel - 1, by omega⟩
    rw [List.length_cons] at hfuel
    have hmore : items.length < fuel := Nat.lt_of_succ_lt_succ hfuel
    obtain ⟨q, tail, htext, hq⟩ := exists_quote s.toList
    have hline : (s :: items).flatMap itemLine ++ ']' :: rest =
        ' ' :: ' ' :: ' ' :: ' ' :: (quote s.toList ++
          ',' :: '\n' :: (items.flatMap itemLine ++ ']' :: rest)) := by
      simp [itemLine]
    have hskip : skipLines ('\n' :: ((s :: items).flatMap itemLine ++ ']' :: rest)).length
        ('\n' :: ((s :: items).flatMap itemLine ++ ']' :: rest)) =
        quote s.toList ++ ',' :: '\n' :: (items.flatMap itemLine ++ ']' :: rest) := by
      rw [hline, List.length_cons, skipLines_newline, List.length_cons, skipLines_indent, htext,
        List.cons_append]
      exact skipLines_of_solid (solid_of_quote hq).1 _ _
    rw [itemsFrom_quote s (by omega) depth hskip (Or.inl rfl), if_pos rfl, ih hmore]
    rfl

/-- A list of texts, however it is written. -/
theorem valueFrom_listChars (items : List String) {fuel : Nat} (hfuel : items.length + 1 < fuel)
    (rest : List Char) :
    valueFrom fuel 0 (Plain.listChars items ++ rest) =
      some (.list (items.map Value.text), rest) := by
  obtain ⟨fuel, rfl⟩ : ∃ n, fuel = n + 2 := ⟨fuel - 2, by omega⟩
  have hlist : ∀ cs, valueFrom (fuel + 2) 0 ('[' :: cs) =
      (itemsFrom (fuel + 1) 1 cs).map (fun r => (.list r.1, r.2)) := fun cs => rfl
  match items with
  | [] => rfl
  | [s] =>
    have htext : Plain.listChars [s] ++ rest = '[' :: (quote s.toList ++ ']' :: rest) := by
      simp [Plain.listChars]
    obtain ⟨q, tail, hquote, hq⟩ := exists_quote s.toList
    have hskip : skipLines (quote s.toList ++ ']' :: rest).length
        (quote s.toList ++ ']' :: rest) = quote s.toList ++ ']' :: rest := by
      rw [hquote, List.cons_append]
      exact skipLines_of_solid (solid_of_quote hq).1 _ _
    have hone : 0 < fuel := Nat.lt_of_succ_lt_succ (Nat.lt_of_succ_lt_succ hfuel)
    rw [htext, hlist, itemsFrom_quote s hone 1 hskip (Or.inr rfl)]
    rfl
  | s :: t :: items =>
    have htext : Plain.listChars (s :: t :: items) ++ rest =
        '[' :: '\n' :: ((s :: t :: items).flatMap itemLine ++ ']' :: rest) := by
      show '[' :: '\n' :: ((s :: t :: items).flatMap itemLine ++ [']']) ++ rest = _
      rw [List.cons_append, List.cons_append, List.append_assoc, List.singleton_append]
    rw [htext, hlist, itemsFrom_lines _ (by omega)]
    rfl

/-- Where each part takes up a character at least, there are no more parts than
    characters. -/
theorem length_le_length_flatMap {α : Type} {f : α → List Char} (hf : ∀ x, 1 ≤ (f x).length)
    (xs : List α) : xs.length ≤ (xs.flatMap f).length := by
  have hone : ∀ n ∈ xs.map (fun x => (f x).length), 1 ≤ n := by
    intro n hn
    obtain ⟨x, -, rfl⟩ := List.mem_map.1 hn
    exact hf x
  have hsum := List.length_le_sum_of_one_le _ hone
  rwa [List.length_map, ← List.length_flatMap] at hsum

theorem length_lt_listChars (items : List String) :
    items.length < (Plain.listChars items).length := by
  match items with
  | [] => exact Nat.zero_lt_succ _
  | [s] =>
    show 1 < ('[' :: (quote s.toList ++ [']'])).length
    rw [List.length_cons, List.length_append, List.length_singleton]
    omega
  | s :: t :: items =>
    show (s :: t :: items).length <
      ('[' :: '\n' :: ((s :: t :: items).flatMap itemLine ++ [']'])).length
    have hline : ∀ item, 1 ≤ (itemLine item).length := fun item =>
      Nat.succ_le_succ (Nat.zero_le _)
    have hlines := length_le_length_flatMap hline (s :: t :: items)
    simp only [List.length_cons, List.length_append] at hlines ⊢
    omega

/-! ## Values -/

/-- What stands without quotes is read as such. -/
theorem value?_bare {c : Char} {token : List Char} (hstart : c.isAlphanum = true ∨ c = '-')
    (htoken : ∀ d ∈ c :: token, isBareChar d = true) (more : List Char) :
    value? (c :: token ++ '\n' :: more) =
      (bareValue? (c :: token)).map (fun v => (v, '\n' :: more)) := by
  have hother : c ≠ '[' ∧ c ≠ '\x7b' ∧ c ≠ '\x22' ∧ c ≠ '\x27' := by
    refine ⟨?_, ?_, ?_, ?_⟩ <;> (rintro rfl; exact absurd hstart (by decide))
  obtain ⟨hlist, htable, hbasic, hliteral⟩ := hother
  rw [← bare?_append htoken, List.cons_append, value?, valueFrom]
  · intro rest heq
    exact hlist (List.cons.inj heq).1
  · intro rest heq
    exact htable (List.cons.inj heq).1
  · intro rest heq
    exact hbasic (List.cons.inj heq).1
  · intro rest heq
    exact hliteral (List.cons.inj heq).1

theorem exists_intChars (i : Int) :
    ∃ c token, Decimal.intChars i = c :: token ∧ (c.isAlphanum = true ∨ c = '-') := by
  cases i with
  | ofNat n =>
    obtain ⟨c, token, heq⟩ := List.exists_cons_of_ne_nil (Json.digits_ne_nil n)
    have hdigit : c.isDigit = true :=
      Decimal.digits_isDigit n c (heq ▸ List.mem_cons_self)
    exact ⟨c, token, heq, Or.inl (by simp [Char.isAlphanum, hdigit])⟩
  | negSucc n => exact ⟨'-', Decimal.digits (n + 1), rfl, Or.inr rfl⟩

/-- A value that can be written is read back, up to the end of its line. -/
theorem value?_chars {p : Plain} (h : p.fits = true) (more : List Char) :
    value? (p.chars ++ '\n' :: more) = some (p.value, '\n' :: more) := by
  cases p with
  | text s => exact valueFrom_quote s (Nat.succ_pos _) 0 (by decide) (by decide) more
  | integer i =>
    obtain ⟨c, token, hchars, hstart⟩ := exists_intChars i
    have hbare : ∀ d ∈ c :: token, isBareChar d = true := hchars ▸ isBareChar_intChars i
    show value? (Decimal.intChars i ++ '\n' :: more) = _
    rw [hchars, value?_bare hstart hbare more, ← hchars, bareValue?_intChars h]
    rfl
  | boolean b =>
    cases b with
    | false =>
      show value? ('f' :: ['a', 'l', 's', 'e'] ++ '\n' :: more) = _
      rw [value?_bare (Or.inl rfl) (List.all_eq_true.1 rfl) more]
      rfl
    | true =>
      show value? ('t' :: ['r', 'u', 'e'] ++ '\n' :: more) = _
      rw [value?_bare (Or.inl rfl) (List.all_eq_true.1 rfl) more]
      rfl
  | texts items =>
    refine valueFrom_listChars items ?_ ('\n' :: more)
    have hlength : items.length < (Plain.texts items).chars.length := length_lt_listChars items
    rw [List.length_append]
    omega

/-- A value starts with no blank. -/
theorem skipBlanks_chars (p : Plain) (rest : List Char) :
    skipBlanks (p.chars ++ rest) = p.chars ++ rest := by
  have hstart : ∃ c cs, p.chars = c :: cs ∧ isBlank c = false := by
    cases p with
    | text s =>
      obtain ⟨q, tail, htext, hq⟩ := exists_quote s.toList
      exact ⟨q, tail, htext, (solid_of_quote hq).1.1⟩
    | integer i =>
      obtain ⟨c, token, hchars, hstart⟩ := exists_intChars i
      refine ⟨c, token, hchars, Bool.eq_false_iff.2 fun hblank => ?_⟩
      rw [isBlank, Bool.or_eq_true, beq_iff_eq, beq_iff_eq] at hblank
      rcases hblank with rfl | rfl
      · exact absurd hstart (by decide)
      · exact absurd hstart (by decide)
    | boolean b =>
      cases b with
      | false => exact ⟨'f', ['a', 'l', 's', 'e'], rfl, rfl⟩
      | true => exact ⟨'t', ['r', 'u', 'e'], rfl, rfl⟩
    | texts items =>
      match items with
      | [] => exact ⟨'[', [']'], rfl, rfl⟩
      | [s] => exact ⟨'[', quote s.toList ++ [']'], rfl, rfl⟩
      | s :: t :: items => exact ⟨'[', _, rfl, rfl⟩
  obtain ⟨c, cs, hchars, hblank⟩ := hstart
  rw [hchars, List.cons_append, skipBlanks_of_not_blank hblank]

end WebBaseline.Toml

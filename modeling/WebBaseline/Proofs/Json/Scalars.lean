/-
  WebBaseline.Proofs.Json.Scalars

  Quoted texts and whole numbers that were printed are read back.

    * `textBody_quoted` reads the characters of a quoted text,
      `characters?_toNat` makes them characters again;
    * `unsignedNumber_digits` reads the digits of a number, if what follows them
      does not make the number longer (`Ends`).
-/

import WebBaseline.Json.Parser
import WebBaseline.Json.Printer

namespace WebBaseline.Json

open WebBaseline.Numeric (hexVal? lowerHexDigit hexVal?_lowerHexDigit_all)

/-! ## Quoted texts -/

theorem textBody_quote (rest : List Char) : textBody ('\x22' :: rest) = some ([], rest) := by
  rw [textBody]

/-- A character that is not escaped stands for itself. -/
theorem textBody_plain {c : Char} (hquote : c ≠ '\x22') (hback : c ≠ '\\')
    (hcontrol : ¬ c.toNat < 32) (rest : List Char) :
    textBody (c :: rest) = (textBody rest).map (fun r => (c.toNat :: r.1, r.2)) := by
  rw [textBody.eq_def]
  split
  · next h => cases h
  · next h => exact absurd (List.cons.inj h).1 hquote
  · next h => exact absurd (List.cons.inj h).1 hback
  · next h => exact absurd (List.cons.inj h).1 hback
  · next h =>
    obtain ⟨rfl, rfl⟩ := List.cons.inj h
    rw [if_neg (by simp [hcontrol, hback])]

/-- A short escape stands for its character. -/
theorem textBody_short {e c : Char} (hu : e ≠ 'u') (he : shortEscape e = some c)
    (rest : List Char) :
    textBody ('\\' :: e :: rest) = (textBody rest).map (fun r => (c.toNat :: r.1, r.2)) := by
  rw [textBody.eq_def]
  split
  · next h => cases h
  · next h => cases h
  · next h => exact absurd (List.cons.inj (List.cons.inj h).2).1 hu
  · next h =>
    obtain ⟨rfl, rfl⟩ := List.cons.inj (List.cons.inj h).2
    rw [he]
  · next hno h =>
    obtain ⟨rfl, rfl⟩ := List.cons.inj h
    exact absurd rfl (hno e rest rfl)

/-- A character is written with a short escape, with its number, or as it is. -/
theorem escapeChar_cases (c : Char) :
    (∃ e, e ≠ 'u' ∧ shortEscape e = some c ∧ escapeChar c = ['\\', e]) ∨
      (c.toNat < 32 ∧ escapeChar c =
        ['\\', 'u', '0', '0', lowerHexDigit (c.toNat / 16), lowerHexDigit (c.toNat % 16)]) ∨
      (c ≠ '\x22' ∧ c ≠ '\\' ∧ ¬ c.toNat < 32 ∧ escapeChar c = [c]) := by
  rw [escapeChar.eq_def]
  split
  any_goals exact Or.inl ⟨_, by decide, rfl, rfl⟩
  next hquote hback _ _ _ _ _ =>
    split
    · next hcontrol => exact Or.inr (Or.inl ⟨hcontrol, rfl⟩)
    · next hcontrol => exact Or.inr (Or.inr ⟨hquote, hback, hcontrol, rfl⟩)

/-- An escaped character counts as the one that it was. -/
theorem textBody_escapeChar (c : Char) (rest : List Char) :
    textBody (escapeChar c ++ rest) = (textBody rest).map (fun r => (c.toNat :: r.1, r.2)) := by
  rcases escapeChar_cases c with ⟨e, hu, he, heq⟩ | ⟨hcontrol, heq⟩ |
    ⟨hquote, hback, hcontrol, heq⟩
  · rw [heq]
    exact textBody_short hu he rest
  · have high := hexVal?_lowerHexDigit_all (c.toNat / 16) (by omega)
    have low := hexVal?_lowerHexDigit_all (c.toNat % 16) (by omega)
    have hsum : c.toNat / 16 * 16 + c.toNat % 16 = c.toNat := by omega
    have hzero : hexVal? '0' = some 0 := by decide
    rw [heq]
    simp only [List.cons_append, List.nil_append, textBody, hex4, high, low, hzero,
      Nat.zero_mul, Nat.zero_add, hsum]
  · rw [heq]
    exact textBody_plain hquote hback hcontrol rest

/-- A quoted text is read up to its closing quote. -/
theorem textBody_quoted (cs rest : List Char) :
    textBody (cs.flatMap escapeChar ++ '\x22' :: rest) = some (cs.map Char.toNat, rest) := by
  induction cs with
  | nil => exact textBody_quote rest
  | cons c cs ih =>
    rw [List.flatMap_cons, List.append_assoc, textBody_escapeChar, ih]
    rfl

theorem not_surrogate (c : Char) :
    isHighSurrogate c.toNat = false ∧ isLowSurrogate c.toNat = false := by
  have hvalid : c.toNat < 0xD800 ∨ (0xDFFF < c.toNat ∧ c.toNat < 0x110000) := c.valid
  simp only [isHighSurrogate, isLowSurrogate, Bool.and_eq_false_iff, decide_eq_false_iff_not]
  omega

/-- The numbers of characters are those of characters. -/
theorem characters?_toNat (cs : List Char) : characters? (cs.map Char.toNat) = some cs := by
  induction cs with
  | nil => rfl
  | cons c cs ih =>
    obtain ⟨high, low⟩ := not_surrogate c
    cases cs with
    | nil => simp [characters?, high, low, Char.ofNat_toNat]
    | cons d cs =>
      rw [List.map_cons] at ih
      simp [characters?, high, low, Char.ofNat_toNat, ih]

/-! ## Whole numbers -/

/-- Text that does not make a number before it longer. -/
def Ends (rest : List Char) : Prop :=
  ∀ c cs, rest = c :: cs → c.isDigit = false ∧ c ≠ '.' ∧ c ≠ 'e' ∧ c ≠ 'E'

theorem ends_nil : Ends [] := by
  intro c cs h
  cases h

theorem ends_cons {c : Char} (h : c.isDigit = false ∧ c ≠ '.' ∧ c ≠ 'e' ∧ c ≠ 'E')
    (cs : List Char) : Ends (c :: cs) := by
  intro d ds heq
  cases heq
  exact h

theorem spanDigits_append {ds rest : List Char} (hds : ∀ c ∈ ds, c.isDigit = true)
    (hrest : Ends rest) : Decimal.spanDigits (ds ++ rest) = (ds, rest) := by
  induction ds with
  | nil =>
    cases rest with
    | nil => rfl
    | cons c cs =>
      rw [List.nil_append, Decimal.spanDigits, (hrest c cs rfl).1, if_neg Bool.false_ne_true]
  | cons d ds ih =>
    obtain ⟨hd, hds⟩ := List.forall_mem_cons.1 hds
    rw [List.cons_append, Decimal.spanDigits, if_pos hd, ih hds]

theorem fraction_of_ends {rest : List Char} (h : Ends rest) : fraction rest = some ([], rest) := by
  cases rest with
  | nil => rfl
  | cons c cs =>
    rw [fraction.eq_def]
    split
    · next heq => exact absurd (List.cons.inj heq).1 (h c cs rfl).2.1
    · rfl

theorem exponent_of_ends {rest : List Char} (h : Ends rest) : exponent rest = some ([], rest) := by
  cases rest with
  | nil => rfl
  | cons c cs =>
    obtain ⟨-, -, hlower, hupper⟩ := h c cs rfl
    simp [exponent, hlower, hupper]

theorem digits_ne_nil (n : Nat) : Decimal.digits n ≠ [] := by
  rw [Decimal.digits]
  split <;> simp

/-- Nothing follows a digit zero at the front of a number. -/
theorem digits_eq_zero_cons {n : Nat} {cs : List Char} (h : Decimal.digits n = '0' :: cs) :
    cs = [] := by
  induction n using Decimal.digits.induct generalizing cs with
  | case1 n hn =>
    rw [Decimal.digits, if_pos hn] at h
    exact (List.cons.inj h).2.symm
  | case2 n hn ih =>
    rw [Decimal.digits, if_neg hn] at h
    obtain ⟨c, front, hfront⟩ := List.exists_cons_of_ne_nil (digits_ne_nil (n / 10))
    rw [hfront, List.cons_append] at h
    obtain ⟨rfl, -⟩ := List.cons.inj h
    -- the digits in front are then those of zero, but the number has two at least
    have hzero : Decimal.digits (n / 10) = ['0'] := by rw [hfront, ih hfront]
    have hvalue := Decimal.ofDigits_digits (n / 10)
    rw [hzero] at hvalue
    have hnone : Decimal.ofDigits ['0'] = 0 := rfl
    omega

/-- The digits of a number are read as that number. -/
theorem unsignedNumber_digits (negative : Bool) (n : Nat) {rest : List Char} (h : Ends rest) :
    unsignedNumber negative (Decimal.digits n ++ rest) =
      some (wholeValue negative (Decimal.digits n), rest) := by
  rw [unsignedNumber, spanDigits_append (Decimal.digits_isDigit n) h]
  simp only
  split
  · next hnil => exact absurd hnil (digits_ne_nil n)
  · next hzero => simpa using digits_eq_zero_cons hzero
  · rw [fraction_of_ends h]
    simp [exponent_of_ends h]

end WebBaseline.Json

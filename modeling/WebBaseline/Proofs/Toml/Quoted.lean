/-
  WebBaseline.Proofs.Toml.Quoted

  A text in quotes is read back, whatever its characters and its style are.

    * each character with escapes is read back (`basicBody_escapeChar`,
      `longBasicBody_escapeChar`), and what stands between the quotes after it
      (`basicBody_escapeChars`, `longBasicBody_escapeChars`, `literalBody_append`,
      `longLiteralBody_append`);
    * so `quoted?` takes back what `quote` writes, as long as no further quote
      follows (`quoted?_quote`).
-/

import WebBaseline.Toml.Quoted

namespace WebBaseline.Toml

open WebBaseline.Numeric (ofHex? upperHexDigit)

/-! ## Characters with escapes -/

theorem isPlain_of_not_control {c : Char} (h : isControl c = false) (hn : c ≠ '\n') :
    isPlain c = true := by
  simp only [isControl, Bool.or_eq_false_iff, Bool.and_eq_false_iff, decide_eq_false_iff_not,
    Nat.not_lt, bne_eq_false_iff_eq, beq_eq_false_iff_ne] at h
  simp only [isPlain, Bool.or_eq_true, beq_iff_eq, Bool.and_eq_true, decide_eq_true_eq,
    bne_iff_ne]
  obtain ⟨(hlow | htab) | hnewline, hdelete⟩ := h
  · exact Or.inr ⟨hlow, hdelete⟩
  · exact Or.inl htab
  · exact absurd hnewline hn

theorem numbered?_all : ∀ n, n < 128 →
    numbered? ['0', '0', upperHexDigit (n / 16), upperHexDigit (n % 16)] = some (Char.ofNat n) := by
  decide

/-- The number of a control character is read back. -/
theorem numbered?_of_isControl {c : Char} (h : isControl c = true) :
    numbered? ['0', '0', upperHexDigit (c.toNat / 16), upperHexDigit (c.toNat % 16)] = some c := by
  have hlow : c.toNat < 128 := by
    simp only [isControl, Bool.or_eq_true, Bool.and_eq_true, decide_eq_true_eq, beq_iff_eq] at h
    rcases h with ⟨⟨hlow, -⟩, -⟩ | rfl
    · omega
    · decide
  rw [numbered?_all c.toNat hlow, Char.ofNat_toNat]

/-- What a character of a text becomes: a short escape, a numbered one, the end
    of a line in a long text, or itself. -/
theorem escapeChar_cases (long : Bool) (c : Char) :
    (∃ e, e ≠ 'u' ∧ e ≠ 'U' ∧ shortEscape? e = some c ∧ escapeChar long c = ['\\', e]) ∨
    (isControl c = true ∧ escapeChar long c =
      ['\\', 'u', '0', '0', upperHexDigit (c.toNat / 16), upperHexDigit (c.toNat % 16)]) ∨
    (long = true ∧ c = '\n' ∧ escapeChar long c = ['\n']) ∨
    (c ≠ '\\' ∧ c ≠ '\n' ∧ isPlain c = true ∧ escapeChar long c = [c]) := by
  rw [escapeChar.eq_def]
  split
  · exact Or.inl ⟨'b', by decide, by decide, rfl, rfl⟩
  · exact Or.inl ⟨'t', by decide, by decide, rfl, rfl⟩
  · cases long with
    | false => exact Or.inl ⟨'n', by decide, by decide, rfl, rfl⟩
    | true => exact Or.inr (Or.inr (Or.inl ⟨rfl, rfl, rfl⟩))
  · exact Or.inl ⟨'f', by decide, by decide, rfl, rfl⟩
  · exact Or.inl ⟨'r', by decide, by decide, rfl, rfl⟩
  · exact Or.inl ⟨'\\', by decide, by decide, rfl, rfl⟩
  · next _ _ hnewline _ _ hback =>
    split
    · next hcontrol => exact Or.inr (Or.inl ⟨hcontrol, rfl⟩)
    · next hcontrol =>
      have hplain := isPlain_of_not_control (Bool.eq_false_iff.2 hcontrol) hnewline
      exact Or.inr (Or.inr (Or.inr ⟨hback, hnewline, hplain, rfl⟩))

/-! ## Texts with escapes on one line -/

theorem basicBody_short {e c : Char} (hu : e ≠ 'u') (hU : e ≠ 'U') (he : shortEscape? e = some c)
    (rest : List Char) : basicBody ('\\' :: e :: rest) = before c (basicBody rest) := by
  rw [basicBody.eq_def]
  split
  · next heq => cases heq
  · next heq => cases heq
  · next heq =>
    cases heq
    exact absurd rfl hu
  · next heq =>
    cases heq
    exact absurd rfl hU
  · next heq =>
    cases heq
    rw [he, Option.bind_some]
  · next hshort heq =>
    cases heq
    exact (hshort e rest rfl rfl).elim

theorem basicBody_plain {c : Char} (hquote : c ≠ '\x22') (hback : c ≠ '\\')
    (hplain : isPlain c = true) (rest : List Char) :
    basicBody (c :: rest) = before c (basicBody rest) := by
  rw [basicBody.eq_def]
  split
  all_goals simp_all

theorem basicBody_escapeChar {c : Char} (hquote : c ≠ '\x22') (rest : List Char) :
    basicBody (escapeChar false c ++ rest) = before c (basicBody rest) := by
  rcases escapeChar_cases false c with ⟨e, hu, hU, he, heq⟩ | ⟨hcontrol, heq⟩ | ⟨hlong, -, -⟩ |
    ⟨hback, -, hplain, heq⟩
  · rw [heq]
    exact basicBody_short hu hU he rest
  · rw [heq]
    show (numbered? _).bind _ = _
    rw [numbered?_of_isControl hcontrol]
    rfl
  · cases hlong
  · rw [heq]
    exact basicBody_plain hquote hback hplain rest

/-- What stands between the quotes is read back up to the closing one. -/
theorem basicBody_escapeChars (cs : List Char) (run : Nat) (rest : List Char) :
    basicBody (escapeChars false run cs ++ '\x22' :: rest) = some (cs, rest) := by
  induction cs generalizing run with
  | nil => rw [escapeChars, List.nil_append, basicBody]
  | cons c cs ih =>
    rw [escapeChars]
    split
    · next hquote =>
      subst hquote
      rw [if_pos (show freeQuotes false ≤ run from Nat.zero_le run), List.cons_append, List.cons_append,
        basicBody_short (by decide) (by decide) rfl, ih]
      rfl
    · next hquote =>
      rw [List.append_assoc, basicBody_escapeChar hquote, ih]
      rfl

/-! ## Texts with escapes on several lines -/

theorem longBasicBody_short {e c : Char} (hu : e ≠ 'u') (hU : e ≠ 'U')
    (he : shortEscape? e = some c) (rest : List Char) :
    longBasicBody .inText ('\\' :: e :: rest) = before c (longBasicBody .inText rest) := by
  rw [longBasicBody.eq_def]
  split
  case h_15 hshort heq _ _ _ _ _ _ _ =>
    cases heq
    exact (hshort e rest rfl rfl).elim
  all_goals simp_all

/-- A character that stands for itself is read so, unless three quotes start
    with it. -/
theorem longBasicBody_plain {c : Char} (hback : c ≠ '\\') (hplain : isPlain c = true)
    {rest : List Char} (hquotes : ∀ more, c :: rest ≠ '\x22' :: '\x22' :: '\x22' :: more) :
    longBasicBody .inText (c :: rest) = before c (longBasicBody .inText rest) := by
  rw [longBasicBody.eq_def]
  split
  case h_11 heq _ _ =>
    cases heq
    exact absurd hplain (by decide)
  all_goals simp_all

theorem longBasicBody_escapeChar {c : Char} (hquote : c ≠ '\x22') (rest : List Char) :
    longBasicBody .inText (escapeChar true c ++ rest) =
      before c (longBasicBody .inText rest) := by
  rcases escapeChar_cases true c with ⟨e, hu, hU, he, heq⟩ | ⟨hcontrol, heq⟩ | ⟨-, rfl, heq⟩ |
    ⟨hback, -, hplain, heq⟩
  · rw [heq]
    exact longBasicBody_short hu hU he rest
  · rw [heq]
    show (numbered? _).bind _ = _
    rw [numbered?_of_isControl hcontrol]
    rfl
  · rw [heq]
    rfl
  · rw [heq]
    exact longBasicBody_plain hback hplain (fun more h => hquote (List.cons.inj h).1)

/-- No quote follows. -/
def NoQuote (q : Char) (rest : List Char) : Prop := ∀ more, rest ≠ q :: more

theorem closing_nil {q : Char} {rest : List Char} (h : NoQuote q rest) :
    closing q rest = ([], rest) := by
  rw [closing.eq_def]
  split
  · next a b more =>
    rw [if_neg (fun ha => h (b :: more) (by rw [ha]))]
  · next a =>
    rw [if_neg (fun ha => h [] (by rw [ha]))]
  · rfl

theorem closing_one {q : Char} {rest : List Char} (h : NoQuote q rest) :
    closing q (q :: rest) = ([q], rest) := by
  cases rest with
  | nil => exact if_pos rfl
  | cons b more =>
    have hb : b ≠ q := fun hb => h more (by rw [hb])
    rw [closing, if_pos rfl, if_neg hb]

theorem closing_two (q : Char) (rest : List Char) :
    closing q (q :: q :: rest) = ([q, q], rest) := by
  rw [closing, if_pos rfl, if_pos rfl]

/-- No quote stands first that is escaped or is none. -/
theorem noQuote_escapeChars {long : Bool} {run : Nat} {c : Char}
    (h : freeQuotes long ≤ run ∨ c ≠ '\x22') (cs tail : List Char) :
    NoQuote '\x22' (escapeChars long run (c :: cs) ++ tail) := by
  intro more heq
  rw [escapeChars] at heq
  split at heq
  · next hquote =>
    rw [if_pos (h.resolve_right (fun hne => hne hquote))] at heq
    exact absurd (List.cons.inj heq).1 (by decide)
  · next hquote =>
    rw [List.append_assoc] at heq
    rcases escapeChar_cases long c with ⟨e, -, -, -, hc⟩ | ⟨-, hc⟩ | ⟨-, -, hc⟩ | ⟨-, -, -, hc⟩
    · rw [hc] at heq
      exact absurd (List.cons.inj heq).1 (by decide)
    · rw [hc] at heq
      exact absurd (List.cons.inj heq).1 (by decide)
    · rw [hc] at heq
      exact absurd (List.cons.inj heq).1 (by decide)
    · rw [hc] at heq
      exact hquote (List.cons.inj heq).1

/-- What stands between three quotes is read back up to the closing ones. Of
    quotes in a row only two stand as they are, so three of them come only at the
    end, and those before the last three belong to the text. -/
theorem longBasicBody_escapeChars (cs : List Char) (run : Nat) {rest : List Char}
    (hrest : NoQuote '\x22' rest) :
    longBasicBody .inText (escapeChars true run cs ++ '\x22' :: '\x22' :: '\x22' :: rest) =
      some (cs, rest) := by
  induction cs generalizing run with
  | nil =>
    show some (closing '\x22' rest) = _
    rw [closing_nil hrest]
  | cons c cs ih =>
    rw [escapeChars]
    split
    · next hquote =>
      subst hquote
      split
      · rw [List.cons_append, List.cons_append, longBasicBody_short (by decide) (by decide) rfl, ih]
        rfl
      · next hrun =>
        -- a quote as it is: with it three in a row may start only at the end
        have hplain : ∀ {tail}, (∀ more, tail ≠ '\x22' :: '\x22' :: more) →
            longBasicBody .inText ('\x22' :: tail) =
              before '\x22' (longBasicBody .inText tail) := fun htail =>
          longBasicBody_plain (by decide) (by decide)
            (fun more h => htail more (List.cons.inj h).2)
        rw [List.cons_append]
        cases cs with
        | nil =>
          show some (closing '\x22' ('\x22' :: rest)) = _
          rw [closing_one hrest]
        | cons d cs =>
          by_cases hd : freeQuotes true ≤ run + 1 ∨ d ≠ '\x22'
          · rw [hplain (fun more => noQuote_escapeChars hd cs _ _), ih]
            rfl
          · obtain ⟨hnext, hquote⟩ := not_or.1 hd
            obtain rfl := Decidable.not_not.1 hquote
            -- a second quote as it is; a third one would be escaped
            have hfull : freeQuotes true ≤ run + 1 + 1 := by
              have hfree : freeQuotes true = 2 := rfl
              omega
            have hopen : escapeChars true (run + 1) ('\x22' :: cs) =
                '\x22' :: escapeChars true (run + 1 + 1) cs := by
              rw [escapeChars, if_pos rfl, if_neg hnext]
            have hread := ih (run + 1)
            rw [hopen, List.cons_append] at hread ⊢
            cases cs with
            | nil =>
              show some (closing '\x22' ('\x22' :: '\x22' :: rest)) = _
              rw [closing_two]
            | cons e cs =>
              have hthird := noQuote_escapeChars (c := e) (Or.inl hfull) cs
                ('\x22' :: '\x22' :: '\x22' :: rest)
              rw [hplain (fun more h => hthird more (List.cons.inj h).2), hread]
              rfl
    · next hquote =>
      rw [List.append_assoc, longBasicBody_escapeChar hquote, ih]
      rfl

/-! ## Literal texts -/

/-- A literal text on one line is read back. -/
theorem literalBody_append {cs : List Char} (hcs : ∀ c ∈ cs, c ≠ '\x27' ∧ isPlain c = true)
    (rest : List Char) : literalBody (cs ++ '\x27' :: rest) = some (cs, rest) := by
  induction cs with
  | nil => rfl
  | cons c cs ih =>
    obtain ⟨⟨hquote, hplain⟩, hcs⟩ := List.forall_mem_cons.1 hcs
    rw [List.cons_append, literalBody, if_pos hplain, ih hcs]
    · rfl
    · exact hquote

theorem longLiteralBody_plain {c : Char} (hplain : c = '\n' ∨ isPlain c = true)
    {rest : List Char} (hquotes : ∀ more, c :: rest ≠ '\x27' :: '\x27' :: '\x27' :: more) :
    longLiteralBody (c :: rest) = before c (longLiteralBody rest) := by
  rcases hplain with rfl | hplain
  · rfl
  · rw [longLiteralBody.eq_def]
    split
    case h_4 heq =>
      cases heq
      exact absurd hplain (by decide)
    all_goals simp_all

theorem le_longestRun (q : Char) (run : Nat) (cs : List Char) : run ≤ longestRun q run cs := by
  induction cs generalizing run with
  | nil => exact Nat.le_refl run
  | cons c cs ih =>
    rw [longestRun]
    split
    · exact Nat.le_trans (Nat.le_succ run) (ih (run + 1))
    · exact Nat.le_max_left ..

theorem longestRun_tail_le {q c : Char} (hc : c ≠ q) (run : Nat) (cs : List Char) :
    longestRun q 0 cs ≤ longestRun q run (c :: cs) := by
  rw [longestRun, if_neg hc]
  exact Nat.le_max_right ..

theorem not_mem_of_longestRun {q : Char} {run : Nat} {cs : List Char}
    (h : longestRun q run cs = 0) : q ∉ cs := by
  induction cs generalizing run with
  | nil => exact List.not_mem_nil
  | cons c cs ih =>
    rw [longestRun] at h
    split at h
    · have hle := le_longestRun q (run + 1) cs
      omega
    · next hc =>
      have htail : longestRun q 0 cs = 0 := by
        have hle := Nat.le_max_right run (longestRun q 0 cs)
        omega
      exact List.not_mem_cons_of_ne_of_not_mem (Ne.symm hc) (ih htail)

/-- A long literal text is read back if it has no three quotes in a row. -/
theorem longLiteralBody_append {cs : List Char} {run : Nat}
    (hrun : longestRun '\x27' run cs ≤ 2) (hcs : ∀ c ∈ cs, c = '\n' ∨ isPlain c = true)
    {rest : List Char} (hrest : NoQuote '\x27' rest) :
    longLiteralBody (cs ++ '\x27' :: '\x27' :: '\x27' :: rest) = some (cs, rest) := by
  induction cs generalizing run with
  | nil =>
    show some (closing '\x27' rest) = _
    rw [closing_nil hrest]
  | cons c cs ih =>
    obtain ⟨hplain, htail⟩ := List.forall_mem_cons.1 hcs
    rw [List.cons_append]
    by_cases hc : c = '\x27'
    · subst hc
      have hopen : longestRun '\x27' (run + 1) cs ≤ 2 := by
        rwa [longestRun, if_pos rfl] at hrun
      -- with this quote three in a row may start only at the end
      cases cs with
      | nil =>
        show some (closing '\x27' ('\x27' :: rest)) = _
        rw [closing_one hrest]
      | cons d cs =>
        by_cases hd : d = '\x27'
        · subst hd
          cases cs with
          | nil =>
            show some (closing '\x27' ('\x27' :: '\x27' :: rest)) = _
            rw [closing_two]
          | cons e cs =>
            have he : e ≠ '\x27' := by
              rintro rfl
              rw [longestRun, if_pos rfl, longestRun, if_pos rfl] at hopen
              have hle := le_longestRun '\x27' (run + 1 + 1 + 1) cs
              omega
            rw [longLiteralBody_plain hplain, ih hopen htail]
            · rfl
            · intro more h
              exact he (List.cons.inj (List.cons.inj (List.cons.inj h).2).2).1
        · rw [longLiteralBody_plain hplain, ih hopen htail]
          · rfl
          · intro more h
            exact hd (List.cons.inj (List.cons.inj h).2).1
    · have hfresh := Nat.le_trans (longestRun_tail_le hc run cs) hrun
      rw [longLiteralBody_plain hplain (fun more h => hc (List.cons.inj h).1), ih hfresh htail]
      rfl

/-! ## Texts in quotes -/

/-- A text that is written literally has no control characters, and apostrophes
    only as the style allows. -/
theorem literal_of_styleOf {cs : List Char} (h : styleOf cs = .literal) :
    cs ≠ [] ∧ ∀ c ∈ cs, c ≠ '\x27' ∧ isPlain c = true := by
  rw [styleOf] at h
  split at h
  · cases h
  · next hbasic =>
    split at h
    · next hliteral =>
      simp only [Bool.and_eq_true, Bool.not_eq_true', decide_eq_true_eq, List.any_eq_false,
        Bool.not_eq_true] at hliteral
      obtain ⟨⟨hcontrol, hrun⟩, hnewline⟩ := hliteral
      have hn : '\n' ∉ cs := by
        rw [← List.contains_iff_mem, hnewline]
        exact Bool.false_ne_true
      refine ⟨?_, fun c hc => ⟨?_, isPlain_of_not_control (hcontrol c hc) ?_⟩⟩
      · rintro rfl
        exact hbasic rfl
      · rintro rfl
        exact not_mem_of_longestRun hrun hc
      · rintro rfl
        exact hn hc
    · split at h
      · cases h
      · split at h
        · cases h
        · split at h <;> cases h

theorem longLiteral_of_styleOf {cs : List Char} (h : styleOf cs = .longLiteral) :
    longestRun '\x27' 0 cs ≤ 2 ∧ ∀ c ∈ cs, c = '\n' ∨ isPlain c = true := by
  rw [styleOf] at h
  split at h
  · cases h
  · split at h
    · cases h
    · split at h
      · cases h
      · split at h
        · next hliteral =>
          simp only [Bool.and_eq_true, Bool.not_eq_true', decide_eq_true_eq,
            List.any_eq_false] at hliteral
          obtain ⟨hcontrol, hrun⟩ := hliteral
          refine ⟨hrun, fun c hc => ?_⟩
          by_cases hn : c = '\n'
          · exact Or.inl hn
          · exact Or.inr (isPlain_of_not_control (Bool.eq_false_iff.2 (hcontrol c hc)) hn)
        · split at h <;> cases h

theorem quoted?_basic {tail : List Char} (h : ∀ more, tail ≠ '\x22' :: '\x22' :: more) :
    quoted? ('\x22' :: tail) = basicBody tail := by
  rw [quoted?.eq_def]
  split
  · next more heq => exact absurd (List.cons.inj heq).2 (h more)
  · next heq => cases heq
  · rfl

theorem quoted?_literal {tail : List Char} (h : ∀ more, tail ≠ '\x27' :: '\x27' :: more) :
    quoted? ('\x27' :: tail) = literalBody tail := by
  rw [quoted?.eq_def]
  split
  · next heq => cases heq
  · next more heq => exact absurd (List.cons.inj heq).2 (h more)
  · rfl

/-- The end of a line at the start of a long text is not of the text, and stands
    there if that has any. -/
theorem dropNewline_start {cs tail : List Char}
    (h : '\n' ∉ cs → ∃ c more, tail = c :: more ∧ c ≠ '\n' ∧ c ≠ '\r') :
    dropNewline ((if cs.contains '\n' then ['\n'] else []) ++ tail) = tail := by
  split
  · rfl
  · next hnewline =>
    rw [List.contains_iff_mem] at hnewline
    obtain ⟨c, more, rfl, hn, hr⟩ := h hnewline
    rw [List.nil_append, dropNewline.eq_def]
    split
    · next heq => exact absurd (List.cons.inj heq).1 hn
    · next heq => exact absurd (List.cons.inj heq).1 hr
    · rfl

theorem ne_return_of_isPlain {c : Char} (h : isPlain c = true) : c ≠ '\r' := by
  rintro rfl
  exact absurd h (by decide)

theorem escapeChars_start {cs : List Char} (hn : '\n' ∉ cs) (tail : List Char) :
    ∃ c more, escapeChars true 0 cs ++ '\x22' :: tail = c :: more ∧ c ≠ '\n' ∧ c ≠ '\r' := by
  cases cs with
  | nil => exact ⟨'\x22', tail, rfl, by decide, by decide⟩
  | cons c cs =>
    rw [List.mem_cons, not_or] at hn
    rw [escapeChars]
    split
    · exact ⟨'\x22', _, rfl, by decide, by decide⟩
    · rcases escapeChar_cases true c with ⟨e, -, -, -, hc⟩ | ⟨-, hc⟩ | ⟨-, rfl, -⟩ |
        ⟨-, hne, hplain, hc⟩
      · exact ⟨'\\', _, by rw [hc]; rfl, by decide, by decide⟩
      · exact ⟨'\\', _, by rw [hc]; rfl, by decide, by decide⟩
      · exact absurd rfl hn.1
      · exact ⟨c, _, by rw [hc]; rfl, hne, ne_return_of_isPlain hplain⟩

/-- A text in quotes is read back, unless a further quote follows. -/
theorem quoted?_quote (cs : List Char) {rest : List Char} (hquote : NoQuote '\x22' rest)
    (hliteral : NoQuote '\x27' rest) : quoted? (quote cs ++ rest) = some (cs, rest) := by
  rw [quote]
  cases hstyle : styleOf cs with
  | basic =>
    have htext : Style.basic.quotes ++ [] ++ body .basic cs ++ Style.basic.quotes ++ rest =
        '\x22' :: (escapeChars false 0 cs ++ '\x22' :: rest) := by simp [Style.quotes, body]
    refine (congrArg quoted? htext).trans ?_
    rw [quoted?_basic, basicBody_escapeChars]
    intro more heq
    cases cs with
    | nil => exact hquote more (List.cons.inj heq).2
    | cons c cs => exact noQuote_escapeChars (Or.inl (Nat.zero_le 0)) cs _ _ heq
  | literal =>
    obtain ⟨hne, hplain⟩ := literal_of_styleOf hstyle
    have htext : Style.literal.quotes ++ [] ++ body .literal cs ++ Style.literal.quotes ++ rest =
        '\x27' :: (cs ++ '\x27' :: rest) := by simp [Style.quotes, body]
    refine (congrArg quoted? htext).trans ?_
    rw [quoted?_literal, literalBody_append hplain]
    intro more heq
    obtain ⟨c, cs, rfl⟩ := List.exists_cons_of_ne_nil hne
    exact (hplain c List.mem_cons_self).1 (List.cons.inj heq).1
  | longBasic =>
    have htext : Style.longBasic.quotes ++ (if cs.contains '\n' then ['\n'] else []) ++
        body .longBasic cs ++ Style.longBasic.quotes ++ rest =
        '\x22' :: '\x22' :: '\x22' :: ((if cs.contains '\n' then ['\n'] else []) ++
          (escapeChars true 0 cs ++ '\x22' :: '\x22' :: '\x22' :: rest)) := by
      simp [Style.quotes, body]
    refine (congrArg quoted? htext).trans ?_
    rw [quoted?, dropNewline_start (fun hn => escapeChars_start hn _)]
    exact longBasicBody_escapeChars cs 0 hquote
  | longLiteral =>
    obtain ⟨hrun, hplain⟩ := longLiteral_of_styleOf hstyle
    have htext : Style.longLiteral.quotes ++ (if cs.contains '\n' then ['\n'] else []) ++
        body .longLiteral cs ++ Style.longLiteral.quotes ++ rest =
        '\x27' :: '\x27' :: '\x27' :: ((if cs.contains '\n' then ['\n'] else []) ++
          (cs ++ '\x27' :: '\x27' :: '\x27' :: rest)) := by
      simp [Style.quotes, body]
    refine (congrArg quoted? htext).trans ?_
    rw [quoted?, dropNewline_start, longLiteralBody_append hrun hplain hliteral]
    intro hn
    cases cs with
    | nil => exact ⟨'\x27', _, rfl, by decide, by decide⟩
    | cons c cs =>
      have hc : isPlain c = true := (hplain c List.mem_cons_self).resolve_left
        (fun hnewline => hn (hnewline ▸ List.mem_cons_self))
      exact ⟨c, _, rfl, fun hnewline => hn (hnewline ▸ List.mem_cons_self),
        ne_return_of_isPlain hc⟩

end WebBaseline.Toml

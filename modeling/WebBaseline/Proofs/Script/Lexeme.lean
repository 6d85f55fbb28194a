/-
  WebBaseline.Proofs.Script.Lexeme

  The lexemes of scripts: none of them reads backwards, and no word holds a dot.
-/

import WebBaseline.Proofs.Syntax.Scan
import WebBaseline.Script.Lexeme

namespace WebBaseline.Script

open WebBaseline.Syntax

/-! ## Blanks and remarks -/

theorem advances_remark : Scan.Advances remark :=
  Scan.advances_either (Scan.advances_andThen (Scan.advances_text _) Scan.advances_toEndOf)
    (Scan.advances_delimited _ _)

@[simp] theorem advances_markupRemark : Scan.Advances markupRemark :=
  Scan.advances_andThen (Scan.advances_either (Scan.advances_text _) (Scan.advances_text _))
    Scan.advances_toEndOf

@[simp] theorem advances_interpreterLine : Scan.Advances interpreterLine :=
  Scan.advances_andThen (Scan.advances_text _) Scan.advances_toEndOf

/-! ## Words -/

section Words

variable {cls : Char → Bool} {ws : List String} {s : String}

theorem advances_exactly (n : Nat) : Scan.Advances (exactly cls n) := by
  induction n with
  | zero => rintro chars i _ ⟨⟩; exact Nat.le_refl i
  | succ n ih => exact Scan.advances_andThen Scan.advances_one ih

theorem avoids_exactly {c : Char} (hc : cls c = false) (n : Nat) :
    Scan.Avoids (exactly cls n) c := by
  induction n with
  | zero => rintro chars i _ ⟨⟩ n hi hk; exact absurd (hi.trans_lt hk) (Nat.lt_irrefl _)
  | succ n ih => exact Scan.avoids_andThen (Scan.avoids_one hc) ih

theorem advances_bracedHex : Scan.Advances bracedHex :=
  Scan.advances_andThen (Scan.advances_text _)
    (Scan.advances_andThen Scan.advances_run1 (Scan.advances_text _))

theorem avoids_dot_bracedHex : Scan.Avoids bracedHex '.' :=
  Scan.avoids_andThen (Scan.avoids_text (by decide))
    (Scan.avoids_andThen (Scan.avoids_run1 (by decide)) (Scan.avoids_text (by decide)))

theorem advances_wordEscape : Scan.Advances wordEscape :=
  Scan.advances_andThen (Scan.advances_text _)
    (Scan.advances_either (advances_exactly 4) advances_bracedHex)

theorem avoids_dot_wordEscape : Scan.Avoids wordEscape '.' :=
  Scan.avoids_andThen (Scan.avoids_text (by decide))
    (Scan.avoids_either (avoids_exactly (by decide) 4) avoids_dot_bracedHex)

theorem le_wordEnd (chars : Array Char) (fuel i : Nat) : i ≤ wordEnd chars fuel i := by
  induction fuel generalizing i with
  | zero => exact Nat.le_refl i
  | succ fuel ih =>
    rw [wordEnd]
    split
    · next hscan =>
      exact (Scan.advances_either Scan.advances_one advances_wordEscape hscan).trans (ih _)
    · exact Nat.le_refl i

theorem wordEnd_avoids_dot {chars : Array Char} {fuel i n : Nat} (hi : i ≤ n)
    (hn : n < wordEnd chars fuel i) : chars[n]? ≠ some '.' := by
  induction fuel generalizing i with
  | zero => exact absurd (hi.trans_lt hn) (Nat.lt_irrefl _)
  | succ fuel ih =>
    rw [wordEnd] at hn
    split at hn
    · next j hscan =>
      rcases Nat.lt_or_ge n j with hj | hj
      · exact Scan.avoids_either (Scan.avoids_one (by decide)) avoids_dot_wordEscape hscan n hi hj
      · exact ih hj hn
    · exact absurd (hi.trans_lt hn) (Nat.lt_irrefl _)

/-- A word is not empty. -/
theorem lt_of_anyWord {chars : Array Char} {i k : Nat} (h : anyWord chars i = some k) : i < k := by
  obtain ⟨j, hhead, htail⟩ := Scan.andThen_eq_some h
  rw [Option.some.injEq] at htail
  subst htail
  refine Nat.lt_of_lt_of_le ?_ (le_wordEnd chars _ j)
  rw [Scan.either] at hhead
  split at hhead
  · next hone => cases hhead; rw [(Scan.one_eq_some hone).1]; exact Nat.lt_succ_self i
  · obtain ⟨m, hmark, hcode⟩ := Scan.andThen_eq_some hhead
    have hm : i < m := by
      rw [(Scan.afterChars?_eq_some hmark).1]
      exact Nat.lt_add_of_pos_right (by decide)
    exact hm.trans_le (Scan.advances_either (advances_exactly 4) advances_bracedHex hcode)

theorem advances_anyWord : Scan.Advances anyWord := fun _ _ _ h => Nat.le_of_lt (lt_of_anyWord h)

theorem avoids_dot_anyWord : Scan.Avoids anyWord '.' := by
  refine Scan.avoids_andThen
    (Scan.avoids_either (Scan.avoids_one (by decide)) avoids_dot_wordEscape) ?_
  rintro chars i _ ⟨⟩ n hi hk
  exact wordEnd_avoids_dot hi hk

theorem word_eq_some {chars : Array Char} {i k : Nat} (h : word s chars i = some k) :
    Scan.afterChars? chars s.toList i = some k := by
  simp only [word] at h
  split at h
  · next hscan =>
    split at h
    · cases h; exact hscan
    · cases h
  · cases h

@[simp] theorem advances_word : Scan.Advances (word s) := fun _ _ _ h =>
  Scan.advances_text s (word_eq_some h)

@[simp] theorem advances_wordOf : Scan.Advances (wordOf ws) := by
  intro chars i k h
  simp only [wordOf] at h
  split at h
  · next hscan =>
    split at h
    · cases h; exact advances_anyWord hscan
    · cases h
  · cases h

theorem anyWord_of_wordBut {chars : Array Char} {i k : Nat} (h : wordBut ws chars i = some k) :
    anyWord chars i = some k := by
  simp only [wordBut] at h
  split at h
  · next hscan =>
    split at h
    · cases h
    · cases h; exact hscan
  · cases h

theorem word_of_bareNew {chars : Array Char} {i k : Nat} (h : bareNew chars i = some k) :
    word "new" chars i = some k := by
  simp only [bareNew] at h
  split at h
  · cases h
  · next hscan =>
    split at h
    · cases h; exact hscan
    · split at h
      · cases h; exact hscan
      · cases h

end Words

/-- What reads a name: a word of at least one character and without a dot. -/
structure ReadsName (scan : Scan) : Prop where
  nonempty : ∀ {chars : Array Char} {i k : Nat}, scan chars i = some k → i < k
  dotless : Scan.Avoids scan '.'

theorem ReadsName.advances {scan : Scan} (h : ReadsName scan) : Scan.Advances scan :=
  fun _ _ _ hscan => Nat.le_of_lt (h.nonempty hscan)

theorem readsName_anyWord : ReadsName anyWord := ⟨lt_of_anyWord, avoids_dot_anyWord⟩

theorem readsName_wordBut (ws : List String) : ReadsName (wordBut ws) :=
  ⟨fun h => lt_of_anyWord (anyWord_of_wordBut h),
    fun _ _ _ h => avoids_dot_anyWord (anyWord_of_wordBut h)⟩

@[simp] theorem advances_wordBut (ws : List String) : Scan.Advances (wordBut ws) :=
  (readsName_wordBut ws).advances

theorem readsName_identifier : ReadsName identifier := readsName_wordBut valueWords

theorem readsName_bareNew : ReadsName bareNew where
  nonempty h := by
    rw [(Scan.afterChars?_eq_some (word_eq_some (word_of_bareNew h))).1]
    exact Nat.lt_add_of_pos_right (by decide)
  dotless _ _ _ h := Scan.avoids_text (s := "new") (by decide) (word_eq_some (word_of_bareNew h))

/-! ## Numbers -/

section Numbers

variable {cls : Char → Bool}

theorem le_digitsEnd (chars : Array Char) (fuel i : Nat) : i ≤ digitsEnd chars cls fuel i := by
  induction fuel generalizing i with
  | zero => exact Nat.le_refl i
  | succ fuel ih =>
    rw [digitsEnd]
    split
    · split
      · exact (Nat.le_succ i).trans (ih _)
      · split
        · exact (Nat.le_add_right i 2).trans (ih _)
        · exact Nat.le_refl i
    · exact Nat.le_refl i

theorem advances_digits : Scan.Advances (digits cls) := by
  refine Scan.advances_andThen Scan.advances_one ?_
  rintro chars i _ ⟨⟩
  exact le_digitsEnd chars _ i

theorem advances_exponentPart : Scan.Advances exponentPart :=
  Scan.advances_andThen Scan.advances_one
    (Scan.advances_andThen (Scan.advances_orNothing Scan.advances_one) advances_digits)

theorem advances_radixNumber (marker : Char) : Scan.Advances (radixNumber marker cls) :=
  Scan.advances_andThen (Scan.advances_text _)
    (Scan.advances_andThen Scan.advances_one advances_digits)

theorem advances_wholeNumber : Scan.Advances wholeNumber :=
  Scan.advances_either (advances_radixNumber _)
    (Scan.advances_either (advances_radixNumber _)
      (Scan.advances_either (advances_radixNumber _) advances_digits))

theorem advances_fractionalNumber : Scan.Advances fractionalNumber :=
  Scan.advances_either
    (Scan.advances_andThen advances_digits
      (Scan.advances_either
        (Scan.advances_andThen (Scan.advances_text _)
          (Scan.advances_andThen (Scan.advances_orNothing advances_digits)
            (Scan.advances_orNothing advances_exponentPart)))
        advances_exponentPart))
    (Scan.advances_andThen (Scan.advances_text _)
      (Scan.advances_andThen advances_digits (Scan.advances_orNothing advances_exponentPart)))

theorem advances_number : Scan.Advances number :=
  Scan.advances_longer advances_fractionalNumber
    (Scan.advances_andThen advances_wholeNumber (Scan.advances_orNothing (Scan.advances_text _)))

end Numbers

/-! ## Quoted texts -/

theorem advances_escapeRest : Scan.Advances escapeRest := by
  intro chars i k h
  have hnext := Nat.le_succ i
  rw [escapeRest] at h
  split at h
  · cases h
  · exact hnext.trans (advances_exactly 2 h)
  · exact hnext.trans (Scan.advances_either (advances_exactly 4) advances_bracedHex h)
  · split at h
    · cases h; exact Nat.le_add_right i 2
    · cases h; exact hnext
  · cases h; exact hnext

theorem advances_quotedRest (close : Char) (fuel : Nat) :
    Scan.Advances (quotedRest close fuel) := by
  induction fuel with
  | zero => intro chars i k h; cases h
  | succ fuel ih =>
    intro chars i k h
    have hnext := Nat.le_succ i
    rw [quotedRest] at h
    split at h
    · cases h
    · split at h
      · cases h; exact hnext
      · split at h
        · split at h
          · next hescape => exact hnext.trans ((advances_escapeRest hescape).trans (ih h))
          · cases h
        · split at h
          · cases h
          · exact hnext.trans (ih h)

theorem advances_quoted : Scan.Advances quoted := by
  intro chars i k h
  have hnext := Nat.le_succ i
  rw [quoted] at h
  split at h
  · exact hnext.trans (advances_quotedRest _ _ h)
  · exact hnext.trans (advances_quotedRest _ _ h)
  · cases h

theorem advances_markupQuoted : Scan.Advances markupQuoted :=
  Scan.advances_either (Scan.advances_delimited _ _) (Scan.advances_delimited _ _)

theorem advances_templateText (fuel : Nat) : Scan.Advances (templateText fuel) := by
  induction fuel with
  | zero => rintro chars i _ ⟨⟩; exact Nat.le_refl i
  | succ fuel ih =>
    intro chars i k h
    have hnext := Nat.le_succ i
    rw [templateText] at h
    split at h
    · cases h; exact Nat.le_refl i
    · cases h; exact Nat.le_refl i
    · split at h
      · next hescape => exact hnext.trans ((advances_escapeRest hescape).trans (ih h))
      · cases h
    · split at h
      · cases h; exact Nat.le_refl i
      · exact hnext.trans (ih h)
    · exact hnext.trans (ih h)

@[simp] theorem advances_templateChars : Scan.Advances templateChars := by
  intro chars i k h
  rw [templateChars] at h
  split at h
  · next hscan =>
    split at h
    · cases h; exact advances_templateText _ hscan
    · cases h
  · cases h

theorem advances_regexRest (fuel : Nat) (inClass : Bool) :
    Scan.Advances (regexRest fuel inClass) := by
  induction fuel generalizing inClass with
  | zero => intro chars i k h; cases h
  | succ fuel ih =>
    intro chars i k h
    have hnext := Nat.le_succ i
    rw [regexRest] at h
    split at h
    · cases h
    · cases h
    · split at h
      · cases h
      · cases h
      · exact (Nat.le_add_right i 2).trans (ih _ h)
    · exact hnext.trans (ih _ h)
    · exact hnext.trans (ih _ h)
    · split at h
      · exact hnext.trans (ih _ h)
      · cases h; exact hnext.trans (Scan.le_endOf chars _)
    · exact hnext.trans (ih _ h)

@[simp] theorem advances_regex : Scan.Advances regex := by
  intro chars i k h
  rw [regex] at h
  split at h
  · split at h
    · cases h
    · exact (Nat.le_succ i).trans (advances_regexRest _ _ h)
  · cases h

/-! ## Punctuators -/

theorem advances_punctuatorOf (ps : List String) : Scan.Advances (punctuatorOf ps) := by
  intro chars i k h
  simp only [punctuatorOf] at h
  split at h
  · split at h
    · cases h; exact Nat.le_add_right i _
    · cases h
  · cases h

theorem advances_questionMark : Scan.Advances questionMark := by
  intro chars i k h
  rw [questionMark] at h
  split at h
  · split at h
    · cases h
    · split at h
      · cases h; exact Nat.le_succ i
      · cases h
    · cases h; exact Nat.le_succ i
  · cases h

theorem advances_optionalDot : Scan.Advances optionalDot := by
  intro chars i k h
  rw [optionalDot] at h
  split at h
  · split at h
    · cases h
    · cases h; exact Nat.le_add_right i 2
  · cases h

/-! ## Markup in scripts -/

@[simp] theorem advances_markupText : Scan.Advances markupText := Scan.advances_run1

@[simp] theorem advances_characterReference : Scan.Advances characterReference :=
  Scan.advances_andThen (Scan.advances_text _)
    (Scan.advances_andThen
      (Scan.advances_either
        (Scan.advances_andThen (Scan.advances_text _)
          (Scan.advances_either
            (Scan.advances_andThen Scan.advances_one Scan.advances_run1)
            Scan.advances_run1))
        Scan.advances_run1)
      (Scan.advances_orNothing (Scan.advances_text _)))

@[simp] theorem advances_markupName : Scan.Advances markupName := Scan.advances_headed

end WebBaseline.Script

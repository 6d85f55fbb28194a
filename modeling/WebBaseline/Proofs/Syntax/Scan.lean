/-
  WebBaseline.Proofs.Syntax.Scan

  What the small lexical readers read: they never read backwards, and some of them
  never read over a given character. Each way to combine readers keeps both.
-/

import Mathlib.Order.Nat
import WebBaseline.Syntax.Scan

namespace WebBaseline.Syntax.Scan

/-- Whether a lexeme ends at or after the offset it begins at. -/
def Advances (scan : Scan) : Prop :=
  ∀ ⦃chars : Array Char⦄ ⦃i k : Nat⦄, scan chars i = some k → i ≤ k

/-- Whether a character never stands inside a lexeme. -/
def Avoids (scan : Scan) (c : Char) : Prop :=
  ∀ ⦃chars : Array Char⦄ ⦃i k : Nat⦄, scan chars i = some k →
    ∀ n, i ≤ n → n < k → chars[n]? ≠ some c

variable {a b : Scan} {c : Char} {cls head tail : Char → Bool}

/-! ## Fixed texts -/

theorem afterChars?_eq_some {chars : Array Char} {cs : List Char} {i k : Nat}
    (h : afterChars? chars cs i = some k) :
    k = i + cs.length ∧ ∀ n, i ≤ n → n < k → ∃ c ∈ cs, chars[n]? = some c := by
  induction cs generalizing i with
  | nil =>
    cases h
    exact ⟨rfl, fun n hi hk => absurd (hi.trans_lt hk) (Nat.lt_irrefl _)⟩
  | cons c cs ih =>
    rw [afterChars?] at h
    split at h
    · next hc =>
      obtain ⟨rfl, hall⟩ := ih h
      refine ⟨by rw [List.length_cons]; omega, fun n hi hk => ?_⟩
      rcases hi.eq_or_lt with rfl | hi
      · exact ⟨c, List.mem_cons_self, eq_of_beq hc⟩
      · obtain ⟨d, hd, hn⟩ := hall n hi hk
        exact ⟨d, List.mem_cons_of_mem c hd, hn⟩
    · cases h

@[simp] theorem advances_text (s : String) : Advances (text s) := by
  intro chars i k h
  rw [(afterChars?_eq_some h).1]
  exact Nat.le_add_right i _

theorem avoids_text {s : String} (hs : c ∉ s.toList) : Avoids (text s) c := by
  intro chars i k h n hi hk hn
  obtain ⟨d, hd, hnd⟩ := (afterChars?_eq_some h).2 n hi hk
  rw [hn] at hnd
  cases hnd
  exact hs hd

/-! ## Runs -/

theorem le_runEnd (chars : Array Char) (fuel i : Nat) : i ≤ runEnd chars cls fuel i := by
  induction fuel generalizing i with
  | zero => exact Nat.le_refl i
  | succ fuel ih =>
    rw [runEnd]
    split
    · split
      · exact (Nat.le_succ i).trans (ih (i + 1))
      · exact Nat.le_refl i
    · exact Nat.le_refl i

theorem le_endOf (chars : Array Char) (i : Nat) : i ≤ endOf chars cls i := le_runEnd chars _ i

theorem runEnd_all {chars : Array Char} {fuel i n : Nat} (hi : i ≤ n)
    (hn : n < runEnd chars cls fuel i) : ∃ c, chars[n]? = some c ∧ cls c = true := by
  induction fuel generalizing i with
  | zero => exact absurd (hi.trans_lt hn) (Nat.lt_irrefl _)
  | succ fuel ih =>
    rw [runEnd] at hn
    split at hn
    · next d hd =>
      split at hn
      · next hcls =>
        rcases hi.eq_or_lt with rfl | hi
        · exact ⟨d, hd, hcls⟩
        · exact ih hi hn
      · exact absurd (hi.trans_lt hn) (Nat.lt_irrefl _)
    · exact absurd (hi.trans_lt hn) (Nat.lt_irrefl _)

theorem advances_toEndOf : Advances (fun chars i => some (endOf chars cls i)) := by
  rintro chars i _ ⟨⟩
  exact le_endOf chars i

theorem advances_run1 : Advances (run1 cls) := by
  intro chars i k h
  simp only [run1] at h
  split at h
  · cases h; exact le_endOf chars i
  · cases h

theorem avoids_run1 (hc : cls c = false) : Avoids (run1 cls) c := by
  intro chars i k h n hi hk hn
  simp only [run1] at h
  split at h
  · cases h
    obtain ⟨d, hd, hcls⟩ := runEnd_all hi hk
    rw [hn] at hd
    cases hd
    rw [hc] at hcls
    cases hcls
  · cases h

theorem one_eq_some {chars : Array Char} {i k : Nat} (h : one cls chars i = some k) :
    k = i + 1 ∧ ∃ c, chars[i]? = some c ∧ cls c = true := by
  rw [one] at h
  split at h
  · next d hd =>
    split at h
    · next hcls => cases h; exact ⟨rfl, d, hd, hcls⟩
    · cases h
  · cases h

theorem advances_one : Advances (one cls) := by
  intro chars i k h
  rw [(one_eq_some h).1]
  exact Nat.le_succ i

theorem avoids_one (hc : cls c = false) : Avoids (one cls) c := by
  intro chars i k h n hi hk hn
  obtain ⟨rfl, d, hd, hcls⟩ := one_eq_some h
  obtain rfl : n = i := Nat.le_antisymm (Nat.le_of_lt_succ hk) hi
  rw [hn] at hd
  cases hd
  rw [hc] at hcls
  cases hcls

theorem advances_headed : Advances (headed head tail) := by
  intro chars i k h
  rw [headed] at h
  split at h
  · next hone => cases h; exact (advances_one hone).trans (le_endOf chars _)
  · cases h

/-! ## Combinations -/

theorem advances_either (ha : Advances a) (hb : Advances b) : Advances (either a b) := by
  intro chars i k h
  rw [either] at h
  split at h
  · next hscan => cases h; exact ha hscan
  · exact hb h

theorem avoids_either (ha : Avoids a c) (hb : Avoids b c) : Avoids (either a b) c := by
  intro chars i k h
  rw [either] at h
  split at h
  · next hscan => cases h; exact ha hscan
  · exact hb h

theorem andThen_eq_some {chars : Array Char} {i k : Nat} (h : andThen a b chars i = some k) :
    ∃ j, a chars i = some j ∧ b chars j = some k := by
  rw [andThen] at h
  split at h
  · next j hscan => exact ⟨j, hscan, h⟩
  · cases h

theorem advances_andThen (ha : Advances a) (hb : Advances b) : Advances (andThen a b) := by
  intro chars i k h
  obtain ⟨j, hij, hjk⟩ := andThen_eq_some h
  exact (ha hij).trans (hb hjk)

theorem avoids_andThen (ha : Avoids a c) (hb : Avoids b c) : Avoids (andThen a b) c := by
  intro chars i k h n hi hk
  obtain ⟨j, hij, hjk⟩ := andThen_eq_some h
  rcases Nat.lt_or_ge n j with hn | hn
  · exact ha hij n hi hn
  · exact hb hjk n hn hk

theorem advances_orNothing (ha : Advances a) : Advances (orNothing a) := by
  intro chars i k h
  rw [orNothing, Option.some.injEq] at h
  subst h
  cases hscan : a chars i with
  | none => exact Nat.le_refl i
  | some j => exact ha hscan

theorem advances_longer (ha : Advances a) (hb : Advances b) : Advances (longer a b) := by
  intro chars i k h
  rw [longer] at h
  split at h
  · next hscan _ => cases h; exact (ha hscan).trans (Nat.le_max_left _ _)
  · next hscan _ => cases h; exact ha hscan
  · next hscan => exact hb h

@[simp] theorem advances_atEnd : Advances atEnd := by
  intro chars i k h
  rw [atEnd] at h
  split at h
  · cases h; exact Nat.le_refl i
  · cases h

theorem le_of_pastNext? {chars : Array Char} {cs : List Char} {fuel i k : Nat}
    (h : pastNext? chars cs fuel i = some k) : i ≤ k := by
  induction fuel generalizing i with
  | zero => cases h
  | succ fuel ih =>
    rw [pastNext?] at h
    split at h
    · next hscan =>
      cases h
      rw [(afterChars?_eq_some hscan).1]
      exact Nat.le_add_right i _
    · exact (Nat.le_succ i).trans (ih h)

theorem advances_delimited (opening closing : String) : Advances (delimited opening closing) := by
  intro chars i k h
  simp only [delimited] at h
  split at h
  · next hscan =>
    have hopen := (afterChars?_eq_some hscan).1
    exact (hopen ▸ Nat.le_add_right i _ : i ≤ _).trans (le_of_pastNext? h)
  · cases h

end WebBaseline.Syntax.Scan

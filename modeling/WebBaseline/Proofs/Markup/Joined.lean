/-
  WebBaseline.Proofs.Markup.Joined

  Markup that is made of two texts, one below the other.

    * both patterns overlook a carriage return at the end of a line
      (`openingTag_overlooks`, `assignment_overlooks`), so a line shows the same with it
      and without it (`lineOccurrences_withoutReturn`);
    * the lines of the second text show what they show alone, further down
      (`occurrencesFrom_add`), and so do all features of both texts
      (`features_append_newline`).
-/

import WebBaseline.Proofs.Markup.Places
import WebBaseline.Proofs.Text.Lines

namespace WebBaseline.Markup

open WebBaseline.Data (takeWhile_concat dropWhile_concat through?_concat)
open WebBaseline.Feature
open WebBaseline.Text (withoutReturn withoutReturn_cases lines_line lines_last line_induction
  lines_append_newline length_lines_newline)

/-! ## Carriage returns -/

/-- A character at the end of a text makes no difference to what a pattern reads. -/
def Pattern.Overlooks (p : Pattern) (c : Char) : Prop := ∀ cs, p (cs ++ [c]) = p cs

theorem tagEnd?_concat (cs : List Char) : tagEnd? (cs ++ ['\r']) = tagEnd? cs := by
  cases cs with
  | nil =>
    rw [List.nil_append, tagEnd?_eq (by decide)]
    decide
  | cons c cs =>
    rw [List.cons_append]
    by_cases hc : c = '>'
    · subst hc
      rfl
    · rw [tagEnd?_eq hc, tagEnd?_eq hc, through?_concat (by decide)]

theorem openingTag_overlooks : openingTag.Overlooks '\r' := by
  intro cs
  cases cs with
  | nil => rfl
  | cons c cs =>
    rw [List.cons_append]
    by_cases hc : c = '<'
    · subst hc
      have hreturn : Text.isWordChar '\r' = false := by decide
      rw [openingTag_eq, openingTag_eq, takeWhile_concat hreturn, dropWhile_concat hreturn,
        tagEnd?_concat]
    · rw [openingTag_of_ne hc, openingTag_of_ne hc]

theorem quotedValue?_concat (cs : List Char) : quotedValue? (cs ++ ['\r']) = quotedValue? cs := by
  cases cs with
  | nil =>
    rw [List.nil_append, quotedValue?_eq]
    decide
  | cons c cs =>
    rw [List.cons_append, quotedValue?_eq, quotedValue?_eq, through?_concat (by decide)]

theorem plainValue?_concat (cs : List Char) : plainValue? (cs ++ ['\r']) = plainValue? cs := by
  rw [plainValue?, plainValue?, takeWhile_concat (by decide)]

theorem assigned_concat (cs : List Char) : assigned (cs ++ ['\r']) = assigned cs := by
  cases cs with
  | nil => rfl
  | cons c cs =>
    rw [List.cons_append]
    by_cases hc : c = '='
    · subst hc
      rw [assigned.eq_1, assigned.eq_1, quotedValue?_concat, plainValue?_concat]
    · rw [assigned_of_ne hc, assigned_of_ne hc]

theorem assignment_overlooks : assignment.Overlooks '\r' := by
  intro cs
  have hreturn : isNameChar '\r' = false := by decide
  rw [assignment_eq, assignment_eq, takeWhile_concat hreturn, dropWhile_concat hreturn,
    assigned_concat]

theorem hitsFrom_concat {p : Pattern} {c : Char} (hp : p.Overlooks c) (hnil : p [] = none)
    (passing column : Nat) (cs : List Char) :
    hitsFrom p passing column (cs ++ [c]) = hitsFrom p passing column cs := by
  induction cs generalizing passing column with
  | nil =>
    cases passing with
    | zero =>
      have hmiss : p [c] = none := (hp []).trans hnil
      exact hitsFrom_of_none hmiss
    | succ passing => cases passing <;> rfl
  | cons d cs ih =>
    cases passing with
    | zero =>
      -- the pattern reads the same here, so as many characters belong to the hit
      have hread : p (d :: (cs ++ [c])) = p (d :: cs) := hp (d :: cs)
      rw [List.cons_append, hitsFrom, hitsFrom, hread]
      cases p (d :: cs) with
      | none => exact ih 0 _
      | some hit => exact congrArg (List.cons (column, hit)) (ih _ _)
    | succ passing => exact ih passing _

/-- A kind of thing that is looked for without regard to carriage returns. -/
structure Quarry.IsPlain (q : Quarry) : Prop where
  anchored : q.pattern.IsAnchored
  overlooks : q.pattern.Overlooks '\r'

theorem elements_isPlain : elements.IsPlain :=
  ⟨openingTag_reads.isAnchored, openingTag_overlooks⟩

theorem attributes_isPlain : attributes.IsPlain :=
  ⟨assignment_reads.isAnchored, assignment_overlooks⟩

variable {q : Quarry}

theorem lineOccurrences_withoutReturn (hq : q.IsPlain) (number : Nat) (line : List Char) :
    lineOccurrences q number (withoutReturn line) = lineOccurrences q number line := by
  have hnil : q.pattern [] = none := by
    cases hread : q.pattern [] with
    | none => rfl
    | some hit =>
      obtain ⟨hne, hprefix⟩ := hq.anchored [] hit hread
      exact absurd (List.prefix_nil.1 hprefix) hne
  rcases withoutReturn_cases line with hline | hline
  · rw [hline]
  · have hhits : hits q.pattern line = hits q.pattern (withoutReturn line) := by
      conv => lhs; rw [hline]
      exact hitsFrom_concat hq.overlooks hnil 0 1 (withoutReturn line)
    rw [lineOccurrences, lineOccurrences, hhits]

/-! ## Further down -/

/-- The same occurrence, some lines further down. -/
def below (k : Nat) (o : Occurrence) : Occurrence := { o with line := o.line.map (· + k) }

theorem lineOccurrences_add (q : Quarry) (number k : Nat) (line : List Char) :
    lineOccurrences q (number + k) line = (lineOccurrences q number line).map (below k) := by
  have hhit : ∀ h : Nat × Hit, hitOccurrence? q (number + k) h.1 h.2 =
      (hitOccurrence? q number h.1 h.2).map (below k) := by
    intro h
    rw [hitOccurrence?, hitOccurrence?]
    split
    · rfl
    · rfl
  rw [lineOccurrences, lineOccurrences, List.map_filterMap]
  simp only [hhit]

theorem occurrencesFrom_add (q : Quarry) (number k : Nat) (ls : List (List Char)) :
    occurrencesFrom q (number + k) ls = (occurrencesFrom q number ls).map (below k) := by
  induction ls generalizing number with
  | nil => rfl
  | cons l ls ih =>
    have hnext : number + k + 1 = number + 1 + k := by omega
    rw [occurrencesFrom, occurrencesFrom, List.map_append, lineOccurrences_add, hnext, ih]

theorem occurrencesFrom_append (q : Quarry) (number : Nat) (ls ls' : List (List Char)) :
    occurrencesFrom q number (ls ++ ls') =
      occurrencesFrom q number ls ++ occurrencesFrom q (number + ls.length) ls' := by
  induction ls generalizing number with
  | nil => rfl
  | cons l ls ih =>
    have hnext : number + 1 + ls.length = number + (l :: ls).length := by
      rw [List.length_cons]
      omega
    rw [List.cons_append, occurrencesFrom, occurrencesFrom, ih, hnext, List.append_assoc]

/-- A line feed at the end changes nothing. -/
theorem occurrencesFrom_newline (hq : q.IsPlain) (number : Nat) (cs : List Char) :
    occurrencesFrom q number (Text.lines (cs ++ ['\n'])) =
      occurrencesFrom q number (Text.lines cs) := by
  induction cs using line_induction generalizing number with
  | last cs hcs =>
    rw [lines_line hcs, occurrencesFrom, lineOccurrences_withoutReturn hq]
    by_cases hnil : cs = []
    · subst hnil
      rfl
    · rw [lines_last hcs hnil]
      rfl
  | line front back hfront ih =>
    rw [List.append_assoc, List.cons_append, lines_line hfront, lines_line hfront,
      occurrencesFrom, occurrencesFrom, ih]

theorem occurrences_append_newline (hq : q.IsPlain) (a b : String) :
    occurrences q (a ++ "\n" ++ b) =
      occurrences q a ++ (occurrences q b).map (below (a.toList.count '\n' + 1)) := by
  have hchars : (a ++ "\n" ++ b).toList = a.toList ++ '\n' :: b.toList := by simp
  rw [occurrences, occurrences, occurrences, hchars, lines_append_newline, occurrencesFrom_append,
    occurrencesFrom_newline hq, length_lines_newline, occurrencesFrom_add]

/-- The features of two texts, one below the other: the elements of the first, those of the
    second further down, then the attributes of the first and those of the second further
    down. A line feed alone parts them, however the texts begin or end. -/
theorem features_append_newline (a b : String) :
    features (a ++ "\n" ++ b) =
      found elements a ++ (found elements b).map (below (a.toList.count '\n' + 1)) ++
        found attributes a ++ (found attributes b).map (below (a.toList.count '\n' + 1)) := by
  rw [features_eq_append, occurrences_append_newline elements_isPlain,
    occurrences_append_newline attributes_isPlain, found_elements, found_elements,
    found_attributes, found_attributes, List.append_assoc, List.append_assoc, List.append_assoc]

end WebBaseline.Markup

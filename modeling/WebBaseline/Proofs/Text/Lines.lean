/-
  WebBaseline.Proofs.Text.Lines

  The lines of a text, line by line.

    * a line is what stands in front of a line feed, without the carriage return before
      it (`lines_line`), or what stands behind the last one (`lines_last`);
    * so a text is made of lines (`line_induction`): behind a line feed a further text
      adds its own lines (`lines_append_newline`), and there is a line for each line feed
      (`length_lines_newline`).
-/

import WebBaseline.Proofs.Data.Lists
import WebBaseline.Text.Lines

namespace WebBaseline.Text

open WebBaseline.Data (all_or_exists_first)

/-! ## Carriage returns -/

/-- Characters without the carriage return that may end them. -/
def withoutReturn (cs : List Char) : List Char :=
  if cs.getLast? = some '\r' then cs.dropLast else cs

theorem withoutReturn_singleton (c : Char) :
    withoutReturn [c] = if c = '\r' then [] else [c] := by
  simp only [withoutReturn, List.getLast?_singleton, Option.some.injEq, List.dropLast_singleton]

theorem withoutReturn_cons (c : Char) {cs : List Char} (h : cs ≠ []) :
    withoutReturn (c :: cs) = c :: withoutReturn cs := by
  obtain ⟨d, ds, rfl⟩ := List.exists_cons_of_ne_nil h
  rw [withoutReturn, withoutReturn, List.getLast?_cons_cons]
  split
  · rfl
  · rfl

/-- Nothing is left off, or a carriage return is. -/
theorem withoutReturn_cases (cs : List Char) :
    withoutReturn cs = cs ∨ cs = withoutReturn cs ++ ['\r'] := by
  rw [withoutReturn]
  split
  · rename_i hlast
    obtain ⟨ds, rfl⟩ := List.getLast?_eq_some_iff.1 hlast
    rw [List.dropLast_concat]
    exact Or.inr rfl
  · exact Or.inl rfl

/-! ## A line -/

theorem lines_cons {c : Char} {cs : List Char} (hc : c ≠ '\n')
    (hcs : c = '\r' → ∀ ds, cs ≠ '\n' :: ds) {l : List Char} {ls : List (List Char)}
    (h : lines cs = l :: ls) : lines (c :: cs) = (c :: l) :: ls := by
  rw [lines.eq_4 c cs (fun ds hreturn hds => hcs hreturn ds hds) hc, h]

/-- The characters in front of a line feed are the first line. -/
theorem lines_line {front : List Char} (h : '\n' ∉ front) (back : List Char) :
    lines (front ++ '\n' :: back) = withoutReturn front :: lines back := by
  induction front with
  | nil => exact lines.eq_3 back
  | cons c front ih =>
    have hc : c ≠ '\n' := fun heq => h (heq ▸ List.mem_cons_self)
    have hfront : '\n' ∉ front := fun hmem => h (List.mem_cons_of_mem c hmem)
    cases front with
    | nil =>
      rw [withoutReturn_singleton]
      split
      · rename_i hreturn
        rw [hreturn]
        exact lines.eq_2 back
      · rename_i hreturn
        exact lines_cons hc (fun heq => absurd heq hreturn) (lines.eq_3 back)
    | cons d front =>
      -- what follows `c` is no line feed, as that comes behind the whole line
      have hnext : c = '\r' → ∀ ds, d :: front ++ '\n' :: back ≠ '\n' :: ds := by
        intro _ ds heq
        have hd : d = '\n' := (List.cons.inj heq).1
        exact hfront (hd ▸ List.mem_cons_self)
      rw [withoutReturn_cons c (List.cons_ne_nil d front)]
      exact lines_cons hc hnext (ih hfront)

/-- Characters behind the last line feed are a line as they are. -/
theorem lines_last {cs : List Char} (h : '\n' ∉ cs) (hne : cs ≠ []) : lines cs = [cs] := by
  induction cs with
  | nil => exact absurd rfl hne
  | cons c cs ih =>
    have hc : c ≠ '\n' := fun heq => h (heq ▸ List.mem_cons_self)
    have hcs : '\n' ∉ cs := fun hmem => h (List.mem_cons_of_mem c hmem)
    have hnext : c = '\r' → ∀ ds, cs ≠ '\n' :: ds := by
      intro _ ds heq
      exact hcs (heq ▸ List.mem_cons_self)
    by_cases hnil : cs = []
    · rw [lines.eq_4 c cs (fun ds hreturn hds => hnext hreturn ds hds) hc, hnil, lines.eq_1]
    · exact lines_cons hc hnext (ih hcs hnil)

/-! ## Line by line -/

/-- A text is a last line, or a line with its line feed and a text behind it. -/
theorem line_induction {motive : List Char → Prop}
    (last : ∀ cs, '\n' ∉ cs → motive cs)
    (line : ∀ front back, '\n' ∉ front → motive back → motive (front ++ '\n' :: back))
    (cs : List Char) : motive cs := by
  induction hlength : cs.length using Nat.strongRecOn generalizing cs with
  | ind n ih =>
    rcases all_or_exists_first (· ≠ '\n') cs with hall | ⟨front, c, back, rfl, hfront, hc⟩
    · exact last cs (fun hmem => by simpa using hall '\n' hmem)
    · obtain rfl : c = '\n' := by simpa using hc
      refine line front back (fun hmem => by simpa using hfront '\n' hmem) ?_
      refine ih back.length ?_ back rfl
      rw [← hlength, List.length_append, List.length_cons]
      omega

/-- A text on a new line adds its lines behind those that stand there already. -/
theorem lines_append_newline (as bs : List Char) :
    lines (as ++ '\n' :: bs) = lines (as ++ ['\n']) ++ lines bs := by
  induction as using line_induction with
  | last cs hcs => rw [lines_line hcs, lines_line hcs, lines.eq_1]; rfl
  | line front back hfront ih =>
    rw [List.append_assoc, List.cons_append, lines_line hfront, ih, List.append_assoc,
      List.cons_append, lines_line hfront]
    rfl

/-- A text that ends with a line feed has a line for each of its line feeds. -/
theorem length_lines_newline (cs : List Char) :
    (lines (cs ++ ['\n'])).length = cs.count '\n' + 1 := by
  induction cs using line_induction with
  | last cs hcs => rw [lines_line hcs, lines.eq_1, List.count_eq_zero_of_not_mem hcs]; rfl
  | line front back hfront ih =>
    rw [List.append_assoc, List.cons_append, lines_line hfront, List.length_cons, ih,
      List.count_append, List.count_eq_zero_of_not_mem hfront, List.count_cons_self]
    omega

end WebBaseline.Text

/-
  WebBaseline.Proofs.Feature.Distinct

  What is left of a list of occurrences without its repeats, and what is left of
  the passes over a text.

    * of each feature at each place just the first occurrence is kept
      (`filter_distinct`), and the kept ones stand in the order in which these
      came (`distinct_in_order`): these are the firsts (`isFirsts_distinct`);
    * a list in which no feature is shown twice at one place stays as it is
      (`distinct_eq_self`);
    * what a text shows in any language is what its passes produce, without the
      repeats (`extract_eq_distinct`).
-/

import WebBaseline.Feature.Extraction

namespace WebBaseline.Feature

namespace Occurrence

/-- What occurrences are told apart by: the feature, the line and the column. -/
def key (o : Occurrence) : String × Option Nat × Option Nat := (o.identifier, o.line, o.column)

theorem same_eq (a b : Occurrence) : same a b = (b.key == a.key) := by
  rw [Bool.eq_iff_iff]
  simp only [same, key, Bool.and_eq_true, beq_iff_eq, Prod.mk.injEq, and_assoc]
  exact ⟨fun h => ⟨h.1.symm, h.2.1.symm, h.2.2.symm⟩, fun h => ⟨h.1.symm, h.2.1.symm, h.2.2.symm⟩⟩

theorem any_same (seen : List Occurrence) (o : Occurrence) :
    seen.any (same o) = seen.any (fun a => a.key == o.key) :=
  congrArg seen.any (funext (same_eq o))

/-! ## What is kept -/

/-- Of the occurrences with a key, the first is kept if none was seen before. -/
theorem filter_distinctFrom (k : String × Option Nat × Option Nat)
    (seen os : List Occurrence) :
    (distinctFrom seen os).filter (fun o => o.key == k) =
      if seen.any (fun a => a.key == k) then []
      else (os.find? (fun o => o.key == k)).toList := by
  -- the induction is on what is left to read; it holds for whatever was seen
  induction os generalizing seen with
  | nil => split <;> rfl
  | cons o os ih =>
    rw [distinctFrom, any_same]
    by_cases hkey : o.key = k
    · subst hkey
      by_cases hseen : seen.any (fun a => a.key == o.key) = true
      · rw [if_pos hseen, ih seen, if_pos hseen, if_pos hseen]
      · have hfirst : (o :: os).find? (fun a => a.key == o.key) = some o :=
          List.find?_cons_of_pos (beq_self_eq_true o.key)
        have hrest : (o :: seen).any (fun a => a.key == o.key) = true := by
          rw [List.any_cons, beq_self_eq_true, Bool.true_or]
        rw [if_neg hseen, if_neg hseen, hfirst, List.filter_cons, beq_self_eq_true, if_pos rfl,
          ih (o :: seen), if_pos hrest]
        rfl
    · have hother : (o.key == k) = false := beq_false_of_ne hkey
      have hseen : (o :: seen).any (fun a => a.key == k) = seen.any (fun a => a.key == k) := by
        rw [List.any_cons, hother, Bool.false_or]
      have hfirst : (o :: os).find? (fun a => a.key == k) = os.find? (fun a => a.key == k) := by
        rw [List.find?_cons, hother]
      rw [hfirst]
      split
      · exact ih seen
      · rw [List.filter_cons, hother, if_neg Bool.false_ne_true, ih (o :: seen), hseen]

/-- Of each feature at each place just the first occurrence is kept. -/
theorem filter_distinct (k : String × Option Nat × Option Nat) (os : List Occurrence) :
    (distinct os).filter (fun o => o.key == k) = (os.find? (fun o => o.key == k)).toList :=
  filter_distinctFrom k [] os

/-- Of each feature that is shown at a place, one occurrence is kept there. -/
theorem length_filter_distinct {os : List Occurrence} {o : Occurrence} (ho : o ∈ os) :
    ((distinct os).filter (fun a => a.key == o.key)).length = 1 := by
  rw [filter_distinct]
  cases hfind : os.find? (fun a => a.key == o.key) with
  | none => exact absurd (beq_self_eq_true o.key) (List.find?_eq_none.1 hfind o ho)
  | some a => rfl

theorem exists_key_distinct {os : List Occurrence} {o : Occurrence} (ho : o ∈ os) :
    ∃ o' ∈ distinct os, o'.key = o.key := by
  obtain ⟨o', h⟩ := List.exists_mem_of_length_pos (length_filter_distinct ho ▸ Nat.one_pos)
  rw [List.mem_filter, beq_iff_eq] at h
  exact ⟨o', h⟩

theorem not_seen_of_mem {seen os : List Occurrence} {o : Occurrence}
    (ho : o ∈ distinctFrom seen os) : seen.any (fun a => a.key == o.key) = false := by
  have hmem : o ∈ (distinctFrom seen os).filter (fun a => a.key == o.key) :=
    List.mem_filter.2 ⟨ho, beq_self_eq_true o.key⟩
  rw [filter_distinctFrom] at hmem
  split at hmem
  · cases hmem
  · rename_i hseen
    exact Bool.eq_false_iff.2 hseen

theorem distinctFrom_sublist (seen os : List Occurrence) : (distinctFrom seen os).Sublist os := by
  induction os generalizing seen with
  | nil => exact List.Sublist.refl _
  | cons o os ih =>
    rw [distinctFrom]
    split
    · exact (ih seen).cons o
    · exact (ih (o :: seen)).cons_cons o

theorem mem_of_mem_distinct {os : List Occurrence} {o : Occurrence} (ho : o ∈ distinct os) :
    o ∈ os :=
  (distinctFrom_sublist [] os).subset ho

/-! ## Their order -/

/-- Where a list first has an occurrence with the key of another. -/
def firstPlace (os : List Occurrence) (o : Occurrence) : Nat :=
  os.findIdx (fun a => a.key == o.key)

theorem firstPlace_self (o : Occurrence) (os : List Occurrence) : firstPlace (o :: os) o = 0 :=
  List.findIdx_cons.trans (by rw [beq_self_eq_true, cond_true])

theorem firstPlace_cons {a o : Occurrence} (hkey : a.key ≠ o.key) (os : List Occurrence) :
    firstPlace (a :: os) o = firstPlace os o + 1 :=
  List.findIdx_cons.trans (by rw [beq_false_of_ne hkey, cond_false]; rfl)

theorem distinctFrom_in_order (seen os : List Occurrence) :
    (distinctFrom seen os).Pairwise (fun a b => firstPlace os a < firstPlace os b) := by
  induction os generalizing seen with
  | nil => exact .nil
  | cons o os ih =>
    -- a list without the key of `o` has the same order behind `o`
    have hbehind : ∀ seen, seen.any (fun a => a.key == o.key) = true →
        (∀ b ∈ distinctFrom seen os, o.key ≠ b.key) ∧
        (distinctFrom seen os).Pairwise
          (fun a b => firstPlace (o :: os) a < firstPlace (o :: os) b) := by
      intro seen hseen
      have hother : ∀ b ∈ distinctFrom seen os, o.key ≠ b.key := by
        intro b hb hkey
        rw [hkey, not_seen_of_mem hb] at hseen
        cases hseen
      refine ⟨hother, (ih seen).imp_of_mem ?_⟩
      intro a b ha hb hlt
      rw [firstPlace_cons (hother a ha), firstPlace_cons (hother b hb)]
      exact Nat.succ_lt_succ hlt
    rw [distinctFrom, any_same]
    split
    · rename_i hseen
      exact (hbehind seen hseen).2
    · obtain ⟨hother, hrest⟩ := hbehind (o :: seen) (by
        rw [List.any_cons, beq_self_eq_true, Bool.true_or])
      refine .cons (fun b hb => ?_) hrest
      rw [firstPlace_self, firstPlace_cons (hother b hb)]
      exact Nat.succ_pos _

/-- The kept occurrences stand in the order in which their keys came first. -/
theorem distinct_in_order (os : List Occurrence) :
    (distinct os).Pairwise (fun a b => firstPlace os a < firstPlace os b) :=
  distinctFrom_in_order [] os

/-- What is kept of a list: of each feature at each place the first occurrence, in the
    order in which these came. -/
structure IsFirsts (os kept : List Occurrence) : Prop where
  first : ∀ k, kept.filter (fun o => o.key == k) = (os.find? (fun o => o.key == k)).toList
  ordered : kept.Pairwise (fun a b => firstPlace os a < firstPlace os b)

theorem isFirsts_distinct (os : List Occurrence) : IsFirsts os (distinct os) :=
  ⟨fun k => filter_distinct k os, distinct_in_order os⟩

theorem distinct_keys (os : List Occurrence) :
    (distinct os).Pairwise (fun a b => a.key ≠ b.key) := by
  refine (distinct_in_order os).imp ?_
  intro a b hlt hkey
  rw [firstPlace, firstPlace, hkey] at hlt
  exact Nat.lt_irrefl _ hlt

theorem distinctFrom_eq_self {seen os : List Occurrence}
    (hos : os.Pairwise (fun a b => a.key ≠ b.key)) (hseen : ∀ o ∈ os, ∀ a ∈ seen, a.key ≠ o.key) :
    distinctFrom seen os = os := by
  induction os generalizing seen with
  | nil => rfl
  | cons o os ih =>
    rw [List.pairwise_cons] at hos
    have hnew : seen.any (fun a => a.key == o.key) = false := by
      rw [List.any_eq_false]
      intro a ha
      rw [beq_iff_eq]
      exact hseen o List.mem_cons_self a ha
    have hrest : ∀ o' ∈ os, ∀ a ∈ o :: seen, a.key ≠ o'.key := by
      intro o' ho' a ha
      rcases List.mem_cons.1 ha with rfl | ha
      · exact hos.1 o' ho'
      · exact hseen o' (List.mem_cons_of_mem o ho') a ha
    rw [distinctFrom, any_same, hnew, if_neg Bool.false_ne_true, ih hos.2 hrest]

/-- A list in which no feature is shown twice at one place stays as it is. -/
theorem distinct_eq_self {os : List Occurrence} (h : os.Pairwise (fun a b => a.key ≠ b.key)) :
    distinct os = os :=
  distinctFrom_eq_self h (fun _ _ _ ha => absurd ha List.not_mem_nil)

end Occurrence

/-! ## The passes over a text -/

/-- What the pass over a script produces: what each node shows, if the text
    follows the grammar. -/
def scriptPasses (d : Script.Dialect) (text : String) : List Occurrence :=
  let src := Syntax.Source.ofString text
  match Script.parse? d src with
  | some t => t.nodes.flatMap (Script.nodeOccurrences src)
  | none => []

/-- What the three passes over a stylesheet produce, one after the other, if its
    root has no flaw. -/
def stylesheetPasses (text : String) : List Occurrence :=
  let src := Syntax.Source.ofString text
  match Stylesheet.parse? src with
  | some t =>
    if t.flaw.isSome then []
    else
      t.nodes.flatMap (Stylesheet.selectorOccurrences src) ++
        t.nodes.flatMap (Stylesheet.declarationOccurrences src) ++
        t.nodes.flatMap (Stylesheet.atRuleOccurrences src)
  | none => []

/-- What the two passes over markup produce, one after the other. -/
def markupPasses (text : String) : List Occurrence :=
  Markup.occurrences Markup.elements text ++ Markup.occurrences Markup.attributes text

/-- All that the passes over a text produce, in order and with repeats. -/
def produced (language : Language) (path : Files.Path) (text : String) : List Occurrence :=
  match language with
  | .script => scriptPasses (dialectOf path) text
  | .stylesheet => stylesheetPasses text
  | .markup => markupPasses text

/-- What a text shows is what its passes produce, without repeats. -/
theorem extract_eq_distinct (language : Language) (path : Files.Path) (text : String) :
    extract language path text = Occurrence.distinct (produced language path text) := by
  cases language with
  | script =>
    show Script.features (dialectOf path) text =
      Occurrence.distinct (scriptPasses (dialectOf path) text)
    rw [Script.features, scriptPasses]
    cases Script.parse? (dialectOf path) (Syntax.Source.ofString text) with
    | none => rfl
    | some t => rfl
  | stylesheet =>
    show Stylesheet.features text = Occurrence.distinct (stylesheetPasses text)
    rw [Stylesheet.features, stylesheetPasses]
    cases Stylesheet.parse? (Syntax.Source.ofString text) with
    | none => rfl
    | some t =>
      simp only [Stylesheet.treeFeatures]
      split <;> rfl
  | markup => rfl

end WebBaseline.Feature

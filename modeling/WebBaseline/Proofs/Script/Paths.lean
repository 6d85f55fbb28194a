/-
  WebBaseline.Proofs.Script.Paths

  Dotted paths, and how the path of a member access is told from its object and its
  property.

    * the first name of a path is told from it, as names hold no dot
      (`eq_of_append_dot`), and so is whether the path begins with `window.` or
      `navigator.` (`dropStart?_dotted`); the names that catalogs list hold no dot;
    * a path is read off the first child in each part (`memberPath?_eq`);
    * in a regular tree names hold no dot (`IsName.isDotless`), and what a node is
      applied to starts where the node does (`Opens.child?`, `start_of_callee`).
-/

import WebBaseline.Proofs.Script.Shape
import WebBaseline.Script.Features

namespace WebBaseline.Script

open WebBaseline.Syntax
open WebBaseline.Feature

/-! ## Beginnings -/

theorem dropStart?_eq_some_iff {start s rest : String} :
    dropStart? start s = some rest ↔ s = start ++ rest := by
  rw [dropStart?]
  constructor
  · intro h
    split at h
    · next hstart =>
      obtain ⟨tail, htail⟩ := String.startsWith_string_iff.1 hstart
      rw [Option.some.injEq] at h
      rw [← h]
      apply String.toList_injective
      simp [← htail, ← String.length_toList]
    · cases h
  · rintro rfl
    have hstart : (start ++ rest).startsWith start = true :=
      String.startsWith_string_iff.2 (by simp)
    rw [if_pos hstart, Option.some.injEq]
    apply String.toList_injective
    simp [← String.length_toList]

theorem dropStart?_append (start rest : String) : dropStart? start (start ++ rest) = some rest :=
  dropStart?_eq_some_iff.2 rfl

theorem dropStart?_eq_none_iff {start s : String} :
    dropStart? start s = none ↔ s.startsWith start = false := by
  rw [dropStart?]
  split
  · next h => simp [h]
  · next h => simp [h]

/-! ## Dotted paths -/

/-- The names joined by dots. -/
def dotted (names : List String) : String := ".".intercalate names

/-- A text without a dot. -/
def IsDotless (s : String) : Prop := '.' ∉ s.toList

instance (s : String) : Decidable (IsDotless s) :=
  inferInstanceAs (Decidable ('.' ∉ s.toList))

theorem dotted_singleton (name : String) : dotted [name] = name := String.intercalate_singleton

theorem dotted_cons (name : String) {names : List String} (h : names ≠ []) :
    dotted (name :: names) = name ++ "." ++ dotted names :=
  String.intercalate_cons_of_ne_nil h

theorem dotted_snoc {names : List String} (h : names ≠ []) (name : String) :
    dotted (names ++ [name]) = dotted names ++ "." ++ name := by
  rw [dotted, String.intercalate_append_of_ne_nil h (List.cons_ne_nil _ _),
    String.intercalate_singleton]
  rfl

/-- A separator that neither beginning holds ends both at the same place. -/
theorem append_cons_inj {α : Type} {x : α} {as bs cs ds : List α} (has : x ∉ as)
    (hbs : x ∉ bs) (h : as ++ x :: cs = bs ++ x :: ds) : as = bs ∧ cs = ds := by
  induction as generalizing bs with
  | nil =>
    cases bs with
    | nil => cases h; exact ⟨rfl, rfl⟩
    | cons b bs => cases h; exact absurd List.mem_cons_self hbs
  | cons a as ih =>
    cases bs with
    | nil => cases h; exact absurd List.mem_cons_self has
    | cons b bs =>
      rw [List.cons_append, List.cons_append, List.cons.injEq] at h
      obtain ⟨rfl, h⟩ := h
      obtain ⟨rfl, hcs⟩ := ih (List.not_mem_of_not_mem_cons has)
        (List.not_mem_of_not_mem_cons hbs) h
      exact ⟨rfl, hcs⟩

/-- Two paths are the same only if their first names are. -/
theorem eq_of_append_dot {q r s s' : String} (hq : IsDotless q) (hr : IsDotless r)
    (h : q ++ "." ++ s = r ++ "." ++ s') : q = r ∧ s = s' := by
  have hlists : q.toList ++ '.' :: s.toList = r.toList ++ '.' :: s'.toList := by
    have := congrArg String.toList h
    simpa using this
  obtain ⟨hname, hrest⟩ := append_cons_inj hq hr hlists
  exact ⟨String.toList_injective hname, String.toList_injective hrest⟩

/-- Whether a path begins with a name and a dot is told from its first name. -/
theorem startsWith_dot {q r : String} (hq : IsDotless q) (hr : IsDotless r) (s : String) :
    (r ++ "." ++ s).startsWith (q ++ ".") = decide (r = q) := by
  rw [Bool.eq_iff_iff, String.startsWith_string_iff, decide_eq_true_iff]
  constructor
  · rintro ⟨tail, htail⟩
    have hpath : q ++ "." ++ String.ofList tail = r ++ "." ++ s := by
      apply String.toList_injective
      rw [← htail]
      simp
    exact (eq_of_append_dot hq hr hpath).1.symm
  · rintro rfl
    exact ⟨s.toList, by simp⟩

theorem dropStart?_dot {q r : String} (hq : IsDotless q) (hr : IsDotless r) (s : String) :
    dropStart? (q ++ ".") (r ++ "." ++ s) = if r = q then some s else none := by
  split
  · next h => rw [h]; exact dropStart?_append _ s
  · next h => exact dropStart?_eq_none_iff.2 ((startsWith_dot hq hr s).trans (decide_eq_false h))

theorem startsWith_dotted (q : String) {r : String} {ps : List String} (hq : IsDotless q)
    (hr : IsDotless r) (hps : ps ≠ []) :
    (dotted (r :: ps)).startsWith (q ++ ".") = decide (r = q) := by
  rw [dotted_cons r hps, startsWith_dot hq hr]

theorem dropStart?_dotted (q : String) {r : String} {ps : List String} (hq : IsDotless q)
    (hr : IsDotless r) (hps : ps ≠ []) :
    dropStart? (q ++ ".") (dotted (r :: ps)) = if r = q then some (dotted ps) else none := by
  rw [dotted_cons r hps, dropStart?_dot hq hr]

theorem withoutWindow_dotted {r : String} {ps : List String} (hr : IsDotless r) (hps : ps ≠ []) :
    withoutWindow (dotted (r :: ps)) = if r = "window" then dotted ps else dotted (r :: ps) := by
  have hdrop : dropStart? "window." (dotted (r :: ps)) =
      if r = "window" then some (dotted ps) else none :=
    dropStart?_dotted "window" (by decide) hr hps
  rw [withoutWindow, hdrop]
  split <;> rfl

theorem not_isDotless_dot (r s : String) : ¬ IsDotless (r ++ "." ++ s) := fun h =>
  h (by simp)

theorem isDotless_of_isGlobal {name : String} (h : Catalog.isGlobal name = true) :
    IsDotless name :=
  (by decide : ∀ name ∈ Catalog.globals, '.' ∉ name.toList) name (List.contains_iff_mem.1 h)

theorem isDotless_of_isCall {name : String} (h : Catalog.isCall name = true) : IsDotless name :=
  (by decide : ∀ name ∈ Catalog.calls, '.' ∉ name.toList) name (List.contains_iff_mem.1 h)

theorem isDotless_of_isConstructor {name : String} (h : Catalog.isConstructor name = true) :
    IsDotless name :=
  (by decide : ∀ name ∈ Catalog.constructors, '.' ∉ name.toList) name
    (List.contains_iff_mem.1 h)

/-! ## Paths of member accesses -/

/-- The path of a member access from its object and its property. -/
theorem memberPath?_eq (src : Source) (t : ParseTree Kind) :
    memberPath? src t = (t.child? .object).bind (fun object =>
      match object.kind, (t.child? .property).filter
          (fun p => t.kind == .member && p.kind == .propertyName) with
      | .identifier, some p => some (object.text src ++ "." ++ p.text src)
      | .member, some p => (memberPath? src object).map (fun path => path ++ "." ++ p.text src)
      | .identifier, none => some (object.text src)
      | _, _ => none) := by
  obtain ⟨kind, part, flaw, start, stop, children⟩ := t
  rw [memberPath?]
  -- the search for the object passes the children that are not it
  have hsearch : ∀ rest : List (ParseTree Kind), memberPath?.pathOf src kind children rest =
      (rest.find? (fun c => c.part == some .object)).bind (fun object =>
        match object.kind, (children.find? (fun c => c.part == some .property)).filter
            (fun p => kind == .member && p.kind == .propertyName) with
        | .identifier, some p => some (object.text src ++ "." ++ p.text src)
        | .member, some p => (memberPath? src object).map (fun path => path ++ "." ++ p.text src)
        | .identifier, none => some (object.text src)
        | _, _ => none) := by
    intro rest
    induction rest with
    | nil => rfl
    | cons c rest ih =>
      rw [memberPath?.pathOf, List.find?_cons]
      split
      · next h => rw [h]; rfl
      · next h => rw [Bool.eq_false_iff.2 h]; exact ih
  exact hsearch children

/-! ## In a regular tree -/

section Regular

variable {src : Source} {u c : ParseTree Kind}

theorem exists_of_mem_extract {chars : Array Char} {s e : Nat} {x : Char}
    (h : x ∈ (chars.extract s e).toList) : ∃ n, s ≤ n ∧ n < e ∧ chars[n]? = some x := by
  obtain ⟨n, hn⟩ := List.mem_iff_getElem?.1 h
  rw [Array.getElem?_toList, Array.getElem?_extract] at hn
  split at hn
  · next hlt => exact ⟨s + n, Nat.le_add_right s n, by omega, hn⟩
  · cases hn

theorem IsName.isDotless (h : IsName src.chars u) : IsDotless (u.text src) := by
  intro hdot
  rw [ParseTree.text, Source.slice, String.toList_ofList] at hdot
  obtain ⟨n, hs, he, hn⟩ := exists_of_mem_extract hdot
  exact h.dotless n hs he hn

theorem isName_of_identifier (hreg : Regular src.chars u) (hu : u.kind = .identifier) :
    IsName src.chars u := by
  rw [Regular, hu] at hreg
  exact hreg

theorem isName_of_propertyName (hreg : Regular src.chars u) (hu : u.kind = .propertyName) :
    IsName src.chars u := by
  rw [Regular, hu] at hreg
  exact hreg

theorem opens_of_member (hreg : Regular src.chars u) (hu : u.kind = .member) :
    Opens .object u := by
  rw [Regular, hu] at hreg
  exact hreg

/-- The child in the part that a node opens with is its first child. -/
theorem Opens.child? {part : Part} (h : Opens part u) (hc : u.child? part = some c) :
    c.start = u.start ∧ c.stop ≤ u.stop ∧
      ∀ d ∈ u.children, d = c ∨ c.stop ≤ d.start := by
  obtain ⟨first, rest, hchildren, hpart, hstart, hstop, hrest⟩ := h
  rw [ParseTree.child?, hchildren, List.find?_cons, beq_iff_eq.2 hpart] at hc
  cases hc
  refine ⟨hstart, hstop, fun d hd => ?_⟩
  rw [hchildren] at hd
  exact (List.mem_cons.1 hd).imp id (hrest d)

/-- A call starts where the value that it calls by a name does. -/
theorem start_of_callee (hreg : Regular src.chars u) (hu : u.kind = .call)
    (hcallee : u.child? .callee = some c) (hc : c.kind = .identifier ∨ c.kind = .member) :
    c.start = u.start := by
  rw [Regular, hu] at hreg
  rcases hreg with hopens | hnone
  · exact (hopens.child? hcallee).1
  · obtain ⟨hidentifier, hmember⟩ := hnone c hcallee
    exact absurd hc (by rintro (h | h) <;> contradiction)

end Regular

end WebBaseline.Script

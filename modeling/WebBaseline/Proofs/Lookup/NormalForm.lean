/-
  WebBaseline.Proofs.Lookup.NormalForm

  What stays of a name when names are compared.

    * of the small letters, what stands behind a namespace at their beginning: no
      namespace begins with another one (`namespaces_apart`), so there is one at most
      (`isBehindNamespace_iff`);
    * of that, what stands before an empty argument list at its end
      (`isBeforeArguments_iff`);
    * of that, all but hyphens and underscores (`isNormalForm_iff`).
-/

import WebBaseline.Lookup.Dataset

namespace WebBaseline.Lookup

variable {lower bare body form : List Char} {name : String}

/-! ## Namespaces -/

/-- What stands in a text behind a namespace; the whole text, if it begins with none. -/
inductive IsBehindNamespace (lower : List Char) : List Char → Prop
  | behind {n : String} {bare : List Char} (mem : n ∈ namespaces)
      (split : lower = n.toList ++ bare) : IsBehindNamespace lower bare
  | whole (without : ∀ n ∈ namespaces, ¬ n.toList <+: lower) : IsBehindNamespace lower lower

theorem namespaces_apart : ∀ m ∈ namespaces, ∀ n ∈ namespaces, m.toList <+: n.toList → m = n := by
  decide

/-- A text begins with one namespace at most. -/
theorem eq_of_namespaces {m n : String} (hm : m ∈ namespaces) (hn : n ∈ namespaces)
    (hm' : m.toList <+: lower) (hn' : n.toList <+: lower) : m = n := by
  rcases List.prefix_or_prefix_of_prefix hm' hn' with h | h
  · exact namespaces_apart m hm n hn h
  · exact (namespaces_apart n hn m hm h).symm

theorem behind?_eq_some_iff {start cs rest : List Char} :
    behind? start cs = some rest ↔ cs = start ++ rest := by
  rw [behind?]
  constructor
  · intro h
    split at h
    · next hstart =>
      rw [← Option.some.inj h]
      exact List.prefix_iff_eq_append.1 (List.isPrefixOf_iff_prefix.1 hstart) |>.symm
    · cases h
  · rintro rfl
    rw [if_pos (List.isPrefixOf_iff_prefix.2 (List.prefix_append start rest)), List.drop_left]

theorem isBehindNamespace_iff :
    IsBehindNamespace lower bare ↔
      bare = (namespaces.findSome? (fun n => behind? n.toList lower)).getD lower := by
  cases hfind : namespaces.findSome? (fun n => behind? n.toList lower) with
  | none =>
    have hnone : ∀ n ∈ namespaces, ¬ n.toList <+: lower := by
      rintro n hn ⟨rest, hrest⟩
      have := List.findSome?_eq_none_iff.1 hfind n hn
      rw [behind?_eq_some_iff.2 hrest.symm] at this
      cases this
    constructor
    · rintro (⟨hn, hsplit⟩ | -)
      · exact absurd ⟨_, hsplit.symm⟩ (hnone _ hn)
      · rfl
    · rintro rfl
      exact .whole hnone
  | some found =>
    obtain ⟨m, hm, hfound⟩ := List.exists_of_findSome?_eq_some hfind
    rw [behind?_eq_some_iff] at hfound
    constructor
    · rintro (⟨hn, hsplit⟩ | hnone)
      · obtain rfl := eq_of_namespaces hm hn ⟨_, hfound.symm⟩ ⟨_, hsplit.symm⟩
        exact List.append_cancel_left (hsplit.symm.trans hfound)
      · exact absurd ⟨_, hfound.symm⟩ (hnone m hm)
    · rintro rfl
      exact .behind hm hfound

/-! ## Arguments -/

/-- What stands in a text before an empty argument list; the whole text, if it does
    not end with one. -/
inductive IsBeforeArguments (bare : List Char) : List Char → Prop
  | before {body : List Char} (split : bare = body ++ ['(', ')']) : IsBeforeArguments bare body
  | whole (without : ¬ ['(', ')'] <:+ bare) : IsBeforeArguments bare bare

theorem isBeforeArguments_iff :
    IsBeforeArguments bare body ↔ body = without ['(', ')'] bare := by
  rw [without]
  constructor
  · rintro (rfl | hnone)
    · rw [if_pos (List.isSuffixOf_iff_suffix.2 (List.suffix_append body _)), List.length_append,
        Nat.add_sub_cancel, List.take_left]
    · rw [if_neg (mt List.isSuffixOf_iff_suffix.1 hnone)]
  · intro h
    split at h
    · next hend =>
      obtain ⟨front, rfl⟩ := List.isSuffixOf_iff_suffix.1 hend
      rw [List.length_append, Nat.add_sub_cancel, List.take_left] at h
      exact .before (h ▸ rfl)
    · next hend =>
      rw [h]
      exact .whole (mt List.isSuffixOf_iff_suffix.2 hend)

/-! ## Names -/

/-- What stays of a name: its small letters, without a namespace before and without
    an empty argument list behind, and without hyphens and underscores. -/
def IsNormalForm (name : String) (form : List Char) : Prop :=
  ∃ bare body, IsBehindNamespace (Text.lowercase name).toList bare ∧ IsBeforeArguments bare body ∧
    form = body.filter (fun c => c ∉ ['-', '_'])

theorem isNormalForm_iff : IsNormalForm name form ↔ form = normalForm name := by
  have hkept : (fun c => decide (c ∉ ['-', '_'])) = fun c => c != '-' && c != '_' := by
    funext c
    rw [Bool.eq_iff_iff]
    simp
  simp only [IsNormalForm, isBehindNamespace_iff, isBeforeArguments_iff, hkept]
  constructor
  · rintro ⟨_, _, rfl, rfl, hform⟩
    exact hform
  · intro hform
    exact ⟨_, _, rfl, rfl, hform⟩

instance (name : String) (form : List Char) : Decidable (IsNormalForm name form) :=
  decidable_of_iff _ isNormalForm_iff.symm

example : IsNormalForm "window.ÉlanVital_Of-X()" "élanvitalofx".toList := by decide +kernel

end WebBaseline.Lookup

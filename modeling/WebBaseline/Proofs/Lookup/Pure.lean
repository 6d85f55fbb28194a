/-
  WebBaseline.Proofs.Lookup.Pure

  Resolving with sources whose answers depend on the feature alone.

    * `verdict` is what such sources say about a feature when nothing is
      remembered: the first definite answer in their order;
    * a memory is `Faithful` if each of its entries is the verdict.

  A call returns the verdict whatever the memory holds, as long as the memory is
  faithful, and leaves it faithful.
-/

import WebBaseline.Proofs.Lookup.History

namespace WebBaseline.Lookup

open WebBaseline.Baseline (Info)
open WebBaseline.Data (KeyMap)

variable {σ : Type}

/-- A source whose answers depend on nothing but the feature. -/
def Source.IsPure (source : Source σ) : Prop :=
  ∀ feature s t, (source.ask feature s).1 = (source.ask feature t).1

theorem Source.isPure_fixed (name : String) (answer : String → Outcome) :
    (Source.fixed name answer : Source σ).IsPure :=
  fun _ _ _ => rfl

/-- The first definite answer of sources in their order, all of them asked in
    the same state; without one, that nothing is known. -/
def verdict (sources : List (Source σ)) (s : σ) (feature : String) : Info :=
  (sources.findSome? (fun source => (source.ask feature s).1.definite?)).getD
    (Info.unknown feature)

/-! ## One inquiry -/

/-- Pure sources that are asked in turn come to their first definite answer,
    though each of them finds a state that the ones before it have changed. -/
theorem answer_askInTurn {sources : List (Source σ)}
    (hpure : ∀ source ∈ sources, source.IsPure) (feature : String) (s t : σ) :
    (askInTurn feature sources t).1.answer.map Prod.snd =
      sources.findSome? (fun source => (source.ask feature s).1.definite?) := by
  induction sources generalizing t with
  | nil => rfl
  | cons source rest ih =>
    have hsame : (source.ask feature t).1 = (source.ask feature s).1 :=
      hpure source List.mem_cons_self feature t s
    have hrest := ih (fun x hx => hpure x (List.mem_cons_of_mem _ hx))
      (source.ask feature t).2
    rw [askInTurn, List.findSome?_cons, ← hsame]
    cases hd : (source.ask feature t).1.definite? with
    | some info => simp [hd]
    | none => simpa [hd] using hrest

theorem info_ofInquiry (feature : String) (q : Inquiry) :
    (Resolution.ofInquiry feature q).info =
      (q.answer.map Prod.snd).getD (Info.unknown feature) := by
  rw [Resolution.ofInquiry]
  cases q.answer with
  | some found => rfl
  | none => rfl

/-- Nothing is remembered of a resolution but what it returned. -/
theorem info_of_lasting? {r : Resolution} {info : Info} (h : r.lasting? = some info) :
    info = r.info := by
  rw [Resolution.lasting?] at h
  split at h
  · cases h
  · split at h
    · exact (Option.some.inj h).symm
    · cases h

/-! ## Faithful memories -/

/-- Each entry of a memory is the verdict on its feature. -/
def Memory.Faithful (sources : List (Source σ)) (s : σ) (m : Memory) : Prop :=
  ∀ feature info, m.get? feature = some info → info = verdict sources s feature

theorem Memory.faithful_empty (sources : List (Source σ)) (s : σ) :
    Memory.Faithful sources s KeyMap.empty := by
  intro feature info h
  cases h

section Resolve

variable {sources : List (Source σ)} (hpure : ∀ source ∈ sources, source.IsPure)
  {s : σ} {m : Memory} (hm : m.Faithful sources s)

include hpure hm

/-- A call returns the verdict, from a faithful memory as from the sources. -/
theorem info_resolve (feature : String) (t : σ) :
    (resolve sources feature m t).1.info = verdict sources s feature := by
  cases h : m.get? feature with
  | some info =>
    rw [resolve_of_some h]
    exact hm feature info h
  | none =>
    rw [resolve_of_none h, info_ofInquiry, answer_askInTurn hpure feature s t]
    rfl

/-- A call leaves a faithful memory faithful. -/
theorem faithful_resolve (feature : String) (t : σ) :
    (resolve sources feature m t).2.1.Faithful sources s := by
  intro k info hk
  cases h : m.get? feature with
  | some found =>
    rw [resolve_of_some h] at hk
    exact hm k info hk
  | none =>
    have hverdict := info_resolve hpure hm feature t
    rw [resolve_of_none h] at hk hverdict
    rw [get?_keep] at hk
    by_cases hkf : k = feature
    · subst hkf
      rw [if_pos rfl, h, Option.or_none] at hk
      exact (info_of_lasting? hk).trans hverdict
    · rw [if_neg hkf] at hk
      exact hm k info hk

end Resolve

end WebBaseline.Lookup

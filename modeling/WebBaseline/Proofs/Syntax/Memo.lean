/-
  WebBaseline.Proofs.Syntax.Memo

  Reading without a memory of answers. `plain` reads a rule as `run` does, but reads
  every phrase anew; it says so when its fuel does not last.

    * with more fuel it says the same (`plain_mono`);
    * a memo of its answers changes nothing: with as much fuel or more, `run` yields
      what `plain` yields and leaves such a memo again (`run_of_plain`).

  So what a grammar reads can be told without a memo (`read?_of_plain`), and trees can
  be compared.
-/

import Std.Data.HashMap.Lemmas
import WebBaseline.Syntax.Rule

namespace WebBaseline.Syntax

variable {ν κ : Type}

/-! ## Equal trees -/

namespace ParseTree

variable [DecidableEq κ]

mutual

/-- Whether two trees are the same. -/
def decEq : (t u : ParseTree κ) → Decidable (t = u)
  | node k p f s e cs, node k' p' f' s' e' cs' =>
    if hroot : k = k' ∧ p = p' ∧ f = f' ∧ s = s' ∧ e = e' then
      match decEqAll cs cs' with
      | isTrue hchildren => isTrue (by
          obtain ⟨rfl, rfl, rfl, rfl, rfl⟩ := hroot
          rw [hchildren])
      | isFalse hchildren => isFalse (fun h => hchildren (congrArg children h))
    else
      isFalse (fun h => hroot ⟨congrArg kind h, congrArg part h, congrArg flaw h,
        congrArg start h, congrArg stop h⟩)

/-- Whether two lists of trees are the same. -/
def decEqAll : (ts us : List (ParseTree κ)) → Decidable (ts = us)
  | [], [] => isTrue rfl
  | [], _ :: _ => isFalse (fun h => nomatch h)
  | _ :: _, [] => isFalse (fun h => nomatch h)
  | t :: ts, u :: us =>
    match decEq t u, decEqAll ts us with
    | isTrue ht, isTrue hts => isTrue (by rw [ht, hts])
    | isFalse ht, _ => isFalse (fun h => ht (List.cons.inj h).1)
    | _, isFalse hts => isFalse (fun h => hts (List.cons.inj h).2)

end

instance : DecidableEq (ParseTree κ) := decEq

end ParseTree

namespace Grammar

/-! ## Reading without a memo -/

/-- Reads a rule at an offset, with the trees read so far in the enclosing node.
    Nothing at all, if that takes more than the fuel. -/
def plain (g : Grammar ν κ) (chars : Array Char) :
    Nat → Rule ν κ → Nat → List (ParseTree κ) → Option (Yield κ)
  | 0, _, _, _ => none
  | fuel + 1, rule, i, acc =>
    match rule with
    | .empty => some (some (i, acc))
    | .lexeme kind scan =>
      let (j, acc) := g.gap chars i acc
      some ((scan chars j).map (fun k => (k, ParseTree.leaf kind j k :: acc)))
    | .flush kind scan => some ((scan chars i).map (fun k => (k, ParseTree.leaf kind i k :: acc)))
    | .test holds => some (if holds chars i then some (i, acc) else none)
    | .phrase name =>
      (plain g chars fuel (g.rules name) i []).map (fun
        | none => none
        | some (j, trees) => some (j, trees ++ acc))
    | .seq first second =>
      (plain g chars fuel first i acc).bind (fun
        | none => some none
        | some (j, acc) => plain g chars fuel second j acc)
    | .alt first second =>
      (plain g chars fuel first i acc).bind (fun
        | none => plain g chars fuel second i acc
        | some found => some (some found))
    | .many item =>
      (plain g chars fuel item i acc).bind (fun
        | none => some (some (i, acc))
        | some (j, grown) =>
          if j ≤ i then some (some (i, acc)) else plain g chars fuel (.many item) j grown)
    | .absent item =>
      (plain g chars fuel item i []).map (fun
        | none => some (i, acc)
        | some _ => none)
    | .node kind body =>
      let (start, acc) := g.gap chars i acc
      (plain g chars fuel body start []).map (fun
        | none => none
        | some (j, trees) => some (j, enclose kind start trees :: acc))
    | .grow kind part body =>
      match acc with
      | [] => some none
      | t :: acc =>
        (plain g chars fuel body i [t.inPart part]).map (fun
          | none => none
          | some (j, trees) => some (j, enclose kind t.start trees :: acc))
    | .named part body =>
      (plain g chars fuel body i []).map (fun
        | none => none
        | some (j, []) => some (j, acc)
        | some (j, t :: trees) => some (j, t.asPart part :: (trees ++ acc)))
    | .flawed flaw body =>
      (plain g chars fuel body i []).map (fun
        | none => none
        | some (j, []) => some (j, acc)
        | some (j, t :: trees) => some (j, t.withFlaw flaw :: (trees ++ acc)))
    | .only accept body =>
      (plain g chars fuel body i []).map (fun
        | none => none
        | some (_, []) => none
        | some (j, t :: trees) => if accept t.kind then some (j, t :: (trees ++ acc)) else none)

variable {g : Grammar ν κ} {chars : Array Char}

/-- A reading that goes on with what another one came to, step by step. -/
theorem bind_mono {α β : Type} {o o' : Option α} {f f' : α → Option β} {b : β}
    (ho : ∀ a, o = some a → o' = some a) (hf : ∀ a, f a = some b → f' a = some b)
    (h : o.bind f = some b) : o'.bind f' = some b := by
  obtain ⟨a, ha, hb⟩ := Option.bind_eq_some_iff.1 h
  exact Option.bind_eq_some_iff.2 ⟨a, ho a ha, hf a hb⟩

theorem map_mono {α β : Type} {o o' : Option α} {f : α → β} {b : β}
    (ho : ∀ a, o = some a → o' = some a) (h : o.map f = some b) : o'.map f = some b := by
  obtain ⟨a, ha, hb⟩ := Option.map_eq_some_iff.1 h
  exact Option.map_eq_some_iff.2 ⟨a, ho a ha, hb⟩

theorem plain_succ {fuel : Nat} {rule : Rule ν κ} {i : Nat} {acc : List (ParseTree κ)}
    {y : Yield κ} (h : g.plain chars fuel rule i acc = some y) :
    g.plain chars (fuel + 1) rule i acc = some y := by
  induction fuel generalizing rule i acc y with
  | zero => cases h
  | succ fuel ih =>
    cases rule with
    | empty => exact h
    | lexeme kind scan => exact h
    | flush kind scan => exact h
    | test holds => exact h
    | phrase name => exact map_mono (fun _ => ih) h
    | seq first second =>
      refine bind_mono (fun _ => ih) (fun answer hnext => ?_) h
      cases answer with
      | none => exact hnext
      | some found => exact ih hnext
    | alt first second =>
      refine bind_mono (fun _ => ih) (fun answer hnext => ?_) h
      cases answer with
      | none => exact ih hnext
      | some found => exact hnext
    | many item =>
      refine bind_mono (fun _ => ih) (fun answer hnext => ?_) h
      cases answer with
      | none => exact hnext
      | some found =>
        simp only at hnext ⊢
        split at hnext
        · next hstuck => rwa [if_pos hstuck]
        · next hmoved => rw [if_neg hmoved]; exact ih hnext
    | absent item => exact map_mono (fun _ => ih) h
    | node kind body => exact map_mono (fun _ => ih) h
    | grow kind part body =>
      cases acc with
      | nil => exact h
      | cons t acc => exact map_mono (fun _ => ih) h
    | named part body => exact map_mono (fun _ => ih) h
    | flawed flaw body => exact map_mono (fun _ => ih) h
    | only accept body => exact map_mono (fun _ => ih) h

/-- More fuel changes no answer. -/
theorem plain_mono {fuel fuel' : Nat} {rule : Rule ν κ} {i : Nat} {acc : List (ParseTree κ)}
    {y : Yield κ} (hle : fuel ≤ fuel') (h : g.plain chars fuel rule i acc = some y) :
    g.plain chars fuel' rule i acc = some y := by
  induction hle with
  | refl => exact h
  | step _ ih => exact plain_succ ih

/-- Whatever the fuel, there is one answer. -/
theorem plain_unique {fuel fuel' : Nat} {rule : Rule ν κ} {i : Nat} {acc : List (ParseTree κ)}
    {y y' : Yield κ} (h : g.plain chars fuel rule i acc = some y)
    (h' : g.plain chars fuel' rule i acc = some y') : y = y' := by
  rcases Nat.le_total fuel fuel' with hle | hle
  · exact Option.some.inj ((plain_mono hle h).symm.trans h')
  · exact Option.some.inj (h.symm.trans (plain_mono hle h'))

/-! ## Reading with a memo -/

section Memo

variable [BEq ν] [Hashable ν] [LawfulBEq ν]

/-- Whether every answer of a memo keeps a law. -/
def MemoHolds (law : ν → Nat → Yield κ → Prop) (memo : Memo ν κ) : Prop :=
  ∀ name i y, memo[(name, i)]? = some y → law name i y

variable {law : ν → Nat → Yield κ → Prop}

omit [LawfulBEq ν] in
theorem memoHolds_empty : MemoHolds law (∅ : Memo ν κ) := by
  intro name i y h
  rw [Std.HashMap.getElem?_empty] at h
  cases h

theorem MemoHolds.insert {memo : Memo ν κ} (hmemo : MemoHolds law memo) {name : ν} {i : Nat}
    {y : Yield κ} (h : law name i y) : MemoHolds law (memo.insert (name, i) y) := by
  intro name' i' y' hget
  rw [Std.HashMap.getElem?_insert] at hget
  split at hget
  · next hkey =>
    cases eq_of_beq hkey
    cases hget
    exact h
  · exact hmemo name' i' y' hget

/-- Whether every answer of a memo is the one that reading anew comes to. -/
def Remembers (g : Grammar ν κ) (chars : Array Char) (memo : Memo ν κ) : Prop :=
  MemoHolds (fun name i y => ∃ fuel, g.plain chars fuel (g.rules name) i [] = some y) memo

/-- With as much fuel or more, and a memo of plain answers, `run` comes to the plain
    answer, and the memo still holds only such answers. -/
theorem run_of_plain {fuel fuel' : Nat} {rule : Rule ν κ} {i : Nat} {acc : List (ParseTree κ)}
    {y : Yield κ} {memo : Memo ν κ} (hmemo : g.Remembers chars memo)
    (h : g.plain chars fuel rule i acc = some y) (hle : fuel ≤ fuel') :
    ∃ memo', g.run chars fuel' rule i acc memo = (y, memo') ∧ g.Remembers chars memo' := by
  -- on the fuel of the plain reading; what is read inside takes less of it
  induction fuel generalizing fuel' rule i acc y memo with
  | zero => cases h
  | succ fuel ih =>
    obtain ⟨fuel', rfl⟩ := Nat.exists_eq_add_one_of_ne_zero (Nat.ne_zero_of_lt hle)
    have hle := Nat.le_of_succ_le_succ hle
    cases rule with
    | empty => cases h; exact ⟨memo, rfl, hmemo⟩
    | lexeme kind scan =>
      rw [plain] at h
      rw [run]
      generalize g.gap chars i acc = gap at h ⊢
      obtain ⟨j, acc⟩ := gap
      cases h
      refine ⟨memo, ?_, hmemo⟩
      simp only
      cases scan chars j with
      | none => rfl
      | some k => rfl
    | flush kind scan =>
      cases h
      rw [run]
      cases scan chars i with
      | none => exact ⟨memo, rfl, hmemo⟩
      | some k => exact ⟨memo, rfl, hmemo⟩
    | test holds => cases h; exact ⟨memo, rfl, hmemo⟩
    | phrase name =>
      obtain ⟨answer, hbody, rfl⟩ := Option.map_eq_some_iff.1 h
      rw [run]
      cases hknown : memo[(name, i)]? with
      | some known =>
        -- what is remembered is what reading anew comes to
        obtain ⟨_, hplain⟩ := hmemo name i known hknown
        obtain rfl := plain_unique hplain hbody
        cases known with
        | none => exact ⟨memo, rfl, hmemo⟩
        | some found => exact ⟨memo, rfl, hmemo⟩
      | none =>
        obtain ⟨memo', hrun, hmemo'⟩ := ih hmemo hbody hle
        rw [hrun]
        cases answer with
        | none => exact ⟨_, rfl, hmemo'.insert ⟨_, hbody⟩⟩
        | some found => exact ⟨_, rfl, hmemo'.insert ⟨_, hbody⟩⟩
    | seq first second =>
      obtain ⟨answer, hfirst, hnext⟩ := Option.bind_eq_some_iff.1 h
      obtain ⟨memo', hrun, hmemo'⟩ := ih hmemo hfirst hle
      rw [run, hrun]
      cases answer with
      | none => cases hnext; exact ⟨memo', rfl, hmemo'⟩
      | some found => exact ih hmemo' hnext hle
    | alt first second =>
      obtain ⟨answer, hfirst, hnext⟩ := Option.bind_eq_some_iff.1 h
      obtain ⟨memo', hrun, hmemo'⟩ := ih hmemo hfirst hle
      rw [run, hrun]
      cases answer with
      | none => exact ih hmemo' hnext hle
      | some found => cases hnext; exact ⟨memo', rfl, hmemo'⟩
    | many item =>
      obtain ⟨answer, hitem, hnext⟩ := Option.bind_eq_some_iff.1 h
      obtain ⟨memo', hrun, hmemo'⟩ := ih hmemo hitem hle
      rw [run, hrun]
      cases answer with
      | none => cases hnext; exact ⟨memo', rfl, hmemo'⟩
      | some found =>
        simp only at hnext ⊢
        split at hnext
        · next hstuck => rw [if_pos hstuck]; cases hnext; exact ⟨memo', rfl, hmemo'⟩
        · next hmoved => rw [if_neg hmoved]; exact ih hmemo' hnext hle
    | absent item =>
      obtain ⟨answer, hitem, rfl⟩ := Option.map_eq_some_iff.1 h
      obtain ⟨memo', hrun, hmemo'⟩ := ih hmemo hitem hle
      rw [run, hrun]
      cases answer with
      | none => exact ⟨memo', rfl, hmemo'⟩
      | some found => exact ⟨memo', rfl, hmemo'⟩
    | node kind body =>
      rw [plain] at h
      rw [run]
      generalize g.gap chars i acc = gap at h ⊢
      obtain ⟨j, acc⟩ := gap
      obtain ⟨answer, hbody, rfl⟩ := Option.map_eq_some_iff.1 h
      obtain ⟨memo', hrun, hmemo'⟩ := ih hmemo hbody hle
      simp only [hrun]
      cases answer with
      | none => exact ⟨memo', rfl, hmemo'⟩
      | some found => exact ⟨memo', rfl, hmemo'⟩
    | grow kind part body =>
      cases acc with
      | nil => cases h; exact ⟨memo, rfl, hmemo⟩
      | cons t acc =>
        obtain ⟨answer, hbody, rfl⟩ := Option.map_eq_some_iff.1 h
        obtain ⟨memo', hrun, hmemo'⟩ := ih hmemo hbody hle
        rw [run, hrun]
        cases answer with
        | none => exact ⟨memo', rfl, hmemo'⟩
        | some found => exact ⟨memo', rfl, hmemo'⟩
    | named part body =>
      obtain ⟨answer, hbody, rfl⟩ := Option.map_eq_some_iff.1 h
      obtain ⟨memo', hrun, hmemo'⟩ := ih hmemo hbody hle
      rw [run, hrun]
      rcases answer with _ | ⟨j, _ | ⟨t, trees⟩⟩ <;> exact ⟨memo', rfl, hmemo'⟩
    | flawed flaw body =>
      obtain ⟨answer, hbody, rfl⟩ := Option.map_eq_some_iff.1 h
      obtain ⟨memo', hrun, hmemo'⟩ := ih hmemo hbody hle
      rw [run, hrun]
      rcases answer with _ | ⟨j, _ | ⟨t, trees⟩⟩ <;> exact ⟨memo', rfl, hmemo'⟩
    | only accept body =>
      obtain ⟨answer, hbody, rfl⟩ := Option.map_eq_some_iff.1 h
      obtain ⟨memo', hrun, hmemo'⟩ := ih hmemo hbody hle
      rw [run, hrun]
      rcases answer with _ | ⟨j, _ | ⟨t, trees⟩⟩ <;> exact ⟨memo', rfl, hmemo'⟩

/-- What a grammar reads, told without a memo. -/
theorem read?_of_plain {fuel : Nat} {name : ν} {j : Nat} {t : ParseTree κ}
    {trees : List (ParseTree κ)} (hfuel : fuel ≤ fuelFor chars)
    (h : g.plain chars fuel (.phrase name) 0 [] = some (some (j, t :: trees))) :
    g.read? chars name = some (t, j) := by
  obtain ⟨memo', hrun, -⟩ := run_of_plain memoHolds_empty h hfuel
  rw [read?, hrun]

end Memo

end Grammar

end WebBaseline.Syntax

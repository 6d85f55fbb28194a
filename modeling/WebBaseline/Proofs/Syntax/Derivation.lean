/-
  WebBaseline.Proofs.Syntax.Derivation

  How trees come about. A derivation says which trees a rule may yield, one step for
  each constructor of the rules and with no word on order, memory or fuel.

    * what reading comes to has a derivation, whatever the fuel, if the memo's answers
      have one, and so do then the answers it leaves (`accounts_of_run`);
    * so what a grammar reads has a derivation (`derives_of_read?`).

  Laws of what is read are proved over derivations, by induction on these.
-/

import WebBaseline.Proofs.Syntax.Memo

namespace WebBaseline.Syntax

variable {ν κ : Type}

namespace Grammar

/-! ## Derivations -/

/-- From offset `i`, with the trees `acc` read so far, the rule may come to an offset
    and to trees, latest first. -/
inductive Derives (g : Grammar ν κ) (chars : Array Char) :
    Rule ν κ → Nat → List (ParseTree κ) → Nat → List (ParseTree κ) → Prop
  | empty {i : Nat} {acc : List (ParseTree κ)} : Derives g chars .empty i acc i acc
  | lexeme {kind : κ} {scan : Scan} {i k : Nat} {acc : List (ParseTree κ)}
      (hscan : scan chars (g.gap chars i acc).1 = some k) :
      Derives g chars (.lexeme kind scan) i acc k
        (ParseTree.leaf kind (g.gap chars i acc).1 k :: (g.gap chars i acc).2)
  | flush {kind : κ} {scan : Scan} {i k : Nat} {acc : List (ParseTree κ)}
      (hscan : scan chars i = some k) :
      Derives g chars (.flush kind scan) i acc k (ParseTree.leaf kind i k :: acc)
  | test {holds : Array Char → Nat → Bool} {i : Nat} {acc : List (ParseTree κ)} :
      Derives g chars (.test holds) i acc i acc
  | phrase {name : ν} {i j : Nat} {acc trees : List (ParseTree κ)}
      (inner : Derives g chars (g.rules name) i [] j trees) :
      Derives g chars (.phrase name) i acc j (trees ++ acc)
  | seq {first second : Rule ν κ} {i j k : Nat} {acc acc' acc'' : List (ParseTree κ)}
      (left : Derives g chars first i acc j acc') (right : Derives g chars second j acc' k acc'') :
      Derives g chars (.seq first second) i acc k acc''
  | altFirst {first second : Rule ν κ} {i j : Nat} {acc acc' : List (ParseTree κ)}
      (branch : Derives g chars first i acc j acc') :
      Derives g chars (.alt first second) i acc j acc'
  | altSecond {first second : Rule ν κ} {i j : Nat} {acc acc' : List (ParseTree κ)}
      (branch : Derives g chars second i acc j acc') :
      Derives g chars (.alt first second) i acc j acc'
  | manyDone {item : Rule ν κ} {i : Nat} {acc : List (ParseTree κ)} :
      Derives g chars (.many item) i acc i acc
  | manyStep {item : Rule ν κ} {i j k : Nat} {acc acc' acc'' : List (ParseTree κ)}
      (head : Derives g chars item i acc j acc')
      (rest : Derives g chars (.many item) j acc' k acc'') :
      Derives g chars (.many item) i acc k acc''
  | absent {item : Rule ν κ} {i : Nat} {acc : List (ParseTree κ)} :
      Derives g chars (.absent item) i acc i acc
  | node {kind : κ} {body : Rule ν κ} {i j : Nat} {acc trees : List (ParseTree κ)}
      (inner : Derives g chars body (g.gap chars i acc).1 [] j trees) :
      Derives g chars (.node kind body) i acc j
        (enclose kind (g.gap chars i acc).1 trees :: (g.gap chars i acc).2)
  | grow {kind : κ} {part : Option Part} {body : Rule ν κ} {i j : Nat} {t : ParseTree κ}
      {acc trees : List (ParseTree κ)}
      (inner : Derives g chars body i [t.inPart part] j trees) :
      Derives g chars (.grow kind part body) i (t :: acc) j (enclose kind t.start trees :: acc)
  | named {part : Part} {body : Rule ν κ} {i j : Nat} {t : ParseTree κ}
      {acc trees : List (ParseTree κ)} (inner : Derives g chars body i [] j (t :: trees)) :
      Derives g chars (.named part body) i acc j (t.asPart part :: (trees ++ acc))
  | namedNone {part : Part} {body : Rule ν κ} {i j : Nat} {acc : List (ParseTree κ)}
      (inner : Derives g chars body i [] j []) : Derives g chars (.named part body) i acc j acc
  | flawed {flaw : Flaw} {body : Rule ν κ} {i j : Nat} {t : ParseTree κ}
      {acc trees : List (ParseTree κ)} (inner : Derives g chars body i [] j (t :: trees)) :
      Derives g chars (.flawed flaw body) i acc j (t.withFlaw flaw :: (trees ++ acc))
  | flawedNone {flaw : Flaw} {body : Rule ν κ} {i j : Nat} {acc : List (ParseTree κ)}
      (inner : Derives g chars body i [] j []) : Derives g chars (.flawed flaw body) i acc j acc
  | only {accept : κ → Bool} {body : Rule ν κ} {i j : Nat} {t : ParseTree κ}
      {acc trees : List (ParseTree κ)} (inner : Derives g chars body i [] j (t :: trees)) :
      Derives g chars (.only accept body) i acc j (t :: (trees ++ acc))

/-! ## What is read is derived -/

section Reading

variable [BEq ν] [Hashable ν] [LawfulBEq ν] {g : Grammar ν κ} {chars : Array Char}

/-- Whether the rule may come to what it came to, if it came to anything. -/
def Accounts (g : Grammar ν κ) (chars : Array Char) (rule : Rule ν κ) (i : Nat)
    (acc : List (ParseTree κ)) (y : Yield κ) : Prop :=
  ∀ j trees, y = some (j, trees) → g.Derives chars rule i acc j trees

omit [BEq ν] [Hashable ν] [LawfulBEq ν] in
theorem accounts_none {rule : Rule ν κ} {i : Nat} {acc : List (ParseTree κ)} :
    g.Accounts chars rule i acc none := by
  intro j trees h
  cases h

omit [BEq ν] [Hashable ν] [LawfulBEq ν] in
theorem Derives.accounts {rule : Rule ν κ} {i j : Nat} {acc trees : List (ParseTree κ)}
    (h : g.Derives chars rule i acc j trees) : g.Accounts chars rule i acc (some (j, trees)) := by
  intro j' trees' heq
  cases heq
  exact h

/-- Whether every answer of a memo is accounted for. -/
def MemoAccounts (g : Grammar ν κ) (chars : Array Char) (memo : Memo ν κ) : Prop :=
  MemoHolds (fun name i y => g.Accounts chars (g.rules name) i [] y) memo

/-- What `run` comes to is accounted for, and so is the memo it leaves. -/
theorem accounts_of_run {fuel : Nat} {rule : Rule ν κ} {i : Nat} {acc : List (ParseTree κ)}
    {memo memo' : Memo ν κ} {y : Yield κ} (hmemo : g.MemoAccounts chars memo)
    (h : g.run chars fuel rule i acc memo = (y, memo')) :
    g.Accounts chars rule i acc y ∧ g.MemoAccounts chars memo' := by
  -- on the fuel; each reading inside has one less, and hands its memo to the next
  induction fuel generalizing rule i acc memo memo' y with
  | zero => cases h; exact ⟨accounts_none, hmemo⟩
  | succ fuel ih =>
    cases rule with
    | empty => cases h; exact ⟨Derives.empty.accounts, hmemo⟩
    | lexeme kind scan =>
      rw [run] at h
      cases hscan : scan chars (g.gap chars i acc).1 with
      | none => simp only [hscan] at h; cases h; exact ⟨accounts_none, hmemo⟩
      | some k =>
        simp only [hscan] at h
        cases h
        exact ⟨(Derives.lexeme hscan).accounts, hmemo⟩
    | flush kind scan =>
      rw [run] at h
      cases hscan : scan chars i with
      | none => rw [hscan] at h; cases h; exact ⟨accounts_none, hmemo⟩
      | some k =>
        rw [hscan] at h
        cases h
        exact ⟨(Derives.flush hscan).accounts, hmemo⟩
    | test holds =>
      rw [run] at h
      split at h
      · cases h; exact ⟨Derives.test.accounts, hmemo⟩
      · cases h; exact ⟨accounts_none, hmemo⟩
    | phrase name =>
      rw [run] at h
      cases hknown : memo[(name, i)]? with
      | some known =>
        -- not read again: the memo accounts for the answer
        rw [hknown] at h
        have hbody := hmemo name i known hknown
        cases known with
        | none => cases h; exact ⟨accounts_none, hmemo⟩
        | some found => cases h; exact ⟨(Derives.phrase (hbody _ _ rfl)).accounts, hmemo⟩
      | none =>
        cases hrun : g.run chars fuel (g.rules name) i [] memo with
        | mk answer memo₁ =>
          rw [hknown, hrun] at h
          obtain ⟨hbody, hmemo₁⟩ := ih hmemo hrun
          cases answer with
          | none => cases h; exact ⟨accounts_none, hmemo₁.insert hbody⟩
          | some found =>
            cases h
            exact ⟨(Derives.phrase (hbody _ _ rfl)).accounts, hmemo₁.insert hbody⟩
    | seq first second =>
      rw [run] at h
      cases hrun : g.run chars fuel first i acc memo with
      | mk answer memo₁ =>
        rw [hrun] at h
        obtain ⟨hfirst, hmemo₁⟩ := ih hmemo hrun
        cases answer with
        | none => cases h; exact ⟨accounts_none, hmemo₁⟩
        | some found =>
          obtain ⟨hsecond, hmemo'⟩ := ih hmemo₁ h
          exact ⟨fun _ _ hy => .seq (hfirst _ _ rfl) (hsecond _ _ hy), hmemo'⟩
    | alt first second =>
      rw [run] at h
      cases hrun : g.run chars fuel first i acc memo with
      | mk answer memo₁ =>
        rw [hrun] at h
        obtain ⟨hfirst, hmemo₁⟩ := ih hmemo hrun
        cases answer with
        | none =>
          obtain ⟨hsecond, hmemo'⟩ := ih hmemo₁ h
          exact ⟨fun _ _ hy => .altSecond (hsecond _ _ hy), hmemo'⟩
        | some found => cases h; exact ⟨(Derives.altFirst (hfirst _ _ rfl)).accounts, hmemo₁⟩
    | many item =>
      rw [run] at h
      cases hrun : g.run chars fuel item i acc memo with
      | mk answer memo₁ =>
        rw [hrun] at h
        obtain ⟨hitem, hmemo₁⟩ := ih hmemo hrun
        cases answer with
        | none => cases h; exact ⟨Derives.manyDone.accounts, hmemo₁⟩
        | some found =>
          simp only at h
          split at h
          · cases h; exact ⟨Derives.manyDone.accounts, hmemo₁⟩
          · obtain ⟨hrest, hmemo'⟩ := ih hmemo₁ h
            exact ⟨fun _ _ hy => .manyStep (hitem _ _ rfl) (hrest _ _ hy), hmemo'⟩
    | absent item =>
      rw [run] at h
      cases hrun : g.run chars fuel item i [] memo with
      | mk answer memo₁ =>
        rw [hrun] at h
        obtain ⟨-, hmemo₁⟩ := ih hmemo hrun
        cases answer with
        | none => cases h; exact ⟨Derives.absent.accounts, hmemo₁⟩
        | some found => cases h; exact ⟨accounts_none, hmemo₁⟩
    | node kind body =>
      rw [run] at h
      cases hrun : g.run chars fuel body (g.gap chars i acc).1 [] memo with
      | mk answer memo₁ =>
        simp only [hrun] at h
        obtain ⟨hbody, hmemo₁⟩ := ih hmemo hrun
        cases answer with
        | none => cases h; exact ⟨accounts_none, hmemo₁⟩
        | some found => cases h; exact ⟨(Derives.node (hbody _ _ rfl)).accounts, hmemo₁⟩
    | grow kind part body =>
      cases acc with
      | nil => cases h; exact ⟨accounts_none, hmemo⟩
      | cons t acc =>
        rw [run] at h
        cases hrun : g.run chars fuel body i [t.inPart part] memo with
        | mk answer memo₁ =>
          rw [hrun] at h
          obtain ⟨hbody, hmemo₁⟩ := ih hmemo hrun
          cases answer with
          | none => cases h; exact ⟨accounts_none, hmemo₁⟩
          | some found => cases h; exact ⟨(Derives.grow (hbody _ _ rfl)).accounts, hmemo₁⟩
    | named part body =>
      rw [run] at h
      cases hrun : g.run chars fuel body i [] memo with
      | mk answer memo₁ =>
        rw [hrun] at h
        obtain ⟨hbody, hmemo₁⟩ := ih hmemo hrun
        rcases answer with _ | ⟨j, _ | ⟨t, trees⟩⟩
        · cases h; exact ⟨accounts_none, hmemo₁⟩
        · cases h; exact ⟨(Derives.namedNone (hbody _ _ rfl)).accounts, hmemo₁⟩
        · cases h; exact ⟨(Derives.named (hbody _ _ rfl)).accounts, hmemo₁⟩
    | flawed flaw body =>
      rw [run] at h
      cases hrun : g.run chars fuel body i [] memo with
      | mk answer memo₁ =>
        rw [hrun] at h
        obtain ⟨hbody, hmemo₁⟩ := ih hmemo hrun
        rcases answer with _ | ⟨j, _ | ⟨t, trees⟩⟩
        · cases h; exact ⟨accounts_none, hmemo₁⟩
        · cases h; exact ⟨(Derives.flawedNone (hbody _ _ rfl)).accounts, hmemo₁⟩
        · cases h; exact ⟨(Derives.flawed (hbody _ _ rfl)).accounts, hmemo₁⟩
    | only accept body =>
      rw [run] at h
      cases hrun : g.run chars fuel body i [] memo with
      | mk answer memo₁ =>
        rw [hrun] at h
        obtain ⟨hbody, hmemo₁⟩ := ih hmemo hrun
        rcases answer with _ | ⟨j, _ | ⟨t, trees⟩⟩
        · cases h; exact ⟨accounts_none, hmemo₁⟩
        · cases h; exact ⟨accounts_none, hmemo₁⟩
        · simp only at h
          split at h
          · cases h; exact ⟨(Derives.only (hbody _ _ rfl)).accounts, hmemo₁⟩
          · cases h; exact ⟨accounts_none, hmemo₁⟩

/-- What a grammar reads has a derivation. -/
theorem derives_of_read? {name : ν} {t : ParseTree κ} {j : Nat}
    (h : g.read? chars name = some (t, j)) :
    ∃ trees, g.Derives chars (.phrase name) 0 [] j (t :: trees) := by
  rw [read?] at h
  cases hrun : g.run chars (fuelFor chars) (.phrase name) 0 [] ∅ with
  | mk answer memo =>
    obtain ⟨haccounts, -⟩ := accounts_of_run memoHolds_empty hrun
    rw [hrun] at h
    rcases answer with _ | ⟨k, _ | ⟨u, trees⟩⟩
    · cases h
    · cases h
    · cases h
      exact ⟨trees, haccounts _ _ rfl⟩

end Reading

end Grammar

end WebBaseline.Syntax

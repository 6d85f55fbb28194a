/-
  WebBaseline.Proofs.Text.EditDistance

  The distance of two texts is the least number of single edits that turn one
  into the other.

    * an `Edit` puts one character in, leaves one out or changes one; `Edits n`
      are `n` of them, one after the other;
    * one edit adds at most one to the distance from any text (`distance_edit_le`),
      so no fewer edits than the distance will do (`distance_le_of_edits`);
    * as many edits as the distance do (`edits_distance`).
-/

import WebBaseline.Text.EditDistance

namespace WebBaseline.Text

/-! ## Edits -/

/-- One character put in, left out, or changed for another. -/
inductive Edit : List Char → List Char → Prop
  | insert (front : List Char) (c : Char) (back : List Char) :
      Edit (front ++ back) (front ++ c :: back)
  | delete (front : List Char) (c : Char) (back : List Char) :
      Edit (front ++ c :: back) (front ++ back)
  | replace (front : List Char) (c d : Char) (back : List Char) :
      Edit (front ++ c :: back) (front ++ d :: back)

/-- So many edits, one after the other. -/
inductive Edits : Nat → List Char → List Char → Prop
  | none (as : List Char) : Edits 0 as as
  | more {n : Nat} {as bs cs : List Char} (edits : Edits n as bs) (edit : Edit bs cs) :
      Edits (n + 1) as cs

variable {m n : Nat} {as bs cs : List Char}

theorem Edits.trans (h : Edits m as bs) (h' : Edits n bs cs) : Edits (m + n) as cs := by
  induction h' with
  | none => exact h
  | more _ edit ih => exact (ih h).more edit

theorem Edit.cons (c : Char) (h : Edit as bs) : Edit (c :: as) (c :: bs) := by
  cases h with
  | insert front d back => exact .insert (c :: front) d back
  | delete front d back => exact .delete (c :: front) d back
  | replace front d e back => exact .replace (c :: front) d e back

theorem Edits.cons (c : Char) (h : Edits n as bs) : Edits n (c :: as) (c :: bs) := by
  induction h with
  | none as => exact .none (c :: as)
  | more _ edit ih => exact ih.more (edit.cons c)

theorem Edits.afterDelete (a : Char) (h : Edits n as bs) : Edits (n + 1) (a :: as) bs := by
  have hfirst : Edits 1 (a :: as) as := (Edits.none (a :: as)).more (.delete [] a as)
  have hall := hfirst.trans h
  rwa [Nat.add_comm] at hall

/-! ## What one edit does to a distance -/

theorem distance_nil_left (bs : List Char) : distance [] bs = bs.length := by
  rw [distance]

theorem distance_nil_right (as : List Char) : distance as [] = as.length := by
  cases as with
  | nil => rw [distance]
  | cons a as => rw [distance]

theorem distance_cons_cons (a : Char) (as : List Char) (b : Char) (bs : List Char) :
    distance (a :: as) (b :: bs) =
      min (min (distance as (b :: bs) + 1) (distance (a :: as) bs + 1))
        (distance as bs + if a = b then 0 else 1) := by
  rw [distance]

theorem distance_self (as : List Char) : distance as as = 0 := by
  induction as with
  | nil => exact distance_nil_left []
  | cons a as ih =>
    rw [distance_cons_cons, ih, if_pos rfl]
    omega

theorem distance_cons_left_le (a : Char) (as bs : List Char) :
    distance (a :: as) bs ≤ distance as bs + 1 := by
  cases bs with
  | nil =>
    exact Nat.le_of_eq (by rw [distance_nil_right, distance_nil_right, List.length_cons])
  | cons b bs =>
    rw [distance_cons_cons]
    omega

theorem distance_cons_right_le (as : List Char) (b : Char) (bs : List Char) :
    distance as (b :: bs) ≤ distance as bs + 1 := by
  cases as with
  | nil =>
    exact Nat.le_of_eq (by rw [distance_nil_left, distance_nil_left, List.length_cons])
  | cons a as =>
    rw [distance_cons_cons]
    omega

theorem distance_le_cons_right (as : List Char) (b : Char) (bs : List Char) :
    distance as bs ≤ distance as (b :: bs) + 1 := by
  induction as with
  | nil =>
    rw [distance_nil_left, distance_nil_left, List.length_cons]
    omega
  | cons a as ih =>
    -- leaving `a` out on the left costs as much as it can save
    have hleft := distance_cons_left_le a as bs
    rw [distance_cons_cons]
    omega

theorem distance_replace_le (as : List Char) (c d : Char) (bs : List Char) :
    distance as (d :: bs) ≤ distance as (c :: bs) + 1 := by
  induction as with
  | nil =>
    rw [distance_nil_left, distance_nil_left, List.length_cons, List.length_cons]
    omega
  | cons a as ih =>
    have hd : (if a = d then 0 else 1) ≤ 1 := by split <;> omega
    rw [distance_cons_cons, distance_cons_cons]
    omega

/-- What an edit does behind a character it does as well in front of all. -/
theorem distance_cons_le_of_forall (h : ∀ as, distance as cs ≤ distance as bs + 1) (f : Char)
    (as : List Char) : distance as (f :: cs) ≤ distance as (f :: bs) + 1 := by
  induction as with
  | nil =>
    have hnil := h []
    rw [distance_nil_left, distance_nil_left] at hnil ⊢
    rw [List.length_cons, List.length_cons]
    omega
  | cons a as ih =>
    have htail := h as
    have hwhole := h (a :: as)
    rw [distance_cons_cons, distance_cons_cons]
    omega

theorem distance_edit_le (h : Edit bs cs) (as : List Char) :
    distance as cs ≤ distance as bs + 1 := by
  -- each kind of edit reduces to one at the front of the text
  have hbehind : ∀ {xs ys : List Char} (front : List Char),
      (∀ as, distance as ys ≤ distance as xs + 1) →
      ∀ as, distance as (front ++ ys) ≤ distance as (front ++ xs) + 1 := by
    intro xs ys front hfront
    induction front with
    | nil => exact hfront
    | cons f front ih => exact distance_cons_le_of_forall ih f
  cases h with
  | insert front c back =>
    exact hbehind front (fun as => distance_cons_right_le as c back) as
  | delete front c back =>
    exact hbehind front (fun as => distance_le_cons_right as c back) as
  | replace front c d back =>
    exact hbehind front (fun as => distance_replace_le as c d back) as

/-! ## The least number of edits -/

theorem distance_le_of_edits (h : Edits n as bs) : distance as bs ≤ n := by
  induction h with
  | none as => exact Nat.le_of_eq (distance_self as)
  | more _ edit ih => exact Nat.le_trans (distance_edit_le edit _) (Nat.succ_le_succ ih)

/-- As many edits as the distance turn one text into the other. -/
theorem edits_distance (as bs : List Char) : Edits (distance as bs) as bs := by
  -- the cases are those of the recursion, and of which of three ways is the cheapest
  induction as, bs using distance.induct with
  | case1 bs =>
    rw [distance_nil_left]
    induction bs with
    | nil => exact .none []
    | cons b bs ih => exact ih.more (.insert [] b bs)
  | case2 a as =>
    rw [distance_nil_right]
    induction a :: as with
    | nil => exact .none []
    | cons a as ih => exact ih.afterDelete a
  | case3 a as b bs ihdelete ihinsert ihreplace =>
    have hdelete : Edits (distance as (b :: bs) + 1) (a :: as) (b :: bs) := ihdelete.afterDelete a
    have hinsert : Edits (distance (a :: as) bs + 1) (a :: as) (b :: bs) :=
      ihinsert.more (.insert [] b bs)
    have hreplace : Edits (distance as bs + if a = b then 0 else 1) (a :: as) (b :: bs) := by
      by_cases hab : a = b
      · subst hab
        rw [if_pos rfl]
        exact ihreplace.cons a
      · rw [if_neg hab]
        exact (ihreplace.cons a).more (.replace [] a b bs)
    rw [distance_cons_cons]
    rcases Nat.le_total (min (distance as (b :: bs) + 1) (distance (a :: as) bs + 1))
      (distance as bs + if a = b then 0 else 1) with hle | hle
    · rw [Nat.min_eq_left hle]
      rcases Nat.le_total (distance as (b :: bs) + 1) (distance (a :: as) bs + 1) with hle' | hle'
      · rwa [Nat.min_eq_left hle']
      · rwa [Nat.min_eq_right hle']
    · rwa [Nat.min_eq_right hle]

/-- Texts are within a distance exactly if so many edits, or fewer, lead from one
    to the other. -/
theorem distance_le_iff : distance as bs ≤ n ↔ ∃ k ≤ n, Edits k as bs := by
  constructor
  · intro h
    exact ⟨distance as bs, h, edits_distance as bs⟩
  · rintro ⟨k, hk, hedits⟩
    exact Nat.le_trans (distance_le_of_edits hedits) hk

end WebBaseline.Text

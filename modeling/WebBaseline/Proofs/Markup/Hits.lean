/-
  WebBaseline.Proofs.Markup.Hits

  The hits of a pattern in a line. `Finds` says what a search from left to right
  finds: it passes over a character where the pattern does not hit, and goes on
  behind the hit where it does.

    * the search by characters that are left to pass is such a search
      (`finds_hitsFrom`, `finds_hits`);
    * each hit is what the pattern reads at its place, and its column counts the
      bytes before it (`Finds.placed`);
    * each hit ends before the next one starts (`Finds.pairwise`), so nothing is
      found inside a hit (`Finds.not_inside`);
    * both patterns hit a beginning of the text that is not empty, a whole word and
      what follows it (`openingTag_reads`, `assignment_reads`).
-/

import Mathlib.Data.List.TakeWhile
import WebBaseline.Markup.Pattern
import WebBaseline.Proofs.Data.Lists

namespace WebBaseline.Markup

open WebBaseline.Data (through? through?_eq through?_isPrefix)

/-! ## Bytes -/

/-- How many bytes characters take in UTF-8. -/
def byteCount (cs : List Char) : Nat := (String.ofList cs).utf8ByteSize

@[simp] theorem byteCount_nil : byteCount [] = 0 := rfl

@[simp] theorem byteCount_cons (c : Char) (cs : List Char) :
    byteCount (c :: cs) = c.utf8Size + byteCount cs := by
  rw [byteCount, String.ofList_cons, String.utf8ByteSize_append, String.utf8ByteSize_singleton]
  rfl

@[simp] theorem byteCount_append (as bs : List Char) :
    byteCount (as ++ bs) = byteCount as + byteCount bs := by
  rw [byteCount, String.ofList_append, String.utf8ByteSize_append]
  rfl

theorem byteCount_pos {cs : List Char} (h : cs ≠ []) : 0 < byteCount cs := by
  cases cs with
  | nil => exact absurd rfl h
  | cons c cs =>
    have hc : 0 < c.utf8Size := c.utf8Size_pos
    rw [byteCount_cons]
    omega

/-- The number of bytes before a place in a text tells the place. -/
theorem eq_of_byteCount_eq {as bs cs ds : List Char} (h : as ++ bs = cs ++ ds)
    (hbytes : byteCount as = byteCount cs) : as = cs := by
  -- one of them begins the other, and what the longer one has more takes no bytes
  have hnothing : ∀ es, byteCount es = 0 → es = [] := by
    intro es hes
    cases es with
    | nil => rfl
    | cons c es =>
      have hpos : 0 < byteCount (c :: es) := byteCount_pos (List.cons_ne_nil c es)
      omega
  obtain ⟨es, rfl, -⟩ | ⟨es, rfl, -⟩ := List.append_eq_append_iff.1 h
  · rw [byteCount_append] at hbytes
    rw [hnothing es (by omega), List.append_nil]
  · rw [byteCount_append] at hbytes
    rw [hnothing es (by omega), List.append_nil]

/-! ## Searches -/

/-- A pattern hits only a beginning of a text, and not an empty one. -/
def Pattern.IsAnchored (p : Pattern) : Prop :=
  ∀ cs hit, p cs = some hit → hit.whole ≠ [] ∧ hit.whole <+: cs

/-- The search for a pattern in a text, whose first character stands in the given
    byte column, finds these hits. -/
inductive Finds (p : Pattern) : Nat → List Char → List (Nat × Hit) → Prop
  | done (column : Nat) : Finds p column [] []
  | pass {column : Nat} {c : Char} {cs : List Char} {found : List (Nat × Hit)}
      (hmiss : p (c :: cs) = none) (rest : Finds p (column + c.utf8Size) cs found) :
      Finds p column (c :: cs) found
  | take {column : Nat} {text cs : List Char} {hit : Hit} {found : List (Nat × Hit)}
      (hhit : p text = some hit) (htext : text = hit.whole ++ cs)
      (rest : Finds p (column + byteCount hit.whole) cs found) :
      Finds p column text ((column, hit) :: found)

variable {p : Pattern}

/-- Characters that belong to the hit before are passed over. -/
theorem hitsFrom_passing (p : Pattern) (column : Nat) (front cs : List Char) :
    hitsFrom p front.length column (front ++ cs) =
      hitsFrom p 0 (column + byteCount front) cs := by
  induction front generalizing column with
  | nil => rfl
  | cons c front ih =>
    have hstep : hitsFrom p (front.length + 1) column (c :: (front ++ cs)) =
        hitsFrom p front.length (column + c.utf8Size) (front ++ cs) := rfl
    rw [List.length_cons, List.cons_append, hstep, ih, byteCount_cons, Nat.add_assoc]

theorem hitsFrom_of_none {column : Nat} {c : Char} {cs : List Char} (h : p (c :: cs) = none) :
    hitsFrom p 0 column (c :: cs) = hitsFrom p 0 (column + c.utf8Size) cs := by
  rw [hitsFrom, h]

theorem hitsFrom_of_some {column : Nat} {text cs : List Char} {hit : Hit} (h : p text = some hit)
    (hne : hit.whole ≠ []) (htext : text = hit.whole ++ cs) :
    hitsFrom p 0 column text =
      (column, hit) :: hitsFrom p 0 (column + byteCount hit.whole) cs := by
  obtain ⟨c, front, hwhole⟩ := List.exists_cons_of_ne_nil hne
  rw [hwhole, List.cons_append] at htext
  subst htext
  have hlength : hit.whole.length - 1 = front.length := by rw [hwhole]; rfl
  rw [hitsFrom, h]
  show (column, hit) :: hitsFrom p (hit.whole.length - 1) (column + c.utf8Size) (front ++ cs) = _
  rw [hlength, hitsFrom_passing, hwhole, byteCount_cons, Nat.add_assoc]

theorem finds_hitsFrom (hp : p.IsAnchored) (column : Nat) (cs : List Char) :
    Finds p column cs (hitsFrom p 0 column cs) := by
  -- on the length of what is left, as a hit takes several characters at once
  induction hlength : cs.length using Nat.strongRecOn generalizing column cs with
  | ind n ih =>
    subst hlength
    cases cs with
    | nil => exact .done column
    | cons c cs =>
      cases hhit : p (c :: cs) with
      | none =>
        rw [hitsFrom_of_none hhit]
        exact .pass hhit (ih cs.length (Nat.lt_succ_self _) _ cs rfl)
      | some hit =>
        obtain ⟨hne, rest, hrest⟩ := hp _ _ hhit
        rw [hitsFrom_of_some hhit hne hrest.symm]
        have hshort : rest.length < (c :: cs).length := by
          have hpos : 0 < hit.whole.length := List.length_pos_iff.2 hne
          rw [← hrest, List.length_append]
          omega
        exact .take hhit hrest.symm (ih rest.length hshort _ rest rfl)

/-- The hits in a line are found by a search from its first column. -/
theorem finds_hits (hp : p.IsAnchored) (line : List Char) : Finds p 1 line (hits p line) :=
  finds_hitsFrom hp 1 line

namespace Finds

variable {column : Nat} {cs : List Char} {found : List (Nat × Hit)} {h : Nat × Hit}

/-- A hit is what the pattern reads where it stands, and its column counts the bytes
    in front of it. -/
theorem placed (hfinds : Finds p column cs found) (hmem : h ∈ found) :
    ∃ before behind, cs = before ++ h.2.whole ++ behind ∧ h.1 = column + byteCount before ∧
      p (h.2.whole ++ behind) = some h.2 := by
  induction hfinds with
  | done => cases hmem
  | @pass column c cs found hmiss rest ih =>
    obtain ⟨before, behind, rfl, hcolumn, hread⟩ := ih hmem
    refine ⟨c :: before, behind, rfl, ?_, hread⟩
    rw [hcolumn, byteCount_cons, Nat.add_assoc]
  | @take column text cs hit found hhit htext rest ih =>
    rcases List.mem_cons.1 hmem with rfl | hmem
    · exact ⟨[], cs, htext, rfl, htext ▸ hhit⟩
    · obtain ⟨before, behind, rfl, hcolumn, hread⟩ := ih hmem
      refine ⟨hit.whole ++ before, behind, ?_, ?_, hread⟩
      · rw [htext]
        simp only [List.append_assoc]
      · rw [hcolumn, byteCount_append, Nat.add_assoc]

theorem le_column (hfinds : Finds p column cs found) (hmem : h ∈ found) : column ≤ h.1 := by
  obtain ⟨before, behind, -, hcolumn, -⟩ := hfinds.placed hmem
  omega

/-- Each hit ends before the next one starts. -/
theorem pairwise (hfinds : Finds p column cs found) :
    found.Pairwise (fun a b => a.1 + byteCount a.2.whole ≤ b.1) := by
  induction hfinds with
  | done => exact .nil
  | pass hmiss rest ih => exact ih
  | take hhit htext rest ih => exact .cons (fun b hb => rest.le_column hb) ih

/-- Nothing is found inside a hit. -/
theorem not_inside (hfinds : Finds p column cs found) (hp : p.IsAnchored) (hmem : h ∈ found)
    {k : Nat × Hit} (hk : k ∈ found) : ¬ (h.1 < k.1 ∧ k.1 < h.1 + byteCount h.2.whole) := by
  intro hinside
  have hlong : ∀ x ∈ found, 0 < byteCount x.2.whole := by
    intro x hx
    obtain ⟨before, behind, -, -, hread⟩ := hfinds.placed hx
    exact byteCount_pos (hp _ _ hread).1
  obtain ⟨i, hi, rfl⟩ := List.getElem_of_mem hmem
  obtain ⟨j, hj, rfl⟩ := List.getElem_of_mem hk
  have horder := List.pairwise_iff_getElem.1 hfinds.pairwise
  -- the other hit comes later and starts behind this one, or earlier and ends before it
  rcases Nat.lt_trichotomy i j with hlt | heq | hgt
  · have := horder i j hi hj hlt
    omega
  · subst heq
    omega
  · have := horder j i hj hi hgt
    have := hlong _ hk
    omega

end Finds

/-! ## What the patterns read -/

/-- A pattern reads a mark, then a name, which is the whole run of characters of a class
    that stands there, and then what belongs to the name. -/
def Pattern.Reads (p : Pattern) (mark : List Char) (isPart : Char → Bool) : Prop :=
  ∀ cs hit, p cs = some hit → ∃ rest behind, hit.whole = mark ++ hit.name ++ rest ∧
    cs = hit.whole ++ behind ∧ hit.name ≠ [] ∧
    (hit.name ++ rest ++ behind).takeWhile isPart = hit.name

theorem Pattern.Reads.isAnchored {mark : List Char} {isPart : Char → Bool}
    (hp : p.Reads mark isPart) : p.IsAnchored := by
  intro cs hit hhit
  obtain ⟨rest, behind, hwhole, hcs, hname, -⟩ := hp cs hit hhit
  refine ⟨?_, behind, hcs.symm⟩
  intro hnil
  rw [hwhole] at hnil
  exact hname (List.append_eq_nil_iff.1 (List.append_eq_nil_iff.1 hnil).1).2

theorem drop_takeWhile (q : Char → Bool) (cs : List Char) :
    cs.drop (cs.takeWhile q).length = cs.dropWhile q := by
  have hsplit : (cs.takeWhile q ++ cs.dropWhile q).drop (cs.takeWhile q).length = cs.dropWhile q :=
    List.drop_left
  rwa [List.takeWhile_append_dropWhile] at hsplit

/-! ## Opening tags -/

/-- What ends a tag, if not the bracket at once, is a blank and all up to the bracket. -/
theorem tagEnd?_eq {c : Char} (hc : c ≠ '>') (cs : List Char) :
    tagEnd? (c :: cs) =
      if Text.isBlank c then (through? (· == '>') cs).map (c :: ·) else none := by
  have htest : (fun d : Char => decide (d ≠ '>')) = fun d => !(d == '>') := by
    funext d
    simp only [ne_eq, decide_not, beq_eq_decide]
  rw [tagEnd?.eq_def, through?_eq]
  split
  · rename_i h; cases h
  · rename_i h
    exact absurd (List.cons.inj h).1 hc
  · rename_i h
    cases h
    rw [htest]
    -- what the run of other characters ends before can only be the bracket
    have hhead := List.head?_dropWhile_not (fun d => !(d == '>')) cs
    cases hdrop : cs.dropWhile (fun d => !(d == '>')) with
    | nil => rfl
    | cons d rest =>
      rw [hdrop, List.head?_cons] at hhead
      obtain rfl : d = '>' := by simpa using hhead
      rfl

theorem tagEnd?_isPrefix {cs rest : List Char} (h : tagEnd? cs = some rest) : rest <+: cs := by
  cases cs with
  | nil => cases h
  | cons c cs =>
    by_cases hc : c = '>'
    · subst hc
      cases h
      exact List.cons_prefix_cons.2 ⟨rfl, List.nil_prefix⟩
    · rw [tagEnd?_eq hc] at h
      split at h
      · obtain ⟨front, hfront, rfl⟩ := Option.map_eq_some_iff.1 h
        exact List.cons_prefix_cons.2 ⟨rfl, through?_isPrefix hfront⟩
      · cases h

theorem openingTag_eq (cs : List Char) :
    openingTag ('<' :: cs) =
      if cs.takeWhile Text.isWordChar = [] then none
      else (tagEnd? (cs.dropWhile Text.isWordChar)).map (fun rest =>
        ⟨cs.takeWhile Text.isWordChar, '<' :: (cs.takeWhile Text.isWordChar ++ rest)⟩) := by
  have hdrop := drop_takeWhile Text.isWordChar cs
  rw [openingTag]
  cases hname : cs.takeWhile Text.isWordChar with
  | nil => rfl
  | cons c name =>
    rw [hname] at hdrop
    rw [if_neg (List.cons_ne_nil c name), ← hdrop]

theorem openingTag_of_ne {c : Char} {cs : List Char} (hc : c ≠ '<') :
    openingTag (c :: cs) = none := by
  rw [openingTag.eq_2]
  intro cs' h
  exact hc (List.cons.inj h).1

theorem openingTag_reads : openingTag.Reads ['<'] Text.isWordChar := by
  intro cs hit hhit
  cases cs with
  | nil => cases hhit
  | cons c cs =>
    by_cases hc : c = '<'
    · subst hc
      rw [openingTag_eq] at hhit
      split at hhit
      · cases hhit
      · rename_i hname
        obtain ⟨rest, hrest, rfl⟩ := Option.map_eq_some_iff.1 hhit
        obtain ⟨behind, hbehind⟩ := tagEnd?_isPrefix hrest
        -- the word, the rest of the tag and what is behind make up all after the bracket
        have hcs : cs.takeWhile Text.isWordChar ++ rest ++ behind = cs := by
          rw [List.append_assoc, hbehind, List.takeWhile_append_dropWhile]
        refine ⟨rest, behind, rfl, ?_, hname, ?_⟩
        · rw [List.cons_append, hcs]
        · rw [hcs]
    · rw [openingTag_of_ne hc] at hhit
      cases hhit

/-! ## Attributes -/

/-- A quoted value is a quote and all up to the next one. -/
theorem quotedValue?_eq (c : Char) (cs : List Char) :
    quotedValue? (c :: cs) =
      if isQuote c then (through? isQuote cs).map (c :: ·) else none := by
  simp only [quotedValue?, through?_eq, ← drop_takeWhile]
  cases cs.drop (cs.takeWhile (fun d => !isQuote d)).length with
  | nil => rfl
  | cons close rest => rfl

theorem quotedValue?_isPrefix {cs value : List Char} (h : quotedValue? cs = some value) :
    value <+: cs := by
  cases cs with
  | nil => cases h
  | cons c cs =>
    rw [quotedValue?_eq] at h
    split at h
    · obtain ⟨inside, hinside, rfl⟩ := Option.map_eq_some_iff.1 h
      exact List.cons_prefix_cons.2 ⟨rfl, through?_isPrefix hinside⟩
    · cases h

theorem plainValue?_isPrefix {cs value : List Char} (h : plainValue? cs = some value) :
    value <+: cs := by
  rw [plainValue?] at h
  split at h
  · cases h
  · cases h
    exact List.takeWhile_prefix _

theorem assigned_of_ne {c : Char} {cs : List Char} (hc : c ≠ '=') : assigned (c :: cs) = [] := by
  rw [assigned.eq_2]
  intro cs' h
  exact hc (List.cons.inj h).1

theorem assigned_isPrefix (cs : List Char) : assigned cs <+: cs := by
  rw [assigned.eq_def]
  split
  · split
    · rename_i value hvalue
      refine List.cons_prefix_cons.2 ⟨rfl, ?_⟩
      rcases Option.or_eq_some_iff.1 hvalue with hquoted | ⟨-, hplain⟩
      · exact quotedValue?_isPrefix hquoted
      · exact plainValue?_isPrefix hplain
    · exact List.nil_prefix
  · exact List.nil_prefix

theorem assignment_eq (cs : List Char) :
    assignment cs =
      if cs.takeWhile isNameChar = [] then none
      else some ⟨cs.takeWhile isNameChar,
        cs.takeWhile isNameChar ++ assigned (cs.dropWhile isNameChar)⟩ := by
  have hdrop := drop_takeWhile isNameChar cs
  rw [assignment]
  cases hname : cs.takeWhile isNameChar with
  | nil => rfl
  | cons c name =>
    rw [hname] at hdrop
    rw [if_neg (List.cons_ne_nil c name), ← hdrop]

theorem assignment_reads : assignment.Reads [] isNameChar := by
  intro cs hit hhit
  rw [assignment_eq] at hhit
  split at hhit
  · cases hhit
  · rename_i hname
    cases hhit
    obtain ⟨behind, hbehind⟩ := assigned_isPrefix (cs.dropWhile isNameChar)
    have hcs : cs.takeWhile isNameChar ++ assigned (cs.dropWhile isNameChar) ++ behind = cs := by
      rw [List.append_assoc, hbehind, List.takeWhile_append_dropWhile]
    refine ⟨_, behind, rfl, hcs.symm, hname, ?_⟩
    rw [hcs]

end WebBaseline.Markup

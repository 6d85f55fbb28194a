/-
  WebBaseline.Proofs.Files.Parent

  The directory that a path lies in.

    * `parent?_of_pieces` takes a path apart: its parent is made of the pieces
      before the last one, without what is idle at their end;
    * where a path leads to something other than a directory, its parent is there
      (`has_parent`).
-/

import WebBaseline.Proofs.Files.Below
import WebBaseline.Proofs.Files.Entry

namespace WebBaseline.Files

namespace Path

/-! ## Pieces put together -/

theorem no_slash_of_mem_pieces {cs p : List Char} (h : p ∈ pieces cs) : '/' ∉ p := by
  induction cs generalizing p with
  | nil =>
    obtain rfl := List.mem_singleton.1 h
    exact List.not_mem_nil
  | cons c cs ih =>
    by_cases hc : c = '/'
    · rw [hc, pieces_cons_slash] at h
      rcases List.mem_cons.1 h with rfl | h
      · exact List.not_mem_nil
      · exact ih h
    · rw [pieces_cons_of_ne hc] at h
      cases hps : pieces cs with
      | nil => exact absurd hps (pieces_ne_nil cs)
      | cons q qs =>
        rw [hps] at h ih
        rcases List.mem_cons.1 h with rfl | h
        · exact List.not_mem_cons_of_ne_of_not_mem (Ne.symm hc) (ih List.mem_cons_self)
        · exact ih (List.mem_cons_of_mem q h)

/-- Pieces put together are taken apart again. -/
theorem pieces_joinPieces {ps : List (List Char)} (hne : ps ≠ []) (h : ∀ p ∈ ps, '/' ∉ p) :
    pieces (joinPieces ps) = ps := by
  induction ps with
  | nil => exact absurd rfl hne
  | cons p ps ih =>
    obtain ⟨hp, hps⟩ := List.forall_mem_cons.1 h
    cases ps with
    | nil => exact pieces_of_no_slash hp
    | cons q qs =>
      have hmore : q :: qs ≠ [] := List.cons_ne_nil q qs
      rw [joinPieces_cons p hmore, pieces_append_slash, pieces_of_no_slash hp, ih hmore hps]
      rfl

/-! ## Idle pieces -/

/-- What is trimmed is idle. -/
theorem exists_idle_trimIdle (ps : List (List Char)) :
    ∃ idle, ps = trimIdle ps ++ idle ∧ ∀ p ∈ idle, isIdle p = true := by
  refine ⟨(ps.reverse.takeWhile isIdle).reverse, ?_, fun p hp => ?_⟩
  · rw [trimIdle, ← List.reverse_append, List.takeWhile_append_dropWhile, List.reverse_reverse]
  · exact List.all_eq_true.1 List.all_takeWhile p (List.mem_reverse.1 hp)

theorem trimIdle_concat {p : List Char} (hp : isIdle p = false) (ps : List (List Char)) :
    trimIdle (ps ++ [p]) = ps ++ [p] := by
  rw [trimIdle, List.reverse_concat, List.dropWhile_cons_of_neg (by simp [hp]),
    List.reverse_cons, List.reverse_reverse]

/-- What is left ends with a step. -/
theorem isIdle_of_trimIdle {ps front : List (List Char)} {p : List Char}
    (h : trimIdle ps = front ++ [p]) : isIdle p = false := by
  have hback : ps.reverse.dropWhile isIdle = p :: front.reverse := by
    rw [trimIdle] at h
    rw [← List.reverse_reverse (ps.reverse.dropWhile isIdle), h, List.reverse_concat]
  have hhead := List.head_dropWhile_not isIdle (l := ps.reverse) (by rw [hback]; simp)
  simpa [hback] using hhead

/-! ## The parent of a path -/

theorem firstStep?_eq_root {p : List Char} {more : Bool} (h : firstStep? p more = some .root) :
    p = [] := by
  rw [firstStep?.eq_def] at h
  split at h
  · rfl
  · cases h
  · rw [stepOf?.eq_def] at h
    split at h <;> cases h

theorem isIdle_iff_stepOf? {p : List Char} : isIdle p = true ↔ stepOf? p = none := by
  rw [isIdle, Option.isNone_iff_eq_none]

/-- Only a blank piece and a dot are idle. -/
theorem isIdle_iff {p : List Char} : isIdle p = true ↔ p = [] ∨ p = ['.'] := by
  rw [isIdle_iff_stepOf?]
  constructor
  · intro h
    rw [stepOf?.eq_def] at h
    split at h
    · exact Or.inl rfl
    · exact Or.inr rfl
    · cases h
    · cases h
  · rintro (rfl | rfl) <;> rfl

/-- A dot at the front stays among the pieces above a last one that is a step. -/
theorem piecesAbove_dot {last : List Char} (hlast : isIdle last = false)
    (mid : List (List Char)) :
    piecesAbove (['.'] :: mid ++ [last]) = ['.'] :: trimIdle mid := by
  simp only [piecesAbove, trimIdle_concat hlast, List.dropLast_concat]

theorem piecesAbove_concat {last : List Char} (hlast : isIdle last = false)
    {ps : List (List Char)} (hfirst : ∀ mid, ps ≠ ['.'] :: mid) :
    piecesAbove (ps ++ [last]) = trimIdle ps := by
  simp only [piecesAbove, trimIdle_concat hlast, List.dropLast_concat]

/-- The parent of a path with several pieces: the first ones, without what is idle
    at their end; the top, if nothing else is before the last piece. -/
theorem parent?_of_pieces {path : Path} {first last : List Char} {mid : List (List Char)}
    (hpieces : pieces path.toList = first :: (mid ++ [last])) (hlast : isIdle last = false) :
    (first = [] ∧ (∀ p ∈ mid, isIdle p = true) ∧ parent? path = some "/") ∨
    ∃ above idle, first :: mid = above ++ idle ∧ (∀ p ∈ idle, isIdle p = true) ∧
      above ≠ [] ∧ above ≠ [[]] ∧ parent? path = some (String.ofList (joinPieces above)) := by
  obtain ⟨s, hs⟩ := exists_firstStep? first
  obtain ⟨t, ht⟩ : ∃ t, stepOf? last = some t := by
    rw [isIdle, Option.isNone_eq_false_iff] at hlast
    exact Option.isSome_iff_exists.1 hlast
  have hsteps : steps path = s :: (mid.filterMap stepOf? ++ [t]) := by
    have hmore : (!(mid ++ [last]).isEmpty) = true := by simp
    rw [steps_of_pieces hpieces, List.filterMap_append, List.filterMap_cons, ht, hmore, hs]
    rfl
  by_cases htop : s = .root ∧ mid.filterMap stepOf? = []
  · obtain ⟨rfl, hmid⟩ := htop
    refine Or.inl ⟨firstStep?_eq_root hs, fun p hp => ?_, ?_⟩
    · exact isIdle_iff_stepOf?.2 (List.filterMap_eq_nil_iff.1 hmid p hp)
    · rw [parent?, hsteps, hmid]
      rfl
  · have hparent : parent? path =
        some (String.ofList (joinPieces (piecesAbove (pieces path.toList)))) := by
      rw [parent?, hsteps]
      split
      · next heq => cases heq
      · next heq =>
        have htail := (List.cons.inj heq).2
        simp at htail
      · next x heq =>
        obtain ⟨rfl, htail⟩ := List.cons.inj heq
        have hmid : mid.filterMap stepOf? = [] := by
          have hlength := congrArg List.length htail
          rw [List.length_append, List.length_singleton, List.length_singleton] at hlength
          exact List.length_eq_zero_iff.1 (by omega)
        exact absurd ⟨rfl, hmid⟩ htop
      · rfl
    rw [hpieces, ← List.cons_append] at hparent
    refine Or.inr ?_
    by_cases hdot : first = ['.']
    · subst hdot
      rw [piecesAbove_dot hlast] at hparent
      obtain ⟨idle, hmid, hidle⟩ := exists_idle_trimIdle mid
      exact ⟨['.'] :: trimIdle mid, idle, congrArg (['.'] :: ·) hmid, hidle, by simp, by simp,
        hparent⟩
    · rw [piecesAbove_concat hlast (fun _ heq => hdot (List.cons.inj heq).1)] at hparent
      obtain ⟨idle, hall, hidle⟩ := exists_idle_trimIdle (first :: mid)
      refine ⟨trimIdle (first :: mid), idle, hall, hidle, fun hnil => ?_, fun hblank => ?_, hparent⟩
      · -- all pieces would be idle, and the first one not a dot
        rw [hnil, List.nil_append] at hall
        rw [← hall] at hidle
        obtain ⟨hfirst, hmid⟩ := List.forall_mem_cons.1 hidle
        obtain rfl := (isIdle_iff.1 hfirst).resolve_right hdot
        refine htop ⟨(Option.some.inj hs).symm, List.filterMap_eq_nil_iff.2 fun p hp => ?_⟩
        exact isIdle_iff_stepOf?.1 (hmid p hp)
      · exact absurd (isIdle_of_trimIdle (show trimIdle (first :: mid) = [] ++ [[]] from hblank))
          (by decide)

/-- The parent of a lone name is the empty path. -/
theorem parent?_of_lone {path : Path} {last : List Char} (hpieces : pieces path.toList = [last])
    (hlast : isIdle last = false) : parent? path = some "" := by
  have hne : last ≠ [] := by
    rintro rfl
    exact absurd hlast (by decide)
  obtain ⟨s, hs⟩ := exists_firstStep? last
  have hsteps : steps path = [s] := by
    rw [steps_of_pieces hpieces, firstStep?_of_ne_nil hne, hs]
    rfl
  have habove : piecesAbove (pieces path.toList) = [] := by
    rw [hpieces]
    exact piecesAbove_concat hlast (fun mid => (List.cons_ne_nil ['.'] mid).symm)
  rw [parent?, hsteps, habove]
  split
  · next heq => cases heq
  · next heq =>
    obtain rfl := (List.cons.inj heq).1
    exact absurd (firstStep?_eq_root hs) hne
  · next heq => cases heq
  · rfl

theorem isIdle_iff_ofList {p : List Char} :
    isIdle p = true ↔ String.ofList p = "" ∨ String.ofList p = "." := by
  have hdot : String.ofList p = "." ↔ p = ['.'] :=
    ⟨fun h => by simpa using congrArg String.toList h, fun h => by rw [h]⟩
  rw [isIdle_iff, hdot]
  simp

/-- Where the parent of a path with a name at its end lies: nowhere before a lone
    name, at the top, or where the pieces before the name lead, without the idle
    ones among them at the end. -/
theorem parent?_of_names {path : Path} {front : List String} {last : String}
    (hnames : names path = front ++ [last]) (hlast : ¬ (last = "" ∨ last = ".")) :
    (front = [] ∧ parent? path = some "") ∨
    (∃ mid, front = "" :: mid ∧ (∀ piece ∈ mid, piece = "" ∨ piece = ".") ∧
      parent? path = some "/") ∨
    ∃ parent idle rest, parent? path = some parent ∧ front = names parent ++ idle ∧
      (∀ piece ∈ idle, piece = "" ∨ piece = ".") ∧ parent ≠ "" ∧ path = parent ++ rest := by
  obtain ⟨before, last, hpieces, rfl, hlastPiece⟩ := List.map_eq_append_iff.1 hnames
  obtain ⟨last, rfl, rfl⟩ := List.map_eq_singleton_iff.1 hlastPiece
  have hidle : isIdle last = false := Bool.eq_false_iff.2 fun h => hlast (isIdle_iff_ofList.1 h)
  have hmap : ∀ {ps : List (List Char)}, (∀ p ∈ ps, isIdle p = true) →
      ∀ piece ∈ ps.map String.ofList, piece = "" ∨ piece = "." := by
    intro ps hps piece hpiece
    obtain ⟨p, hp, rfl⟩ := List.mem_map.1 hpiece
    exact isIdle_iff_ofList.1 (hps p hp)
  cases before with
  | nil => exact Or.inl ⟨rfl, parent?_of_lone hpieces hidle⟩
  | cons first mid =>
    refine Or.inr ?_
    rcases parent?_of_pieces hpieces hidle with ⟨rfl, hmid, htop⟩ |
      ⟨above, idle, hall, hidles, hne, hblank, hparent⟩
    · exact Or.inl ⟨mid.map String.ofList, rfl, hmap hmid, htop⟩
    · rw [hall, List.append_assoc] at hpieces
      have hslash : ∀ p ∈ above, '/' ∉ p := fun p hp =>
        no_slash_of_mem_pieces (hpieces ▸ List.mem_append_left _ hp)
      have habove : names (String.ofList (joinPieces above)) = above.map String.ofList := by
        rw [names, String.toList_ofList, pieces_joinPieces hne hslash]
      refine Or.inr ⟨_, idle.map String.ofList,
        String.ofList ('/' :: joinPieces (idle ++ [last])), hparent, ?_, hmap hidles, ?_, ?_⟩
      · rw [hall, habove, List.map_append]
      · intro hempty
        rw [hempty] at habove
        obtain ⟨p, rfl, hp⟩ := List.map_eq_singleton_iff.1 (habove.symm.trans rfl)
        have hnil : p = [] := by simpa using hp
        exact hblank (by rw [hnil])
      · apply String.toList_injective
        rw [String.toList_append, String.toList_ofList, String.toList_ofList,
          ← joinPieces_append hne (by simp), ← hpieces, joinPieces_pieces]

end Path

namespace Disk

/-! ## The directory of a path -/

/-- Idle pieces lead nowhere else. -/
theorem eq_of_walk_idle {top : Node} {follow : Bool} {n : Nat} {q p : Place} {idle : List String}
    (hidle : ∀ piece ∈ idle, piece = "" ∨ piece = ".")
    (h : walk top follow n q idle = .ok p) : q = p := by
  induction idle with
  | nil =>
    rw [walk_nil] at h
    exact Except.ok.inj h
  | cons piece idle ih =>
    obtain ⟨hpiece, hidle⟩ := List.forall_mem_cons.1 hidle
    exact ih hidle ((walk_idle_cons hpiece).1 h).2

/-- Idle pieces at the end do not matter. -/
theorem walk_of_walk_idle {top : Node} {n : Nat} {place q : Place} {before idle : List String}
    (hidle : ∀ piece ∈ idle, piece = "" ∨ piece = ".")
    (h : walk top true n place (before ++ idle) = .ok q) : walk top true n place before = .ok q := by
  by_cases hne : idle = []
  · rwa [hne, List.append_nil] at h
  · obtain ⟨m, hm⟩ := walk_append top true n place before hne
    rw [h] at hm
    cases hw : walk top true n place before with
    | error fault =>
      rw [hw] at hm
      cases hm
    | ok r =>
      rw [hw] at hm
      rw [eq_of_walk_idle hidle hm.symm]

/-- The top is a directory, if anything is looked up from there. -/
theorem has_top {d : Disk} {es : List (String × Node)}
    (h : d.top.at? [] = some (.directory es)) : d.has "/" = true := by
  have hnames : Path.names "/" = ["", ""] := by decide
  have hwalk : walk d.top true maxLinks (d.start ["", ""]) ["", ""] = .ok [] := by
    have hstart : d.start ["", ""] = [] := rfl
    rw [hstart]
    refine (walk_idle_cons (Or.inl rfl)).2 ⟨⟨es, h⟩, ?_⟩
    exact (walk_idle_cons (Or.inl rfl)).2 ⟨⟨es, h⟩, walk_nil ..⟩
  have hok : namesOf "/" = .ok ["", ""] :=
    namesOf_eq_ok_iff.2 ⟨by decide, by decide, by decide, hnames⟩
  have hnode : d.node "/" = .ok (.directory es) := by
    refine node_eq_ok_iff.2 ⟨[], place_eq_ok_iff.2 ?_, h⟩
    rw [hnames]
    exact ⟨hok, hwalk⟩
  rw [has, hnode]
  rfl

/-- A path that another one starts with can be looked up if that one can. -/
theorem namesOf_of_append {path parent rest : Path} {names : List String}
    (h : namesOf path = .ok names) (hpath : path = parent ++ rest) (hne : parent ≠ "") :
    namesOf parent = .ok (Path.names parent) := by
  obtain ⟨hnul, -, hlong, -⟩ := namesOf_eq_ok_iff.1 h
  refine namesOf_eq_ok_iff.2 ⟨fun hmem => hnul ?_, hne, ?_, rfl⟩
  · rw [hpath, String.toList_append]
    exact List.mem_append_left _ hmem
  · rw [hpath, String.utf8ByteSize_append] at hlong
    exact Nat.le_trans (Nat.le_add_right _ _) hlong

theorem start_names_append (d : Disk) {parent : Path} (hne : parent ≠ "") (after : List String) :
    d.start (Path.names parent ++ after) = d.start (Path.names parent) :=
  start_append d (Path.names_ne_nil parent) (fun h => hne (Path.eq_empty_of_names h)) after

/-- Where a path leads to something other than a directory, the directory that it
    lies in is there. -/
theorem has_parent {d : Disk} {path : Path} {p : Place} (hplace : d.place true path = .ok p)
    (hno : ∀ es, d.top.at? p ≠ some (.directory es)) :
    ∃ parent, Path.parent? path = some parent ∧ (parent = "" ∨ d.has parent = true) := by
  obtain ⟨hok, hwalk⟩ := place_eq_ok_iff.1 hplace
  obtain ⟨front, last, hnames⟩ :=
    (List.eq_nil_or_concat _).resolve_left (Path.names_ne_nil path)
  rw [List.concat_eq_append] at hnames
  rw [hnames] at hwalk
  -- the pieces before the last one lead to a directory, which the last one is no idle piece of
  obtain ⟨m, hm⟩ := walk_append d.top true maxLinks (d.start (front ++ [last])) front
    (List.cons_ne_nil last [])
  rw [hwalk] at hm
  cases hfront : walk d.top true maxLinks (d.start (front ++ [last])) front with
  | error fault =>
    rw [hfront] at hm
    cases hm
  | ok q =>
    rw [hfront] at hm
    replace hm : walk d.top true m q [last] = .ok p := hm.symm
    obtain ⟨es, hq, -⟩ := walk_cons_eq_ok_iff.1 hm
    have hlast : ¬ (last = "" ∨ last = ".") := by
      intro hidle
      have hsame := eq_of_walk_idle (by simpa using hidle) hm
      exact hno es (hsame ▸ hq)
    rcases Path.parent?_of_names hnames hlast with ⟨-, hlone⟩ | ⟨mid, rfl, -, htop⟩ |
      ⟨parent, idle, rest, hparent, rfl, hidle, hne, hpath⟩
    · exact ⟨"", hlone, Or.inl rfl⟩
    · -- the path starts at the top
      have hstart : d.start ("" :: mid ++ [last]) = [] := by cases mid <;> rfl
      rw [hstart] at hfront
      obtain ⟨fs, hfs, -⟩ := walk_cons_eq_ok_iff.1 hfront
      exact ⟨"/", htop, Or.inr (has_top hfs)⟩
    · have hway := walk_of_walk_idle hidle hfront
      rw [List.append_assoc, start_names_append d hne] at hway
      have hnode : d.node parent = .ok (.directory es) := node_eq_ok_iff.2
        ⟨q, place_eq_ok_iff.2 ⟨namesOf_of_append hok hpath hne, hway⟩, hq⟩
      refine ⟨parent, hparent, Or.inr ?_⟩
      rw [has, hnode]
      rfl

end Disk

end WebBaseline.Files

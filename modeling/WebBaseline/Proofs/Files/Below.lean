/-
  WebBaseline.Proofs.Files.Below

  The path of an entry, step by step.

    * its steps are those of the directory and then those of the name
      (`steps_entry`), so paths in one directory compare by what comes behind it
      (`before_entry`);
    * what is left of it below the directory is the name again (`below?_entry`),
      however the path of the directory is written.

  The name may be one of several pieces: that of an entry further down.
-/

import WebBaseline.Proofs.Files.Names

namespace WebBaseline.Files

namespace Path

/-! ## Pieces -/

theorem joinPieces_cons (p : List Char) {ps : List (List Char)} (hps : ps ≠ []) :
    joinPieces (p :: ps) = p ++ '/' :: joinPieces ps := by
  cases ps with
  | nil => exact absurd rfl hps
  | cons q qs => rfl

theorem joinPieces_append {ps qs : List (List Char)} (hps : ps ≠ []) (hqs : qs ≠ []) :
    joinPieces (ps ++ qs) = joinPieces ps ++ '/' :: joinPieces qs := by
  induction ps with
  | nil => exact absurd rfl hps
  | cons p ps ih =>
    cases ps with
    | nil => exact joinPieces_cons p hqs
    | cons q ps =>
      rw [List.cons_append, joinPieces_cons p (by simp), ih (by simp), joinPieces_cons p (by simp),
        List.append_assoc, List.cons_append]

/-- The pieces of a text put together are the text. -/
@[simp] theorem joinPieces_pieces (cs : List Char) : joinPieces (pieces cs) = cs := by
  induction cs with
  | nil => rfl
  | cons c cs ih =>
    by_cases hc : c = '/'
    · subst hc
      rw [pieces_cons_slash, joinPieces_cons [] (pieces_ne_nil cs), ih]
      rfl
    · rw [pieces_cons_of_ne hc]
      cases hps : pieces cs with
      | nil => exact absurd hps (pieces_ne_nil cs)
      | cons p ps =>
        rw [hps] at ih
        -- the character goes in front of the first piece
        cases ps with
        | nil => exact congrArg (c :: ·) ih
        | cons q qs => exact congrArg (c :: ·) ih

theorem firstStep?_of_ne_nil {p : List Char} (hp : p ≠ []) (more : Bool) :
    firstStep? p more = firstStep? p true := by
  cases p with
  | nil => exact absurd rfl hp
  | cons c cs =>
    rw [firstStep?.eq_def, firstStep?.eq_def]
    split <;> simp_all

/-- Every piece in front of others is a step. -/
theorem exists_firstStep? (p : List Char) : ∃ s, firstStep? p true = some s := by
  rw [firstStep?.eq_def]
  split
  · exact ⟨.root, rfl⟩
  · exact ⟨.here, rfl⟩
  · next hblank hdot =>
    rw [stepOf?.eq_def]
    split
    · exact absurd rfl hblank
    · exact absurd rfl hdot
    · exact ⟨.parent, rfl⟩
    · exact ⟨.name (String.ofList p), rfl⟩

/-- The steps of a path: its first piece counts in a way of its own. -/
theorem steps_of_pieces {path : Path} {p : List Char} {ps : List (List Char)}
    (h : pieces path.toList = p :: ps) :
    steps path = (firstStep? p (!ps.isEmpty)).toList ++ ps.filterMap stepOf? := by
  rw [steps, h]
  split
  · next hnil => cases hnil
  · next hblank =>
    cases hblank
    rfl
  · next rest hmore hroot =>
    cases hroot
    cases ps with
    | nil => exact absurd rfl hmore
    | cons q qs => rfl
  · next rest hdot =>
    cases hdot
    rfl
  · next first rest hblank hroot hdot hcons =>
    obtain ⟨rfl, rfl⟩ := List.cons.inj hcons
    have hstep : firstStep? p (!ps.isEmpty) = stepOf? p := by
      rw [firstStep?.eq_def]
      split
      · exact (hroot rfl).elim
      · exact (hdot rfl).elim
      · rfl
    rw [hstep, List.filterMap_cons]
    cases stepOf? p <;> rfl

/-! ## The path of an entry -/

/-- The pieces of the path of an entry, and the steps that the first ones of them
    are: those of the directory. -/
theorem exists_pieces_entry {dir : Path} (hdir : dir ≠ "") (text : String) :
    ∃ first rest s, firstStep? first true = some s ∧
      steps dir = s :: rest.filterMap stepOf? ∧
      pieces (entry dir text).toList = first :: (rest ++ pieces text.toList) := by
  obtain ⟨cs, hentry, hcs⟩ := toList_entry hdir text
  cases hpieces : pieces cs with
  | nil => exact absurd hpieces (pieces_ne_nil cs)
  | cons first rest =>
    obtain ⟨s, hs⟩ := exists_firstStep? first
    refine ⟨first, rest, s, hs, ?_, ?_⟩
    · rcases hcs with hcs | hcs
      · have hdirPieces : pieces dir.toList = first :: rest := by rw [hcs, hpieces]
        have hfirst : firstStep? first (!rest.isEmpty) = some s := by
          cases rest with
          | nil =>
            -- a lone blank piece would be the empty path
            have hne : first ≠ [] := by
              rintro rfl
              exact hdir (eq_empty_of_names (by rw [names, hdirPieces]; rfl))
            rw [firstStep?_of_ne_nil hne, hs]
          | cons q qs => exact hs
        rw [steps_of_pieces hdirPieces, hfirst]
        rfl
      · -- a slash at the end of the directory is one more blank piece, and no step
        have hdirPieces : pieces dir.toList = first :: (rest ++ [[]]) := by
          rw [hcs, pieces_append_slash, hpieces]
          rfl
        have hmore : (!(rest ++ [([] : List Char)]).isEmpty) = true := by simp
        have hblank : stepOf? [] = none := rfl
        rw [steps_of_pieces hdirPieces, hmore, hs, List.filterMap_append, List.filterMap_cons,
          hblank, List.filterMap_nil, List.append_nil]
        rfl
    · rw [hentry, pieces_append_slash, hpieces, List.cons_append]

theorem steps_entry {dir : Path} (hdir : dir ≠ "") (text : String) :
    steps (entry dir text) = steps dir ++ (pieces text.toList).filterMap stepOf? := by
  obtain ⟨first, rest, s, hs, hdirSteps, hpieces⟩ := exists_pieces_entry hdir text
  -- there are pieces behind the first one, so it counts in the same way
  have hmore : (!(rest ++ pieces text.toList).isEmpty) = true := by simp [pieces_ne_nil]
  rw [steps_of_pieces hpieces, hmore, hs, hdirSteps, List.filterMap_append]
  rfl

/-! ## Order -/

theorem stepsBefore_append (base as bs : List Step) :
    stepsBefore (base ++ as) (base ++ bs) = stepsBefore as bs := by
  induction base with
  | nil => rfl
  | cons s base ih =>
    have hself : s.before s = false := by
      cases s with
      | name text => exact decide_eq_false (String.lt_irrefl text)
      | _ => rfl
    rw [List.cons_append, List.cons_append, stepsBefore, ih, hself]
    simp

/-- Paths in one directory compare by what stands behind it. -/
theorem before_entry {dir : Path} (hdir : dir ≠ "") (a b : String) :
    before (entry dir a) (entry dir b) =
      stepsBefore ((pieces a.toList).filterMap stepOf?) ((pieces b.toList).filterMap stepOf?) := by
  rw [before, steps_entry hdir, steps_entry hdir, stepsBefore_append]

/-! ## What is left of a path -/

/-- Behind the steps that some pieces stand for there are the pieces that follow,
    and before these perhaps some that are no steps. -/
theorem exists_piecesBehind? (ps rest : List (List Char)) :
    ∃ idle, (∀ p ∈ idle, isIdle p = true) ∧
      piecesBehind? (ps.filterMap stepOf?) (ps ++ rest) = some (idle ++ rest) := by
  induction ps with
  | nil => exact ⟨[], by simp, by rw [List.filterMap_nil, piecesBehind?]⟩
  | cons p ps ih =>
    obtain ⟨idle, hidle, hbehind⟩ := ih
    rw [List.filterMap_cons]
    cases hp : stepOf? p with
    | some t =>
      refine ⟨idle, hidle, ?_⟩
      rw [List.cons_append, piecesBehind?, hp]
      simp only [if_true]
      exact hbehind
    | none =>
      simp only
      cases hsteps : ps.filterMap stepOf? with
      | cons s ss =>
        refine ⟨idle, hidle, ?_⟩
        rw [List.cons_append, piecesBehind?, hp, ← hsteps]
        exact hbehind
      | nil =>
        -- no step is left, so nothing more is passed over
        have hall : ∀ q ∈ p :: ps, isIdle q = true := by
          intro q hq
          rcases List.mem_cons.1 hq with rfl | hq
          · rw [isIdle, hp]
            rfl
          · rw [isIdle, List.filterMap_eq_nil_iff.1 hsteps q hq]
            rfl
        exact ⟨p :: ps, hall, by rw [piecesBehind?]⟩

theorem dropWhile_isIdle {ps : List (List Char)} (h : ∀ p ∈ ps, isIdle p = false) :
    ps.dropWhile isIdle = ps := by
  cases ps with
  | nil => rfl
  | cons p ps => exact List.dropWhile_cons_of_neg (by simp [h p List.mem_cons_self])

/-- What is left of the path of an entry below its directory is its name, where
    all pieces of that are steps. -/
theorem below?_entry {dir : Path} (hdir : dir ≠ "") {text : String}
    (htext : ∀ p ∈ pieces text.toList, isIdle p = false) :
    below? dir (entry dir text) = some text := by
  obtain ⟨first, rest, s, hs, hdirSteps, hpieces⟩ := exists_pieces_entry hdir text
  obtain ⟨idle, hidle, hbehind⟩ := exists_piecesBehind? rest (pieces text.toList)
  have hmore : (!(rest ++ pieces text.toList).isEmpty) = true := by simp [pieces_ne_nil]
  have hleft : piecesBehindFirst? (steps dir) (pieces (entry dir text).toList) =
      some (idle ++ pieces text.toList) := by
    rw [hdirSteps, hpieces, piecesBehindFirst?, hmore, hs]
    simp only [if_true]
    exact hbehind
  -- what is idle behind the directory goes, and the pieces of the name stay
  have hfront : (idle ++ pieces text.toList).dropWhile isIdle = pieces text.toList := by
    rw [List.dropWhile_append_of_pos hidle, dropWhile_isIdle htext]
  have hback : (pieces text.toList).reverse.dropWhile isIdle = (pieces text.toList).reverse :=
    dropWhile_isIdle (fun p hp => htext p (List.mem_reverse.1 hp))
  have hnonempty : (steps dir).isEmpty = false := by rw [hdirSteps, List.isEmpty_cons]
  rw [below?]
  simp only [hleft, Option.map_some, hnonempty, Bool.false_eq_true, if_false, hfront, hback,
    List.reverse_reverse, joinPieces_pieces, String.ofList_toList]

end Path

end WebBaseline.Files

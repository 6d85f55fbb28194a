/-
  WebBaseline.Proofs.Scan.Defaults

  The files that a scan looks at if nothing is said.

    * the pattern of an extension matches the places whose last name ends with it
      (`matches_extension_iff`), the pattern of a directory those that have the
      directory before their last name (`matches_directory_iff`);
    * so a listing holds the files in no foreign directory whose extension is
      known, as it is written (`mem_default_listing_iff`).

  The patterns tell letters of either case apart, and the languages do not: a file
  whose extension has a capital letter is in a language and is not listed.
-/

import WebBaseline.Proofs.Files.Below
import WebBaseline.Proofs.Glob.Match
import WebBaseline.Proofs.Scan.Listing

namespace WebBaseline.Scan

open WebBaseline.Feature (Language)
open WebBaseline.Files (Disk Node Path Place)
open WebBaseline.Glob (Pattern Token bytes isOrdinary)

/-! ## Places as texts -/

section Places

variable {p : Place}

theorem toList_placeText (hp : p ≠ []) (hnames : ∀ name ∈ p, Path.IsName name) :
    (placeText p).toList = Path.joinPieces (p.map String.toList) := by
  rw [← pieces_placeText hp hnames, Path.joinPieces_pieces]

/-- The text of a place ends like its last name, as far as there is no slash. -/
theorem placeText_ends_iff {dirs : Place} {name : String}
    (hnames : ∀ a ∈ dirs ++ [name], Path.IsName a) {ending : List Char} (hending : '/' ∉ ending) :
    (∃ front, (placeText (dirs ++ [name])).toList = front ++ ending) ↔
      ∃ front, name.toList = front ++ ending := by
  have hne : dirs ++ [name] ≠ [] := by simp
  constructor
  · rintro ⟨front, hfront⟩
    obtain ⟨before, last, -, hpieces⟩ := Path.pieces_append_of_no_slash front hending
    rw [← hfront, pieces_placeText hne hnames, List.map_append, List.map_singleton] at hpieces
    have hname := List.append_inj_right' hpieces rfl
    exact ⟨last, (List.cons.inj hname).1⟩
  · rintro ⟨front, hfront⟩
    rw [toList_placeText hne hnames, List.map_append, List.map_singleton]
    cases dirs with
    | nil => exact ⟨front, hfront⟩
    | cons a dirs =>
      rw [Path.joinPieces_append (by simp) (by simp), Path.joinPieces, hfront]
      exact ⟨Path.joinPieces ((a :: dirs).map String.toList) ++ '/' :: front, by simp⟩

/-- A name stands in a place before the last one where it stands in its text
    between slashes, the first of them left out at the front. -/
theorem mem_dropLast_iff (hp : p ≠ []) (hnames : ∀ name ∈ p, Path.IsName name) {dir : String}
    (hdir : '/' ∉ dir.toList) :
    dir ∈ p.dropLast ↔
      ∃ front back, (placeText p).toList = front ++ (dir.toList ++ '/' :: back) ∧
        (front = [] ∨ ∃ u, front = u ++ ['/']) := by
  have hpieces := pieces_placeText hp hnames
  constructor
  · intro hmem
    obtain ⟨before, after, hsplit⟩ := List.append_of_mem hmem
    have hself := (List.dropLast_concat_getLast hp).symm
    rw [hsplit] at hself
    have hwhole : p.map String.toList =
        before.map String.toList ++ dir.toList :: (after ++ [p.getLast hp]).map String.toList :=
      (congrArg (List.map String.toList) hself).trans (by simp)
    rw [toList_placeText hp hnames, hwhole]
    have hrest : Path.joinPieces (dir.toList :: (after ++ [p.getLast hp]).map String.toList) =
        dir.toList ++ '/' :: Path.joinPieces ((after ++ [p.getLast hp]).map String.toList) :=
      Path.joinPieces_cons _ (by simp)
    cases before with
    | nil => exact ⟨[], _, hrest, Or.inl rfl⟩
    | cons a before =>
      rw [Path.joinPieces_append (by simp) (by simp), hrest]
      refine ⟨Path.joinPieces ((a :: before).map String.toList) ++ ['/'],
        Path.joinPieces ((after ++ [p.getLast hp]).map String.toList), ?_, Or.inr ⟨_, rfl⟩⟩
      rw [List.append_assoc, List.singleton_append]
  · rintro ⟨front, back, htext, hfront⟩
    obtain ⟨before, hbefore⟩ : ∃ before, p.map String.toList =
        before ++ dir.toList :: Path.pieces back := by
      rw [← hpieces, htext]
      rcases hfront with rfl | ⟨u, rfl⟩
      · rw [List.nil_append, Path.pieces_append_slash, Path.pieces_of_no_slash hdir]
        exact ⟨[], rfl⟩
      · rw [List.append_assoc, List.singleton_append, Path.pieces_append_slash,
          Path.pieces_append_slash, Path.pieces_of_no_slash hdir]
        exact ⟨Path.pieces u, rfl⟩
    -- there are pieces behind the name, so it is not the last one
    have hdrop : (p.dropLast).map String.toList =
        before ++ dir.toList :: (Path.pieces back).dropLast := by
      rw [List.map_dropLast, hbefore, List.dropLast_append_of_ne_nil (by simp),
        List.dropLast_cons_of_ne_nil (Path.pieces_ne_nil back)]
    obtain ⟨name, hname, hdir⟩ := List.mem_map.1 (show dir.toList ∈ p.dropLast.map String.toList by
      rw [hdrop]
      simp)
    exact String.toList_injective hdir ▸ hname

end Places

/-! ## The pattern of an extension -/

/-- The pattern of all files with an extension, taken apart. -/
def extensionGlob (e : String) : Pattern :=
  ⟨.deepFront :: .star :: ('.' :: e.toList).map Token.literal⟩

theorem ofText_extensionPattern {e : String} (he : e.toList.all isOrdinary = true) :
    Pattern.ofText (extensionPattern e) = .ok (extensionGlob e) := by
  have htext : (extensionPattern e).toList =
      '*' :: '*' :: (['/'] ++ '*' :: (('.' :: e.toList) ++ [])) := by
    rw [extensionPattern, String.toList_append, List.append_nil]
    rfl
  have hdot : ('.' :: e.toList).all isOrdinary = true := he
  rw [Pattern.ofText, Glob.parse, htext, Glob.signs_star, Glob.signs_star,
    Glob.signs_ordinary rfl, Glob.signs_star, Glob.signs_ordinary hdot]
  -- two stars and a slash at the front, a star, and then characters up to the end
  show (Glob.tokensOf { previous := some '*', tokens := [.star, .deepFront] }
    (('.' :: e.toList).map Glob.Sign.char ++ [])).map Pattern.mk = _
  rw [Glob.tokensOf_ordinary, Glob.tokensOf]
  simp [extensionGlob, Except.map]

/-! ## The pattern of a directory -/

/-- The pattern of everything in directories with a name, taken apart. -/
def directoryGlob (dir : String) : Pattern :=
  ⟨.deepFront :: (dir.toList.map Token.literal ++ [.deepEnd])⟩

theorem ofText_directoryPattern {dir : String} (hdir : dir.toList.all isOrdinary = true) :
    Pattern.ofText (directoryPattern dir) = .ok (directoryGlob dir) := by
  have htext : (directoryPattern dir).toList =
      '*' :: '*' :: (['/'] ++ ((dir.toList ++ ['/']) ++ ['*', '*'])) := by
    rw [directoryPattern, String.toList_append, String.toList_append, List.append_assoc,
      List.append_assoc]
    rfl
  have hslash : (dir.toList ++ ['/']).all isOrdinary = true := by
    rw [List.all_append, hdir]
    rfl
  rw [Pattern.ofText, Glob.parse, htext, Glob.signs_star, Glob.signs_star,
    Glob.signs_ordinary rfl, Glob.signs_ordinary hslash]
  show (Glob.tokensOf { previous := some '/', tokens := [.deepFront] }
    ((dir.toList ++ ['/']).map Glob.Sign.char ++ [.star, .star])).map Pattern.mk = _
  have htokens : ((dir.toList ++ ['/']).map Token.literal).reverse ++ [.deepFront] =
      .literal '/' :: ((dir.toList.map Token.literal).reverse ++ [.deepFront]) := by simp
  have hlast : (dir.toList ++ ['/']).getLast?.or (some '/') = some '/' := by simp
  rw [Glob.tokensOf_ordinary, htokens, hlast]
  -- two stars behind a slash at the end take its place
  show (Except.ok (Token.deepEnd ::
    ((dir.toList.map Token.literal).reverse ++ [.deepFront])).reverse).map Pattern.mk = _
  simp [directoryGlob, Except.map]

/-! ## What these patterns match -/

theorem matchesPath_iff {p : Pattern} (hdot : Glob.wantsDotAtEnd p.tokens = false) (text : String) :
    p.matchesPath text = true ↔ p.shape.Takes (bytes text.toList) := by
  rw [Pattern.matchesPath, hdot, Bool.not_false, Bool.true_and, Glob.takes_singleton,
    Glob.toList_toUTF8]

/-- The pattern of an extension matches what ends with it. -/
theorem extensionGlob_matches_iff {e : String} (hne : e ≠ "") (hdot : '.' ∉ e.toList)
    (text : String) :
    (extensionGlob e).matchesPath text = true ↔
      ∃ front, text.toList = front ++ '.' :: e.toList := by
  have hend : Glob.wantsDotAtEnd (extensionGlob e).tokens = false := by
    obtain ⟨front, c, hlast⟩ := List.eq_nil_or_concat e.toList |>.resolve_left (by simpa using hne)
    rw [List.concat_eq_append] at hlast
    have hc : c ≠ '.' := by
      rintro rfl
      exact hdot (by rw [hlast]; simp)
    have htoken : (extensionGlob e).tokens.getLast? = some (.literal c) := by
      have htokens : (extensionGlob e).tokens =
          (.deepFront :: .star :: ('.' :: front).map Token.literal) ++ [.literal c] := by
        rw [extensionGlob, hlast]
        simp
      rw [htokens, List.getLast?_concat]
    rw [Glob.wantsDotAtEnd, htoken]
    simp [Glob.Token.char?, hc]
  rw [matchesPath_iff hend]
  have hshape : (extensionGlob e).shape =
      Glob.shapeOf (.deepFront :: .star :: (('.' :: e.toList).map Token.literal ++ [])) := by
    rw [List.append_nil]
    rfl
  rw [hshape, Glob.takes_shapeOf_cons]
  simp only [Glob.takes_shapeOf_cons, Glob.takes_literals]
  constructor
  · rintro ⟨u, -, h, -, v, -, rfl, -, -, rfl, rfl⟩
    rw [List.append_nil, ← List.append_assoc, Glob.bytes_cons, Glob.bytesOf_dot] at h
    obtain ⟨front, back, hsplit, -, hback⟩ := Glob.exists_of_bytes_eq Glob.bytesOf_dot (by decide) h
    exact ⟨front, by rw [hsplit, Glob.bytes_injective hback]⟩
  · rintro ⟨front, h⟩
    rw [h, Glob.bytes_append]
    exact ⟨[], _, rfl, (Glob.takes_deepFront []).2 (Or.inl rfl), bytes front, _, rfl, trivial, [],
      (List.append_nil _).symm, rfl⟩

/-- The pattern of a directory matches what has its name between slashes, the
    first of them left out at the front. -/
theorem directoryGlob_matches_iff (dir : String) (text : String) :
    (directoryGlob dir).matchesPath text = true ↔
      ∃ front back, text.toList = front ++ (dir.toList ++ '/' :: back) ∧
        (front = [] ∨ ∃ u, front = u ++ ['/']) := by
  have hend : Glob.wantsDotAtEnd (directoryGlob dir).tokens = false := by
    have htoken : (directoryGlob dir).tokens.getLast? = some .deepEnd := by
      show ((.deepFront :: dir.toList.map Token.literal) ++ [Token.deepEnd]).getLast? = _
      exact List.getLast?_concat
    rw [Glob.wantsDotAtEnd, htoken]
    rfl
  have hshape : (directoryGlob dir).shape =
      Glob.shapeOf (.deepFront :: (dir.toList.map Token.literal ++ [.deepEnd])) := by
    rw [Pattern.shape]
    split
    · next htokens => simp [directoryGlob] at htokens
    · rfl
  have hempty : ∀ bs, (Glob.shapeOf [.deepEnd]).Takes bs ↔ ∃ v, bs = 47 :: v := by
    intro bs
    rw [← Glob.takes_deepEnd]
    exact Iff.rfl
  rw [matchesPath_iff hend, hshape, Glob.takes_shapeOf_cons]
  simp only [Glob.takes_literals, Glob.takes_deepFront, hempty]
  constructor
  · rintro ⟨u, -, h, hfront, -, rfl, v, rfl⟩
    rw [← List.append_assoc] at h
    obtain ⟨before, back, hsplit, hbefore, -⟩ :=
      Glob.exists_of_bytes_eq Glob.bytesOf_slash (by decide) h
    rcases hfront with rfl | ⟨w, rfl⟩
    · obtain rfl := Glob.bytes_injective hbefore
      exact ⟨[], back, hsplit, Or.inl rfl⟩
    · rw [List.append_assoc, List.singleton_append] at hbefore
      obtain ⟨front, name, rfl, -, hname⟩ :=
        Glob.exists_of_bytes_eq Glob.bytesOf_slash (by decide) hbefore
      obtain rfl := Glob.bytes_injective hname
      exact ⟨front ++ ['/'], back, by rw [hsplit]; simp, Or.inr ⟨front, rfl⟩⟩
  · rintro ⟨front, back, h, hfront⟩
    have hslash : bytes (dir.toList ++ '/' :: back) = bytes dir.toList ++ 47 :: bytes back := by
      rw [Glob.bytes_append, Glob.bytes_cons, Glob.bytesOf_slash, List.singleton_append]
    rw [h, Glob.bytes_append, hslash]
    refine ⟨bytes front, _, rfl, ?_, _, rfl, _, rfl⟩
    rcases hfront with rfl | ⟨u, rfl⟩
    · exact Or.inl rfl
    · refine Or.inr ⟨bytes u, ?_⟩
      rw [Glob.bytes_append, Glob.bytes_cons, Glob.bytesOf_slash, Glob.bytes_nil]
      rfl

/-! ## The filter of a scan -/

/-- Extensions and names of directories are words without signs of their own. -/
theorem defaultExtensions_plain : ∀ e ∈ defaultExtensions, e ≠ "" ∧ '.' ∉ e.toList ∧
    '/' ∉ e.toList ∧ e.toList.all isOrdinary = true ∧ Text.asciiLowercase e = e := by
  decide +kernel

theorem foreignDirectories_plain : ∀ dir ∈ foreignDirectories, '/' ∉ dir.toList ∧
    dir.toList.all isOrdinary = true := by
  decide +kernel

theorem compile_map {write : String → String} {pattern : String → Pattern} {names : List String}
    (h : ∀ name ∈ names, Pattern.ofText (write name) = .ok (pattern name)) :
    PathFilter.compile (names.map write) = .ok (names.map pattern) := by
  induction names with
  | nil => rfl
  | cons name names ih =>
    obtain ⟨hname, hnames⟩ := List.forall_mem_cons.1 h
    rw [List.map_cons, PathFilter.compile, hname, ih hnames]
    rfl

/-- The patterns of a scan if nothing is said. -/
def defaultFilter : PathFilter where
  includes := defaultExtensions.map extensionGlob
  excludes := foreignDirectories.map directoryGlob

theorem ofOptions_default : PathFilter.ofOptions {} = .ok defaultFilter := by
  have hincludes : PathFilter.compile (defaultExtensions.map extensionPattern) =
      .ok (defaultExtensions.map extensionGlob) := compile_map (fun e he =>
    ofText_extensionPattern (defaultExtensions_plain e he).2.2.2.1)
  have hexcludes : PathFilter.compile (foreignDirectories.map directoryPattern) =
      .ok (foreignDirectories.map directoryGlob) := compile_map (fun dir hdir =>
    ofText_directoryPattern (foreignDirectories_plain dir hdir).2)
  rw [PathFilter.ofOptions, hincludes, hexcludes]
  rfl

/-- The extensions of the patterns are those of all languages. -/
theorem defaultExtensions_eq : defaultExtensions = Language.all.flatMap Language.extensions := rfl

theorem ofExtension?_isSome_iff (e : String) :
    (Language.ofExtension? e).isSome = true ↔ Text.asciiLowercase e ∈ defaultExtensions := by
  rw [Language.ofExtension?, List.find?_isSome, defaultExtensions_eq]
  simp only [List.mem_flatMap, List.contains_iff_mem]

theorem ofPath?_isSome_iff (path : Path) :
    (Language.ofPath? path).isSome = true ↔
      ∃ e, Path.extension? path = some e ∧ (Language.ofExtension? e).isSome = true := by
  rw [Language.ofPath?]
  cases Path.extension? path with
  | none => simp
  | some e => simp

/-- An extension is one of those of the patterns if it belongs to a language and
    has no capital letters. -/
theorem mem_defaultExtensions_iff (e : String) :
    e ∈ defaultExtensions ↔ (Language.ofExtension? e).isSome = true ∧ Text.asciiLowercase e = e := by
  rw [ofExtension?_isSome_iff]
  constructor
  · intro he
    obtain ⟨-, -, -, -, hlower⟩ := defaultExtensions_plain e he
    exact ⟨hlower.symm ▸ he, hlower⟩
  · rintro ⟨he, hlower⟩
    exact hlower ▸ he

/-! ## What it does to places -/

section Filter

variable {p dirs : Place} {name : String}

/-- The patterns of extensions ask for an extension as it is written. -/
theorem matches_extension_iff (hnames : ∀ a ∈ dirs ++ [name], Path.IsName a) :
    Glob.anyMatches defaultFilter.includes (placeText (dirs ++ [name])) = true ↔
      ∃ e ∈ defaultExtensions, ∃ front, name.toList = front ++ '.' :: e.toList := by
  rw [Glob.anyMatches, defaultFilter, List.any_map, List.any_eq_true]
  refine exists_congr (fun e => and_congr_right (fun he => ?_))
  obtain ⟨hne, hdot, hslash, -, -⟩ := defaultExtensions_plain e he
  rw [Function.comp_apply, extensionGlob_matches_iff hne hdot]
  exact placeText_ends_iff hnames (List.not_mem_cons_of_ne_of_not_mem (by decide) hslash)

/-- The patterns of foreign directories ask for one before the last name. -/
theorem matches_directory_iff (hp : p ≠ []) (hnames : ∀ name ∈ p, Path.IsName name) :
    Glob.anyMatches defaultFilter.excludes (placeText p) = true ↔
      ∃ dir ∈ foreignDirectories, dir ∈ p.dropLast := by
  rw [Glob.anyMatches, defaultFilter, List.any_map, List.any_eq_true]
  refine exists_congr (fun dir => and_congr_right (fun hdir => ?_))
  rw [Function.comp_apply, directoryGlob_matches_iff]
  exact (mem_dropLast_iff hp hnames (foreignDirectories_plain dir hdir).1).symm

/-- The path of an entry in a place is a place again. -/
theorem entry_placeText (hp : p ≠ []) (hnames : ∀ name ∈ p, Path.IsName name) (text : String) :
    Path.entry (placeText p) text = placeText (p ++ [text]) := by
  -- no name is blank, so the text is not empty and ends with no slash
  have hblank : [] ∉ Path.pieces (placeText p).toList := by
    rw [pieces_placeText hp hnames]
    intro hmem
    obtain ⟨name, hname, hempty⟩ := List.mem_map.1 hmem
    exact (hnames name hname).not_idle (Or.inl (by simpa using hempty))
  have hroom : ((placeText p).isEmpty || (placeText p).endsWith "/") = false := by
    rw [Bool.or_eq_false_iff, Bool.eq_false_iff, Bool.eq_false_iff, ne_eq, ne_eq,
      String.isEmpty_iff, Path.endsWith_slash_iff]
    constructor
    · intro hempty
      rw [hempty] at hblank
      exact hblank (by decide)
    · rintro ⟨cs, hcs⟩
      rw [hcs, Path.pieces_append_slash] at hblank
      exact hblank (by simp [Path.pieces])
  rw [Path.entry, hroom, if_neg Bool.false_ne_true, placeText, placeText,
    String.intercalate_append_of_ne_nil hp (by simp), String.intercalate_singleton]

theorem prunes_eq_false_iff (hp : p ≠ []) (hnames : ∀ name ∈ p, Path.IsName name) :
    defaultFilter.prunes (placeText p) = false ↔ ∀ dir ∈ p, dir ∉ foreignDirectories := by
  have hprobe : ∀ name ∈ p ++ ["*"], Path.IsName name := by
    rw [List.forall_mem_append]
    exact ⟨hnames, by decide⟩
  rw [PathFilter.prunes, Bool.or_eq_false_iff, Bool.eq_false_iff, Bool.eq_false_iff, ne_eq, ne_eq,
    matches_directory_iff hp hnames, entry_placeText hp hnames,
    matches_directory_iff (by simp) hprobe, List.dropLast_concat]
  constructor
  · rintro ⟨-, hall⟩ dir hmem hforeign
    exact hall ⟨dir, hforeign, hmem⟩
  · intro hall
    constructor
    · rintro ⟨dir, hforeign, hmem⟩
      exact hall dir (List.dropLast_subset p hmem) hforeign
    · rintro ⟨dir, hforeign, hmem⟩
      exact hall dir hmem hforeign

/-- Of the places with a known language those are looked at whose extension is
    one of the patterns, and that lie in no foreign directory. -/
theorem isSource_default_iff (hnames : ∀ a ∈ dirs ++ [name], Path.IsName a) :
    isSource defaultFilter (dirs ++ [name]) = true ↔
      (∃ e ∈ defaultExtensions, Path.extension? name = some e) ∧
        ∀ dir ∈ dirs, dir ∉ foreignDirectories := by
  have hextension := Path.extension?_of_isName (hnames name (by simp))
  have hne : dirs ++ [name] ≠ [] := by simp
  rw [isSource, PathFilter.accepts, Bool.and_eq_true, Bool.and_eq_true, Bool.not_eq_true',
    Bool.eq_false_iff, ne_eq, matches_extension_iff hnames, matches_directory_iff hne hnames,
    List.dropLast_concat, List.getLast?_concat, Option.any_some, ofPath?_isSome_iff, hextension]
  constructor
  · rintro ⟨⟨⟨e, he, front, hfront⟩, hdirs⟩, e', hsplit, -⟩
    refine ⟨⟨e, he, ?_⟩, fun dir hmem hforeign => hdirs ⟨dir, hforeign, hmem⟩⟩
    obtain ⟨-, hdot, -⟩ := defaultExtensions_plain e he
    refine (Path.splitName_eq_some_iff name e).2 ⟨hdot, front, ?_, hfront⟩
    -- a name that is only a dot and letters has no extension at all
    rintro rfl
    obtain ⟨-, front', hne', hfront'⟩ := (Path.splitName_eq_some_iff name e').1 hsplit
    obtain ⟨c, cs, rfl⟩ := List.exists_cons_of_ne_nil hne'
    rw [hfront, List.nil_append, List.cons_append] at hfront'
    exact hdot (by rw [(List.cons.inj hfront').2]; simp)
  · rintro ⟨⟨e, he, hsplit⟩, hdirs⟩
    obtain ⟨-, front, -, hfront⟩ := (Path.splitName_eq_some_iff name e).1 hsplit
    refine ⟨⟨⟨e, he, front, hfront⟩, ?_⟩, e, hsplit, ((mem_defaultExtensions_iff e).1 he).1⟩
    rintro ⟨dir, hforeign, hmem⟩
    exact hdirs dir hmem hforeign

end Filter

/-! ## The listing of a scan -/

/-- The walk reaches the files in no foreign directory whose extension is one of
    the patterns. -/
theorem reached_default_iff {es : List (String × Node)} {dirs : Place} {name : String}
    {content : ByteArray} {written : Nat} (hes : Node.wellNamedAmong es = true)
    (hfile : (Node.directory es).at? (dirs ++ [name]) = some (.file content written)) :
    Reached defaultFilter [] (.directory es) (dirs ++ [name]) ↔
      (∃ e ∈ defaultExtensions, Path.extension? name = some e) ∧
        ∀ dir ∈ dirs, dir ∉ foreignDirectories := by
  have hwell : (Node.directory es).wellNamed = true := hes
  have hnames := Node.isName_of_at? hwell hfile
  rw [← isSource_default_iff hnames]
  constructor
  · exact fun hreached => hreached.source
  · intro hsource
    obtain ⟨-, hdirs⟩ := (isSource_default_iff hnames).1 hsource
    refine ⟨⟨content, written, hfile⟩, hsource, fun a b hab ha hb => ?_⟩
    -- the last name is not in the directory, as something is behind that
    have hsub : ∀ dir ∈ a, dir ∈ dirs := by
      have hdrop := congrArg List.dropLast hab
      rw [List.dropLast_concat, List.dropLast_append_of_ne_nil hb] at hdrop
      intro dir hdir
      rw [hdrop]
      exact List.mem_append_left _ hdir
    exact (prunes_eq_false_iff ha (fun x hx => hnames x (List.mem_append_left _ (hsub x hx)))).2
      (fun dir hdir => hdirs dir (hsub dir hdir))

/-- If nothing is said, the files below a root are listed whose language is known
    and whose extension has no capital letter, those in foreign directories left
    out. -/
theorem mem_default_listing_iff {d : Disk} {root : Path} {es : List (String × Node)}
    (hroot : d.node root = .ok (.directory es)) (hes : Node.wellNamedAmong es = true) :
    ∃ paths, listPaths {} d root = .ok paths ∧
      ∀ path, path ∈ paths ↔
        ∃ dirs name content written, path = pathBelow root (dirs ++ [name]) ∧
          (Node.directory es).at? (dirs ++ [name]) = some (.file content written) ∧
          (Language.ofPath? path).isSome = true ∧
          (∀ e, Path.extension? path = some e → Text.asciiLowercase e = e) ∧
          ∀ dir ∈ dirs, dir ∉ foreignDirectories := by
  have hwell : (Node.directory es).wellNamed = true := hes
  have hrootNe := Disk.ne_empty_of_node hroot
  refine ⟨_, listPaths_of_directory ofOptions_default hroot, fun path => ?_⟩
  constructor
  · intro hpath
    obtain ⟨r, hr, rfl⟩ := List.mem_map.1 hpath
    rw [inOrder, List.mem_mergeSort, mem_sourcesAmong_iff _ [] es hes] at hr
    obtain ⟨r, rfl, hreached⟩ := hr
    obtain ⟨content, written, hfile⟩ := hreached.file
    obtain ⟨dirs, name, rfl⟩ := List.eq_nil_or_concat r |>.resolve_left hreached.ne_nil
    rw [List.concat_eq_append] at hfile hreached ⊢
    obtain ⟨⟨e, he, hsplit⟩, hdirs⟩ := (reached_default_iff hes hfile).1 hreached
    obtain ⟨hlanguage, hlower⟩ := (mem_defaultExtensions_iff e).1 he
    have hnames := Node.isName_of_at? hwell hfile
    have hextension : Path.extension? (pathBelow root (dirs ++ [name])) = some e := by
      rw [extension?_pathBelow hrootNe hnames,
        ← Path.extension?_of_isName (hnames name (by simp)), hsplit]
    refine ⟨dirs, name, content, written, rfl, hfile, ?_, fun e' he' => ?_, hdirs⟩
    · exact (ofPath?_isSome_iff _).2 ⟨e, hextension, hlanguage⟩
    · rw [hextension] at he'
      exact Option.some.inj he' ▸ hlower
  · rintro ⟨dirs, name, content, written, rfl, hfile, hlanguage, hlower, hdirs⟩
    have hnames := Node.isName_of_at? hwell hfile
    obtain ⟨e, he, hknown⟩ := (ofPath?_isSome_iff _).1 hlanguage
    rw [pathBelow_mem_iff hes hfile (by simp), reached_default_iff hes hfile]
    refine ⟨⟨e, (mem_defaultExtensions_iff e).2 ⟨hknown, hlower e he⟩, ?_⟩, hdirs⟩
    rw [Path.extension?_of_isName (hnames name (by simp)), ← extension?_pathBelow hrootNe hnames, he]

/-! ## Extensions in capital letters -/

/-- What a directory holds with two scripts, the extension of one in capital
    letters, and a third script in a foreign directory. -/
def threeScripts : List (String × Node) :=
  [("App.JS", .file ByteArray.empty 0), ("app.js", .file ByteArray.empty 0),
    ("dist", .directory [("app.js", .file ByteArray.empty 0)])]

/-- A disk with this directory. -/
def threeScriptsDisk : Disk := { top := .directory [("proj", .directory threeScripts)] }

/-- The script whose extension is in small letters is listed. -/
theorem threeScripts_listed : ∃ paths, listPaths {} threeScriptsDisk "proj" = .ok paths ∧
    "proj/app.js" ∈ paths := by
  obtain ⟨paths, hpaths, hiff⟩ := mem_default_listing_iff
    (show threeScriptsDisk.node "proj" = .ok (.directory threeScripts) from rfl) (by decide)
  refine ⟨paths, hpaths, (hiff "proj/app.js").2 ⟨[], "app.js", ByteArray.empty, 0, ?_, rfl, ?_, ?_, ?_⟩⟩
  · decide +kernel
  · decide +kernel
  · have hextension : Path.extension? "proj/app.js" = some "js" := by decide +kernel
    intro e he
    rw [hextension] at he
    obtain rfl := Option.some.inj he
    decide +kernel
  · intro dir hdir
    cases hdir

/-- The other one is a script in no foreign directory, and it is not listed. -/
theorem threeScripts_not_listed :
    threeScriptsDisk.node "proj" = .ok (.directory threeScripts) ∧
    (Node.directory threeScripts).at? ["App.JS"] = some (.file ByteArray.empty 0) ∧
    Language.ofPath? (pathBelow "proj" ["App.JS"]) = some .script ∧
    ∃ paths, listPaths {} threeScriptsDisk "proj" = .ok paths ∧
      pathBelow "proj" ["App.JS"] ∉ paths := by
  have hroot : threeScriptsDisk.node "proj" = .ok (.directory threeScripts) := rfl
  have hnone : sourcesAmong defaultFilter [] threeScripts = [["app.js"]] := by
    decide +kernel
  refine ⟨hroot, rfl, by decide +kernel, _, listPaths_of_directory ofOptions_default hroot, ?_⟩
  rw [hnone, inOrder, List.mergeSort_singleton]
  decide +kernel

end WebBaseline.Scan

/-
  WebBaseline.Proofs.Files.Write

  A file that is written at a path is what the path leads to then, and its text
  is read back (`write_eq_put`, `node_put`, `readText_of_node`).
-/

import WebBaseline.Proofs.Files.Entry

namespace WebBaseline.Files

@[simp] theorem fromUTF8?_toUTF8 (s : String) : String.fromUTF8? s.toUTF8 = some s := by
  have hvalid : s.toUTF8.IsValidUTF8 := s.isValidUTF8
  rw [String.fromUTF8?, dif_pos hvalid]
  rfl

namespace Disk

/-! ## Writing -/

/-- A file can be written at a path: it leads to a place, and no directory is
    there. -/
def IsWritable (d : Disk) (path : Path) : Prop :=
  ∃ p, d.place true path = .ok p ∧ ∀ es, d.top.at? p ≠ some (.directory es)

/-- A path with a slash at its end leads to a directory, if anywhere. -/
theorem exists_directory_of_blank {d : Disk} {path : Path} {p : Place}
    (h : d.place true path = .ok p) (hlast : (Path.names path).getLast? = some "") :
    ∃ es, d.top.at? p = some (.directory es) := by
  obtain ⟨-, hwalk⟩ := place_eq_ok_iff.1 h
  obtain ⟨before, hnames⟩ := List.getLast?_eq_some_iff.1 hlast
  obtain ⟨m, hm⟩ := walk_append d.top true maxLinks (d.start (Path.names path)) before
    (List.cons_ne_nil "" [])
  rw [hnames] at hwalk hm
  rw [hm] at hwalk
  cases hw : walk d.top true maxLinks (d.start (before ++ [""])) before with
  | error fault =>
    rw [hw] at hwalk
    cases hwalk
  | ok q =>
    rw [hw] at hwalk
    exact (walk_blank_eq_ok_iff.1 hwalk).2

/-- What is written at a path goes to the place that the path leads to. -/
theorem write_eq_put {d : Disk} {path : Path} {p : Place} (hplace : d.place true path = .ok p)
    (hno : ∀ es, d.top.at? p ≠ some (.directory es)) (content : ByteArray) :
    d.write path content = .ok (d.put p content) := by
  have hlast : (Path.names path).getLast? ≠ some "" := by
    intro hblank
    obtain ⟨es, hes⟩ := exists_directory_of_blank hplace hblank
    exact hno es hes
  obtain ⟨hok, hwalk⟩ := place_eq_ok_iff.1 hplace
  have hplaceOf : d.placeOf true (Path.names path) = .ok p := hwalk
  obtain ⟨before, last, hnames⟩ :=
    (List.eq_nil_or_concat _).resolve_left (Path.names_ne_nil path)
  rw [List.concat_eq_append] at hnames
  have hdrop : (Path.names path).reverse.dropWhile (· = "") = last :: before.reverse := by
    have hne : last ≠ "" := fun heq => hlast (by rw [hnames, List.getLast?_concat, heq])
    rw [hnames, List.reverse_concat, List.dropWhile_cons_of_neg (by simpa using hne)]
  simp only [write, bind, Except.bind, hok, hdrop, if_neg hlast, hplaceOf]

/-- A file that is written at a path is what the path leads to. -/
theorem node_put {d : Disk} {path : Path} {p : Place} (hplace : d.place true path = .ok p)
    (hno : ∀ es, d.top.at? p ≠ some (.directory es)) (content : ByteArray) :
    (d.put p content).node path = .ok (.file content d.now) := by
  obtain ⟨hok, hwalk⟩ := place_eq_ok_iff.1 hplace
  obtain ⟨es, hes⟩ | ⟨q, name, es, rfl, hq, hlink⟩ := isEnd_of_walk (Path.names_ne_nil path) hwalk
  · exact absurd hes (hno es)
  have hfile : ∀ n, es.lookup name = some n → n.isFile = true := by
    intro n hn
    cases n with
    | file content written => rfl
    | link target => exact absurd hn (hlink target)
    | directory fs => exact absurd ((Node.at?_snoc hq name).trans hn) (hno fs)
  have hat : (d.put (q ++ [name]) content).top.at? (q ++ [name]) =
      some (.file content d.now) := by
    show (Node.change _ (q ++ [name]) d.top).at? (q ++ [name]) = _
    rw [Node.at?_snoc (Node.at?_change hq name _), Node.lookup_changeEntry, if_pos rfl]
  refine node_eq_ok_iff.2 ⟨q ++ [name], place_eq_ok_iff.2 ⟨hok, ?_⟩, hat⟩
  refine walk_keepsWays (Node.keepsWays_change hq hfile _) (fun target hnew => ?_) hwalk
  -- what is at the end of the way is the new file, and no link
  cases hat.symm.trans hnew

/-- The text that a file was written with is read back. -/
theorem readText_of_node {d : Disk} {path : Path} {text : String} {written : Nat}
    (h : d.node path = .ok (.file text.toUTF8 written)) : d.readText path = .ok text := by
  simp only [readText, readBytes, bind, Except.bind, h, textOf, fromUTF8?_toUTF8]

end Disk

end WebBaseline.Files

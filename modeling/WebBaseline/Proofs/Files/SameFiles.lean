/-
  WebBaseline.Proofs.Files.SameFiles

  Which files and links a change of the disk concerns.

    * two disks are the `SameBut` at some places if every other place has the same
      file or link in both, or none in both;
    * giving up one file of a directory, or a name of no entry, for something else
      concerns one place (`sameBut_change`), and making directories none
      (`sameBut_makeDirectories`).

  Places are told from the top, without links: they are where files are, however a
  path leads there.
-/

import WebBaseline.Proofs.Files.Directories

namespace WebBaseline.Files

namespace Node

/-- What is in a changed tree at the place of the change or below it: what was put
    there, or what was there before if the change found no directory. -/
theorem at?_change_below (new : Option Node) (t : Node) {p : Place} (hp : p ≠ []) (r : Place) :
    (change new p t).at? (p ++ r) = new.bind (fun n => n.at? r) ∨
      (change new p t).at? (p ++ r) = t.at? (p ++ r) := by
  induction p generalizing t with
  | nil => exact absurd rfl hp
  | cons a p ih =>
    cases t with
    | file content written => exact Or.inr (by cases p <;> rfl)
    | link target => exact Or.inr (by cases p <;> rfl)
    | directory es =>
      rw [List.cons_append]
      by_cases hp' : p = []
      · subst hp'
        rw [change, at?_directory_cons, lookup_changeEntry, if_pos rfl, List.nil_append]
        exact Or.inl rfl
      · rw [change_cons hp']
        cases hn : es.lookup a with
        | none => exact Or.inr rfl
        | some n =>
          dsimp only
          rw [at?_directory_cons, at?_directory_cons, lookup_changeEntry, if_pos rfl, hn]
          exact ih n hp'

end Node

namespace Disk

/-- Whether two disks have the same files and links, except at some places. -/
def SameBut (changed : Place → Prop) (d d' : Disk) : Prop :=
  ∀ q n, ¬ changed q → n.isDirectory = false → (d.top.at? q = some n ↔ d'.top.at? q = some n)

section SameBut

variable {changed more : Place → Prop} {d d' d'' : Disk}

theorem SameBut.refl (changed : Place → Prop) (d : Disk) : SameBut changed d d :=
  fun _ _ _ _ => Iff.rfl

theorem SameBut.trans (h : SameBut changed d d') (h' : SameBut changed d' d'') :
    SameBut changed d d'' := fun q n hq hn => (h q n hq hn).trans (h' q n hq hn)

theorem SameBut.mono (h : SameBut changed d d') (hmore : ∀ q, changed q → more q) :
    SameBut more d d' := fun q n hq hn => h q n (fun hc => hq (hmore q hc)) hn

end SameBut

/-! ## One file -/

theorem directory_ne {n : Node} (hn : n.isDirectory = false) (es : List (String × Node)) :
    some (Node.directory es) ≠ some n := by
  intro heq
  cases heq
  cases hn

/-- Nothing lies below a file. -/
theorem at?_below_file {n : Node} (hn : n.isFile = true) {r : Place} (hr : r ≠ []) :
    n.at? r = none := by
  cases n with
  | link target => cases hn
  | directory es => cases hn
  | file content written =>
    cases r with
    | nil => exact absurd rfl hr
    | cons a r => rfl

/-- Where a file of a directory, or a name of no entry, is given up for a file or
    for nothing, every other file stays. -/
theorem sameBut_change {d : Disk} {p : Place} {es : List (String × Node)} {name : String}
    (hp : d.top.at? p = some (.directory es))
    (hfile : ∀ n, es.lookup name = some n → n.isFile = true) (new : Option Node)
    (hnew : ∀ n, new = some n → n.isFile = true) :
    SameBut (fun q => q = p ++ [name]) d (d.change (p ++ [name]) new) := by
  have hbelow : ∀ {entry : Option Node}, (∀ n, entry = some n → n.isFile = true) →
      ∀ {r : Place}, r ≠ [] → entry.bind (fun n => n.at? r) = none := by
    intro entry hentry r hr
    cases entry with
    | none => rfl
    | some n => exact at?_below_file (hentry n rfl) hr
  intro q n hq hn
  rcases Node.at?_change_cases hp name new q with ⟨fs, gs, hfs, hgs⟩ | ⟨r, rfl, hold, hnow⟩ | hsame
  · -- on the way to the change there are directories
    rw [hfs]
    exact iff_of_false (directory_ne hn fs) (fun heq => directory_ne hn gs (hgs.symm.trans heq))
  · have hr : r ≠ [] := by
      rintro rfl
      exact hq rfl
    rw [hold, hbelow hfile hr]
    refine iff_of_false (by simp) (fun heq => ?_)
    cases (hbelow hnew hr).symm.trans (hnow.symm.trans heq)
  · rw [← hsame]
    rfl

/-! ## New directories -/

/-- A new directory where there was nothing leaves all files. -/
theorem sameBut_newDirectory {d : Disk} {p : Place} (hp : d.top.at? p = none) :
    SameBut (fun _ => False) d (d.change p (some (.directory []))) := by
  have hne : p ≠ [] := by
    rintro rfl
    cases hp
  intro q n _ hn
  rcases Node.at?_change_elsewhere (some (.directory [])) d.top p q with
    ⟨r, rfl⟩ | ⟨fs, gs, hfs, hgs⟩ | hsame
  · -- at the place there is a directory now, and nothing below it
    have hnew : (some (Node.directory [])).bind (fun m => m.at? r) ≠ some n := by
      cases r with
      | nil => exact directory_ne hn []
      | cons a r => exact fun heq => nomatch heq
    have hold := Node.at?_append_of_missing hp r
    rw [hold]
    refine iff_of_false (by simp) (fun heq => ?_)
    rcases Node.at?_change_below (some (.directory [])) d.top hne r with hbelow | hbelow
    · exact hnew (hbelow.symm.trans heq)
    · cases hold.symm.trans (hbelow.symm.trans heq)
  · rw [hfs]
    exact iff_of_false (directory_ne hn fs) (fun heq => directory_ne hn gs (hgs.symm.trans heq))
  · rw [← hsame]
    rfl

theorem sameBut_makeDirectoryAt {d d' : Disk} {names : List String}
    (h : d.makeDirectoryAt names = .ok d') : SameBut (fun _ => False) d d' := by
  simp only [makeDirectoryAt, bind, Except.bind] at h
  split at h
  · cases h
  · split at h
    · cases h
    · next p _ hp =>
      obtain rfl := Except.ok.inj h
      exact sameBut_newDirectory hp

theorem sameBut_makeDirectories {d made : Disk} {path : Path}
    (h : d.makeDirectories path = .ok made) : SameBut (fun _ => False) d made := by
  have hmade : made = (d.tryDirectories path).2 := by rw [makeDirectories_eq_ok_iff.1 h]
  rw [hmade]
  exact rel_tryDirectories (SameBut.refl _) SameBut.trans sameBut_makeDirectoryAt d path

end Disk

end WebBaseline.Files

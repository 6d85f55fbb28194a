/-
  WebBaseline.Proofs.Settings.File

  Settings that are saved are loaded again, and settings that cannot be saved
  leave every file as it was (`load_save`).

    * `HasRoom` says that a file can be put at a path: in a directory that is
      there (`hasRoom_of_isWritable`) or in one that is made first
      (`hasRoom_of_missing`);
    * `exists_save_of_hasRoom` and `save_of_toToml?_eq_none` say what saving comes
      to, as far as the settings have a document.
-/

import WebBaseline.Proofs.Files.Directories
import WebBaseline.Proofs.Files.Write
import WebBaseline.Proofs.Settings.Toml
import WebBaseline.Settings.File

namespace WebBaseline.Settings

open WebBaseline.Files (AsksByName Disk Node Path Place maxLinks walk)
open WebBaseline.Files.Disk (KeepsFiles)

/-- A place for a file: the directory that it is to lie in is there or can be
    made, and then the path leads to no directory. -/
def HasRoom (d : Disk) (path : Path) : Prop :=
  (withDirectory d path).1 = .ok () ∧ (withDirectory d path).2.IsWritable path

/-- Where a path leads to a file or to nothing, in a directory that is there, there
    is room. -/
theorem hasRoom_of_isWritable {d : Disk} {path : Path} (h : d.IsWritable path) :
    HasRoom d path := by
  obtain ⟨p, hplace, hno⟩ := h
  obtain ⟨parent, hparent, hthere⟩ := Disk.has_parent hplace hno
  have hsame : withDirectory d path = (.ok (), d) := by
    rw [withDirectory, hparent]
    rcases hthere with rfl | hhas
    · rfl
    · exact if_pos hhas
  rw [HasRoom, hsame]
  exact ⟨rfl, p, hplace, hno⟩

/-- Where a path names entries one in another, the first of which is missing in a
    directory that is there, there is room. -/
theorem hasRoom_of_missing {d : Disk} {path : Path} {front : List String} {name last : String}
    {more : List String} {p : Place} {es : List (String × Node)}
    (hok : Disk.namesOf path = .ok (front ++ name :: more ++ [last]))
    (hnames : ∀ m ∈ name :: more, AsksByName m) (hlast : AsksByName last)
    (hfront : walk d.top true maxLinks (d.start (front ++ [name])) front = .ok p)
    (hp : d.top.at? p = some (.directory es)) (hmissing : es.lookup name = none) :
    HasRoom d path := by
  obtain ⟨parent, made, q, hparent, hno, hmade, hplace, hq⟩ :=
    Disk.exists_tryDirectories_parent hok hnames hlast hfront hp hmissing
  have hdir : withDirectory d path = (.ok (), made) := by
    rw [withDirectory, hparent]
    simp only [hno, Bool.false_eq_true, if_false, hmade]
  rw [HasRoom, hdir]
  exact ⟨rfl, q, hplace, fun es hes => by cases hq.symm.trans hes⟩

/-- Making the directory for a file keeps all files. -/
theorem keepsFiles_withDirectory (d : Disk) (path : Path) :
    KeepsFiles d (withDirectory d path).2 := by
  rw [withDirectory]
  split
  · split
    · exact KeepsFiles.refl d
    · exact Disk.keepsFiles_tryDirectories d _
  · exact KeepsFiles.refl d

/-- Settings in a file with their document are loaded. -/
theorem load_of_node {s : Settings} {text : String} (htext : s.toToml? = some text) {d : Disk}
    {path : Path} {written : Nat} (hnode : d.node path = .ok (.file text.toUTF8 written)) :
    load d path = .ok s := by
  have hhas : d.has path = true := by
    rw [Disk.has, hnode]
    rfl
  rw [load, hhas, Disk.readText_of_node hnode]
  simp only [ofToml?_toToml? htext, Bool.not_true, Bool.false_eq_true, if_false]

/-- Settings that can be written are in the file after they were saved. -/
theorem exists_save_of_hasRoom {s : Settings} {text : String} (htext : s.toToml? = some text)
    {d : Disk} {path : Path} (hroom : HasRoom d path) :
    ∃ saved written, s.save d path = (.ok (), saved) ∧
      saved.node path = .ok (.file text.toUTF8 written) := by
  obtain ⟨hmade, p, hplace, hno⟩ := hroom
  rw [save]
  cases hdir : withDirectory d path with
  | mk result made =>
    rw [hdir] at hmade hplace hno
    obtain rfl : result = .ok () := hmade
    refine ⟨made.put p text.toUTF8, made.now, ?_, Disk.node_put hplace hno text.toUTF8⟩
    simp only [htext, Disk.write_eq_put hplace hno]

/-- Settings that cannot be written are not saved; at most the directory for the
    file is made. -/
theorem save_of_toToml?_eq_none {s : Settings} (htext : s.toToml? = none) (d : Disk)
    (path : Path) :
    (∃ fault, (s.save d path).1 = .error fault) ∧
      (s.save d path).2 = (withDirectory d path).2 := by
  rw [save]
  obtain ⟨result, made⟩ := withDirectory d path
  cases result with
  | error fault => exact ⟨⟨_, rfl⟩, rfl⟩
  | ok =>
    refine ⟨⟨.tooGreat, ?_⟩, ?_⟩
    · simp only [htext]
    · simp only [htext]

/-- Settings with numbers that fit are saved where there is room and loaded
    again, whatever the file held; otherwise saving fails and every file stays as
    it was. -/
theorem load_save (s : Settings) (d : Disk) (path : Path) :
    (s.NumbersFit → HasRoom d path →
      ∃ saved, s.save d path = (.ok (), saved) ∧ load saved path = .ok s) ∧
    (¬ s.NumbersFit →
      (∃ fault, (s.save d path).1 = .error fault) ∧ KeepsFiles d (s.save d path).2) := by
  constructor
  · intro hfit hroom
    obtain ⟨text, htext⟩ := Option.isSome_iff_exists.1 ((toToml?_isSome_iff s).2 hfit)
    obtain ⟨saved, written, hsave, hnode⟩ := exists_save_of_hasRoom htext hroom
    exact ⟨saved, hsave, load_of_node htext hnode⟩
  · intro hunfit
    have htext : s.toToml? = none := by
      rw [← Option.not_isSome_iff_eq_none, toToml?_isSome_iff]
      exact hunfit
    obtain ⟨hfault, hdisk⟩ := save_of_toToml?_eq_none htext d path
    exact ⟨hfault, hdisk ▸ keepsFiles_withDirectory d path⟩

/-- A disk with a settings file. -/
def oldFile : Disk :=
  { top := .directory [("etc", .directory [("config.toml", .file "format = 1\n".toUTF8 0)])] }

/-- Settings with patterns that need quotes of several kinds. -/
def oddPatterns : Settings :=
  { includes := ["a\x22b", "it\x27s \x22\\", "two\nlines\x00"], timeout := 9223372036854775807 }

/-- Settings with a number that is too great. -/
def endless : Settings := { keepHours := 9223372036854775808 }

/-- A settings file is written over and one in a new directory is written; what
    cannot be written leaves the old file. -/
theorem oldFile_saved :
    (∃ saved, oddPatterns.save oldFile "/etc/config.toml" = (.ok (), saved) ∧
      load saved "/etc/config.toml" = .ok oddPatterns) ∧
    (∃ saved, oddPatterns.save oldFile "/nested/config.toml" = (.ok (), saved) ∧
      load saved "/nested/config.toml" = .ok oddPatterns) ∧
    (∃ fault, (endless.save oldFile "/etc/config.toml").1 = .error fault) ∧
      KeepsFiles oldFile (endless.save oldFile "/etc/config.toml").2 := by
  have hfit : oddPatterns.NumbersFit := by decide
  have hover : HasRoom oldFile "/etc/config.toml" :=
    hasRoom_of_isWritable ⟨["etc", "config.toml"], by decide, fun es h => by cases h⟩
  have hnew : HasRoom oldFile "/nested/config.toml" := by
    have hnested : ∀ m ∈ ["nested"], AsksByName m := by decide
    have hok : Disk.namesOf "/nested/config.toml" =
        .ok ([""] ++ "nested" :: [] ++ ["config.toml"]) := by decide
    have hfront : walk oldFile.top true maxLinks (oldFile.start ([""] ++ ["nested"])) [""] =
        .ok [] := by decide
    exact hasRoom_of_missing hok hnested (by decide) hfront rfl (by decide)
  exact ⟨(load_save oddPatterns oldFile "/etc/config.toml").1 hfit hover,
    (load_save oddPatterns oldFile "/nested/config.toml").1 hfit hnew,
    (load_save endless oldFile "/etc/config.toml").2 (by decide)⟩

end WebBaseline.Settings

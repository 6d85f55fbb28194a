/-
  WebBaseline.Scan.Listing

  The files below a root that a scan looks at: those that a filter accepts and
  whose language is known, in the order of their paths. Links are not followed,
  the root apart.
-/

import WebBaseline.Feature.Language
import WebBaseline.Scan.Options

namespace WebBaseline.Scan

open WebBaseline.Feature (Language)
open WebBaseline.Files (Disk Fault Node Path Place)

/-! ## Files in a tree -/

/-- Names as a path. -/
def placeText (p : Place) : String := "/".intercalate p

/-- Whether a file at a place is to be looked at. -/
def isSource (f : PathFilter) (p : Place) : Bool :=
  f.accepts (placeText p) && p.getLast?.any (fun name => (Language.ofPath? name).isSome)

mutual

/-- The places of the files to look at in a tree that is found at a place. -/
def sourcesIn (f : PathFilter) (p : Place) : Node → List Place
  | .file _ _ => if isSource f p then [p] else []
  | .link _ => []
  | .directory entries => sourcesAmong f p entries

/-- The places of the files to look at in and below the entries of a directory. -/
def sourcesAmong (f : PathFilter) (p : Place) : List (String × Node) → List Place
  | [] => []
  | (name, n) :: rest =>
    (if n.isDirectory && f.prunes (placeText (p ++ [name])) then []
      else sourcesIn f (p ++ [name]) n) ++
      sourcesAmong f p rest

end

/-! ## Order -/

/-- Whether one place does not come after another, name by name. -/
def placeLE : Place → Place → Bool
  | [], _ => true
  | _ :: _, [] => false
  | a :: as, b :: bs => a < b || (a == b && placeLE as bs)

/-- Places in their order. -/
def inOrder (places : List Place) : List Place := places.mergeSort placeLE

/-! ## Listing -/

/-- The path of a place below a root. -/
def pathBelow (root : Path) (p : Place) : Path :=
  match p with
  | [] => root
  | _ => Path.entry root (placeText p)

/-- The places of the files to look at in the tree that a root path leads to. A
    root that is itself a file counts if the filter accepts nothing but a name. -/
def sourcesOf (f : PathFilter) (root : Path) : Node → List Place
  | .file _ _ => if f.accepts "" && (Language.ofPath? root).isSome then [[]] else []
  | .link _ => []
  | .directory entries => inOrder (sourcesAmong f [] entries)

/-- What a root path leads to; a link is followed to a directory only. -/
def rootNode (d : Disk) (root : Path) : Except Fault Node := do
  match ← (d.place false root).bind d.nodeAt with
  | .link target =>
    match ← d.node root with
    | .directory entries => return .directory entries
    | _ => return .link target
  | n => return n

/-- The places of the files below a root that a scan with some options looks at. -/
def listFiles (o : Options) (d : Disk) (root : Path) : Except ScanFault (List Place) :=
  match PathFilter.ofOptions o with
  | .error fault => .error fault
  | .ok f =>
    match rootNode d root with
    | .error fault => .error (.walk root fault)
    | .ok n => .ok (sourcesOf f root n)

/-- The paths of the files below a root that a scan looks at. -/
def listPaths (o : Options) (d : Disk) (root : Path) : Except ScanFault (List Path) :=
  (listFiles o d root).map (fun places => places.map (pathBelow root))

end WebBaseline.Scan

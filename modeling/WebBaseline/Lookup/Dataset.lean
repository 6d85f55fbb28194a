/-
  WebBaseline.Lookup.Dataset

  A dataset of features by key, and how a feature is found in it: under exactly
  its key, or else as the first entry one of whose terms is close to it.
-/

import WebBaseline.Baseline.Info
import WebBaseline.Text.EditDistance

namespace WebBaseline.Lookup

open WebBaseline.Baseline (Info Status Tier)
open WebBaseline.Data (KeyMap)

/-! ## Entries -/

/-- What an entry says about the standing of its feature. -/
structure Standing where
  /-- Absent where the entry says something that is no tier. -/
  tier : Option Tier
  lowDate : Option String := none
  highDate : Option String := none
  support : KeyMap String := KeyMap.empty
  deriving DecidableEq, Inhabited

/-- An entry of a dataset. -/
structure Entry where
  name : String
  description : Option String := none
  spec : Option String := none
  /-- Other names of the feature. -/
  aliases : List String := []
  standing : Option Standing := none
  deriving DecidableEq, Inhabited

namespace Entry

/-- What the entry says about its feature, if it states a tier. -/
def info? (e : Entry) : Option Info := do
  let standing ← e.standing
  let tier ← standing.tier
  return {
    status := Status.ofTier (some tier)
    lowDate := standing.lowDate
    highDate := standing.highDate
    support := some standing.support
    description := e.description
    spec := e.spec }

/-- All names of an entry. -/
def terms (key : String) (e : Entry) : List String := key :: e.name :: e.aliases

end Entry

/-! ## Names that are close -/

/-- Beginnings that do not matter when names are compared. -/
def namespaces : List String := ["css-", "html-", "js-", "navigator-", "window."]

/-- A text without a beginning, if it has it. -/
def behind? (start cs : List Char) : Option (List Char) :=
  if start.isPrefixOf cs then some (cs.drop start.length) else none

/-- A text without an end, if it has it. -/
def without (ending cs : List Char) : List Char :=
  if ending.isSuffixOf cs then cs.take (cs.length - ending.length) else cs

/-- A name in small letters, without a namespace, without an empty argument list
    at its end, without hyphens and underscores. -/
def normalForm (name : String) : List Char :=
  let lower := (Text.lowercase name).toList
  let bare := (namespaces.findSome? (fun n => behind? n.toList lower)).getD lower
  (without ['(', ')'] bare).filter (fun c => c != '-' && c != '_')

/-- How many changes two names may be apart. -/
def tolerance : Nat := 2

/-- Whether a text occurs in another one. -/
def occursIn (part : List Char) : List Char → Bool
  | [] => part.isEmpty
  | c :: cs => part.isPrefixOf (c :: cs) || occursIn part cs

theorem occursIn_iff {part whole : List Char} : occursIn part whole = true ↔ part <:+: whole := by
  induction whole with
  | nil => rw [occursIn, List.isEmpty_iff, List.infix_nil]
  | cons c cs ih =>
    rw [occursIn, Bool.or_eq_true, ih, List.isPrefixOf_iff_prefix, List.infix_cons_iff]

/-- Whether a term is close to what is wanted; both in normal form. -/
def isClose (wanted term : List Char) : Bool :=
  !term.isEmpty &&
    (occursIn wanted term || occursIn term wanted ||
      decide (Text.editDistance wanted term ≤ tolerance))

/-! ## Datasets -/

/-- Entries by key. -/
structure Dataset where
  entries : KeyMap Entry
  deriving Inhabited

namespace Dataset

/-- How many entries there are. -/
def size (d : Dataset) : Nat := d.entries.size

/-- Whether there are no entries. -/
def isEmpty (d : Dataset) : Bool := d.entries.isEmpty

/-- What the entry under exactly this key says. -/
def atKey? (d : Dataset) (key : String) : Option Info := (d.entries.get? key).bind Entry.info?

/-- What an entry says, if one of its terms is close to what is wanted. -/
def closeInfo? (wanted : List Char) (e : String × Entry) : Option Info :=
  if (e.2.terms e.1).any (fun t => isClose wanted (normalForm t)) then e.2.info? else none

/-- What the first close entry says, in the order of keys. -/
def close? (d : Dataset) (wanted : List Char) : Option Info :=
  if wanted.isEmpty then none else d.entries.entries.findSome? (closeInfo? wanted)

/-- What the dataset says about a feature. -/
def lookup (d : Dataset) (feature : String) : Option Info :=
  (d.atKey? feature).or (d.close? (normalForm feature))

end Dataset

end WebBaseline.Lookup

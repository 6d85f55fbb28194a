/-
  WebBaseline.Proofs.Store.Expiry

  How long kept answers count, against the hours that the settings give.

    * the seconds of some hours are formed in 64 bits, so they are the product up to
      multiples of `2 ^ 64` (`toNat_ofHours`), and fewer than the product once it
      does not fit (`toNat_ofHours_lt`);
    * a cache `Honours` some hours if it gives up exactly what is older than them;
      that of some settings does so exactly if the seconds fit
      (`honours_cacheFor_iff`);
    * `get_of_file` says what becomes of a file that is looked up.

  Ages are counted in nanoseconds, as the clock of the disk does. Hours whose
  seconds do not fit are honoured by none of the caches made for them: some such
  cache gives up everything at once.
-/

import Mathlib.Algebra.Order.Ring.Nat
import WebBaseline.CommandLine.Run
import WebBaseline.Proofs.Store.DiskCache

namespace WebBaseline.Store

open WebBaseline.Files (Disk)
open WebBaseline.Json (Value)

namespace DiskCache

/-! ## Hours in seconds -/

/-- How many seconds fit in 64 bits. -/
def maxSeconds : Nat := 2 ^ 64

/-- Whether the seconds of some hours fit. -/
def HoursFit (hours : UInt64) : Prop := hours.toNat * 3600 < maxSeconds

instance (hours : UInt64) : Decidable (HoursFit hours) := inferInstanceAs (Decidable (_ < _))

theorem toNat_ofHours (hours : UInt64) :
    (ofHours hours).toNat = hours.toNat * 3600 % maxSeconds := UInt64.toNat_mul hours 3600

theorem toNat_ofHours_of_fit {hours : UInt64} (h : HoursFit hours) :
    (ofHours hours).toNat = hours.toNat * 3600 := by
  rw [toNat_ofHours, Nat.mod_eq_of_lt h]

/-- Seconds that do not fit become fewer. -/
theorem toNat_ofHours_lt {hours : UInt64} (h : ¬ HoursFit hours) :
    (ofHours hours).toNat < hours.toNat * 3600 := by
  have hlong : maxSeconds ≤ hours.toNat * 3600 := Nat.not_lt.1 h
  have hshort : (ofHours hours).toNat < maxSeconds := UInt64.toNat_lt (ofHours hours)
  exact Nat.lt_of_lt_of_le hshort hlong

/-! ## What has expired -/

/-- Whether a cache gives up exactly what is older than some hours. -/
def Honours (c : DiskCache) (hours : Nat) : Prop :=
  ∀ written now, c.isExpired written now = true ↔ hours * 3600 * 1000000000 < now - written

theorem honours_iff {c : DiskCache} {hours : Nat} :
    c.Honours hours ↔ c.ttl.toNat = hours * 3600 := by
  constructor
  · intro h
    -- what is as old as one limit shows that the other one is not smaller
    have hcache := (not_congr (h 0 (c.ttl.toNat * 1000000000))).1
      (fun hexpired => Nat.lt_irrefl _ (isExpired_iff.1 hexpired))
    have hhours := (not_congr (h 0 (hours * 3600 * 1000000000))).2 (Nat.lt_irrefl _)
    have hle := Nat.not_lt.1 hcache
    have hge := Nat.not_lt.1 (fun hlt => hhours (isExpired_iff.2 hlt))
    have hnanos : 0 < 1000000000 := by decide
    exact Nat.le_antisymm (Nat.le_of_mul_le_mul_right hle hnanos)
      (Nat.le_of_mul_le_mul_right hge hnanos)
  · intro h written now
    rw [isExpired_iff, h]

/-- Hours are honoured exactly if their seconds fit. -/
theorem honours_ofHours_iff {c : DiskCache} {hours : UInt64} (hc : c.ttl = ofHours hours) :
    c.Honours hours.toNat ↔ HoursFit hours := by
  rw [honours_iff, hc]
  constructor
  · intro h
    refine Decidable.byContradiction fun hlong => ?_
    exact absurd h (Nat.ne_of_lt (toNat_ofHours_lt hlong))
  · exact toNat_ofHours_of_fit

/-- A cache that honours more hours keeps whatever one that honours fewer keeps. -/
theorem Honours.isExpired_of_le {c longer : DiskCache} {hours more : Nat} (h : c.Honours hours)
    (hlonger : longer.Honours more) (hle : hours ≤ more) {written now : Nat}
    (hfresh : c.isExpired written now = false) : longer.isExpired written now = false := by
  refine Bool.eq_false_iff.2 (fun hexpired => Bool.eq_false_iff.1 hfresh ((h written now).2 ?_))
  have hmore : hours * 3600 * 1000000000 ≤ more * 3600 * 1000000000 :=
    Nat.mul_le_mul_right _ (Nat.mul_le_mul_right _ hle)
  exact Nat.lt_of_le_of_lt hmore ((hlonger written now).1 hexpired)

/-- A file that is looked up is removed if it has expired, and read otherwise. -/
theorem get_of_file {α : Type} {c : DiskCache} (read : Value → Option α) {key : String} {d : Disk}
    {content : ByteArray} {written : Nat}
    (hfile : d.node (c.path key) = .ok (.file content written)) :
    c.get read key d =
      if c.isExpired written d.now then (none, (d.removeFile (c.path key)).toOption.getD d)
      else (valueOf? read content, d) := by
  rw [get, hfile]

end DiskCache

end WebBaseline.Store

/-! ## The hours of the settings -/

namespace WebBaseline.CommandLine

open WebBaseline.Baseline (Info)
open WebBaseline.Files (Disk Path)
open WebBaseline.Json (Value)
open WebBaseline.Lookup (Service Source cacheKey)
open WebBaseline.Store (DiskCache)

variable {σ : Type}

/-- Where the answers of the search service are kept with some settings. -/
def cacheFor (around : Surroundings) (s : Settings) : DiskCache where
  dir := around.cacheDir
  ttl := DiskCache.ofHours s.keepHours

theorem sourcesFor_of_remote (around : Surroundings) (service : Service σ) {s : Settings}
    (h : s.remote = true) :
    sourcesFor around service s =
      Source.offline around.today ++ [Source.remote service (some (cacheFor around s))] := by
  rw [sourcesFor, h]
  rfl

theorem honours_cacheFor_iff (around : Surroundings) (s : Settings) :
    (cacheFor around s).Honours s.keepHours.toNat ↔ DiskCache.HoursFit s.keepHours :=
  DiskCache.honours_ofHours_iff rfl

/-- The search service is asked through the cache of the settings. If the seconds of
    their hours fit in 64 bits, and only then, that cache counts as expired exactly
    what is older than the hours: a file that it looks up is read up to that age and
    removed from then on, and settings with fewer hours keep nothing that these do
    not. -/
theorem kept_for_hours (around : Surroundings) (service : Service σ) (s : Settings) :
    (s.remote = true → sourcesFor around service s =
      Source.offline around.today ++ [Source.remote service (some (cacheFor around s))]) ∧
    ((∀ written now, (cacheFor around s).isExpired written now = true ↔
        s.keepHours.toNat * 3600 * 1000000000 < now - written) ↔
      s.keepHours.toNat * 3600 < 2 ^ 64) ∧
    (s.keepHours.toNat * 3600 < 2 ^ 64 →
      (∀ (α : Type) (read : Value → Option α) key d content written,
        d.node ((cacheFor around s).path key) = .ok (.file content written) →
        (cacheFor around s).get read key d =
          if s.keepHours.toNat * 3600 * 1000000000 < d.now - written then
            (none, (d.removeFile ((cacheFor around s).path key)).toOption.getD d)
          else (DiskCache.valueOf? read content, d)) ∧
      ∀ less : Settings, less.keepHours ≤ s.keepHours → ∀ written now,
        (cacheFor around less).isExpired written now = false →
        (cacheFor around s).isExpired written now = false) := by
  refine ⟨sourcesFor_of_remote around service, honours_cacheFor_iff around s, fun hfit => ?_⟩
  have hhonours := (honours_cacheFor_iff around s).2 hfit
  constructor
  · intro α read key d content written hfile
    have hexpired := hhonours written d.now
    rw [DiskCache.get_of_file read hfile]
    simp only [hexpired]
  · intro less hle written now hfresh
    have hle' : less.keepHours.toNat ≤ s.keepHours.toNat := UInt64.le_iff_toNat_le.1 hle
    -- fewer hours fit as well
    have hless : DiskCache.HoursFit less.keepHours :=
      Nat.lt_of_le_of_lt (Nat.mul_le_mul_right 3600 hle') hfit
    exact ((honours_cacheFor_iff around less).2 hless).isExpired_of_le hhonours hle' hfresh

/-! ## A day, and hours without end -/

/-- Surroundings with a cache directory. -/
def smallHome : Surroundings where
  settingsFile := "/config.toml"
  cacheDir := "/cache"
  today := ⟨2025, 6, 15, by decide⟩
  now := ⟨⟨2025, 6, 15, by decide⟩, 0, 0, 0, 0⟩

/-- A disk at a time, with a kept answer that was written at the start of time, and
    settings whose hours are the sixteenth part of what fits. -/
def homeDisk (now : Nat) : Disk where
  top := .directory [
    ("cache", .directory [
      ("webstatus_odd.json", .file "\x7b\"status\":\"Limited\"\x7d".toUTF8 0)]),
    ("config.toml", .file "cache_ttl_hours = 1152921504606846976\n".toUTF8 0)]
  now := now

/-- The settings in that file. -/
def endlessHours : Settings := { keepHours := 1152921504606846976 }

/-- The kept answer is there at any time. -/
theorem node_homeDisk (s : Settings) (now : Nat) :
    (homeDisk now).node ((cacheFor smallHome s).path (cacheKey "odd")) =
      .ok (.file "\x7b\"status\":\"Limited\"\x7d".toUTF8 0) := by
  have hplace : (homeDisk now).place true "/cache/webstatus_odd.json" =
      (homeDisk 0).place true "/cache/webstatus_odd.json" := rfl
  refine Disk.node_eq_ok_iff.2 ⟨["cache", "webstatus_odd.json"], ?_, rfl⟩
  have hpath : Path.entry "/cache" (DiskCache.fileName (cacheKey "odd")) =
      "/cache/webstatus_odd.json" := by decide +kernel
  show (homeDisk now).place true (Path.entry "/cache" (DiskCache.fileName (cacheKey "odd"))) = _
  rw [hpath, hplace]
  decide +kernel

/-- With the usual settings an answer is kept for a day and no moment longer. -/
theorem kept_for_hours_day :
    sourcesFor smallHome (fun _ s => (.unreachable, s)) Settings.plain =
      Source.offline (σ := Disk × Unit) smallHome.today ++
        [Source.remote (fun _ s => (.unreachable, s))
          (some (cacheFor smallHome Settings.plain))] ∧
    ((cacheFor smallHome Settings.plain).get Info.ofValue? (cacheKey "odd")
      (homeDisk 86400000000000)).1 = some { status := .limited } ∧
    ((cacheFor smallHome Settings.plain).get Info.ofValue? (cacheKey "odd")
      (homeDisk 86400000000001)).1 = none := by
  obtain ⟨hsources, -, hfit⟩ :=
    kept_for_hours smallHome (fun _ (s : Unit) => (.unreachable, s)) Settings.plain
  obtain ⟨hget, -⟩ := hfit (by decide)
  refine ⟨hsources rfl, ?_, ?_⟩
  · rw [hget _ Info.ofValue? _ _ _ 0 (node_homeDisk _ _)]
    decide +kernel
  · rw [hget _ Info.ofValue? _ _ _ 0 (node_homeDisk _ _)]
    decide +kernel

/-- Hours without end, as a settings file can give them, are not honoured: an answer
    is given up at once that the usual hours still keep. -/
theorem endless_hours_not_honoured :
    Settings.load (homeDisk 1) smallHome.settingsFile = .ok endlessHours ∧
    ¬ endlessHours.keepHours.toNat * 3600 * 1000000000 < (homeDisk 1).now - 0 ∧
    (cacheFor smallHome endlessHours).isExpired 0 (homeDisk 1).now = true ∧
    ((cacheFor smallHome endlessHours).get Info.ofValue? (cacheKey "odd") (homeDisk 1)).1 = none ∧
    Settings.plain.keepHours ≤ endlessHours.keepHours ∧
    ((cacheFor smallHome Settings.plain).get Info.ofValue? (cacheKey "odd") (homeDisk 1)).1 =
      some { status := .limited } := by
  refine ⟨?_, ?_, ?_, ?_, ?_, ?_⟩ <;> decide +kernel

end WebBaseline.CommandLine

/-
  WebBaseline.Proofs.Lookup.Progress

  How the standing of a feature moves as time passes, and how it compares where
  browsers got the feature at other times.

    * whether every core browser has a feature does not depend on any day: where one
      lacks it the standing is limited on every day (`compute?_of_lacking`);
    * where none lacks it, no browser that got it sooner puts off the day of the last
      arrival (`IsLastArrival.le`) or the one thirty months later (`IsLater.mono`);
    * so the standing with sooner arrivals, or on a later day, is as good or better
      (`compute?_monotone`).
-/

import WebBaseline.Proofs.Calendar.Moment
import WebBaseline.Proofs.Lookup.Standing

namespace WebBaseline.Lookup.SupportFacts

open WebBaseline.Baseline (Info)
open WebBaseline.Calendar (Date)
open WebBaseline.Data (KeyMap)
open WebBaseline.Feature.Catalog (coreBrowsers)

variable {facts facts' : SupportFacts} {versions : KeyMap VersionAdded} {key : String}
  {low low' high high' today today' : Date} {info info' : Info}

/-! ## Two collections of facts -/

/-- Whether facts have no core browser get a feature later than other facts have it,
    as far as both tell the day. -/
def ArriveNoLater (facts facts' : SupportFacts) (versions : KeyMap VersionAdded) : Prop :=
  ∀ b ∈ coreBrowsers, ∀ day day', facts.Arrives versions b day →
    facts'.Arrives versions b day' → day ≤ day'

theorem ArriveNoLater.refl (facts : SupportFacts) (versions : KeyMap VersionAdded) :
    ArriveNoLater facts facts versions := by
  intro b _ day day' h h'
  rw [h.unique h']
  exact Date.le_refl day'

theorem IsLastArrival.le (hlow : facts.IsLastArrival versions low)
    (hlow' : facts'.IsLastArrival versions low') (h : ArriveNoLater facts facts' versions) :
    low ≤ low' := by
  obtain ⟨-, b, hb, harrives⟩ := hlow
  obtain ⟨day', harrives', hle⟩ := hlow'.1 b hb
  exact Date.le_trans (h b hb low day' harrives harrives') hle

/-! ## Where a core browser lacks the feature -/

/-- Where a core browser lacks the feature, what is said is the same on every day. -/
theorem compute?_of_lacking (hkey : facts.features.get? key = some versions)
    (hlacks : ¬ ∀ b ∈ coreBrowsers, ∃ version, Brings versions b version) :
    facts.compute? today key =
      (leadingDates? facts versions).map (fun _ => told versions key (Info.ofStatus .limited)) := by
  rw [compute?_eq hkey, Option.map_eq_bind]
  refine Option.bind_congr fun dates hdates => ?_
  have hshort : ¬ coreBrowsers.length ≤ dates.length :=
    fun hle => hlacks ((length_leadingDates?_iff hdates).1 hle)
  rw [standing?_of_short hshort]
  rfl

/-! ## How good a standing is -/

/-- Whether a standing is as good as another one, with a first day that is no later. -/
structure NoWorse (info info' : Info) : Prop where
  risk : ∃ rank rank', info.status.risk = some rank ∧ info'.status.risk = some rank' ∧
    rank ≤ rank'
  lowDate : ∀ text text', info.lowDate = some text → info'.lowDate = some text' →
    ∃ low low', Date.ofText? text = some low ∧ Date.ofText? text' = some low' ∧ low ≤ low'

/-- Whether what is said of a feature is that every core browser has it since a day,
    and that it is widely available from another day on. -/
def StandsSince (low high today : Date) (info : Info) : Prop :=
  info.status = (if high ≤ today then .widely else .newly) ∧ info.lowDate = some low.text

theorem exists_standsSince (hkey : facts.features.get? key = some versions)
    (hall : ∀ b ∈ coreBrowsers, ∃ version, Brings versions b version)
    (h : facts.compute? today key = some info) :
    ∃ low high, facts.IsLastArrival versions low ∧ low.IsLater monthsToWidely high ∧
      StandsSince low high today info := by
  obtain ⟨low, high, support, hlow, hhigh, -, rfl⟩ := (compute?_eq_some_iff_of_all hkey hall).1 h
  exact ⟨low, high, hlow, hhigh, rfl, rfl⟩

/-- Sooner, and on a later day, a feature has been there for as long or longer. -/
theorem StandsSince.noWorse (h : StandsSince low high today info)
    (h' : StandsSince low' high' today' info')
    (hlow : low ≤ low') (hhigh : high ≤ high') (htoday : today' ≤ today) :
    NoWorse info info' := by
  obtain ⟨hstatus, hdate⟩ := h
  obtain ⟨hstatus', hdate'⟩ := h'
  constructor
  · rw [hstatus, hstatus']
    by_cases hwidely' : high' ≤ today'
    · -- thirty months had passed already
      have hwidely : high ≤ today :=
        Date.le_trans hhigh (Date.le_trans hwidely' htoday)
      rw [if_pos hwidely, if_pos hwidely']
      exact ⟨0, 0, rfl, rfl, Nat.le_refl 0⟩
    · rw [if_neg hwidely']
      by_cases hwidely : high ≤ today
      · rw [if_pos hwidely]
        exact ⟨0, 1, rfl, rfl, Nat.zero_le 1⟩
      · rw [if_neg hwidely]
        exact ⟨1, 1, rfl, rfl, Nat.le_refl 1⟩
  · intro text text' htext htext'
    rw [hdate, Option.some.injEq] at htext
    rw [hdate', Option.some.injEq] at htext'
    exact ⟨low, low', htext ▸ low.ofText?_text, htext' ▸ low'.ofText?_text, hlow⟩

theorem noWorse_of_computed (hkey : facts.features.get? key = some versions)
    (hkey' : facts'.features.get? key = some versions)
    (harrive : ArriveNoLater facts facts' versions) (htoday : today' ≤ today)
    (h : facts.compute? today key = some info) (h' : facts'.compute? today' key = some info') :
    NoWorse info info' := by
  by_cases hall : ∀ b ∈ coreBrowsers, ∃ version, Brings versions b version
  · obtain ⟨low, high, hlow, hhigh, hsince⟩ := exists_standsSince hkey hall h
    obtain ⟨low', high', hlow', hhigh', hsince'⟩ := exists_standsSince hkey' hall h'
    have hle : low ≤ low' := hlow.le hlow' harrive
    exact hsince.noWorse hsince' hle (hhigh.mono hle hhigh') htoday
  · -- both are limited, without a day
    rw [compute?_of_lacking hkey hall, Option.map_eq_some_iff] at h
    rw [compute?_of_lacking hkey' hall, Option.map_eq_some_iff] at h'
    obtain ⟨dates, -, rfl⟩ := h
    obtain ⟨dates', -, rfl⟩ := h'
    refine ⟨⟨2, 2, rfl, rfl, Nat.le_refl 2⟩, ?_⟩
    intro text text' htext
    cases htext

/-! ## As time passes -/

/-- On another day the same facts say something just if they do today. -/
theorem exists_compute? (hkey : facts.features.get? key = some versions) (today' : Date)
    (h : facts.compute? today key = some info) :
    ∃ info', facts.compute? today' key = some info' := by
  rw [compute?_eq hkey] at h ⊢
  obtain ⟨dates, hdates, hinfo⟩ := Option.bind_eq_some_iff.1 h
  obtain ⟨standing, hstanding, -⟩ := Option.map_eq_some_iff.1 hinfo
  rw [hdates, Option.bind_some]
  by_cases hlength : coreBrowsers.length ≤ dates.length
  · obtain ⟨low, -, heq⟩ := exists_standing?_eq hlength
    rw [heq, sinceLast?, Option.map_eq_some_iff] at hstanding
    obtain ⟨high, hhigh, -⟩ := hstanding
    rw [heq, sinceLast?, hhigh]
    exact ⟨_, rfl⟩
  · rw [standing?_of_short hlength]
    exact ⟨_, rfl⟩

/-- A limited standing lasts: nothing else is said on any other day. -/
theorem compute?_of_limited (hkey : facts.features.get? key = some versions)
    (h : facts.compute? today key = some info) (hlimited : info.status = .limited)
    (today' : Date) : facts.compute? today' key = some info := by
  by_cases hall : ∀ b ∈ coreBrowsers, ∃ version, Brings versions b version
  · obtain ⟨low, high, -, -, hstatus, -⟩ := exists_standsSince hkey hall h
    rw [hlimited] at hstatus
    split at hstatus
    · cases hstatus
    · cases hstatus
  · rw [compute?_of_lacking hkey hall] at h ⊢
    exact h

/-- With the same versions, arrivals that are no later and a day that is no earlier
    the standing of a feature is no worse, and neither is the day since when every
    core browser has it. In particular, as time passes, what is widely available
    stays so, and what is limited stays as it is. -/
theorem compute?_monotone (hversions : facts.features.get? key = facts'.features.get? key)
    (harrive : ∀ versions, facts.features.get? key = some versions →
      ArriveNoLater facts facts' versions)
    (htoday : today' ≤ today) :
    (∀ info info', facts.compute? today key = some info →
      facts'.compute? today' key = some info' →
      (∃ rank rank', info.status.risk = some rank ∧ info'.status.risk = some rank' ∧
        rank ≤ rank') ∧
      ∀ text text', info.lowDate = some text → info'.lowDate = some text' →
        ∃ low low', Date.ofText? text = some low ∧ Date.ofText? text' = some low' ∧
          low ≤ low') ∧
    ∀ info', facts'.compute? today' key = some info' →
      (info'.status = .widely → ∃ info, facts'.compute? today key = some info ∧
        info.status = .widely) ∧
      (info'.status = .limited → ∀ day, facts'.compute? day key = some info') := by
  cases hkey : facts.features.get? key with
  | none =>
    -- nothing is said of a key that is not there
    rw [hkey] at hversions
    have hnone : facts.compute? today key = none := by rw [compute?, hkey]; rfl
    have hnone' : facts'.compute? today' key = none := by rw [compute?, ← hversions]; rfl
    simp [hnone, hnone']
  | some versions =>
    have hkey' : facts'.features.get? key = some versions := hversions.symm.trans hkey
    constructor
    · intro info info' h h'
      obtain ⟨hrisk, hdate⟩ :=
        noWorse_of_computed hkey hkey' (harrive versions hkey) htoday h h'
      exact ⟨hrisk, hdate⟩
    · intro info' h'
      refine ⟨fun hwidely => ?_, fun hlimited => compute?_of_limited hkey' h' hlimited⟩
      obtain ⟨info, h⟩ := exists_compute? hkey' today h'
      obtain ⟨rank, rank', hrank, hrank', hle⟩ :=
        (noWorse_of_computed hkey' hkey' (ArriveNoLater.refl facts' versions) htoday h h').risk
      refine ⟨info, h, ?_⟩
      -- no other status has the least risk
      rw [hwidely] at hrank'
      cases hrank'
      cases hstatus : info.status with
      | widely => rfl
      | newly => rw [hstatus] at hrank; cases hrank; cases hle
      | limited => rw [hstatus] at hrank; cases hrank; cases hle
      | unknown => rw [hstatus] at hrank; cases hrank

/-- The releases of core browsers, the later of the two on a given day. -/
def releasesUntil (day : String) : KeyMap (KeyMap String) :=
  KeyMap.ofList (coreBrowsers.map
    (fun b => (b, KeyMap.ofList [("9", "2020-02-29"), ("10", day)])))

/-- Facts in which the last core browser got the feature on the last day of August. -/
def endOfAugust : SupportFacts where
  releases := releasesUntil "2020-08-31"
  features := KeyMap.ofList [("full", full)]

/-- The same but for one day. -/
def startOfSeptember : SupportFacts where
  releases := releasesUntil "2020-09-01"
  features := KeyMap.ofList [("full", full)]

theorem arriveNoLater_endOfAugust : ArriveNoLater endOfAugust startOfSeptember full := by
  have hcore : ∀ b ∈ coreBrowsers, ∀ day ∈ endOfAugust.arrival? full b,
      ∀ day' ∈ startOfSeptember.arrival? full b, day ≤ day' := by
    decide +kernel
  intro b hb day day' h h'
  exact hcore b hb day (arrival?_eq_some_iff.2 h) day' (arrival?_eq_some_iff.2 h')

/-- On the last day of a February one day decides: of August it makes a feature
    widely available, of September it does not yet. -/
theorem full_no_worse_one_day_sooner :
    endOfAugust.features.get? "full" = startOfSeptember.features.get? "full" ∧
    ArriveNoLater endOfAugust startOfSeptember full ∧
    endOfAugust.compute? ⟨2023, 2, 28, by decide⟩ "full" =
      some (ofFull { status := .widely, lowDate := some "2020-08-31",
                     highDate := some "2023-02-28" }) ∧
    startOfSeptember.compute? ⟨2023, 2, 28, by decide⟩ "full" =
      some (ofFull { status := .newly, lowDate := some "2020-09-01" }) ∧
    (∃ rank rank', Baseline.Status.widely.risk = some rank ∧
      Baseline.Status.newly.risk = some rank' ∧ rank ≤ rank') ∧
    ∃ low low', Date.ofText? "2020-08-31" = some low ∧ Date.ofText? "2020-09-01" = some low' ∧
      low ≤ low' := by
  have hversions : endOfAugust.features.get? "full" = startOfSeptember.features.get? "full" := rfl
  have hwidely : endOfAugust.compute? ⟨2023, 2, 28, by decide⟩ "full" =
      some (ofFull { status := .widely, lowDate := some "2020-08-31",
                     highDate := some "2023-02-28" }) := by decide +kernel
  have hnewly : startOfSeptember.compute? ⟨2023, 2, 28, by decide⟩ "full" =
      some (ofFull { status := .newly, lowDate := some "2020-09-01" }) := by decide +kernel
  have harrive : ∀ versions, endOfAugust.features.get? "full" = some versions →
      ArriveNoLater endOfAugust startOfSeptember versions := by
    intro versions hkey
    have hfull : endOfAugust.features.get? "full" = some full := rfl
    rw [hfull, Option.some.injEq] at hkey
    rw [← hkey]
    exact arriveNoLater_endOfAugust
  obtain ⟨hrisk, hdate⟩ :=
    (compute?_monotone hversions harrive (Date.le_refl _)).1 _ _ hwidely hnewly
  exact ⟨hversions, arriveNoLater_endOfAugust, hwidely, hnewly, hrisk, hdate _ _ rfl rfl⟩

end WebBaseline.Lookup.SupportFacts

/-
  WebBaseline.Proofs.Lookup.Standing

  The standing of a feature by the browsers that have it.

    * where a core browser lacks the feature the standing is limited, though only if
      the arrival in every core browser before the first one that lacks it is known
      (`compute?_of_gap`); with one of these unknown nothing is said
      (`gap_not_limited`);
    * where every core browser has it, it is available from the last arrival, and
      widely from thirty months later (`compute?_of_all_released`).
-/

import WebBaseline.Proofs.Lookup.Support

namespace WebBaseline.Lookup.SupportFacts

open WebBaseline.Baseline (Info)
open WebBaseline.Calendar (Date lastYear)
open WebBaseline.Data (KeyMap)
open WebBaseline.Feature.Catalog (coreBrowsers)

variable {facts : SupportFacts} {versions : KeyMap VersionAdded} {key : String}
  {low today : Date} {dates : List Date}

/-! ## Where a core browser lacks the feature -/

/-- Where a core browser lacks the feature its standing is limited, with no dates, if
    the arrival in every core browser before the first that lacks it is known.
    Otherwise nothing is said. -/
theorem compute?_of_gap (hkey : facts.features.get? key = some versions)
    (hgap : ∃ b ∈ coreBrowsers, ∀ version, ¬ Brings versions b version) :
    (∃ support, IsSupport versions support ∧
      (facts.compute? today key = some
          { status := .limited
            support := some support
            description := some ("Computed from browser support for " ++ key) } ↔
        ∀ b, IsLeading versions b → ∃ day, facts.Arrives versions b day)) ∧
    (facts.compute? today key = none ↔
      ∃ b, IsLeading versions b ∧ ∀ day, ¬ facts.Arrives versions b day) := by
  have hnotAll : ¬ ∀ b ∈ coreBrowsers, ∃ version, Brings versions b version := by
    obtain ⟨b, hb, hlacks⟩ := hgap
    intro hall
    obtain ⟨version, hbrings⟩ := hall b hb
    exact hlacks version hbrings
  rw [← leadingDates?_eq_none_iff, compute?_eq hkey]
  -- the first browser that lacks the feature ends the list of the days that count
  cases hdates : leadingDates? facts versions with
  | none =>
    obtain ⟨b, hleading, hundated⟩ := leadingDates?_eq_none_iff.1 hdates
    refine ⟨⟨_, isSupport_supporters versions, ?_⟩, by simp⟩
    constructor
    · intro h
      cases h
    · intro h
      obtain ⟨day, harrives⟩ := h b hleading
      exact absurd harrives (hundated day)
  | some dates =>
    have hstanding : standing? today dates = some (Info.ofStatus .limited) :=
      standing?_of_short (fun hle => hnotAll ((length_leadingDates?_iff hdates).1 hle))
    rw [Option.bind_some, hstanding, Option.map_some]
    refine ⟨⟨_, isSupport_supporters versions, ?_⟩, by simp⟩
    exact iff_of_true rfl (fun b hleading => exists_arrives hdates hleading)

/-- A feature that the second core browser lacks. -/
def patchy : KeyMap VersionAdded :=
  KeyMap.ofList [("chrome", .version "1"), ("safari", .version "≤14")]

/-- Facts about it without a single day. -/
def undated : SupportFacts where
  releases := KeyMap.empty
  features := KeyMap.ofList [("patchy", patchy)]

/-- Facts with the day on which the first core browser got it. -/
def datedOnce : SupportFacts where
  releases := KeyMap.ofList [("chrome", KeyMap.ofList [("1", "2020-01-31")])]
  features := KeyMap.ofList [("patchy", patchy)]

/-- The first day of a year. -/
def newYear : Date := ⟨2024, 1, 1, by decide⟩

theorem patchy_gap : ∃ b ∈ coreBrowsers, ∀ version, ¬ Brings patchy b version := by
  refine ⟨"chrome_android", by decide, not_exists.1 ?_⟩
  decide

theorem patchy_leading {b : String} (h : IsLeading patchy b) : b = "chrome" := by
  have hleading : coreBrowsers.takeWhile (fun b => (supporter? patchy b).isSome) = ["chrome"] := by
    decide
  rw [isLeading_iff, hleading] at h
  exact List.mem_singleton.1 h

/-- Where a core browser lacks the feature its standing need not be limited. -/
theorem gap_not_limited :
    ¬ ∀ (facts : SupportFacts) (versions : KeyMap VersionAdded) (key : String) (today : Date),
      facts.features.get? key = some versions →
      (∃ b ∈ coreBrowsers, ∀ version, ¬ Brings versions b version) →
      ∃ support, IsSupport versions support ∧ facts.compute? today key = some
        { status := .limited
          support := some support
          description := some ("Computed from browser support for " ++ key) } := by
  intro h
  obtain ⟨support, -, hlimited⟩ := h undated patchy "patchy" newYear (by rfl) patchy_gap
  have hnone : undated.compute? newYear "patchy" = none := by decide
  rw [hnone] at hlimited
  cases hlimited

theorem patchy_limited_once_dated :
    (∃ b ∈ coreBrowsers, ∀ version, ¬ Brings patchy b version) ∧
    (datedOnce.features.get? "patchy" = some patchy ∧
      datedOnce.compute? newYear "patchy" = some
        { status := .limited
          support := some (KeyMap.ofList [("chrome", "1"), ("safari", "14")])
          description := some "Computed from browser support for patchy" }) ∧
    undated.features.get? "patchy" = some patchy ∧
      undated.compute? newYear "patchy" = none := by
  have hdated : datedOnce.features.get? "patchy" = some patchy := by rfl
  have hundated : undated.features.get? "patchy" = some patchy := by rfl
  refine ⟨patchy_gap, ⟨hdated, ?_⟩, hundated, ?_⟩
  · obtain ⟨⟨support, hsupport, hlimited⟩, -⟩ := compute?_of_gap hdated patchy_gap
    rw [hsupport.unique (isSupport_supporters patchy)] at hlimited
    refine hlimited.2 ?_
    intro b hleading
    rw [patchy_leading hleading]
    exact ⟨⟨2020, 1, 31, by decide⟩, by decide⟩
  · refine (compute?_of_gap hundated patchy_gap).2.2 ?_
    refine ⟨"chrome", by decide, ?_⟩
    intro day harrives
    have hnone : undated.arrival? patchy "chrome" = none := by decide
    rw [arrival?_eq_some_iff.2 harrives] at hnone
    cases hnone

/-! ## Where every core browser has it -/

/-- Whether a day is the one on which the last core browser got a feature. -/
def IsLastArrival (facts : SupportFacts) (versions : KeyMap VersionAdded) (low : Date) : Prop :=
  (∀ b ∈ coreBrowsers, ∃ day, facts.Arrives versions b day ∧ day ≤ low) ∧
    ∃ b ∈ coreBrowsers, facts.Arrives versions b low

theorem isLastArrival_of_isLatest (hall : ∀ b ∈ coreBrowsers, ∃ version, Brings versions b version)
    (hdates : leadingDates? facts versions = some dates) (h : Date.IsLatest dates low) :
    facts.IsLastArrival versions low := by
  have hmem : ∀ day, day ∈ dates ↔ ∃ b ∈ coreBrowsers, facts.Arrives versions b day := by
    intro day
    simp only [mem_leadingDates?_iff hdates, isLeading_iff_of_all hall]
  obtain ⟨hlow, hlatest⟩ := h
  refine ⟨?_, (hmem low).1 hlow⟩
  intro b hb
  obtain ⟨day, harrives⟩ := exists_arrives hdates ((isLeading_iff_of_all hall).2 hb)
  exact ⟨day, harrives, hlatest day ((hmem day).2 ⟨b, hb, harrives⟩)⟩

instance (facts : SupportFacts) (versions : KeyMap VersionAdded) (low : Date) :
    Decidable (facts.IsLastArrival versions low) :=
  inferInstanceAs (Decidable (
    (∀ b ∈ coreBrowsers, ∃ day, facts.Arrives versions b day ∧ day ≤ low) ∧
      ∃ b ∈ coreBrowsers, facts.Arrives versions b low))

/-- With every arrival known there is a last one, and what is said follows from it. -/
theorem exists_isLastArrival (hkey : facts.features.get? key = some versions)
    (hdated : ∀ b ∈ coreBrowsers, ∃ day, facts.Arrives versions b day) :
    ∃ low, facts.IsLastArrival versions low ∧
      ∀ today, facts.compute? today key = (sinceLast? low today).map (told versions key) := by
  -- what has arrived was brought by a version
  have hall : ∀ b ∈ coreBrowsers, ∃ version, Brings versions b version := by
    intro b hb
    obtain ⟨day, version, hbrings, -⟩ := hdated b hb
    exact ⟨version, hbrings⟩
  cases hdates : leadingDates? facts versions with
  | none =>
    obtain ⟨b, hleading, hundated⟩ := leadingDates?_eq_none_iff.1 hdates
    obtain ⟨day, harrives⟩ := hdated b hleading.mem
    exact absurd harrives (hundated day)
  | some dates =>
    obtain ⟨low, hlow, hstanding⟩ := exists_standing?_eq ((length_leadingDates?_iff hdates).2 hall)
    refine ⟨low, isLastArrival_of_isLatest hall hdates hlow, ?_⟩
    intro today
    rw [compute?_eq hkey, hdates, Option.bind_some, hstanding today]

theorem IsLastArrival.unique {low' : Date} (h : facts.IsLastArrival versions low)
    (h' : facts.IsLastArrival versions low') : low = low' := by
  -- the browser that got the feature last in one account got it no later in the other
  have hle : ∀ {a b}, facts.IsLastArrival versions a → facts.IsLastArrival versions b → a ≤ b := by
    rintro a b ⟨-, browser, hbrowser, ha⟩ ⟨hb, -⟩
    obtain ⟨day, hday, hle⟩ := hb browser hbrowser
    rwa [ha.unique hday]
  exact Date.le_antisymm (hle h h') (hle h' h)

theorem compute?_of_isLastArrival (hkey : facts.features.get? key = some versions)
    (hlow : facts.IsLastArrival versions low) (today : Date) :
    facts.compute? today key = (sinceLast? low today).map (told versions key) := by
  have hdated : ∀ b ∈ coreBrowsers, ∃ day, facts.Arrives versions b day := by
    intro b hb
    obtain ⟨day, harrives, -⟩ := hlow.1 b hb
    exact ⟨day, harrives⟩
  obtain ⟨low', hlow', hcompute⟩ := exists_isLastArrival hkey hdated
  rw [hlow.unique hlow']
  exact hcompute today

/-- Either the last arrival is known, or one arrival is not and nothing is said. -/
theorem isLastArrival_or_undated (hkey : facts.features.get? key = some versions)
    (hall : ∀ b ∈ coreBrowsers, ∃ version, Brings versions b version) (today : Date) :
    (∃ low, facts.IsLastArrival versions low) ∨
      (∃ b ∈ coreBrowsers, ∀ day, ¬ facts.Arrives versions b day) ∧
        facts.compute? today key = none := by
  by_cases hdated : ∀ b ∈ coreBrowsers, ∃ day, facts.Arrives versions b day
  · obtain ⟨low, hlow, -⟩ := exists_isLastArrival hkey hdated
    exact Or.inl ⟨low, hlow⟩
  · simp only [not_forall, not_exists] at hdated
    obtain ⟨b, hb, hundated⟩ := hdated
    have hnone : leadingDates? facts versions = none :=
      leadingDates?_eq_none_iff.2 ⟨b, (isLeading_iff_of_all hall).2 hb, hundated⟩
    refine Or.inr ⟨⟨b, hb, hundated⟩, ?_⟩
    rw [compute?_eq hkey, hnone, Option.bind_none]

theorem compute?_eq_none_iff_of_all (hkey : facts.features.get? key = some versions)
    (hall : ∀ b ∈ coreBrowsers, ∃ version, Brings versions b version) :
    facts.compute? today key = none ↔
      (∃ b ∈ coreBrowsers, ∀ day, ¬ facts.Arrives versions b day) ∨
      ∃ low, facts.IsLastArrival versions low ∧
        lastYear * 12 + 12 < low.year * 12 + low.month + 30 := by
  rcases isLastArrival_or_undated hkey hall today with ⟨low, hlow⟩ | ⟨hundated, hnone⟩
  · rw [compute?_of_isLastArrival hkey hlow, Option.map_eq_none_iff, sinceLast?_eq_none_iff]
    constructor
    · intro hlate
      exact Or.inr ⟨low, hlow, hlate⟩
    · rintro (⟨b, hb, hundated⟩ | ⟨low', hlow', hlate⟩)
      · obtain ⟨day, harrives, -⟩ := hlow.1 b hb
        exact absurd harrives (hundated day)
      · rw [hlow.unique hlow']
        exact hlate
  · exact iff_of_true hnone (Or.inl hundated)

theorem compute?_eq_some_iff_of_all (hkey : facts.features.get? key = some versions)
    (hall : ∀ b ∈ coreBrowsers, ∃ version, Brings versions b version) {info : Info} :
    facts.compute? today key = some info ↔
      ∃ low high support, facts.IsLastArrival versions low ∧ low.IsLater 30 high ∧
        IsSupport versions support ∧
        info =
          { status := if high ≤ today then .widely else .newly
            lowDate := some low.text
            highDate := if high ≤ today then some high.text else none
            support := some support
            description := some ("Computed from browser support for " ++ key) } := by
  constructor
  · intro hinfo
    rcases isLastArrival_or_undated hkey hall today with ⟨low, hlow⟩ | ⟨-, hnone⟩
    · rw [compute?_of_isLastArrival hkey hlow, Option.map_eq_some_iff] at hinfo
      obtain ⟨standing, hstanding, rfl⟩ := hinfo
      obtain ⟨high, hhigh, rfl⟩ := sinceLast?_eq_some_iff.1 hstanding
      exact ⟨low, high, _, hlow, hhigh, isSupport_supporters versions, rfl⟩
    · rw [hnone] at hinfo
      cases hinfo
  · rintro ⟨low, high, support, hlow, hhigh, hsupport, rfl⟩
    rw [hsupport.unique (isSupport_supporters versions), compute?_of_isLastArrival hkey hlow,
      sinceLast?_eq_some_iff.2 ⟨high, hhigh, rfl⟩]
    rfl

/-- Where every core browser has the feature, it is newly available from the last
    arrival and widely from thirty months later. Nothing is said if an arrival is not
    known or these months lead beyond the calendar; and nothing about other browsers
    changes what is said. -/
theorem compute?_of_all_released (hkey : facts.features.get? key = some versions) :
    ((∀ b ∈ coreBrowsers, ∃ version, Brings versions b version) →
      (facts.compute? today key = none ↔
        (∃ b ∈ coreBrowsers, ∀ day, ¬ facts.Arrives versions b day) ∨
        ∃ low, facts.IsLastArrival versions low ∧
          lastYear * 12 + 12 < low.year * 12 + low.month + 30) ∧
      ∀ info, facts.compute? today key = some info ↔
        ∃ low high support, facts.IsLastArrival versions low ∧ low.IsLater 30 high ∧
          IsSupport versions support ∧
          info =
            { status := if high ≤ today then .widely else .newly
              lowDate := some low.text
              highDate := if high ≤ today then some high.text else none
              support := some support
              description := some ("Computed from browser support for " ++ key) }) ∧
    ∀ facts' versions', facts'.features.get? key = some versions' →
      AgreeOnCore facts facts' versions versions' →
      facts.compute? today key = facts'.compute? today key := by
  refine ⟨fun hall => ⟨compute?_eq_none_iff_of_all hkey hall, ?_⟩, ?_⟩
  · intro info
    exact compute?_eq_some_iff_of_all hkey hall
  · intro facts' versions' hkey' hagree
    exact hagree.compute?_eq hkey hkey' today

/-- A feature that every core browser has, one of them since a later version. -/
def full : KeyMap VersionAdded :=
  KeyMap.ofList (coreBrowsers.map (fun b => (b, .version "≤9")) ++ [("safari", .version "10")])

/-- When the versions of every core browser were released. -/
def releasesOfCore : KeyMap (KeyMap String) :=
  KeyMap.ofList (coreBrowsers.map
    (fun b => (b, KeyMap.ofList [("9", "2020-02-29"), ("10", "2021-08-31")])))

/-- Facts about that feature. -/
def coreFacts : SupportFacts where
  releases := releasesOfCore
  features := KeyMap.ofList [("full", full)]

/-- The same, and that another browser lacks the feature. -/
def moreFacts : SupportFacts where
  releases := releasesOfCore.insert "opera" (KeyMap.ofList [("9", "not yet")])
  features := KeyMap.ofList [("full", full.insert "opera" .unreleased)]

/-- What was said of that feature, but for its standing. -/
def ofFull (standing : Info) : Info :=
  { standing with
    support := some (KeyMap.ofList [("chrome", "9"), ("chrome_android", "9"), ("edge", "9"),
      ("firefox", "9"), ("firefox_android", "9"), ("safari", "10"), ("safari_ios", "9")])
    description := some "Computed from browser support for full" }

theorem full_lastArrival : coreFacts.IsLastArrival full ⟨2021, 8, 31, by decide⟩ := by decide

theorem moreFacts_agree : AgreeOnCore coreFacts moreFacts full (full.insert "opera" .unreleased) where
  versions := by decide
  releases := by decide

/-- Thirty months after the last day of August comes the last one of February. -/
theorem full_widely_on_leap_day :
    coreFacts.features.get? "full" = some full ∧
    (∀ b ∈ coreBrowsers, ∃ version, Brings full b version) ∧
    coreFacts.compute? ⟨2024, 2, 28, by decide⟩ "full" =
      some (ofFull { status := .newly, lowDate := some "2021-08-31" }) ∧
    coreFacts.compute? ⟨2024, 2, 29, by decide⟩ "full" =
      some (ofFull { status := .widely, lowDate := some "2021-08-31",
                     highDate := some "2024-02-29" }) ∧
    moreFacts.compute? ⟨2024, 2, 29, by decide⟩ "full" =
      coreFacts.compute? ⟨2024, 2, 29, by decide⟩ "full" := by
  have hkey : coreFacts.features.get? "full" = some full := by rfl
  have hall : ∀ b ∈ coreBrowsers, ∃ version, Brings full b version := by decide
  have hlater : Date.IsLater ⟨2021, 8, 31, by decide⟩ 30 ⟨2024, 2, 29, by decide⟩ :=
    ⟨by decide, by decide⟩
  have hsupport := isSupport_supporters full
  refine ⟨hkey, hall, ?_, ?_, ?_⟩
  · refine (((compute?_of_all_released hkey).1 hall).2 _).2 ?_
    exact ⟨_, _, _, full_lastArrival, hlater, hsupport, by decide +kernel⟩
  · refine (((compute?_of_all_released hkey).1 hall).2 _).2 ?_
    exact ⟨_, _, _, full_lastArrival, hlater, hsupport, by decide +kernel⟩
  · exact ((compute?_of_all_released hkey).2 moreFacts _ (by rfl) moreFacts_agree).symm

end WebBaseline.Lookup.SupportFacts

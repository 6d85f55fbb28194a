/-
  WebBaseline.Proofs.Lookup.Support

  What facts about browsers say about a compat key.

    * `Brings`: a version brought a feature to a browser; `Arrives`: on a day that
      the facts tell;
    * the days that count are those of the core browsers before the first one that
      lacks the feature (`mem_leadingDates?_iff`), and without one of them nothing is
      said (`leadingDates?_eq_none_iff`);
    * what is said follows from these days (`compute?_eq`), and nothing about other
      browsers matters (`AgreeOnCore.compute?_eq`).
-/

import Mathlib.Data.List.Basic
import Mathlib.Data.List.TakeWhile
import WebBaseline.Lookup.Support
import WebBaseline.Proofs.Calendar.Months
import WebBaseline.Proofs.Data.KeyMap
import WebBaseline.Proofs.Data.Lists

namespace WebBaseline.Lookup.SupportFacts

open WebBaseline.Baseline (Info)
open WebBaseline.Calendar (Date lastYear)
open WebBaseline.Data (KeyMap dropWhile_beq_eq_iff mapM_congr mapM_eq_none_iff
  mapM_eq_some_iff map_filterMap_sublist mem_takeWhile_iff takeWhile_congr)
open WebBaseline.Feature.Catalog (coreBrowsers)

variable {facts facts' : SupportFacts} {versions versions' : KeyMap VersionAdded}
  {browser version version' key : String} {day day' low high today : Date} {info : Info}

/-! ## Versions -/

/-- Whether a text is a version with any number of marks in front that say it may be
    an earlier one. -/
def IsMarked (text version : String) : Prop :=
  ∃ n, text.toList = List.replicate n '≤' ++ version.toList ∧ version.toList.head? ≠ some '≤'

/-- Whether a released version brought a feature to a browser. -/
def Brings (versions : KeyMap VersionAdded) (browser version : String) : Prop :=
  ∃ text, versions.get? browser = some (.version text) ∧ text ≠ "preview" ∧ IsMarked text version

theorem isMarked_iff {text : String} :
    IsMarked text version ↔ String.ofList (text.toList.dropWhile (· == '≤')) = version := by
  rw [IsMarked, ← dropWhile_beq_eq_iff]
  constructor
  · intro h
    rw [h, String.ofList_toList]
  · intro h
    rw [← h, String.toList_ofList]

theorem supporter?_eq_some_iff {s : String × String} :
    supporter? versions browser = some s ↔ s.1 = browser ∧ Brings versions browser s.2 := by
  obtain ⟨b, v⟩ := s
  rw [supporter?, Option.map_eq_some_iff]
  constructor
  · rintro ⟨version, hreleased, heq⟩
    cases heq
    obtain ⟨added, hadded, hversion⟩ := Option.bind_eq_some_iff.1 hreleased
    cases added with
    | version text =>
      rw [VersionAdded.released?] at hversion
      split at hversion
      · cases hversion
      · next hpreview =>
        have hmarked : IsMarked text v := isMarked_iff.2 (Option.some.inj hversion)
        exact ⟨rfl, text, hadded, hpreview, hmarked⟩
    | unreleased => cases hversion
  · rintro ⟨rfl, text, hadded, hpreview, hmarked⟩
    refine ⟨v, ?_, rfl⟩
    rw [hadded, Option.bind_some, VersionAdded.released?, if_neg hpreview, isMarked_iff.1 hmarked]

theorem supporter?_isSome_iff :
    (supporter? versions browser).isSome = true ↔ ∃ version, Brings versions browser version := by
  rw [Option.isSome_iff_exists]
  constructor
  · rintro ⟨s, hs⟩
    exact ⟨s.2, (supporter?_eq_some_iff.1 hs).2⟩
  · rintro ⟨version, h⟩
    exact ⟨(browser, version), supporter?_eq_some_iff.2 ⟨rfl, h⟩⟩

instance (versions : KeyMap VersionAdded) (browser : String) :
    Decidable (∃ version, Brings versions browser version) :=
  decidable_of_iff _ supporter?_isSome_iff

/-! ## The map of versions -/

/-- Whether a map holds the core browsers that have a feature, each with the version
    that brought it. -/
def IsSupport (versions : KeyMap VersionAdded) (support : KeyMap String) : Prop :=
  ∀ browser version, support.get? browser = some version ↔
    browser ∈ coreBrowsers ∧ Brings versions browser version

theorem mem_filterMap_supporter?_iff {browsers : List String} :
    (browser, version) ∈ browsers.filterMap (supporter? versions) ↔
      browser ∈ browsers ∧ Brings versions browser version := by
  simp only [List.mem_filterMap, supporter?_eq_some_iff]
  constructor
  · rintro ⟨b, hb, rfl, hbrings⟩
    exact ⟨hb, hbrings⟩
  · rintro ⟨hb, hbrings⟩
    exact ⟨browser, hb, rfl, hbrings⟩

theorem keys_supporters_sublist (browsers : List String) :
    ((browsers.filterMap (supporter? versions)).map Prod.fst).Sublist browsers := by
  have hkeys : ((browsers.filterMap (supporter? versions)).map Prod.fst).Sublist
      (browsers.map id) :=
    map_filterMap_sublist (fun _ _ hs => (supporter?_eq_some_iff.1 hs).1)
  rwa [List.map_id] at hkeys

theorem isSupport_supporters (versions : KeyMap VersionAdded) :
    IsSupport versions (KeyMap.ofList (supporters versions)) := by
  intro browser version
  have hcore : coreBrowsers.Nodup := by decide
  have hkeys : ((supporters versions).map Prod.fst).Nodup :=
    hcore.sublist (keys_supporters_sublist coreBrowsers)
  rw [KeyMap.get?_ofList hkeys, KeyMap.lookup_eq_some_iff_mem hkeys]
  exact mem_filterMap_supporter?_iff

theorem IsSupport.unique {support support' : KeyMap String} (h : IsSupport versions support)
    (h' : IsSupport versions support') : support = support' := by
  refine KeyMap.ext_get? fun browser => Option.ext fun version => ?_
  rw [h browser version, h' browser version]

/-! ## Days of arrival -/

/-- Whether the facts say that a version of a browser was released on a day. -/
def Dates (facts : SupportFacts) (browser version : String) (day : Date) : Prop :=
  ∃ releases text, facts.releases.get? browser = some releases ∧
    releases.get? version = some text ∧ Date.ofText? text = some day

/-- Whether they say so of the version that brought a feature to the browser. -/
def Arrives (facts : SupportFacts) (versions : KeyMap VersionAdded) (browser : String)
    (day : Date) : Prop :=
  ∃ version, Brings versions browser version ∧ facts.Dates browser version day

theorem releaseDate?_eq_some_iff :
    facts.releaseDate? browser version = some day ↔ facts.Dates browser version day := by
  rw [releaseDate?, Dates]
  simp only [Option.bind_eq_some_iff]
  constructor
  · rintro ⟨text, ⟨releases, hreleases, htext⟩, hday⟩
    exact ⟨releases, text, hreleases, htext, hday⟩
  · rintro ⟨releases, text, hreleases, htext, hday⟩
    exact ⟨text, ⟨releases, hreleases, htext⟩, hday⟩

theorem Brings.unique (h : Brings versions browser version) (h' : Brings versions browser version') :
    version = version' := by
  have hs : supporter? versions browser = some (browser, version) :=
    supporter?_eq_some_iff.2 ⟨rfl, h⟩
  have hs' : supporter? versions browser = some (browser, version') :=
    supporter?_eq_some_iff.2 ⟨rfl, h'⟩
  exact congrArg Prod.snd (Option.some.inj (hs.symm.trans hs'))

/-- The day itself, if the facts tell one. -/
def arrival? (facts : SupportFacts) (versions : KeyMap VersionAdded) (browser : String) :
    Option Date :=
  (supporter? versions browser).bind (fun s => facts.releaseDate? s.1 s.2)

theorem arrival?_eq_some_iff :
    facts.arrival? versions browser = some day ↔ facts.Arrives versions browser day := by
  rw [arrival?, Option.bind_eq_some_iff]
  constructor
  · rintro ⟨⟨b, version⟩, hs, hday⟩
    obtain ⟨rfl, hbrings⟩ := supporter?_eq_some_iff.1 hs
    exact ⟨version, hbrings, releaseDate?_eq_some_iff.1 hday⟩
  · rintro ⟨version, hbrings, hdates⟩
    exact ⟨(browser, version), supporter?_eq_some_iff.2 ⟨rfl, hbrings⟩,
      releaseDate?_eq_some_iff.2 hdates⟩

instance (facts : SupportFacts) (versions : KeyMap VersionAdded) (browser : String) (day : Date) :
    Decidable (facts.Arrives versions browser day) := decidable_of_iff _ arrival?_eq_some_iff

instance (facts : SupportFacts) (versions : KeyMap VersionAdded) (browser : String) (low : Date) :
    Decidable (∃ day, facts.Arrives versions browser day ∧ day ≤ low) :=
  decidable_of_iff (∃ day ∈ facts.arrival? versions browser, day ≤ low) (by
    simp only [Option.mem_def, arrival?_eq_some_iff])

theorem Arrives.unique (h : facts.Arrives versions browser day)
    (h' : facts.Arrives versions browser day') : day = day' :=
  Option.some.inj ((arrival?_eq_some_iff.2 h).symm.trans (arrival?_eq_some_iff.2 h'))

/-! ## The core browsers before the first one that lacks a feature -/

/-- Whether a core browser and every one before it has a feature. -/
def IsLeading (versions : KeyMap VersionAdded) (browser : String) : Prop :=
  ∃ front back, coreBrowsers = front ++ browser :: back ∧
    ∀ b ∈ front ++ [browser], ∃ version, Brings versions b version

theorem isLeading_iff : IsLeading versions browser ↔
    browser ∈ coreBrowsers.takeWhile (fun b => (supporter? versions b).isSome) := by
  simp only [mem_takeWhile_iff, IsLeading, supporter?_isSome_iff]

instance (versions : KeyMap VersionAdded) (browser : String) :
    Decidable (IsLeading versions browser) := decidable_of_iff _ isLeading_iff.symm

theorem mem_leadingSupporters_iff :
    (browser, version) ∈ leadingSupporters versions ↔
      IsLeading versions browser ∧ Brings versions browser version := by
  rw [leadingSupporters, mem_filterMap_supporter?_iff, isLeading_iff]

theorem IsLeading.mem (h : IsLeading versions browser) : browser ∈ coreBrowsers := by
  obtain ⟨front, back, hsplit, -⟩ := h
  rw [hsplit]
  exact List.mem_append_right front List.mem_cons_self

theorem IsLeading.exists_brings (h : IsLeading versions browser) :
    ∃ version, Brings versions browser version := by
  obtain ⟨front, -, -, hall⟩ := h
  exact hall browser (List.mem_append_right front List.mem_cons_self)

theorem isLeading_iff_of_all (hall : ∀ b ∈ coreBrowsers, ∃ version, Brings versions b version) :
    IsLeading versions browser ↔ browser ∈ coreBrowsers := by
  constructor
  · exact IsLeading.mem
  · intro hbrowser
    obtain ⟨front, back, hsplit⟩ := List.append_of_mem hbrowser
    refine ⟨front, back, hsplit, ?_⟩
    intro b hb
    refine hall b ?_
    rw [hsplit, List.append_cons]
    exact List.mem_append_left back hb

/-- The core browsers lead one and all exactly if every one has the feature. -/
theorem length_leadingSupporters_iff :
    coreBrowsers.length ≤ (leadingSupporters versions).length ↔
      ∀ b ∈ coreBrowsers, ∃ version, Brings versions b version := by
  constructor
  · intro hlength b hb
    have hsub : ((leadingSupporters versions).map Prod.fst).Sublist coreBrowsers :=
      (keys_supporters_sublist _).trans (List.takeWhile_sublist _)
    -- a part of the list that is as long as the list is all of it
    have hkeys : (leadingSupporters versions).map Prod.fst = coreBrowsers :=
      hsub.eq_of_length_le (by rwa [List.length_map])
    rw [← hkeys] at hb
    obtain ⟨s, hs, rfl⟩ := List.mem_map.1 hb
    exact ⟨s.2, (mem_leadingSupporters_iff.1 hs).2⟩
  · intro hall
    have hsome : ∀ b ∈ coreBrowsers, (supporter? versions b).isSome = true :=
      fun b hb => supporter?_isSome_iff.2 (hall b hb)
    rw [leadingSupporters, List.takeWhile_eq_self_iff.2 hsome]
    exact (List.filterMap_length_eq_length.2 hsome).ge

/-- The days on which the leading core browsers got a feature, if all are known. -/
def leadingDates? (facts : SupportFacts) (versions : KeyMap VersionAdded) : Option (List Date) :=
  (leadingSupporters versions).mapM (fun s => facts.releaseDate? s.1 s.2)

theorem leadingDates?_eq_none_iff :
    leadingDates? facts versions = none ↔
      ∃ b, IsLeading versions b ∧ ∀ day, ¬ facts.Arrives versions b day := by
  rw [leadingDates?, mapM_eq_none_iff]
  constructor
  · rintro ⟨⟨b, version⟩, hs, hnone⟩
    obtain ⟨hleading, hbrings⟩ := mem_leadingSupporters_iff.1 hs
    refine ⟨b, hleading, ?_⟩
    rintro day ⟨version', hbrings', hdates⟩
    obtain rfl := hbrings.unique hbrings'
    rw [releaseDate?_eq_some_iff.2 hdates] at hnone
    cases hnone
  · rintro ⟨b, hleading, hundated⟩
    obtain ⟨version, hbrings⟩ := hleading.exists_brings
    refine ⟨(b, version), mem_leadingSupporters_iff.2 ⟨hleading, hbrings⟩, ?_⟩
    rw [Option.eq_none_iff_forall_ne_some]
    intro day hday
    exact hundated day ⟨version, hbrings, releaseDate?_eq_some_iff.1 hday⟩

theorem exists_arrives {dates : List Date} (h : leadingDates? facts versions = some dates)
    (hleading : IsLeading versions browser) : ∃ day, facts.Arrives versions browser day := by
  refine Classical.byContradiction fun hundated => ?_
  rw [not_exists] at hundated
  rw [leadingDates?_eq_none_iff.2 ⟨browser, hleading, hundated⟩] at h
  cases h

/-- As many days are known as there are core browsers just if every one has the feature. -/
theorem length_leadingDates?_iff {dates : List Date}
    (h : leadingDates? facts versions = some dates) :
    coreBrowsers.length ≤ dates.length ↔
      ∀ b ∈ coreBrowsers, ∃ version, Brings versions b version := by
  obtain ⟨hread, rfl⟩ := mapM_eq_some_iff.1 h
  have hall : ∀ s ∈ leadingSupporters versions, (facts.releaseDate? s.1 s.2).isSome = true :=
    fun s hs => Option.isSome_iff_exists.2 (hread s hs)
  rw [List.filterMap_length_eq_length.2 hall, length_leadingSupporters_iff]

theorem mem_leadingDates?_iff {dates : List Date} (h : leadingDates? facts versions = some dates) :
    day ∈ dates ↔ ∃ b, IsLeading versions b ∧ facts.Arrives versions b day := by
  obtain ⟨-, rfl⟩ := mapM_eq_some_iff.1 h
  rw [List.mem_filterMap]
  constructor
  · rintro ⟨⟨b, version⟩, hs, hday⟩
    obtain ⟨hleading, hbrings⟩ := mem_leadingSupporters_iff.1 hs
    exact ⟨b, hleading, version, hbrings, releaseDate?_eq_some_iff.1 hday⟩
  · rintro ⟨b, hleading, version, hbrings, hdates⟩
    exact ⟨(b, version), mem_leadingSupporters_iff.2 ⟨hleading, hbrings⟩,
      releaseDate?_eq_some_iff.2 hdates⟩

/-! ## What is said of a key -/

/-- What is said of a key whose standing is known. -/
def told (versions : KeyMap VersionAdded) (key : String) (standing : Info) : Info :=
  { standing with
    support := some (KeyMap.ofList (supporters versions))
    description := some ("Computed from browser support for " ++ key) }

/-- The standing that follows from the days on which the leading core browsers got a
    feature. -/
def standing? (today : Date) : List Date → Option Info
  | [] => some (Info.ofStatus .limited)
  | d :: ds =>
    if coreBrowsers.length ≤ (d :: ds).length then sinceLast? (ds.foldl Date.latest d) today
    else some (Info.ofStatus .limited)

theorem compute?_eq (hkey : facts.features.get? key = some versions) :
    facts.compute? today key = (leadingDates? facts versions).bind
      (fun dates => (standing? today dates).map (told versions key)) := by
  rw [compute?, hkey, leadingDates?]
  simp only [Option.bind_eq_bind, Option.bind_some]
  refine Option.bind_congr fun dates _ => ?_
  -- what is added to a standing does not depend on where the standing comes from
  cases dates with
  | nil => rfl
  | cons d ds =>
    by_cases hlength : coreBrowsers.length ≤ (d :: ds).length
    · simp only [standing?, if_pos hlength]
      exact Option.map_eq_bind.symm
    · simp only [standing?, if_neg hlength]
      rfl

theorem sinceLast?_eq_some_iff :
    sinceLast? low today = some info ↔ ∃ high, low.IsLater monthsToWidely high ∧
      info = { status := if high ≤ today then .widely else .newly
               lowDate := some low.text
               highDate := if high ≤ today then some high.text else none } := by
  rw [sinceLast?, Option.map_eq_some_iff]
  refine exists_congr fun high => ?_
  rw [Date.addMonths_eq_some_iff]
  refine and_congr_right fun _ => ?_
  split
  · exact eq_comm
  · exact eq_comm

theorem sinceLast?_eq_none_iff :
    sinceLast? low today = none ↔
      lastYear * 12 + 12 < low.year * 12 + low.month + monthsToWidely := by
  rw [sinceLast?, Option.map_eq_none_iff, Date.addMonths_eq_none_iff]

theorem standing?_of_short {dates : List Date} (h : ¬ coreBrowsers.length ≤ dates.length) :
    standing? today dates = some (Info.ofStatus .limited) := by
  cases dates with
  | nil => rfl
  | cons d ds => exact if_neg h

theorem exists_standing?_eq {dates : List Date} (h : coreBrowsers.length ≤ dates.length) :
    ∃ low, Date.IsLatest dates low ∧ ∀ today, standing? today dates = sinceLast? low today := by
  cases dates with
  | nil => exact absurd h (by decide)
  | cons d ds => exact ⟨_, Date.isLatest_foldl_latest d ds, fun today => if_pos h⟩

/-! ## Facts that agree on the core browsers -/

/-- Whether two collections of facts, and two features in them, have the same to say
    about every core browser. -/
structure AgreeOnCore (facts facts' : SupportFacts) (versions versions' : KeyMap VersionAdded) :
    Prop where
  versions : ∀ b ∈ coreBrowsers, versions.get? b = versions'.get? b
  releases : ∀ b ∈ coreBrowsers, facts.releases.get? b = facts'.releases.get? b

theorem AgreeOnCore.supporter?_eq (h : AgreeOnCore facts facts' versions versions') :
    ∀ b ∈ coreBrowsers, supporter? versions b = supporter? versions' b := by
  intro b hb
  rw [supporter?, supporter?, h.versions b hb]

theorem AgreeOnCore.told_eq (h : AgreeOnCore facts facts' versions versions') (key : String) :
    told versions key = told versions' key := by
  have hsupporters : supporters versions = supporters versions' :=
    List.filterMap_congr h.supporter?_eq
  funext standing
  rw [told, told, hsupporters]

theorem AgreeOnCore.leadingDates?_eq (h : AgreeOnCore facts facts' versions versions') :
    leadingDates? facts versions = leadingDates? facts' versions' := by
  have hleading : leadingSupporters versions = leadingSupporters versions' := by
    rw [leadingSupporters, leadingSupporters,
      takeWhile_congr (fun b hb => congrArg Option.isSome (h.supporter?_eq b hb))]
    exact List.filterMap_congr
      (fun b hb => h.supporter?_eq b ((List.takeWhile_sublist _).subset hb))
  rw [leadingDates?, leadingDates?, hleading]
  refine mapM_congr ?_
  rintro ⟨b, version⟩ hs
  have hb : b ∈ coreBrowsers := (mem_leadingSupporters_iff.1 hs).1.mem
  rw [releaseDate?, releaseDate?, h.releases b hb]

/-- Facts about other browsers change nothing. -/
theorem AgreeOnCore.compute?_eq (h : AgreeOnCore facts facts' versions versions')
    (hkey : facts.features.get? key = some versions)
    (hkey' : facts'.features.get? key = some versions') (today : Date) :
    facts.compute? today key = facts'.compute? today key := by
  rw [SupportFacts.compute?_eq hkey, SupportFacts.compute?_eq hkey', h.leadingDates?_eq,
    h.told_eq key]

end WebBaseline.Lookup.SupportFacts

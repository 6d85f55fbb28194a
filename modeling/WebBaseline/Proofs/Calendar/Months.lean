/-
  WebBaseline.Proofs.Calendar.Months

  Days in their order, and days some months later.

    * days compare by year, then month, then day of the month (`Date.le_iff_lex`);
    * the day some months later is the same day of a month whose number has grown by
      so many, or the last one of that month (`addMonths_eq_some_iff`), and is
      missing just beyond the last month of the calendar (`addMonths_eq_none_iff`);
    * days keep their order so many months later (`IsLater.mono`), though different
      ones can meet at the end of a short month;
    * of several days the one that `latest` keeps is one that none exceeds
      (`isLatest_foldl_latest`).
-/

import WebBaseline.Calendar.Date

namespace WebBaseline.Calendar

theorem daysIn_pos (year : Int) (month : Nat) : 1 ≤ daysIn year month := by
  unfold daysIn
  split
  · split <;> decide
  all_goals decide

theorem daysIn_le (year : Int) (month : Nat) : daysIn year month ≤ 31 := by
  unfold daysIn
  split
  · split <;> decide
  all_goals decide

namespace Date

variable {a b c d e : Date} {months : Nat}

/-! ## The order of days -/

theorem le_iff_key : a ≤ b ↔ a.key ≤ b.key := Iff.rfl

theorem le_refl (a : Date) : a ≤ a := Int.le_refl a.key

theorem le_trans (hab : a ≤ b) (hbc : b ≤ c) : a ≤ c :=
  Int.le_trans (le_iff_key.1 hab) (le_iff_key.1 hbc)

theorem le_antisymm (hab : a ≤ b) (hba : b ≤ a) : a = b :=
  key_injective (Int.le_antisymm (le_iff_key.1 hab) (le_iff_key.1 hba))

theorem le_of_not_le (h : ¬ a ≤ b) : b ≤ a :=
  Int.le_of_lt (Int.not_le.1 (fun hkey => h (le_iff_key.2 hkey)))

/-- Days compare by year, then by month, then by day of the month. -/
theorem le_iff_lex : a ≤ b ↔ a.year < b.year ∨
    a.year = b.year ∧ (a.month < b.month ∨ a.month = b.month ∧ a.day ≤ b.day) := by
  obtain ⟨-, -, ham, ham', had, had'⟩ := a.isDay
  obtain ⟨-, -, hbm, hbm', hbd, hbd'⟩ := b.isDay
  have ha31 := Nat.le_trans had' (daysIn_le a.year a.month)
  have hb31 := Nat.le_trans hbd' (daysIn_le b.year b.month)
  rw [le_iff_key, key, key]
  omega

/-! ## Months later -/

/-- Whether a day is the same day of the month as another one, so many months later,
    or the last one of that month where it is too short. -/
def IsLater (d : Date) (months : Nat) (e : Date) : Prop :=
  e.year * 12 + e.month = d.year * 12 + d.month + months ∧
    e.day = min d.day (daysIn e.year e.month)

theorem of?_eq_some_iff {year : Int} {month day : Nat} :
    of? year month day = some d ↔ d.year = year ∧ d.month = month ∧ d.day = day := by
  rw [of?]
  constructor
  · intro h
    split at h
    · cases h
      exact ⟨rfl, rfl, rfl⟩
    · cases h
  · rintro ⟨rfl, rfl, rfl⟩
    exact dif_pos d.isDay

theorem of?_eq_none_iff {year : Int} {month day : Nat} :
    of? year month day = none ↔ ¬ IsDay year month day := by
  rw [of?]
  split <;> simp_all

/-- The year and the month that follow from a number of months. -/
theorem addMonths_eq (d : Date) (months : Nat) :
    d.addMonths months =
      of? ((d.year * 12 + d.month - 1 + months) / 12)
        (((d.year * 12 + d.month - 1 + months) % 12).toNat + 1)
        (min d.day (daysIn ((d.year * 12 + d.month - 1 + months) / 12)
          (((d.year * 12 + d.month - 1 + months) % 12).toNat + 1))) := by
  have hmonth := d.isDay.2.2.1
  have htotal : d.year * 12 + ((d.month - 1 : Nat) : Int) + months =
      d.year * 12 + d.month - 1 + months := by omega
  rw [addMonths, Int.fdiv_eq_ediv_of_nonneg _ (by decide), Int.fmod_eq_emod_of_nonneg _ (by decide),
    htotal]

theorem addMonths_eq_some_iff : d.addMonths months = some e ↔ d.IsLater months e := by
  obtain ⟨-, -, hmonth, hmonth', -, -⟩ := e.isDay
  have hnumber : (e.year = (d.year * 12 + d.month - 1 + months) / 12 ∧
      e.month = ((d.year * 12 + d.month - 1 + months) % 12).toNat + 1) ↔
      e.year * 12 + e.month = d.year * 12 + d.month + months := by omega
  rw [addMonths_eq, of?_eq_some_iff, IsLater, ← hnumber, and_assoc]
  constructor
  · rintro ⟨hyear, hmonth, hday⟩
    exact ⟨hyear, hmonth, by rw [hday, hyear, hmonth]⟩
  · rintro ⟨hyear, hmonth, hday⟩
    exact ⟨hyear, hmonth, by rw [hday, hyear, hmonth]⟩

/-- So many months later days keep their order. -/
theorem IsLater.mono {d' e' : Date} (hle : d ≤ d') (h : d.IsLater months e)
    (h' : d'.IsLater months e') : e ≤ e' := by
  obtain ⟨hnumber, hday⟩ := h
  obtain ⟨hnumber', hday'⟩ := h'
  obtain ⟨-, -, hmonth, hmonth', -, -⟩ := d.isDay
  obtain ⟨-, -, hmonth'', hmonth''', -, -⟩ := d'.isDay
  obtain ⟨-, -, hm, hm', -, -⟩ := e.isDay
  obtain ⟨-, -, hm'', hm''', -, -⟩ := e'.isDay
  rw [le_iff_lex] at hle ⊢
  -- the numbers of the months keep their order, and in one month the days do
  by_cases hsame : e.year = e'.year ∧ e.month = e'.month
  · obtain ⟨hyear, hmonths⟩ := hsame
    have hfirst : d.day ≤ d'.day := by omega
    have hmin : e.day ≤ e'.day := by
      rw [hday, hday', ← hyear, ← hmonths]
      omega
    exact Or.inr ⟨hyear, Or.inr ⟨hmonths, hmin⟩⟩
  · omega

/-- There is no day so many months later just if its month would lie beyond the
    calendar. -/
theorem addMonths_eq_none_iff :
    d.addMonths months = none ↔ lastYear * 12 + 12 < d.year * 12 + d.month + months := by
  obtain ⟨hyear, -, hmonth, -, hday, -⟩ := d.isDay
  rw [addMonths_eq, of?_eq_none_iff, IsDay]
  have hpos := daysIn_pos ((d.year * 12 + d.month - 1 + months) / 12)
    (((d.year * 12 + d.month - 1 + months) % 12).toNat + 1)
  generalize daysIn _ _ = days at hpos
  unfold firstYear lastYear at *
  omega

/-! ## The latest of several days -/

/-- Whether a day is one of several and none of them exceeds it. -/
def IsLatest (days : List Date) (low : Date) : Prop := low ∈ days ∧ ∀ day ∈ days, day ≤ low

theorem latest_cases (a b : Date) : latest a b = b ∧ a ≤ b ∨ latest a b = a ∧ b ≤ a := by
  rw [latest]
  split
  · next hle => exact Or.inl ⟨rfl, hle⟩
  · next hle => exact Or.inr ⟨rfl, le_of_not_le hle⟩

theorem isLatest_foldl_latest (d : Date) (ds : List Date) :
    IsLatest (d :: ds) (ds.foldl latest d) := by
  induction ds generalizing d with
  | nil => exact ⟨List.mem_cons_self, fun day hday => List.mem_singleton.1 hday ▸ le_refl d⟩
  | cons e ds ih =>
    -- of the first two days the later one goes on, and the other one does not exceed it
    obtain ⟨hmem, hall⟩ := ih (latest d e)
    rw [List.foldl_cons]
    rw [List.forall_mem_cons] at hall
    obtain ⟨hfirst, hrest⟩ := hall
    rw [List.mem_cons] at hmem
    rcases latest_cases d e with ⟨heq, hle⟩ | ⟨heq, hle⟩
    · rw [heq] at hmem hfirst hrest ⊢
      refine ⟨List.mem_cons_of_mem d (List.mem_cons.2 hmem), ?_⟩
      exact List.forall_mem_cons.2 ⟨le_trans hle hfirst, List.forall_mem_cons.2 ⟨hfirst, hrest⟩⟩
    · rw [heq] at hmem hfirst hrest ⊢
      refine ⟨?_, ?_⟩
      · rcases hmem with hd | hds
        · exact List.mem_cons.2 (Or.inl hd)
        · exact List.mem_cons_of_mem d (List.mem_cons_of_mem e hds)
      · exact List.forall_mem_cons.2 ⟨hfirst, List.forall_mem_cons.2 ⟨le_trans hle hfirst, hrest⟩⟩

end Date

end WebBaseline.Calendar

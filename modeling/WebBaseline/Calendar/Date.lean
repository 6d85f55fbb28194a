/-
  WebBaseline.Calendar.Date

  Days of the Gregorian calendar: how they compare, adding months, and how they
  are written and read.
-/

import WebBaseline.Decimal.Digits
import WebBaseline.Text.Blank

namespace WebBaseline.Calendar

/-! ## Days -/

/-- Whether a year has a 29th of February. -/
def isLeap (year : Int) : Bool :=
  year % 4 == 0 && (year % 100 != 0 || year % 400 == 0)

/-- How many days a month has. -/
def daysIn (year : Int) (month : Nat) : Nat :=
  match month with
  | 2 => if isLeap year then 29 else 28
  | 4 | 6 | 9 | 11 => 30
  | _ => 31

/-- The first year of the calendar. -/
def firstYear : Int := -262143

/-- The last year of the calendar. -/
def lastYear : Int := 262142

/-- Whether year, month and day name a day. -/
def IsDay (year : Int) (month day : Nat) : Prop :=
  firstYear ≤ year ∧ year ≤ lastYear ∧ 1 ≤ month ∧ month ≤ 12 ∧ 1 ≤ day ∧ day ≤ daysIn year month

instance (year : Int) (month day : Nat) : Decidable (IsDay year month day) := by
  unfold IsDay; infer_instance

/-- A day. -/
structure Date where
  year : Int
  month : Nat
  day : Nat
  isDay : IsDay year month day
  deriving DecidableEq, Repr

namespace Date

/-- The day of a year, month and day, if there is one. -/
def of? (year : Int) (month day : Nat) : Option Date :=
  if h : IsDay year month day then some ⟨year, month, day, h⟩ else none

/-- A number that grows from day to day. -/
def key (d : Date) : Int := (d.year * 12 + d.month) * 32 + d.day

instance : LE Date := ⟨fun a b => a.key ≤ b.key⟩
instance (a b : Date) : Decidable (a ≤ b) := inferInstanceAs (Decidable (a.key ≤ b.key))

/-- The later of two days. -/
def latest (a b : Date) : Date := if a ≤ b then b else a

theorem key_injective {a b : Date} (h : a.key = b.key) : a = b := by
  obtain ⟨y, m, d, hd⟩ := a
  obtain ⟨y', m', d', hd'⟩ := b
  simp only [key] at h
  have bound : ∀ {y : Int} {m : Nat}, daysIn y m ≤ 31 := by
    intro y m
    unfold daysIn
    split <;> (try split) <;> omega
  obtain ⟨_, _, hm1, hm2, hd1, hd2⟩ := hd
  obtain ⟨_, _, hm1', hm2', hd1', hd2'⟩ := hd'
  have b1 := Nat.le_trans hd2 bound
  have b2 := Nat.le_trans hd2' bound
  have hdd : d = d' := by omega
  have hmm : m = m' := by omega
  have hyy : y = y' := by omega
  subst hdd hmm hyy
  rfl

/-! ## Adding months -/

/-- The day some months later. Where that month is too short it is the month's
    last day; beyond the calendar there is none. -/
def addMonths (d : Date) (months : Nat) : Option Date :=
  let total : Int := d.year * 12 + (d.month - 1 : Nat) + months
  let year := total.fdiv 12
  let month := (total.fmod 12).toNat + 1
  of? year month (min d.day (daysIn year month))

/-! ## Neighbours -/

/-- The next day. -/
def next (d : Date) : Option Date :=
  match of? d.year d.month (d.day + 1) with
  | some e => some e
  | none => if d.month = 12 then of? (d.year + 1) 1 1 else of? d.year (d.month + 1) 1

/-- The day before. -/
def previous (d : Date) : Option Date :=
  if 1 < d.day then of? d.year d.month (d.day - 1)
  else if d.month = 1 then of? (d.year - 1) 12 31
  else of? d.year (d.month - 1) (daysIn d.year (d.month - 1))

/-! ## Writing -/

/-- A year. From 0 to 9999 it has four digits, otherwise a sign and at least four. -/
def yearText (year : Int) : String :=
  match year with
  | .ofNat n => if n ≤ 9999 then Decimal.padded 4 n else "+" ++ Decimal.padded 4 n
  | .negSucc n => "-" ++ Decimal.padded 4 (n + 1)

/-- Year, month and day with hyphens between. -/
def text (d : Date) : String :=
  yearText d.year ++ "-" ++ Decimal.padded 2 d.month ++ "-" ++ Decimal.padded 2 d.day

/-! ## Reading -/

/-- A number of at most `width` digits after any blanks, and the rest. -/
def number? (width : Nat) (cs : List Char) : Option (Nat × List Char) :=
  let cs := cs.dropWhile Text.isBlank
  let ds := (cs.take width).takeWhile Char.isDigit
  if ds.isEmpty then none else some (Decimal.ofDigits ds, cs.drop ds.length)

/-- A year after any blanks: up to four digits, or a sign and any number of digits. -/
def year? (cs : List Char) : Option (Int × List Char) :=
  match cs.dropWhile Text.isBlank with
  | '-' :: ds => (signed ds).map (fun r => (-(r.1 : Int), r.2))
  | '+' :: ds => (signed ds).map (fun r => ((r.1 : Int), r.2))
  | ds => (number? 4 ds).map (fun r => ((r.1 : Int), r.2))
where
  /-- The digits right after a sign. -/
  signed (cs : List Char) : Option (Nat × List Char) :=
    let (ds, rest) := Decimal.spanDigits cs
    if ds.isEmpty then none else some (Decimal.ofDigits ds, rest)

/-- A hyphen, and the rest. -/
def hyphen? : List Char → Option (List Char)
  | '-' :: cs => some cs
  | _ => none

/-- Reads a day at the front of a text. -/
def read? (cs : List Char) : Option (Date × List Char) := do
  let (year, cs) ← year? cs
  let (month, cs) ← number? 2 (← hyphen? cs)
  let (day, cs) ← number? 2 (← hyphen? cs)
  return (← of? year month day, cs)

/-- The day that a text names. -/
def ofText? (s : String) : Option Date :=
  match read? s.toList with
  | some (d, []) => some d
  | _ => none

end Date

end WebBaseline.Calendar

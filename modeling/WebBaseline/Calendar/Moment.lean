/-
  WebBaseline.Calendar.Moment

  Moments in universal time: how they are written and read. A second may be the
  60th of its minute where a leap second is inserted.
-/

import WebBaseline.Calendar.Date
import WebBaseline.Text.Lowercase

namespace WebBaseline.Calendar

/-- A moment in universal time. -/
structure Moment where
  date : Date
  hour : Nat
  minute : Nat
  second : Nat
  nanosecond : Nat
  deriving DecidableEq, Repr

namespace Moment

/-! ## Writing -/

/-- Hours, minutes and seconds with colons between. -/
def clock (m : Moment) : String :=
  Decimal.padded 2 m.hour ++ ":" ++ Decimal.padded 2 m.minute ++ ":" ++ Decimal.padded 2 m.second

/-- The fraction of the second in as few groups of three digits as it needs. -/
def fraction (m : Moment) : String :=
  if m.nanosecond = 0 then ""
  else if m.nanosecond % 1000000 = 0 then "." ++ Decimal.padded 3 (m.nanosecond / 1000000)
  else if m.nanosecond % 1000 = 0 then "." ++ Decimal.padded 6 (m.nanosecond / 1000)
  else "." ++ Decimal.padded 9 m.nanosecond

/-- The moment for programs to read. -/
def text (m : Moment) : String := m.date.text ++ "T" ++ m.clock ++ m.fraction ++ "Z"

/-- The moment for people to read. -/
def plainText (m : Moment) : String := m.date.text ++ " " ++ m.clock ++ " UTC"

/-! ## Reading -/

/-- The text without blanks at the front. -/
def skipBlanks (cs : List Char) : List Char := cs.dropWhile Text.isBlank

/-- A given character, and the rest. -/
def char? (c : Char) : List Char → Option (List Char)
  | d :: cs => if c = d then some cs else none
  | [] => none

/-- Day as in `Date.read?`, with blanks allowed before the hyphens. -/
def date? (cs : List Char) : Option (Date × List Char) := do
  let (year, cs) ← Date.year? cs
  let (month, cs) ← Date.number? 2 (← char? '-' (skipBlanks cs))
  let (day, cs) ← Date.number? 2 (← char? '-' (skipBlanks cs))
  return (← Date.of? year month day, cs)

/-- What may stand between day and clock. -/
def separator? : List Char → Option (List Char)
  | 'T' :: cs => some cs
  | 't' :: cs => some cs
  | ' ' :: cs => some cs
  | _ => none

/-- The nanoseconds of a fraction, if one is there; digits beyond the ninth are
    passed over. -/
def fraction? : List Char → Option (Nat × List Char)
  | '.' :: cs =>
    let (ds, rest) := Decimal.spanDigits cs
    let kept := ds.take 9
    if ds.isEmpty then none else some (Decimal.ofDigits kept * Nat.pow 10 (9 - kept.length), rest)
  | cs => some (0, cs)

/-- Two digits, and the rest. -/
def twoDigits? : List Char → Option (Nat × List Char)
  | a :: b :: cs => if a.isDigit && b.isDigit then some (Decimal.ofDigits [a, b], cs) else none
  | _ => none

/-- The minutes by which a clock is ahead of universal time; negative if it is behind. -/
def offset? (cs : List Char) : Option (Int × List Char) :=
  if cs.take 3 |>.map Char.toLower |> (· == ['u', 't', 'c']) then some (0, cs.drop 3)
  else
    match cs with
    | 'Z' :: rest => some (0, rest)
    | 'z' :: rest => some (0, rest)
    | '+' :: rest => ahead rest
    | '-' :: rest => (ahead rest).map (fun r => (-r.1, r.2))
    | '\u2212' :: rest => (ahead rest).map (fun r => (-r.1, r.2))
    | _ => none
where
  /-- Hours and minutes, with colons or blanks between. -/
  ahead (cs : List Char) : Option (Int × List Char) := do
    let (hours, cs) ← twoDigits? cs
    let (minutes, cs) ← twoDigits? (cs.dropWhile (fun c => c == ':' || Text.isBlank c))
    if 60 ≤ minutes || 24 ≤ hours then none
    else return ((hours * 60 + minutes : Nat), cs)

/-- The moment of a day and a minute of that day, which may lie a day before or after. -/
def ofMinutes? (date : Date) (minutes : Int) (second nanosecond : Nat) : Option Moment := do
  let (date, minutes) ←
    if minutes < 0 then date.previous.map (·, minutes + 1440)
    else if 1440 ≤ minutes then date.next.map (·, minutes - 1440)
    else some (date, minutes)
  let m := minutes.toNat
  return ⟨date, m / 60, m % 60, second, nanosecond⟩

/-- The moment that a text names, in any zone. -/
def ofText? (s : String) : Option Moment := do
  let (date, cs) ← date? s.toList
  let (hour, cs) ← Date.number? 2 (← separator? cs)
  let (minute, cs) ← Date.number? 2 (← char? ':' (skipBlanks cs))
  let (second, cs) ← Date.number? 2 (← char? ':' (skipBlanks cs))
  let (nanosecond, cs) ← fraction? cs
  let (offset, cs) ← offset? (skipBlanks cs)
  if 24 ≤ hour || 60 ≤ minute || 61 ≤ second || !(skipBlanks cs).isEmpty then none
  else ofMinutes? date ((hour * 60 + minute : Nat) - offset) second nanosecond

end Moment

end WebBaseline.Calendar

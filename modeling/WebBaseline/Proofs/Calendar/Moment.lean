/-
  WebBaseline.Proofs.Calendar.Moment

  A moment that is written is read back, and every moment that is read is one.

    * digits with zeros in front are read as the number they stand for
      (`number?_padded`), a year with its sign as the year (`year?_yearText`), and a
      day as the day (`Date.ofText?_text`);
    * a moment is `proper` if it is a time of a day, at most one second past the
      end of a minute; `ofText?_text` reads it back from its text;
    * whatever text a moment was read from, in any zone, it is proper
      (`proper_of_ofText?`).
-/

import Mathlib
import WebBaseline.Calendar.Moment
import WebBaseline.Proofs.Calendar.Months
import WebBaseline.Proofs.Json.Scalars

namespace WebBaseline.Decimal

/-! ## Digits with zeros in front -/

theorem digitVal_le {c : Char} (h : c.isDigit = true) : digitVal c ≤ 9 := by
  have hbounds : c.val ≥ 48 ∧ c.val ≤ 57 := by simpa [Char.isDigit] using h
  have hle : c.toNat ≤ 57 := UInt32.le_iff_toNat_le.1 hbounds.2
  rw [digitVal]
  omega

/-- As many digits as a number has stand for a number below that power of ten. -/
theorem ofDigits_lt {ds : List Char} (h : ∀ c ∈ ds, c.isDigit = true) :
    ofDigits ds < 10 ^ ds.length := by
  -- the digits read so far make a number `n`; each further one multiplies its bound by ten
  have hstep : ∀ (ds : List Char) (n : Nat), (∀ c ∈ ds, c.isDigit = true) →
      ds.foldl (fun n d => 10 * n + digitVal d) n < (n + 1) * 10 ^ ds.length := by
    intro ds
    induction ds with
    | nil => intro n _; simp
    | cons d ds ih =>
      intro n hds
      have hd := digitVal_le (hds d List.mem_cons_self)
      have hrest := ih (10 * n + digitVal d) (fun c hc => hds c (List.mem_cons_of_mem d hc))
      have hbound : (10 * n + digitVal d + 1) * 10 ^ ds.length ≤ (n + 1) * 10 * 10 ^ ds.length :=
        Nat.mul_le_mul_right _ (by omega)
      rw [List.foldl_cons, List.length_cons, Nat.pow_succ, Nat.mul_comm (10 ^ ds.length),
        ← Nat.mul_assoc]
      exact Nat.lt_of_lt_of_le hrest hbound
  have hall := hstep ds 0 h
  rw [Nat.zero_add, Nat.one_mul] at hall
  exact hall

/-- A digit is the one for its number. -/
theorem digitChar_digitVal {c : Char} (h : c.isDigit = true) : digitChar (digitVal c) = c := by
  have hbounds : c.val ≥ 48 ∧ c.val ≤ 57 := by simpa [Char.isDigit] using h
  have hge : 48 ≤ c.toNat := UInt32.le_iff_toNat_le.1 hbounds.1
  have hsum : 48 + (c.toNat - 48) = c.toNat := by omega
  rw [digitChar, digitVal, hsum, Char.ofNat_toNat]

theorem length_digits_le {width n : Nat} (hwidth : 0 < width) (h : n < 10 ^ width) :
    (digits n).length ≤ width := by
  induction n using digits.induct generalizing width with
  | case1 n hn =>
    rw [digits, if_pos hn]
    exact hwidth
  | case2 n hn ih =>
    obtain ⟨w, rfl⟩ : ∃ w, width = w + 1 := ⟨width - 1, by omega⟩
    have hw : 0 < w := by
      -- a number of one digit is below ten
      rcases Nat.eq_zero_or_pos w with rfl | hw
      · rw [Nat.zero_add, Nat.pow_one] at h
        omega
      · exact hw
    have hdiv : n / 10 < 10 ^ w := Nat.div_lt_of_lt_mul (by rwa [Nat.pow_succ, Nat.mul_comm] at h)
    have hlength := ih hw hdiv
    rw [digits, if_neg hn, List.length_append, List.length_singleton]
    omega

theorem toList_padded (width n : Nat) : (padded width n).toList =
    List.replicate (width - (digits n).length) '0' ++ digits n := by
  rw [padded, String.toList_ofList]

theorem padded_isDigit (width n : Nat) : ∀ c ∈ (padded width n).toList, c.isDigit = true := by
  intro c hc
  rw [toList_padded] at hc
  rcases List.mem_append.1 hc with hc | hc
  · rw [List.eq_of_mem_replicate hc]
    rfl
  · exact digits_isDigit n c hc

theorem length_padded {width n : Nat} (hwidth : 0 < width) (h : n < 10 ^ width) :
    (padded width n).toList.length = width := by
  have hlength := length_digits_le hwidth h
  rw [toList_padded, List.length_append, List.length_replicate]
  omega

/-- Zeros in front do not count. -/
theorem ofDigits_padded (width n : Nat) : ofDigits (padded width n).toList = n := by
  have hzeros : ∀ k, (List.replicate k '0').foldl (fun n d => 10 * n + digitVal d) 0 = 0 := by
    intro k
    induction k with
    | zero => rfl
    | succ k ih =>
      rw [List.replicate_succ, List.foldl_cons]
      exact ih
  rw [toList_padded, ofDigits, List.foldl_append, hzeros]
  exact ofDigits_digits n

theorem padded_ne_nil (width n : Nat) : (padded width n).toList ≠ [] := by
  rw [toList_padded]
  simp [Json.digits_ne_nil]

theorem isEmpty_padded (width n : Nat) : (padded width n).toList.isEmpty = false :=
  List.isEmpty_eq_false_iff.2 (padded_ne_nil width n)

end WebBaseline.Decimal

namespace WebBaseline.Calendar

open WebBaseline.Decimal (padded padded_isDigit padded_ne_nil isEmpty_padded length_padded
  ofDigits_padded)

/-! ## Numbers in a date -/

theorem isBlank_digitChar_all : ∀ d, d < 10 → Text.isBlank (Decimal.digitChar d) = false := by
  decide

theorem isBlank_of_isDigit {c : Char} (h : c.isDigit = true) : Text.isBlank c = false := by
  have hd := Decimal.digitVal_le h
  rw [← Decimal.digitChar_digitVal h]
  exact isBlank_digitChar_all _ (by omega)

/-- No blanks stand before a number. -/
theorem dropWhile_isBlank_padded (width n : Nat) (rest : List Char) :
    ((padded width n).toList ++ rest).dropWhile Text.isBlank = (padded width n).toList ++ rest := by
  obtain ⟨c, cs, hcs⟩ := List.exists_cons_of_ne_nil (padded_ne_nil width n)
  have hc : c.isDigit = true := padded_isDigit width n c (by rw [hcs]; exact List.mem_cons_self)
  rw [hcs, List.cons_append]
  exact List.dropWhile_cons_of_neg (by simp [isBlank_of_isDigit hc])

/-- A number with zeros in front is read up to its width, whatever follows. -/
theorem number?_padded {width n : Nat} (hwidth : 0 < width) (h : n < 10 ^ width)
    (rest : List Char) :
    Date.number? width ((padded width n).toList ++ rest) = some (n, rest) := by
  have hlength := length_padded hwidth h
  have htake : ((padded width n).toList ++ rest).take width = (padded width n).toList :=
    List.take_left' hlength
  have hall : (padded width n).toList.takeWhile Char.isDigit = (padded width n).toList :=
    List.takeWhile_eq_self_iff.2 (padded_isDigit width n)
  rw [Date.number?]
  simp only [dropWhile_isBlank_padded, htake, hall, isEmpty_padded, ofDigits_padded, hlength]
  simp [List.drop_left' hlength]

/-- A year behind a sign is read up to what follows its digits. -/
theorem signed_padded (n : Nat) {rest : List Char} (hrest : Json.Ends rest) :
    Date.year?.signed ((padded 4 n).toList ++ rest) = some (n, rest) := by
  have hspan := Json.spanDigits_append (padded_isDigit 4 n) hrest
  rw [Date.year?.signed]
  simp only [hspan, isEmpty_padded, ofDigits_padded]
  rfl

theorem year?_yearText (year : Int) (rest : List Char) (hrest : Json.Ends rest) :
    Date.year? ((Date.yearText year).toList ++ rest) = some (year, rest) := by
  cases year with
  | ofNat n =>
    rw [Date.yearText]
    split
    · next hn =>
      -- four digits, the first of which is no sign
      have hread := number?_padded (by decide : 0 < 4) (by omega : n < 10 ^ 4) rest
      have hblank := dropWhile_isBlank_padded 4 n rest
      obtain ⟨c, cs, hcs⟩ := List.exists_cons_of_ne_nil (padded_ne_nil 4 n)
      have hc : c.isDigit = true := padded_isDigit 4 n c (by rw [hcs]; exact List.mem_cons_self)
      rw [Date.year?, hblank]
      rw [hcs, List.cons_append] at hread ⊢
      split
      · next heq =>
        obtain rfl := (List.cons.inj heq).1
        cases hc
      · next heq =>
        obtain rfl := (List.cons.inj heq).1
        cases hc
      · rw [hread]
        rfl
    · rw [String.toList_append, Date.year?]
      show Option.map _ (Date.year?.signed ((padded 4 n).toList ++ rest)) = _
      rw [signed_padded n hrest]
      rfl
  | negSucc n =>
    rw [Date.yearText, String.toList_append, Date.year?]
    show Option.map _ (Date.year?.signed ((padded 4 (n + 1)).toList ++ rest)) = _
    rw [signed_padded (n + 1) hrest]
    rfl

/-- A day that is written is read back. -/
theorem Date.ofText?_text (d : Date) : Date.ofText? d.text = some d := by
  obtain ⟨year, month, day, hday⟩ := d
  obtain ⟨-, -, -, hmonth, -, hlast⟩ := id hday
  have hdays := daysIn_le year month
  have htext : (Date.text ⟨year, month, day, hday⟩).toList =
      (Date.yearText year).toList ++ '-' :: ((padded 2 month).toList ++
        ('-' :: ((padded 2 day).toList ++ []))) := by
    simp [Date.text]
  have hyear := year?_yearText year ('-' :: ((padded 2 month).toList ++
    ('-' :: ((padded 2 day).toList ++ [])))) (Json.ends_cons (by decide) _)
  have hof : Date.of? year month day = some ⟨year, month, day, hday⟩ := dif_pos hday
  rw [Date.ofText?, Date.read?, htext, hyear]
  simp only [Option.bind_eq_bind, Option.bind_some, Date.hyphen?,
    number?_padded (by decide : 0 < 2) (by omega : month < 10 ^ 2),
    number?_padded (by decide : 0 < 2) (by omega : day < 10 ^ 2), hof]
  rfl

namespace Moment

/-! ## Writing and reading -/

/-- A time of a day; its second may be one past the end of its minute. -/
structure Proper (m : Moment) : Prop where
  hour_lt : m.hour < 24
  minute_lt : m.minute < 60
  second_le : m.second ≤ 60
  nanosecond_lt : m.nanosecond < 10 ^ 9

/-- The text of a date is read up to what follows it. -/
theorem date?_text (d : Date) (rest : List Char) :
    date? (d.text.toList ++ rest) = some (d, rest) := by
  obtain ⟨year, month, day, hday⟩ := d
  have hdays := daysIn_le year month
  obtain ⟨-, -, -, hmonth, -, hlast⟩ := id hday
  have hyear := year?_yearText year ('-' :: ((padded 2 month).toList ++
    ('-' :: ((padded 2 day).toList ++ rest)))) (Json.ends_cons (by decide) _)
  have htext : (Date.text ⟨year, month, day, hday⟩).toList ++ rest =
      (Date.yearText year).toList ++ '-' :: ((padded 2 month).toList ++
        ('-' :: ((padded 2 day).toList ++ rest))) := by
    simp [Date.text]
  have hskip : ∀ cs, skipBlanks ('-' :: cs) = '-' :: cs := fun cs => rfl
  have hof : Date.of? year month day = some ⟨year, month, day, hday⟩ := by
    rw [Date.of?, dif_pos hday]
  rw [date?, htext, hyear]
  simp only [Option.bind_eq_bind, Option.bind_some, hskip, char?, if_true,
    number?_padded (by decide : 0 < 2) (by omega : month < 10 ^ 2),
    number?_padded (by decide : 0 < 2) (by omega : day < 10 ^ 2), hof]
  rfl

/-- The fraction of a second is read up to the zone behind it. -/
theorem fraction?_fraction (m : Moment) (h : m.nanosecond < 10 ^ 9) :
    fraction? (m.fraction.toList ++ ['Z']) = some (m.nanosecond, ['Z']) := by
  have hends : Json.Ends ['Z'] := Json.ends_cons (by decide) []
  -- in groups of three digits; what the groups left out are zeros
  have hgroups : ∀ width n, 0 < width → width ≤ 9 → n < 10 ^ width →
      fraction? (("." ++ padded width n).toList ++ ['Z']) =
        some (n * 10 ^ (9 - width), ['Z']) := by
    intro width n hwidth hle hn
    have hlength := length_padded hwidth hn
    have hspan := Json.spanDigits_append (padded_isDigit width n) hends
    have htake : (padded width n).toList.take 9 = (padded width n).toList :=
      List.take_of_length_le (by omega)
    have hpoint : ("." ++ padded width n).toList ++ ['Z'] =
        '.' :: ((padded width n).toList ++ ['Z']) := by
      rw [String.toList_append]
      rfl
    rw [hpoint, fraction?]
    simp only [hspan, htake, isEmpty_padded, ofDigits_padded, hlength]
    rfl
  rw [fraction]
  split
  · next hzero =>
    rw [hzero]
    rfl
  · split
    · next hmilli =>
      rw [hgroups 3 _ (by decide) (by decide) (by omega)]
      have hsum : m.nanosecond / 1000000 * 10 ^ (9 - 3) = m.nanosecond := by omega
      rw [hsum]
    · split
      · next hmicro =>
        rw [hgroups 6 _ (by decide) (by decide) (by omega)]
        have hsum : m.nanosecond / 1000 * 10 ^ (9 - 6) = m.nanosecond := by omega
        rw [hsum]
      · rw [hgroups 9 _ (by decide) (by decide) h, Nat.sub_self, Nat.pow_zero, Nat.mul_one]

/-- A minute of a day is a moment of that day. -/
theorem ofMinutes?_of_lt (date : Date) {minutes : Nat} (h : minutes < 1440)
    (second nanosecond : Nat) :
    ofMinutes? date minutes second nanosecond =
      some ⟨date, minutes / 60, minutes % 60, second, nanosecond⟩ := by
  have hlow : ¬ (minutes : Int) < 0 := by omega
  have hhigh : ¬ (1440 : Int) ≤ minutes := by omega
  rw [ofMinutes?, if_neg hlow, if_neg hhigh]
  rfl

/-- A proper moment is read back from its text. -/
theorem ofText?_text {m : Moment} (h : m.Proper) : ofText? m.text = some m := by
  obtain ⟨date, hour, minute, second, nanosecond⟩ := m
  obtain ⟨hhour, hminute, hsecond, hnanosecond⟩ := h
  simp only at hhour hminute hsecond
  have hfraction := fraction?_fraction ⟨date, hour, minute, second, nanosecond⟩ hnanosecond
  have htext : (text ⟨date, hour, minute, second, nanosecond⟩).toList =
      date.text.toList ++ 'T' :: ((padded 2 hour).toList ++ ':' :: ((padded 2 minute).toList ++
        ':' :: ((padded 2 second).toList ++
          ((fraction ⟨date, hour, minute, second, nanosecond⟩).toList ++ ['Z'])))) := by
    simp [text, clock]
  have hskip : ∀ cs, skipBlanks (':' :: cs) = ':' :: cs := fun cs => rfl
  have hzone : offset? (skipBlanks ['Z']) = some (0, []) := by decide
  have hrange : (decide (24 ≤ hour) || decide (60 ≤ minute) || decide (61 ≤ second) ||
      !(skipBlanks []).isEmpty) = false := by
    simp [skipBlanks]
    omega
  have hminutes : ((hour * 60 + minute : Nat) : Int) - 0 = (hour * 60 + minute : Nat) := by
    omega
  have hday := ofMinutes?_of_lt date (by omega : hour * 60 + minute < 1440) second nanosecond
  have hdiv : (hour * 60 + minute) / 60 = hour := by omega
  have hmod : (hour * 60 + minute) % 60 = minute := by omega
  rw [ofText?, htext, date?_text]
  simp only [Option.bind_eq_bind, Option.bind_some, separator?, hskip, char?, if_true,
    number?_padded (by decide : 0 < 2) (by omega : hour < 10 ^ 2),
    number?_padded (by decide : 0 < 2) (by omega : minute < 10 ^ 2),
    number?_padded (by decide : 0 < 2) (by omega : second < 10 ^ 2), hfraction, hzone, hrange,
    hminutes, hday, hdiv, hmod]
  rfl

/-! ## What is read -/

theorem spanDigits_isDigit (cs : List Char) :
    ∀ c ∈ (Decimal.spanDigits cs).1, c.isDigit = true := by
  induction cs with
  | nil => simp [Decimal.spanDigits]
  | cons d cs ih =>
    rw [Decimal.spanDigits]
    split
    · next hd =>
      intro c hc
      rcases List.mem_cons.1 hc with rfl | hc
      · exact hd
      · exact ih c hc
    · simp

/-- A fraction that is read is less than a second. -/
theorem lt_of_fraction? {cs rest : List Char} {n : Nat} (h : fraction? cs = some (n, rest)) :
    n < 10 ^ 9 := by
  rw [fraction?.eq_def] at h
  split at h
  · next cs =>
    simp only at h
    split at h
    · cases h
    · obtain ⟨rfl, -⟩ := Prod.mk.inj (Option.some.inj h)
      have hlength := List.length_take_le 9 (Decimal.spanDigits cs).1
      have hlt := Decimal.ofDigits_lt (fun c hc =>
        spanDigits_isDigit cs c (List.mem_of_mem_take hc) :
        ∀ c ∈ (Decimal.spanDigits cs).1.take 9, c.isDigit = true)
      generalize (Decimal.spanDigits cs).1.take 9 = kept at hlength hlt ⊢
      -- the zeros that are added make up for the digits that are not there
      calc Decimal.ofDigits kept * Nat.pow 10 (9 - kept.length)
          < 10 ^ kept.length * 10 ^ (9 - kept.length) :=
            Nat.mul_lt_mul_of_pos_right hlt (Nat.pow_pos (by decide))
        _ = 10 ^ 9 := by rw [← Nat.pow_add, Nat.add_sub_cancel' hlength]
  · obtain ⟨rfl, -⟩ := Prod.mk.inj (Option.some.inj h)
    decide

theorem lt_of_ahead {cs rest : List Char} {n : Int} (h : offset?.ahead cs = some (n, rest)) :
    0 ≤ n ∧ n < 1440 := by
  rw [offset?.ahead] at h
  simp only [Option.bind_eq_bind, Option.bind_eq_some_iff, Prod.exists] at h
  obtain ⟨hours, _, -, minutes, _, -, h⟩ := h
  split at h
  · cases h
  · next hsmall =>
    simp only [Bool.or_eq_true, decide_eq_true_eq, not_or, Nat.not_le] at hsmall
    obtain ⟨rfl, -⟩ := Prod.mk.inj (Option.some.inj h)
    omega

/-- No zone is a day or more ahead or behind. -/
theorem lt_of_offset? {cs rest : List Char} {n : Int} (h : offset? cs = some (n, rest)) :
    -1440 < n ∧ n < 1440 := by
  have hbehind : ∀ {cs : List Char}, (offset?.ahead cs).map (fun r => (-r.1, r.2)) = some (n, rest) →
      -1440 < n ∧ n < 1440 := by
    intro cs h
    obtain ⟨⟨k, r⟩, hk, heq⟩ := Option.map_eq_some_iff.1 h
    have hbounds := lt_of_ahead hk
    obtain ⟨rfl, -⟩ := Prod.mk.inj heq
    omega
  rw [offset?.eq_def] at h
  split at h
  · obtain ⟨rfl, -⟩ := Prod.mk.inj (Option.some.inj h)
    decide
  · split at h
    · obtain ⟨rfl, -⟩ := Prod.mk.inj (Option.some.inj h)
      decide
    · obtain ⟨rfl, -⟩ := Prod.mk.inj (Option.some.inj h)
      decide
    · have hbounds := lt_of_ahead h
      omega
    · exact hbehind h
    · exact hbehind h
    · cases h

/-- A minute that lies at most a day off is a proper moment of some day. -/
theorem proper_of_ofMinutes? {date : Date} {minutes : Int} {second nanosecond : Nat} {m : Moment}
    (h : ofMinutes? date minutes second nanosecond = some m) (hlow : -1440 ≤ minutes)
    (hhigh : minutes < 2880) (hsecond : second ≤ 60) (hnanosecond : nanosecond < 10 ^ 9) :
    m.Proper := by
  -- minutes of one day make a moment of it
  have hday : ∀ (day : Date) (k : Int), 0 ≤ k → k < 1440 →
      some ⟨day, k.toNat / 60, k.toNat % 60, second, nanosecond⟩ = some m → m.Proper := by
    intro day k hk hlt heq
    obtain rfl := Option.some.inj heq
    exact ⟨by simp only; omega, by simp only; omega, hsecond, hnanosecond⟩
  rw [ofMinutes?] at h
  split at h
  · obtain ⟨⟨day, k⟩, hshift, h⟩ := Option.bind_eq_some_iff.1 h
    obtain ⟨e, -, heq⟩ := Option.map_eq_some_iff.1 hshift
    obtain ⟨-, rfl⟩ := Prod.mk.inj heq
    exact hday day _ (by omega) (by omega) h
  · split at h
    · obtain ⟨⟨day, k⟩, hshift, h⟩ := Option.bind_eq_some_iff.1 h
      obtain ⟨e, -, heq⟩ := Option.map_eq_some_iff.1 hshift
      obtain ⟨-, rfl⟩ := Prod.mk.inj heq
      exact hday day _ (by omega) (by omega) h
    · exact hday date minutes (by omega) (by omega) h

/-- A moment that is read from a text is proper. -/
theorem proper_of_ofText? {s : String} {m : Moment} (h : ofText? s = some m) : m.Proper := by
  rw [ofText?] at h
  simp only [Option.bind_eq_bind, Option.bind_eq_some_iff, Prod.exists] at h
  obtain ⟨date, _, -, _, -, hour, _, -, _, -, minute, _, -, _, -, second, _, -, nanosecond, _,
    hfraction, offset, _, hoffset, h⟩ := h
  split at h
  · cases h
  · next hrange =>
    simp only [Bool.or_eq_true, decide_eq_true_eq, not_or, Nat.not_le] at hrange
    have hbounds := lt_of_offset? hoffset
    exact proper_of_ofMinutes? h (by omega) (by omega) (by omega) (lt_of_fraction? hfraction)

end Moment

end WebBaseline.Calendar

/-
  WebBaseline.Proofs.Report.Score

  The score of a scan against the exact weighted share of its issues.

    * the share in percent that is rounded is computed with five roundings of its own
      (`near_percent`), so it is less than `1 / 2 ^ 44` off (`abs_percent_sub_lt`);
    * away from the halves that does not matter (`round_eq_of_away`), and of a quotient
      with a small denominator only the halves themselves are near a half
      (`le_abs_sub_half`);
    * at a half the score is the next percent up or the one below, by the side on which
      the computed share is (`round_half`).

  So the score is the share rounded, a half going up, unless the share is a half or there
  are more issues than any project has (`score_of_issues`).
-/

import Mathlib.Algebra.Order.Round
import WebBaseline.Proofs.Numeric.Rounding
import WebBaseline.Proofs.Report.Summary

namespace WebBaseline.Report

open WebBaseline.Numeric (Double)
open WebBaseline.Numeric.Double (Near near_add near_mul near_div near_nearest value_ofNat)

/-! ## Halves -/

/-- Whether a number lies in the middle between two whole ones. -/
def IsHalf (x : ℚ) : Prop := ∃ k : ℤ, x = k + 1 / 2

/-- A number that is near another one rounds as that one does, if no half is as near. -/
theorem round_eq_of_away {x y d : ℚ} (hnear : |y - x| < d)
    (haway : ∀ k : ℤ, d ≤ |x - (k + 1 / 2)|) : round y = round x := by
  have hx := round_eq x
  set k := round x with hk
  have hlow : (k : ℚ) ≤ x + 1 / 2 := hx ▸ Int.floor_le _
  have hhigh : x + 1 / 2 < k + 1 := hx ▸ Int.lt_floor_add_one _
  -- the halves on both sides of the whole number
  have hbelow := haway (k - 1)
  have habove := haway k
  rw [abs_of_nonneg (by push_cast; linarith)] at hbelow
  rw [abs_of_nonpos (by linarith)] at habove
  push_cast at hbelow
  have hyx := abs_lt.1 hnear
  rw [round_eq, Int.floor_eq_iff]
  constructor <;> linarith

/-- A half rounds up, and a number that is near it to its own side. -/
theorem round_half {x y : ℚ} (hx : IsHalf x) (hnear : |y - x| < 1 / 2) :
    round y = if y < x then round x - 1 else round x := by
  obtain ⟨k, rfl⟩ := hx
  have hyx := abs_lt.1 hnear
  have hround : round ((k : ℚ) + 1 / 2) = k + 1 := by
    rw [round_eq, add_assoc, add_halves, Int.floor_intCast_add, Int.floor_one]
  rw [hround, round_eq, Int.floor_eq_iff]
  split
  · push_cast
    constructor <;> linarith
  · push_cast
    constructor <;> linarith

/-- A quotient that is no half is away from every half. -/
theorem le_abs_sub_half {num den : Nat} (hden : 0 < den) (h : ¬ IsHalf ((num : ℚ) / den))
    (k : ℤ) : 1 / (2 * den : ℚ) ≤ |(num : ℚ) / den - (k + 1 / 2)| := by
  have hpos : (0 : ℚ) < 2 * den := by positivity
  have hsub : (num : ℚ) / den - (k + 1 / 2) =
      ((2 * num - (2 * k + 1) * den : ℤ) : ℚ) / (2 * den) := by
    push_cast
    field_simp
  have hne : (2 * num - (2 * k + 1) * den : ℤ) ≠ 0 := by
    intro hzero
    rw [hzero, Int.cast_zero, zero_div, sub_eq_zero] at hsub
    exact h ⟨k, hsub⟩
  rw [hsub, abs_div, abs_of_pos hpos]
  refine div_le_div_of_nonneg_right ?_ hpos.le
  exact_mod_cast Int.one_le_abs hne

/-! ## The share -/

/-- The weighted share of available features, in percent. -/
def share (counts : StatusCounts) (total : Nat) : ℚ :=
  (100 * counts.widely + 70 * counts.newly) / total

/-- The share as it is computed. -/
def percent (counts : StatusCounts) (total : Nat) : Double :=
  (Double.ofNat counts.widely + newlyWeight * Double.ofNat counts.newly) / Double.ofNat total *
    Double.ofNat 100

theorem score_of_pos (counts : StatusCounts) {total : Nat} (h : 0 < total) :
    score counts total = min 100 (percent counts total).round := if_neg h.ne'

section Counted

variable {counts : StatusCounts} {total : Nat} (hpos : 0 < total) (hsize : total < 2 ^ 53)
  (hcounts : counts.widely + counts.newly ≤ total)

include hpos hcounts in
theorem share_le : share counts total ≤ 100 := by
  have hle : (counts.widely : ℚ) + counts.newly ≤ total := by exact_mod_cast hcounts
  have hnewly : (0 : ℚ) ≤ counts.newly := Nat.cast_nonneg _
  rw [share, div_le_iff₀ (Nat.cast_pos.2 hpos)]
  linarith

theorem share_nonneg : 0 ≤ share counts total := by
  rw [share]
  positivity

include hpos hsize hcounts in
theorem near_percent : Near 5 (share counts total) (percent counts total).value := by
  have hwidely : (Double.ofNat counts.widely).value = counts.widely := value_ofNat (by omega)
  have hnewly : (Double.ofNat counts.newly).value = counts.newly := value_ofNat (by omega)
  have htotal : (Double.ofNat total).value = total := value_ofNat hsize.le
  have hhundred : (Double.ofNat 100).value = 100 := value_ofNat (by norm_num)
  have htotal_pos : 0 < (Double.ofNat total).value := htotal ▸ Nat.cast_pos.2 hpos
  -- one rounding each for the weight, the product, the sum, the quotient and the percentage
  have hweight : Near 1 (7 / 10) newlyWeight.value := near_nearest 7 (by norm_num : 0 < 10)
  have hproduct := near_mul newlyWeight (Double.ofNat counts.newly)
  have hsum := near_add (Double.ofNat counts.widely) (newlyWeight * Double.ofNat counts.newly)
  have hquotient := near_div
    (Double.ofNat counts.widely + newlyWeight * Double.ofNat counts.newly) htotal_pos
  have hpercent := near_mul ((Double.ofNat counts.widely +
    newlyWeight * Double.ofNat counts.newly) / Double.ofNat total) (Double.ofNat 100)
  rw [hnewly] at hproduct
  rw [hwidely] at hsum
  rw [htotal] at hquotient
  rw [hhundred] at hpercent
  have hshare : share counts total =
      ((counts.widely : ℚ) + 7 / 10 * counts.newly) / total * 100 := by
    rw [share]
    ring
  have hwidely_near : Near 2 (counts.widely : ℚ) counts.widely :=
    (Near.refl _).mono (Nat.cast_nonneg _) (Nat.zero_le 2)
  rw [hshare]
  refine Near.trans (j := 4) (Near.mul_right ?_ (by norm_num)) hpercent
  refine Near.trans (j := 3) (Near.div_right ?_ (Nat.cast_nonneg total)) hquotient
  refine Near.trans (j := 2) (hwidely_near.add ?_) hsum
  exact Near.trans (hweight.mul_right (Nat.cast_nonneg _)) hproduct

include hpos hsize hcounts in
theorem abs_percent_sub_lt :
    |(percent counts total).value - share counts total| < 1 / 2 ^ 44 := by
  obtain ⟨hlow, hhigh⟩ := near_percent hpos hsize hcounts
  have hle := share_le hpos hcounts
  have hnonneg : 0 ≤ share counts total := share_nonneg
  -- five parts in `2 ^ 53` of at most a hundred
  have hdown := mul_le_mul_of_nonneg_right hle
    (by norm_num [Double.unit] : (0 : ℚ) ≤ 1 - (1 - Double.unit) ^ 5)
  have hup := mul_le_mul_of_nonneg_right hle
    (by norm_num [Double.unit] : (0 : ℚ) ≤ (1 + Double.unit) ^ 5 - 1)
  have hdown_lt : 100 * (1 - (1 - Double.unit) ^ 5) < 1 / 2 ^ 44 := by norm_num [Double.unit]
  have hup_lt : 100 * ((1 + Double.unit) ^ 5 - 1) < 1 / 2 ^ 44 := by norm_num [Double.unit]
  rw [abs_lt]
  constructor <;> linarith

/-- The score is the computed share rounded, and never more than 100. -/
theorem score_eq_round (hpos : 0 < total) (hsize : total < 2 ^ 53)
    (hcounts : counts.widely + counts.newly ≤ total) :
    (score counts total : ℤ) = round (percent counts total).value := by
  have herror := abs_lt.1 (abs_percent_sub_lt hpos hsize hcounts)
  have hle := share_le hpos hcounts
  have hround : ((percent counts total).round : ℤ) = round (percent counts total).value := by
    rw [Double.round_eq, round_eq]
  have hcap : (percent counts total).round ≤ 100 := by
    have hlt : ⌊(percent counts total).value + 1 / 2⌋ < 101 := by
      rw [Int.floor_lt]
      push_cast
      linarith [herror.2, (by norm_num : (1 : ℚ) / 2 ^ 44 < 1 / 2)]
    rw [← Double.round_eq] at hlt
    omega
  rw [score_of_pos counts hpos, min_eq_right hcap, hround]

end Counted

/-! ## Scores of scans -/

theorem counts_le_totalIssues (files : List FileIssues) :
    (Summary.ofFiles files).byStatus.widely + (Summary.ofFiles files).byStatus.newly ≤
      (Summary.ofFiles files).totalIssues := by
  have htotal : (Summary.ofFiles files).byStatus.total = (Summary.ofFiles files).totalIssues :=
    StatusCounts.total_ofIssues _
  rw [StatusCounts.total] at htotal
  omega

/-- Without issues the score is 100. With issues it is the computed share rounded, a half
    going up, and that share is less than `1 / 2 ^ 44` off the exact one: so the score is
    the exact share rounded wherever no half is that near. With at most `2 ^ 43` issues
    these are all shares but halves, and of a half it is the next percent up exactly if
    the computed share does not fall short of it, and one less otherwise. -/
theorem score_of_issues (files : List FileIssues)
    (hsize : (Summary.ofFiles files).totalIssues < 2 ^ 53) :
    let s := Summary.ofFiles files
    let exact := share s.byStatus s.totalIssues
    let computed := (percent s.byStatus s.totalIssues).value
    (s.totalIssues = 0 → s.score = 100) ∧
    (0 < s.totalIssues →
      (s.score : ℤ) = round computed ∧
      |computed - exact| < 1 / 2 ^ 44 ∧
      ((∀ k : ℤ, 1 / 2 ^ 44 ≤ |exact - (k + 1 / 2)|) → (s.score : ℤ) = round exact) ∧
      (s.totalIssues ≤ 2 ^ 43 →
        (¬ IsHalf exact → (s.score : ℤ) = round exact) ∧
        (IsHalf exact → (s.score : ℤ) = if computed < exact then round exact - 1 else round exact))) := by
  intro s exact computed
  refine ⟨fun hzero => if_pos hzero, fun hpos => ?_⟩
  have hcounts := counts_le_totalIssues files
  have hscore : (s.score : ℤ) = round computed := score_eq_round hpos hsize hcounts
  have herror : |computed - exact| < 1 / 2 ^ 44 := abs_percent_sub_lt hpos hsize hcounts
  refine ⟨hscore, herror, fun haway => hscore.trans (round_eq_of_away herror haway),
    fun hfew => ⟨fun hno => hscore.trans (round_eq_of_away herror (fun k => ?_)),
      fun hhalf => hscore.trans (round_half hhalf (herror.trans (by norm_num)))⟩⟩
  -- so few issues leave every other share farther from the halves than it is off
  have hcast : exact = ((100 * s.byStatus.widely + 70 * s.byStatus.newly : Nat) : ℚ) /
      s.totalIssues := by
    simp only [exact, share]
    push_cast
    rfl
  have htotal : (s.totalIssues : ℚ) ≤ 2 ^ 43 := by exact_mod_cast hfew
  have htotal_pos : (0 : ℚ) < s.totalIssues := Nat.cast_pos.2 hpos
  rw [hcast] at hno ⊢
  refine le_trans (one_div_le_one_div_of_le (by positivity) ?_) (le_abs_sub_half hpos hno k)
  linarith

/-- Two files with one issue of each status. -/
def oneOfEachStatus : List FileIssues :=
  [⟨"a.js", [{ feature := "fetch", status := .widely }, { feature := "gap", status := .newly }]⟩,
    ⟨"c.css", [{ feature := "meter", status := .limited }, { feature := "x", status := .unknown }]⟩]

/-- Of 1.7 issues in four the share is 42.5 percent, and so is the computed one. -/
theorem score_of_issues_oneOfEachStatus :
    (Summary.ofFiles oneOfEachStatus).totalIssues < 2 ^ 53 ∧
    IsHalf (share ⟨1, 1, 1, 1⟩ 4) ∧ (Summary.ofFiles oneOfEachStatus).score = 43 := by
  have hsize : (Summary.ofFiles oneOfEachStatus).totalIssues < 2 ^ 53 := by decide
  have hshare : share ⟨1, 1, 1, 1⟩ 4 = 85 / 2 := by norm_num [share]
  have hpercent : percent ⟨1, 1, 1, 1⟩ 4 = ⟨5981343255101440, -47⟩ := by decide +kernel
  have hhalf : IsHalf (share ⟨1, 1, 1, 1⟩ 4) := ⟨42, by rw [hshare]; norm_num⟩
  obtain ⟨-, hscore⟩ := score_of_issues oneOfEachStatus hsize
  obtain ⟨-, -, -, hfew⟩ := hscore (by decide)
  have hup := (hfew (by decide)).2 hhalf
  refine ⟨hsize, hhalf, Int.ofNat.inj (hup.trans ?_)⟩
  show (if (percent ⟨1, 1, 1, 1⟩ 4).value < share ⟨1, 1, 1, 1⟩ 4 then _ else
    round (share ⟨1, 1, 1, 1⟩ 4)) = 43
  rw [if_neg (by rw [hpercent, hshare]; norm_num [Double.value]), hshare, round_eq]
  norm_num

/-- A file with three newly available features among four. -/
def threeNewly : List FileIssues :=
  [⟨"a.css", [{ feature := "gap", status := .newly }, { feature := "has", status := .newly },
    { feature := "inset", status := .newly }, { feature := "zoom", status := .limited }]⟩]

/-- Of 2.1 issues in four the share is 52.5 percent, but the computed one is less. -/
theorem score_below_half :
    ¬ ∀ files : List FileIssues, (Summary.ofFiles files).totalIssues < 2 ^ 53 →
      0 < (Summary.ofFiles files).totalIssues →
      ((Summary.ofFiles files).score : ℤ) =
        round (share (Summary.ofFiles files).byStatus (Summary.ofFiles files).totalIssues) := by
  intro h
  have hscore : (Summary.ofFiles threeNewly).score = 52 := by decide +kernel
  have hround := h threeNewly (by decide) (by decide)
  rw [hscore] at hround
  have hshare : share (Summary.ofFiles threeNewly).byStatus
      (Summary.ofFiles threeNewly).totalIssues = 105 / 2 := by
    show share ⟨0, 3, 1, 0⟩ 4 = 105 / 2
    norm_num [share]
  rw [hshare, round_eq] at hround
  norm_num at hround

end WebBaseline.Report

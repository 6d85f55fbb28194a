/-
  WebBaseline.Proofs.Numeric.Rounding

  Sum, product and quotient of numbers with 53 binary digits are the exact ones,
  correctly rounded, and so they are not far from them.

    * a number stands for a rational one (`Double.value`);
    * a rational number `Rounds` to the number with 53 digits that is nearest to it, of
      two equally near ones to the even one; so do quotients (`Double.rounds_nearest`) and
      what the operations yield (`Double.rounds_add`, `Double.rounds_mul`,
      `Double.rounds_div`);
    * a correctly rounded number differs from the exact one by at most one part in
      `2 ^ 53` (`Double.Rounds.near`), and a natural number of 53 digits by nothing
      (`Double.value_ofNat`);
    * what lies within `k` such steps of a number is `Near` it, and steps add up
      (`Near.trans`), whatever is added, multiplied or divided in between.
-/

import Mathlib.Algebra.Order.Floor.Semifield
import Mathlib.Data.Nat.Cast.Order.Field
import Mathlib.Data.Rat.Floor
import Mathlib.Tactic.FieldSimp
import Mathlib.Tactic.Linarith
import Mathlib.Tactic.Positivity
import Mathlib.Tactic.Ring
import WebBaseline.Numeric.Double

namespace WebBaseline.Numeric

/-! ## Nearest natural numbers -/

/-- The nearest natural number is less than a half away, or it is even and a half away. -/
theorem roundHalfEven_cases (num : Nat) {den : Nat} (hden : 0 < den) :
    |(roundHalfEven num den : ℚ) - num / den| < 1 / 2 ∨
      |(roundHalfEven num den : ℚ) - num / den| = 1 / 2 ∧ Even (roundHalfEven num den) := by
  have hpos : (0 : ℚ) < den := Nat.cast_pos.2 hden
  have hsplit : (num : ℚ) / den = (num / den : Nat) + (num % den : Nat) / (den : ℚ) := by
    rw [eq_comm, ← eq_sub_iff_add_eq', div_sub' hpos.ne', div_left_inj' hpos.ne',
      eq_sub_iff_add_eq']
    exact_mod_cast Nat.div_add_mod num den
  have hless : ((num % den : Nat) : ℚ) / den ≤ 1 :=
    div_le_one_of_le₀ (Nat.cast_le.2 (Nat.mod_lt num hden).le) hpos.le
  -- downward the rest is lost, upward what it lacks to one is added
  have hdown : |((num / den : Nat) : ℚ) - num / den| = (num % den : Nat) / (den : ℚ) := by
    rw [hsplit, sub_add_cancel_left, abs_neg, abs_of_nonneg (by positivity)]
  have hup : |((num / den + 1 : Nat) : ℚ) - num / den| = 1 - (num % den : Nat) / (den : ℚ) := by
    rw [hsplit, Nat.cast_add, Nat.cast_one, add_sub_add_left_eq_sub,
      abs_of_nonneg (sub_nonneg.2 hless)]
  simp only [roundHalfEven]
  split
  · next h =>
    refine .inl (hdown.trans_lt ?_)
    rw [div_lt_div_iff₀ hpos two_pos, mul_comm, one_mul]
    exact_mod_cast h
  · split
    · next h =>
      refine .inl (hup.trans_lt ?_)
      rw [sub_lt_comm, sub_half, div_lt_div_iff₀ two_pos hpos, mul_comm _ (2 : ℚ), one_mul]
      exact_mod_cast h
    · next h₁ h₂ =>
      have hhalf : ((num % den : Nat) : ℚ) / den = 1 / 2 := by
        rw [div_eq_div_iff hpos.ne' two_ne_zero, mul_comm, one_mul]
        exact_mod_cast Nat.le_antisymm (Nat.le_of_not_lt h₂) (Nat.le_of_not_lt h₁)
      split
      · next heven => exact .inr ⟨hdown.trans hhalf, Nat.even_iff.2 heven⟩
      · next hodd =>
        refine .inr ⟨hup.trans (by rw [hhalf, sub_half]), Nat.even_add_one.2 ?_⟩
        rwa [Nat.even_iff]

theorem abs_roundHalfEven_sub_le (num : Nat) {den : Nat} (hden : 0 < den) :
    |(roundHalfEven num den : ℚ) - num / den| ≤ 1 / 2 := by
  rcases roundHalfEven_cases num hden with hlt | ⟨heq, -⟩
  · exact hlt.le
  · exact heq.le

/-- Another natural number is at least a half away. -/
theorem half_le_abs_sub (num : Nat) {den : Nat} (hden : 0 < den) {k : Nat}
    (hne : k ≠ roundHalfEven num den) : (1 : ℚ) / 2 ≤ |(k : ℚ) - num / den| := by
  have hhalf := abs_roundHalfEven_sub_le num hden
  have hapart : (1 : ℚ) ≤ |(k : ℚ) - roundHalfEven num den| := by
    have : (1 : ℤ) ≤ |(k : ℤ) - roundHalfEven num den| :=
      Int.one_le_abs (sub_ne_zero.2 (Nat.cast_injective.ne hne))
    exact_mod_cast this
  have hsum := abs_sub_le (k : ℚ) (num / den) (roundHalfEven num den)
  rw [abs_sub_comm ((num : ℚ) / den)] at hsum
  linarith

/-- No natural number is nearer. -/
theorem abs_roundHalfEven_sub_le_abs_sub (num : Nat) {den : Nat} (hden : 0 < den) (k : Nat) :
    |(roundHalfEven num den : ℚ) - num / den| ≤ |(k : ℚ) - num / den| := by
  rcases eq_or_ne k (roundHalfEven num den) with rfl | hne
  · exact le_rfl
  · exact (abs_roundHalfEven_sub_le num hden).trans (half_le_abs_sub num hden hne)

/-- Of two that are equally near it is the even one. -/
theorem even_roundHalfEven (num : Nat) {den : Nat} (hden : 0 < den) {k : Nat}
    (hne : k ≠ roundHalfEven num den)
    (htie : |(k : ℚ) - num / den| = |(roundHalfEven num den : ℚ) - num / den|) :
    Even (roundHalfEven num den) := by
  rcases roundHalfEven_cases num hden with hlt | ⟨-, heven⟩
  · exact absurd (half_le_abs_sub num hden hne) (htie.trans_lt hlt).not_ge
  · exact heven

namespace Double

/-! ## Values -/

/-- The rational number that a number stands for. -/
def value (x : Double) : ℚ := x.mantissa * 2 ^ x.exponent

theorem quotient_snd_pos (x : Double) : 0 < x.quotient.2 := by
  rw [quotient]
  split
  · exact Nat.one_pos
  · exact Nat.two_pow_pos _

theorem value_eq (x : Double) : x.value = x.quotient.1 / x.quotient.2 := by
  rw [value, quotient]
  split
  · next e he => simp [he]
  · next e he => simp [he, zpow_negSucc, div_eq_mul_inv]

theorem scaled_snd_pos (num : Nat) {den : Nat} (hden : 0 < den) (e : Int) :
    0 < (scaled num den e).2 := by
  cases e with
  | ofNat e => exact Nat.mul_pos hden (Nat.two_pow_pos e)
  | negSucc e => exact hden

theorem scaled_div (num den : Nat) (e : Int) :
    ((scaled num den e).1 : ℚ) / (scaled num den e).2 = num / den / 2 ^ e := by
  cases e with
  | ofNat e => simp [scaled, div_div]
  | negSucc e => simp [scaled, zpow_negSucc, mul_div_right_comm]

/-! ## Exponents -/

theorem two_pow_lt_div {num den : Nat} (hnum : 0 < num) (hden : 0 < den) :
    (2 : ℚ) ^ ((num.log2 : Int) - den.log2 - 1) < num / den := by
  have hlow : (2 : ℚ) ^ num.log2 ≤ num := by exact_mod_cast Nat.log2_self_le hnum.ne'
  have hhigh : (den : ℚ) < 2 ^ (den.log2 + 1) := by exact_mod_cast Nat.lt_log2_self
  rw [lt_div_iff₀ (Nat.cast_pos.2 hden)]
  calc (2 : ℚ) ^ ((num.log2 : Int) - den.log2 - 1) * den
      < (2 : ℚ) ^ ((num.log2 : Int) - den.log2 - 1) * 2 ^ (den.log2 + 1) :=
        mul_lt_mul_of_pos_left hhigh (zpow_pos zero_lt_two _)
    _ = (2 : ℚ) ^ num.log2 := by
      rw [← zpow_natCast, ← zpow_natCast, ← zpow_add₀ two_ne_zero]
      congr 1
      push_cast
      ring
    _ ≤ num := hlow

theorem div_lt_two_pow (num : Nat) {den : Nat} (hden : 0 < den) :
    (num : ℚ) / den < 2 ^ ((num.log2 : Int) - den.log2 + 1) := by
  have hlow : (2 : ℚ) ^ den.log2 ≤ den := by exact_mod_cast Nat.log2_self_le hden.ne'
  have hhigh : (num : ℚ) < 2 ^ (num.log2 + 1) := by exact_mod_cast Nat.lt_log2_self
  rw [div_lt_iff₀ (Nat.cast_pos.2 hden)]
  calc (num : ℚ) < 2 ^ (num.log2 + 1) := hhigh
    _ = 2 ^ ((num.log2 : Int) - den.log2 + 1) * 2 ^ den.log2 := by
      rw [← zpow_natCast, ← zpow_natCast, ← zpow_add₀ two_ne_zero]
      congr 1
      push_cast
      ring
    _ ≤ 2 ^ ((num.log2 : Int) - den.log2 + 1) * den :=
      mul_le_mul_of_nonneg_left hlow (zpow_nonneg zero_le_two _)

/-- The exponent of a quotient leaves it 53 digits before the point. -/
theorem le_div_exponentOf {num den : Nat} (hnum : 0 < num) (hden : 0 < den) :
    (2 : ℚ) ^ 52 ≤ num / den / 2 ^ exponentOf num den := by
  have hvalue := scaled_div num den ((num.log2 : Int) - den.log2 - 52)
  simp only [exponentOf]
  split
  · -- one digit too few, so one place further
    rw [le_div_iff₀ (zpow_pos zero_lt_two _), ← zpow_natCast, ← zpow_add₀ two_ne_zero]
    refine le_trans (le_of_eq ?_) (two_pow_lt_div hnum hden).le
    congr 1
    push_cast
    ring
  · next hfloor =>
    rw [← hvalue]
    calc (2 : ℚ) ^ 52 ≤ (((scaled num den _).1 / (scaled num den _).2 : Nat) : ℚ) := by
          exact_mod_cast Nat.le_of_not_lt hfloor
      _ ≤ _ := Nat.cast_div_le

theorem div_exponentOf_lt (num : Nat) {den : Nat} (hden : 0 < den) :
    (num : ℚ) / den / 2 ^ exponentOf num den < 2 ^ 53 := by
  have hvalue := scaled_div num den ((num.log2 : Int) - den.log2 - 52)
  simp only [exponentOf]
  split
  · next hfloor =>
    have hpos : (0 : ℚ) < (scaled num den ((num.log2 : Int) - den.log2 - 52)).2 :=
      Nat.cast_pos.2 (scaled_snd_pos num hden _)
    have hlt : (num : ℚ) / den / 2 ^ ((num.log2 : Int) - den.log2 - 52) < 2 ^ 52 := by
      rw [← hvalue, div_lt_iff₀ hpos]
      exact_mod_cast (Nat.div_lt_iff_lt_mul (scaled_snd_pos num hden _)).1 hfloor
    rw [zpow_sub_one₀ two_ne_zero, ← div_div, div_inv_eq_mul]
    linarith
  · rw [div_lt_iff₀ (zpow_pos zero_lt_two _), ← zpow_natCast, ← zpow_add₀ two_ne_zero]
    refine lt_of_lt_of_eq (div_lt_two_pow num hden) ?_
    congr 1
    push_cast
    ring

/-! ## Correct rounding -/

/-- A number with at most 53 binary digits. -/
def HasDigits (z : ℚ) : Prop := ∃ (m : Nat) (e : Int), m ≤ 2 ^ 53 ∧ z = m * 2 ^ e

/-- A number with 53 binary digits of which the last is zero. -/
def IsEven (z : ℚ) : Prop :=
  ∃ (m : Nat) (e : Int), 2 ^ 52 ≤ m ∧ m ≤ 2 ^ 53 ∧ Even m ∧ z = m * 2 ^ e

/-- The number `z` is `q`, correctly rounded: no number with 53 digits is nearer, and where
    another one is as near, `z` is the even one. -/
structure Rounds (q z : ℚ) : Prop where
  digits : HasDigits z
  nearest : ∀ w, HasDigits w → |z - q| ≤ |w - q|
  even : ∀ w, HasDigits w → w ≠ z → |w - q| = |z - q| → IsEven z

/-- A number with 53 digits is a multiple of a power of two or has no 53 digits before
    that place. -/
theorem HasDigits.multiple_or_lt {z : ℚ} (hz : HasDigits z) (e : Int) :
    (∃ n : Nat, z = n * 2 ^ e) ∨ z < (2 ^ 52 : Nat) * 2 ^ e := by
  obtain ⟨m, k, hm, rfl⟩ := hz
  rcases le_or_gt e k with hek | hke
  · -- a coarser number is a multiple as well
    refine .inl ⟨m * 2 ^ (k - e).toNat, ?_⟩
    rw [Nat.cast_mul, Nat.cast_pow, Nat.cast_ofNat, mul_assoc, ← zpow_natCast,
      Int.toNat_of_nonneg (sub_nonneg.2 hek), ← zpow_add₀ two_ne_zero, sub_add_cancel]
  · -- a finer one is at most the least with so many digits, which is a multiple
    have hle : (m : ℚ) * 2 ^ k ≤ (2 ^ 52 : Nat) * 2 ^ e := by
      have hm' : (m : ℚ) ≤ 2 ^ 53 := by exact_mod_cast hm
      calc (m : ℚ) * 2 ^ k ≤ 2 ^ 53 * 2 ^ (e - 1) :=
            mul_le_mul hm' (zpow_le_zpow_right₀ one_le_two (Int.le_sub_one_of_lt hke))
              (zpow_nonneg zero_le_two _) (by norm_num)
        _ = (2 ^ 52 : Nat) * 2 ^ e := by
          rw [zpow_sub_one₀ two_ne_zero]
          push_cast
          ring
    exact (eq_or_lt_of_le hle).imp_left (fun heq => ⟨_, heq⟩)

/-- The error counted in units of the last place. -/
theorem abs_mul_sub (num den : Nat) (b : ℚ) :
    |b * 2 ^ exponentOf num den - num / den| =
      |b - num / den / 2 ^ exponentOf num den| * 2 ^ exponentOf num den := by
  have hpos : (0 : ℚ) < 2 ^ exponentOf num den := zpow_pos zero_lt_two _
  rw [← abs_of_pos hpos, ← abs_mul, sub_mul, abs_of_pos hpos, div_mul_cancel₀ _ hpos.ne']

section Nearest

variable {num den : Nat} (hnum : 0 < num) (hden : 0 < den)

include hnum

theorem nearest_of_pos : nearest num den =
    ⟨roundHalfEven (scaled num den (exponentOf num den)).1
      (scaled num den (exponentOf num den)).2, exponentOf num den⟩ := if_neg hnum.ne'

theorem value_nearest :
    (nearest num den).value = (nearest num den).mantissa * 2 ^ exponentOf num den := by
  rw [nearest_of_pos hnum, value]

include hden

theorem abs_mantissa_sub_le :
    |((nearest num den).mantissa : ℚ) - num / den / 2 ^ exponentOf num den| ≤ 1 / 2 := by
  rw [nearest_of_pos hnum, ← scaled_div]
  exact abs_roundHalfEven_sub_le _ (scaled_snd_pos num hden _)

theorem abs_mantissa_sub_le_abs_sub (n : Nat) :
    |((nearest num den).mantissa : ℚ) - num / den / 2 ^ exponentOf num den| ≤
      |(n : ℚ) - num / den / 2 ^ exponentOf num den| := by
  rw [nearest_of_pos hnum, ← scaled_div]
  exact abs_roundHalfEven_sub_le_abs_sub _ (scaled_snd_pos num hden _) n

theorem even_mantissa {n : Nat} (hne : n ≠ (nearest num den).mantissa)
    (htie : |(n : ℚ) - num / den / 2 ^ exponentOf num den| =
      |((nearest num den).mantissa : ℚ) - num / den / 2 ^ exponentOf num den|) :
    Even (nearest num den).mantissa := by
  rw [nearest_of_pos hnum, ← scaled_div] at htie
  rw [nearest_of_pos hnum] at hne ⊢
  exact even_roundHalfEven _ (scaled_snd_pos num hden _) hne htie

theorem mantissa_nearest_le : (nearest num den).mantissa ≤ 2 ^ 53 := by
  have hhalf := abs_le.1 (abs_mantissa_sub_le hnum hden)
  have hlt := div_exponentOf_lt num hden
  have hbound : ((nearest num den).mantissa : ℚ) < (2 ^ 53 + 1 : Nat) := by
    push_cast
    linarith
  exact Nat.le_of_lt_succ (Nat.cast_lt.1 hbound)

theorem le_mantissa_nearest : 2 ^ 52 ≤ (nearest num den).mantissa := by
  have hhalf := abs_le.1 (abs_mantissa_sub_le hnum hden)
  have hle := le_div_exponentOf hnum hden
  have hbound : ((2 ^ 52 : Nat) : ℚ) < ((nearest num den).mantissa + 1 : Nat) := by
    push_cast
    linarith
  exact Nat.le_of_lt_succ (Nat.cast_lt.1 hbound)

/-- No multiple of the last place is nearer. -/
theorem abs_nearest_sub_le_abs_mul_sub (n : Nat) :
    |(nearest num den).value - num / den| ≤
      |(n : ℚ) * 2 ^ exponentOf num den - num / den| := by
  rw [value_nearest hnum, abs_mul_sub, abs_mul_sub]
  exact mul_le_mul_of_nonneg_right (abs_mantissa_sub_le_abs_sub hnum hden n)
    (zpow_nonneg zero_le_two _)

/-- A number too small to have 53 digits before the last place is farther away. -/
theorem abs_nearest_sub_lt {z : ℚ} (hz : z < (2 ^ 52 : Nat) * 2 ^ exponentOf num den) :
    |(nearest num den).value - num / den| < |z - num / den| := by
  have hpos : (0 : ℚ) < 2 ^ exponentOf num den := zpow_pos zero_lt_two _
  have hleast : ((2 ^ 52 : Nat) : ℚ) * 2 ^ exponentOf num den ≤ num / den := by
    rw [← le_div_iff₀ hpos]
    exact_mod_cast le_div_exponentOf hnum hden
  refine (abs_nearest_sub_le_abs_mul_sub hnum hden (2 ^ 52)).trans_lt ?_
  rw [abs_of_nonpos (sub_nonpos.2 hleast), abs_of_nonpos (sub_nonpos.2 (hz.le.trans hleast))]
  exact neg_lt_neg (sub_lt_sub_right hz _)

end Nearest

/-- The nearest number to a quotient is the quotient, correctly rounded. -/
theorem rounds_nearest (num : Nat) {den : Nat} (hden : 0 < den) :
    Rounds (num / den) (nearest num den).value := by
  rcases Nat.eq_zero_or_pos num with rfl | hnum
  · have hzero : (nearest 0 den).value = 0 := by simp [nearest, value]
    rw [hzero, Nat.cast_zero, zero_div]
    refine ⟨⟨0, 0, Nat.zero_le _, by simp⟩, fun w _ => by simp, fun w _ hne htie => ?_⟩
    rw [sub_self, abs_zero, sub_zero, abs_eq_zero] at htie
    exact absurd htie hne
  · have hvalue : (nearest num den).value = _ := value_nearest hnum
    constructor
    case digits => exact ⟨_, _, mantissa_nearest_le hnum hden, hvalue⟩
    case nearest =>
      intro w hw
      rcases hw.multiple_or_lt (exponentOf num den) with ⟨n, rfl⟩ | hlt
      · exact abs_nearest_sub_le_abs_mul_sub hnum hden n
      · exact (abs_nearest_sub_lt hnum hden hlt).le
    case even =>
      -- only another multiple of the last place can be as near
      intro w hw hne htie
      rcases hw.multiple_or_lt (exponentOf num den) with ⟨n, rfl⟩ | hlt
      · refine ⟨_, _, le_mantissa_nearest hnum hden, mantissa_nearest_le hnum hden, ?_, hvalue⟩
        rw [hvalue] at hne
        rw [hvalue, abs_mul_sub, abs_mul_sub,
          mul_left_inj' (zpow_pos zero_lt_two _).ne'] at htie
        exact even_mantissa hnum hden (fun h => hne (by rw [h])) htie
      · exact absurd htie (abs_nearest_sub_lt hnum hden hlt).ne'

/-! ## Numbers that are near -/

/-- The greatest error of one rounding, as a part of the number. -/
def unit : ℚ := 1 / 2 ^ 53

theorem unit_pos : 0 < unit := by norm_num [unit]

theorem unit_lt_one : unit < 1 := by norm_num [unit]

/-- Within `k` roundings of a number. -/
def Near (k : Nat) (x y : ℚ) : Prop := x * (1 - unit) ^ k ≤ y ∧ y ≤ x * (1 + unit) ^ k

namespace Near

variable {j k : Nat} {x y z x' y' : ℚ}

theorem refl (x : ℚ) : Near 0 x x := by simp [Near]

theorem trans (hxy : Near j x y) (hyz : Near k y z) : Near (j + k) x z := by
  have hlow : 0 ≤ (1 - unit) ^ k := pow_nonneg (sub_nonneg.2 unit_lt_one.le) k
  have hhigh : 0 ≤ (1 + unit) ^ k := pow_nonneg (add_nonneg zero_le_one unit_pos.le) k
  rw [Near, pow_add, pow_add, ← mul_assoc, ← mul_assoc]
  exact ⟨(mul_le_mul_of_nonneg_right hxy.1 hlow).trans hyz.1,
    hyz.2.trans (mul_le_mul_of_nonneg_right hxy.2 hhigh)⟩

/-- What is near is no farther with more roundings. -/
theorem mono (h : Near j x y) (hx : 0 ≤ x) (hjk : j ≤ k) : Near k x y := by
  have hlow := pow_le_pow_of_le_one (sub_nonneg.2 unit_lt_one.le)
    (sub_le_self 1 unit_pos.le) hjk
  have hhigh := pow_le_pow_right₀ (le_add_of_nonneg_right (a := (1 : ℚ)) unit_pos.le) hjk
  exact ⟨(mul_le_mul_of_nonneg_left hlow hx).trans h.1,
    h.2.trans (mul_le_mul_of_nonneg_left hhigh hx)⟩

theorem add (h : Near k x y) (h' : Near k x' y') : Near k (x + x') (y + y') := by
  rw [Near, add_mul, add_mul]
  exact ⟨add_le_add h.1 h'.1, add_le_add h.2 h'.2⟩

theorem mul_right (h : Near k x y) {c : ℚ} (hc : 0 ≤ c) : Near k (x * c) (y * c) := by
  rw [Near, mul_right_comm x c, mul_right_comm x c]
  exact ⟨mul_le_mul_of_nonneg_right h.1 hc, mul_le_mul_of_nonneg_right h.2 hc⟩

theorem div_right (h : Near k x y) {c : ℚ} (hc : 0 ≤ c) : Near k (x / c) (y / c) := by
  rw [div_eq_mul_inv, div_eq_mul_inv]
  exact h.mul_right (inv_nonneg.2 hc)

end Near

theorem near_one_iff {x y : ℚ} : Near 1 x y ↔ |y - x| ≤ x * unit := by
  rw [Near, pow_one, pow_one, abs_le]
  constructor
  · rintro ⟨hlow, hhigh⟩
    constructor <;> linarith
  · rintro ⟨hlow, hhigh⟩
    constructor <;> linarith

/-- What is a half away from a large number is near it. -/
theorem near_of_half {m q : ℚ} (hlarge : (2 : ℚ) ^ 52 ≤ q) (hhalf : |m - q| ≤ 1 / 2) :
    Near 1 q m :=
  near_one_iff.2 (hhalf.trans (le_trans (by norm_num [unit])
    (mul_le_mul_of_nonneg_right hlarge unit_pos.le)))

theorem near_nearest (num : Nat) {den : Nat} (hden : 0 < den) :
    Near 1 (num / den) (nearest num den).value := by
  rcases Nat.eq_zero_or_pos num with rfl | hnum
  · simp [Near, nearest, value]
  · have hpos : (0 : ℚ) < 2 ^ exponentOf num den := zpow_pos zero_lt_two _
    have hhalf := near_of_half (le_div_exponentOf hnum hden) (abs_mantissa_sub_le hnum hden)
    have h := hhalf.mul_right hpos.le
    rwa [div_mul_cancel₀ _ hpos.ne', ← value_nearest hnum] at h

/-- A correctly rounded number is one rounding away. -/
theorem Rounds.near {q z : ℚ} (h : Rounds q z) (hq : 0 ≤ q) : Near 1 q z := by
  have hquotient : (q.num.toNat : ℚ) / q.den = q := by
    rw [← Int.cast_natCast, Int.toNat_of_nonneg (Rat.num_nonneg.2 hq), Rat.num_div_den]
  -- as near as one number that is near enough
  have hone := near_nearest q.num.toNat q.den_pos
  rw [hquotient, near_one_iff] at hone
  exact near_one_iff.2 ((h.nearest _ (rounds_nearest _ q.den_pos).digits).trans hone)

/-! ## Operations -/

section Operations

variable (x y : Double)

theorem value_nonneg : 0 ≤ x.value :=
  mul_nonneg (Nat.cast_nonneg _) (zpow_nonneg zero_le_two _)

theorem rounds_add : Rounds (x.value + y.value) (x + y).value := by
  have hx : (0 : ℚ) < x.quotient.2 := Nat.cast_pos.2 x.quotient_snd_pos
  have hy : (0 : ℚ) < y.quotient.2 := Nat.cast_pos.2 y.quotient_snd_pos
  have h := rounds_nearest (x.quotient.1 * y.quotient.2 + y.quotient.1 * x.quotient.2)
    (Nat.mul_pos x.quotient_snd_pos y.quotient_snd_pos)
  push_cast at h
  rw [value_eq x, value_eq y, div_add_div _ _ hx.ne' hy.ne', mul_comm (x.quotient.2 : ℚ)]
  exact h

theorem rounds_mul : Rounds (x.value * y.value) (x * y).value := by
  have h := rounds_nearest (x.quotient.1 * y.quotient.1)
    (Nat.mul_pos x.quotient_snd_pos y.quotient_snd_pos)
  push_cast at h
  rw [value_eq x, value_eq y, div_mul_div_comm]
  exact h

theorem near_add : Near 1 (x.value + y.value) (x + y).value :=
  (rounds_add x y).near (add_nonneg x.value_nonneg y.value_nonneg)

theorem near_mul : Near 1 (x.value * y.value) (x * y).value :=
  (rounds_mul x y).near (mul_nonneg x.value_nonneg y.value_nonneg)

variable {y} (hy : 0 < y.value)

include hy

theorem rounds_div : Rounds (x.value / y.value) (x / y).value := by
  have hpos : 0 < y.quotient.1 := by
    rw [value_eq] at hy
    refine Nat.pos_of_ne_zero (fun hzero => ?_)
    rw [hzero, Nat.cast_zero, zero_div] at hy
    exact hy.false
  have h := rounds_nearest (x.quotient.1 * y.quotient.2) (Nat.mul_pos x.quotient_snd_pos hpos)
  push_cast at h
  rw [value_eq x, value_eq y, div_div_div_eq]
  exact h

theorem near_div : Near 1 (x.value / y.value) (x / y).value :=
  (rounds_div x hy).near (div_nonneg x.value_nonneg hy.le)

end Operations

/-! ## Natural numbers -/

/-- A natural number with 53 digits is exact. -/
theorem value_ofNat {n : Nat} (h : n ≤ 2 ^ 53) : (ofNat n).value = n := by
  have hrounds := rounds_nearest n Nat.one_pos
  rw [Nat.cast_one, div_one] at hrounds
  have hnearer := hrounds.nearest n ⟨n, 0, h, by simp⟩
  rw [sub_self, abs_zero, abs_nonpos_iff] at hnearer
  exact sub_eq_zero.1 hnearer

/-- The next natural number has one digit too many. -/
example : ofNat (2 ^ 53 + 1) = ofNat (2 ^ 53) := by decide

/-- Rounding to a natural number goes to the nearest, a half going up. -/
theorem round_eq (x : Double) : (x.round : ℤ) = ⌊x.value + 1 / 2⌋ := by
  have hpos : (0 : ℚ) < x.quotient.2 := Nat.cast_pos.2 x.quotient_snd_pos
  have hsum : x.value + 1 / 2 =
      ((2 * x.quotient.1 + x.quotient.2 : Nat) : ℚ) / (2 * x.quotient.2 : Nat) := by
    rw [value_eq]
    push_cast
    field_simp
  rw [hsum, Rat.floor_natCast_div_natCast]
  rfl

end Double

end WebBaseline.Numeric

/-
  WebBaseline.Decimal.Digits

  Natural numbers and integers in decimal digits, without leading zeros, and
  the numbers that digits stand for.
-/

namespace WebBaseline.Decimal

/-- The digit of a number below ten. -/
def digitChar (d : Nat) : Char := Char.ofNat (48 + d)

/-- The number of a digit. -/
def digitVal (c : Char) : Nat := c.toNat - 48

/-- The decimal digits of a number, most significant first. -/
def digits (n : Nat) : List Char :=
  if n < 10 then [digitChar n] else digits (n / 10) ++ [digitChar (n % 10)]
termination_by n
decreasing_by omega

/-- The number that digits stand for. -/
def ofDigits (ds : List Char) : Nat :=
  ds.foldl (fun n d => 10 * n + digitVal d) 0

/-- The digits at the front, and what follows them. -/
def spanDigits : List Char → List Char × List Char
  | [] => ([], [])
  | c :: cs =>
    if c.isDigit then let (ds, rest) := spanDigits cs; (c :: ds, rest) else ([], c :: cs)

/-- A natural number in decimal. -/
def natText (n : Nat) : String := String.ofList (digits n)

/-- An integer in decimal. -/
def intChars : Int → List Char
  | .ofNat n => digits n
  | .negSucc n => '-' :: digits (n + 1)

/-- A number with zeros in front up to a width. -/
def padded (width n : Nat) : String :=
  let ds := digits n
  String.ofList (List.replicate (width - ds.length) '0' ++ ds)

/-! ## Reading back -/

theorem digitVal_digitChar_all : ∀ d, d < 10 → digitVal (digitChar d) = d := by decide

theorem digitVal_digitChar {d : Nat} (h : d < 10) : digitVal (digitChar d) = d :=
  digitVal_digitChar_all d h

theorem digitChar_isDigit_all : ∀ d, d < 10 → (digitChar d).isDigit = true := by decide

/-- Digits are digits. -/
theorem digits_isDigit (n : Nat) : ∀ c ∈ digits n, c.isDigit = true := by
  induction n using digits.induct with
  | case1 n h =>
    rw [digits, if_pos h]
    intro c hc
    simp only [List.mem_singleton] at hc
    exact hc ▸ digitChar_isDigit_all n h
  | case2 n h ih =>
    rw [digits, if_neg h]
    intro c hc
    rcases List.mem_append.1 hc with hc | hc
    · exact ih c hc
    · simp only [List.mem_singleton] at hc
      exact hc ▸ digitChar_isDigit_all (n % 10) (by omega)

/-- The digits of a number stand for it. -/
theorem ofDigits_digits (n : Nat) : ofDigits (digits n) = n := by
  induction n using digits.induct with
  | case1 n h => rw [digits, if_pos h]; simp [ofDigits, digitVal_digitChar h]
  | case2 n h ih =>
    rw [digits, if_neg h]
    simp only [ofDigits, List.foldl_append, List.foldl_cons, List.foldl_nil] at ih ⊢
    rw [ih, digitVal_digitChar (by omega)]
    omega

end WebBaseline.Decimal

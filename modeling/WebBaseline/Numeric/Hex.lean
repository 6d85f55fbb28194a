/-
  WebBaseline.Numeric.Hex

  Hexadecimal digits.
-/

namespace WebBaseline.Numeric

/-- The digit of a number below sixteen, in lower case. -/
def lowerHexDigit (n : Nat) : Char :=
  if n < 10 then Char.ofNat (48 + n) else Char.ofNat (87 + n)

/-- The digit of a number below sixteen, in upper case. -/
def upperHexDigit (n : Nat) : Char :=
  if n < 10 then Char.ofNat (48 + n) else Char.ofNat (55 + n)

/-- The number of a digit in either case. -/
def hexVal? (c : Char) : Option Nat :=
  if c.isDigit then some (c.toNat - 48)
  else if 'a' ≤ c ∧ c ≤ 'f' then some (c.toNat - 87)
  else if 'A' ≤ c ∧ c ≤ 'F' then some (c.toNat - 55)
  else none

/-- The number of digits in a row. -/
def ofHex? (cs : List Char) : Option Nat :=
  cs.foldlM (fun n c => (hexVal? c).map (fun d => 16 * n + d)) 0

theorem hexVal?_lowerHexDigit_all : ∀ n, n < 16 → hexVal? (lowerHexDigit n) = some n := by
  decide

end WebBaseline.Numeric

/-
  WebBaseline.Numeric.Double

  Non-negative numbers with 53 binary digits, the precision of common floating
  point arithmetic. Each operation yields the exact result rounded to the
  nearest such number, a tie going to the even one. Exponents are unbounded.
-/

namespace WebBaseline.Numeric

/-- The number `mantissa * 2 ^ exponent`. -/
structure Double where
  mantissa : Nat
  exponent : Int
  deriving DecidableEq, Repr, Inhabited

/-- The natural number nearest to a quotient, a half going to the even one. -/
def roundHalfEven (num den : Nat) : Nat :=
  let q := num / den
  let r := num % den
  if 2 * r < den then q
  else if den < 2 * r then q + 1
  else if q % 2 = 0 then q else q + 1

namespace Double

/-- The quotient `num / den` divided by a power of two, as a quotient again. -/
def scaled (num den : Nat) (exponent : Int) : Nat × Nat :=
  match exponent with
  | .ofNat e => (num, den * Nat.pow 2 e)
  | .negSucc e => (num * Nat.pow 2 (e + 1), den)

/-- The exponent that leaves 53 digits before the point of a positive quotient. -/
def exponentOf (num den : Nat) : Int :=
  let e : Int := (Nat.log2 num : Int) - (Nat.log2 den : Int) - 52
  let (p, q) := scaled num den e
  if p / q < Nat.pow 2 52 then e - 1 else e

/-- The number nearest to a quotient. -/
def nearest (num den : Nat) : Double :=
  if num = 0 then ⟨0, 0⟩
  else
    let e := exponentOf num den
    let (p, q) := scaled num den e
    ⟨roundHalfEven p q, e⟩

/-- The number as a quotient. -/
def quotient (x : Double) : Nat × Nat :=
  match x.exponent with
  | .ofNat e => (x.mantissa * Nat.pow 2 e, 1)
  | .negSucc e => (x.mantissa, Nat.pow 2 (e + 1))

/-- The number nearest to a natural number. -/
def ofNat (n : Nat) : Double := nearest n 1

/-- The sum, rounded. -/
def add (x y : Double) : Double :=
  let (a, b) := x.quotient
  let (c, d) := y.quotient
  nearest (a * d + c * b) (b * d)

/-- The product, rounded. -/
def mul (x y : Double) : Double :=
  let (a, b) := x.quotient
  let (c, d) := y.quotient
  nearest (a * c) (b * d)

/-- Division; the divisor is not zero. -/
def div (x y : Double) : Double :=
  let (a, b) := x.quotient
  let (c, d) := y.quotient
  nearest (a * d) (b * c)

/-- The nearest natural number, a half going up. -/
def round (x : Double) : Nat :=
  let (a, b) := x.quotient
  (2 * a + b) / (2 * b)

instance : Add Double := ⟨add⟩
instance : Mul Double := ⟨mul⟩
instance : Div Double := ⟨div⟩

end Double

end WebBaseline.Numeric

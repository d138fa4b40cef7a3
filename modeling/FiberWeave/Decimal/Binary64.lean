/-!
# Binary fractions of 64 bits

Positive numbers of the form `m · 2 ^ q` with `m < 2 ^ 53` and `q ≥ -1074`, as words of 64 bits
hold them. Results of arithmetic are exact values rounded to the nearest such number, ties to even.

* `Binary64.round` — the number nearest to a quotient.
* `Binary64.ofNat`, `Binary64.mul`, `Binary64.div` — arithmetic by way of it.
* `roundHalfEven` — the nearest integer to a quotient.
-/

namespace FiberWeave.Decimal

/-- The integer nearest to a quotient, of two the even one. -/
def roundHalfEven (num den : Nat) : Nat :=
  let down := num / den
  let twice := 2 * (num % den)
  if twice < den then down
  else if den < twice then down + 1
  else if down % 2 = 0 then down
  else down + 1

/-- The number `mantissa · 2 ^ exponent`. -/
structure Binary64 where
  mantissa : Nat
  exponent : Int
  deriving DecidableEq, Repr, Inhabited

namespace Binary64

/-- The least exponent. -/
def leastExponent : Int := -1074

/-- The greatest exponent of a finite number. -/
def greatestExponent : Int := 971

/-- The least mantissa of a number whose exponent is not the least: the first with 53 bits. -/
def leastMantissa : Nat := 0x10000000000000

/-- Numerator and denominator of `num / den / 2 ^ q`. -/
def scaled (num den : Nat) (q : Int) : Nat × Nat :=
  if 0 ≤ q then (num, den * Nat.pow 2 q.toNat) else (num * Nat.pow 2 (-q).toNat, den)

/-- The exponent with which a quotient has a mantissa of 53 bits, or the least exponent. -/
def exponentFor (num den : Nat) : Int :=
  let q : Int := (num.log2 : Int) - den.log2 - 52
  let (n, d) := scaled num den q
  max leastExponent (if n < d * leastMantissa then q - 1 else q)

/-- The number nearest to a quotient. -/
def round (num den : Nat) : Binary64 :=
  let q := exponentFor num den
  let (n, d) := scaled num den q
  let m := roundHalfEven n d
  if m = 2 * leastMantissa then ⟨leastMantissa, q + 1⟩ else ⟨m, q⟩

/-- Whether a number is zero. -/
def isZero (x : Binary64) : Bool := x.mantissa == 0

/-- Whether a number is too large for a word of 64 bits. -/
def isInfinite (x : Binary64) : Bool := greatestExponent < x.exponent

/-- The exact value as a quotient. -/
def quotient (x : Binary64) : Nat × Nat :=
  if 0 ≤ x.exponent then (x.mantissa * Nat.pow 2 x.exponent.toNat, 1)
  else (x.mantissa, Nat.pow 2 (-x.exponent).toNat)

/-- The number nearest to an integer. -/
def ofNat (n : Nat) : Binary64 := if n = 0 then ⟨0, 0⟩ else round n 1

def mul (x y : Binary64) : Binary64 :=
  let (a, b) := x.quotient
  let (c, d) := y.quotient
  if a * c = 0 then ⟨0, 0⟩ else round (a * c) (b * d)

/-- The quotient of a number and one that is not zero. -/
def div (x y : Binary64) : Binary64 :=
  let (a, b) := x.quotient
  let (c, d) := y.quotient
  if a = 0 then ⟨0, 0⟩ else round (a * d) (b * c)

end Binary64

end FiberWeave.Decimal

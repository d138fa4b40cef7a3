import FiberWeave.Decimal.Binary64

/-!
# The shortest decimal of a binary fraction

The numbers that round to a given binary fraction form an interval. Of the decimals in it the one
with the fewest digits is taken, and of those with as few the nearest.

* `shortest` — digits and power of ten.
* `positional`, `scientific` — a decimal written out, without and with an exponent.
* `Binary64.text` — a binary fraction written out.
-/

namespace FiberWeave.Decimal

/-- A number `digits · 10 ^ power`. -/
structure Decimal10 where
  digits : Nat
  power : Int
  deriving DecidableEq, Repr, Inhabited

/-- The interval of the numbers that round to a binary fraction, as numerators over a common
denominator: low end, value, high end. The ends belong to it if the mantissa is even. -/
def interval (x : Binary64) : Nat × Nat × Nat × Nat :=
  let m := x.mantissa
  let below :=
    if m = Binary64.leastMantissa ∧ Binary64.leastExponent < x.exponent then 4 * m - 1
    else 4 * m - 2
  let q := x.exponent - 2
  let up := Nat.pow 2 q.toNat
  (below * up, 4 * m * up, (4 * m + 2) * up, Nat.pow 2 (-q).toNat)

/-- Numerator and denominator of a quotient divided by a power of ten. -/
def overPower (num den : Nat) (power : Int) : Nat × Nat :=
  if 0 ≤ power then (num, den * Nat.pow 10 power.toNat) else (num * Nat.pow 10 (-power).toNat, den)

/-- The power of ten of the first digit of a positive quotient. -/
def leadingPower (num den : Nat) : Int :=
  if den ≤ num then ((Nat.toDigits 10 (num / den)).length : Int) - 1
  else
    let width := (Nat.toDigits 10 (den / num)).length
    if den ≤ num * Nat.pow 10 (width - 1) then -((width : Int) - 1) else -(width : Int)

/-- The decimal with the given power of ten that lies in the interval, the nearest if there are
two, and of two that are as near the one with even digits. -/
def onGrid? (x : Binary64) (power : Int) : Option Decimal10 :=
  let (low, value, high, den) := interval x
  let closed := x.mantissa % 2 = 0
  let (n, d) := overPower value den power
  let inside (digits : Nat) : Bool :=
    let (a, b) := overPower low den power
    let (c, _) := overPower high den power
    if closed then a ≤ digits * b && digits * b ≤ c else a < digits * b && digits * b < c
  let down := n / d
  match inside down && down != 0, inside (down + 1) with
  | true, true => some ⟨roundHalfEven n d, power⟩
  | true, false => some ⟨down, power⟩
  | false, true => some ⟨down + 1, power⟩
  | false, false => none

/-- The same number with one digit less, if the last one is zero. -/
def Decimal10.dropZero (d : Decimal10) : Decimal10 :=
  if d.digits % 10 = 0 then ⟨d.digits / 10, d.power + 1⟩ else d

/-- The shortest decimal of a binary fraction other than zero. A nine may have been rounded up to
ten, which has a shorter form. -/
def shortest (x : Binary64) : Decimal10 :=
  let (num, den) := x.quotient
  let leading := leadingPower num den
  let grids := (List.range 17).map fun (i : Nat) => leading - (i : Int)
  ((grids.findSome? (onGrid? x)).getD ⟨num, 0⟩).dropZero

/-- A decimal written out, with a point and a digit after it. -/
def positional (x : Decimal10) : String :=
  let digits := Nat.toDigits 10 x.digits
  if 0 ≤ x.power then
    String.ofList (digits ++ List.replicate x.power.toNat '0') ++ ".0"
  else
    let places := (-x.power).toNat
    let padded := List.replicate (places + 1 - digits.length) '0' ++ digits
    let whole := padded.length - places
    String.ofList (padded.take whole) ++ "." ++ String.ofList (padded.drop whole)

/-- A decimal written out, with a point behind its first digit and an exponent, which always has a
sign. -/
def scientific (x : Decimal10) : String :=
  let digits := Nat.toDigits 10 x.digits
  let exponent := x.power + digits.length - 1
  let fraction := if digits.length = 1 then [] else '.' :: digits.tail
  let sign := if 0 ≤ exponent then "e+" else "e"
  String.ofList (digits.take 1 ++ fraction) ++ sign ++ toString exponent

/-- Whether a number is written without an exponent: from a hundred-thousandth on, and below
`10 ^ 16`. -/
def isPlainlyWritten (x : Decimal10) : Bool :=
  let places := x.power + (Nat.toDigits 10 x.digits).length
  0 < places + 5 && places ≤ 16

/-- A decimal written out. -/
def Decimal10.text (x : Decimal10) : String :=
  if isPlainlyWritten x then positional x else scientific x

/-- A binary fraction written out. -/
def Binary64.text (x : Binary64) : String :=
  if x.isZero then "0.0" else (shortest x).text

end FiberWeave.Decimal

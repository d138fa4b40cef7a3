/-!
# Bytes

File contents, class files and what an external program reads and writes are lists of octets.
This file holds the few views of such a list that the rest of the library needs.

* `Bytes.ofText` — the UTF-8 form of a text.
* `Bytes.number` — a byte string read as one number, most significant octet first.
* `Bytes.hex` — lower-case hexadecimal digits, two for each octet.
* `hasAtLeast` — whether a list has `n` elements, without counting all of it.
-/

namespace FiberWeave

/-- A string of octets. -/
abbrev Bytes := List UInt8

/-- Whether a list has at least `n` elements; only the first `n` are looked at. -/
def hasAtLeast {α : Type} : Nat → List α → Bool
  | 0, _ => true
  | _ + 1, [] => false
  | n + 1, _ :: rest => hasAtLeast n rest

theorem hasAtLeast_iff {α : Type} (n : Nat) (xs : List α) :
    hasAtLeast n xs = true ↔ n ≤ xs.length := by
  induction n generalizing xs with
  | zero => simp [hasAtLeast]
  | succ n ih =>
      cases xs with
      | nil => simp [hasAtLeast]
      | cons x rest => simp [hasAtLeast, ih]

namespace Bytes

/-- The UTF-8 form of a text. -/
def ofText (s : String) : Bytes :=
  s.toList.flatMap String.utf8EncodeChar

/-- The number whose octets are given, most significant first. -/
def number (bs : Bytes) : Nat :=
  bs.foldl (fun n b => n * 256 + b.toNat) 0

/-- The four octets of a 32-bit number in two's complement, most significant first. -/
def signed32 (bs : Bytes) : Int :=
  let n := bs.number
  if n < 0x80000000 then n else (n : Int) - 0x100000000

/-! ## Hexadecimal text -/

/-- The lower-case digit of a number below sixteen. -/
def hexDigit (n : Nat) : Char :=
  if n < 10 then Char.ofNat (n + 48) else Char.ofNat (n + 87)

/-- Lower-case hexadecimal digits, two for each octet. -/
def hex (bs : Bytes) : String :=
  String.ofList (bs.flatMap fun b => [hexDigit (b.toNat / 16), hexDigit (b.toNat % 16)])

/-- The value of a hexadecimal digit of either case. -/
def hexValue? (c : Char) : Option Nat :=
  if '0' ≤ c ∧ c ≤ '9' then some (c.toNat - 48)
  else if 'a' ≤ c ∧ c ≤ 'f' then some (c.toNat - 87)
  else if 'A' ≤ c ∧ c ≤ 'F' then some (c.toNat - 55)
  else none

/-- The octets written as pairs of hexadecimal digits. -/
def ofHex? (s : String) : Option Bytes :=
  go s.toList
where
  go : List Char → Option Bytes
    | [] => some []
    | [_] => none
    | a :: b :: rest => do
        let hi ← hexValue? a
        let lo ← hexValue? b
        return UInt8.ofNat (hi * 16 + lo) :: (← go rest)

end Bytes

/-- The hexadecimal digits of a number, at least `width` of them. -/
def hexDigits (width n : Nat) : String :=
  let digits := Nat.toDigits 16 n
  String.ofList (List.replicate (width - digits.length) '0' ++ digits)

end FiberWeave

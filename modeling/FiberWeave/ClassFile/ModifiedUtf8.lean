import FiberWeave.Bytes

/-!
# Modified UTF-8

Text in a class file is a sequence of UTF-16 units, each written in one, two or three octets:
NUL takes two octets and a supplementary character is a pair of surrogates of three octets each.

* `units?` — the units that a byte string writes.
* `chars?` — the characters that a sequence of units stands for; surrogates must be paired.
* `decode?` — the two together, with a short cut for text that is plain ASCII.
-/

namespace FiberWeave.ClassFile.ModifiedUtf8

/-- The six bits that a continuation octet carries. -/
def continuation? (b : UInt8) : Option Nat :=
  if b.toNat / 64 = 2 then some (b.toNat % 64) else none

/-- The UTF-16 units written by a byte string. A NUL octet, a stray continuation octet, an octet
from `0xF0` on and a sequence cut short are written by nothing. -/
def units? : Bytes → Option (List Nat)
  | [] => some []
  | a :: rest =>
      if 0x01 ≤ a.toNat ∧ a.toNat ≤ 0x7F then do
        return a.toNat :: (← units? rest)
      else if 0xC0 ≤ a.toNat ∧ a.toNat ≤ 0xDF then
        match rest with
        | b :: rest => do
            let low ← continuation? b
            return (a.toNat % 32 * 64 + low) :: (← units? rest)
        | [] => none
      else if 0xE0 ≤ a.toNat ∧ a.toNat ≤ 0xEF then
        match rest with
        | b :: c :: rest => do
            let mid ← continuation? b
            let low ← continuation? c
            return (a.toNat % 16 * 4096 + mid * 64 + low) :: (← units? rest)
        | _ => none
      else none

/-- Whether a unit is the first half of a surrogate pair. -/
def isHighSurrogate (u : Nat) : Bool := 0xD800 ≤ u && u < 0xDC00

/-- Whether a unit is the second half of a surrogate pair. -/
def isLowSurrogate (u : Nat) : Bool := 0xDC00 ≤ u && u < 0xE000

/-- The characters that a sequence of UTF-16 units stands for. -/
def chars? : List Nat → Option (List Char)
  | [] => some []
  | u :: rest =>
      if isHighSurrogate u then
        match rest with
        | v :: rest =>
            if isLowSurrogate v then do
              return Char.ofNat (0x10000 + (u - 0xD800) * 1024 + (v - 0xDC00)) :: (← chars? rest)
            else none
        | [] => none
      else if isLowSurrogate u then none
      else do return Char.ofNat u :: (← chars? rest)

/-- Whether an octet writes an ASCII character other than NUL. -/
def isPlain (b : UInt8) : Bool := 0x01 ≤ b.toNat && b.toNat < 0x80

/-- The text that a byte string writes. Most names are plain ASCII, where octets are characters. -/
def decode? (bs : Bytes) : Option String :=
  if bs.all isPlain then some (String.ofList (bs.map fun b => Char.ofNat b.toNat))
  else do
    let units ← units? bs
    return String.ofList (← chars? units)

end FiberWeave.ClassFile.ModifiedUtf8

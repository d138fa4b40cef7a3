import FiberWeave.Bytes

/-!
# Reading UTF-8

Octets are read as characters one at a time. Where no character can be read, the octets up to the
first one that cannot belong to any character are taken together as one fault.

* `Utf8.next` — the character or fault at the front, and what follows it.
* `Utf8.decodeLossy` — all octets, each fault written as U+FFFD.
* `Utf8.decode?` — all octets, if there is no fault.
-/

namespace FiberWeave.Text.Utf8

/-- Whether an octet is one that continues a character. -/
def isContinuation (b : UInt8) : Bool := b.toNat / 64 == 2

/-- The number of octets of a character that starts with the given one, or zero if none does. -/
def width (b : UInt8) : Nat :=
  let n := b.toNat
  if n < 0x80 then 1
  else if n < 0xC2 then 0
  else if n < 0xE0 then 2
  else if n < 0xF0 then 3
  else if n < 0xF5 then 4
  else 0

/-- Whether `second` may follow `first`: the shortest form is required, surrogates are not
characters, and no character lies above U+10FFFF. -/
def isSecond (first second : UInt8) : Bool :=
  isContinuation second
    && (first != 0xE0 || 0xA0 ≤ second.toNat)
    && (first != 0xED || second.toNat < 0xA0)
    && (first != 0xF0 || 0x90 ≤ second.toNat)
    && (first != 0xF4 || second.toNat < 0x90)

/-- The six bits that a continuation octet carries. -/
def low (b : UInt8) : Nat := b.toNat % 64

/-- The character that starts with `first`, or none for a fault, and what follows either. -/
def next (first : UInt8) (rest : Bytes) : Option Char × Bytes :=
  match width first with
  | 1 => (some (Char.ofNat first.toNat), rest)
  | 2 =>
      match rest with
      | b :: rest' =>
          if isSecond first b then (some (Char.ofNat (first.toNat % 32 * 64 + low b)), rest')
          else (none, rest)
      | [] => (none, rest)
  | 3 =>
      match rest with
      | b :: rest' =>
          if isSecond first b then
            match rest' with
            | c :: rest'' =>
                if isContinuation c then
                  (some (Char.ofNat (first.toNat % 16 * 4096 + low b * 64 + low c)), rest'')
                else (none, rest')
            | [] => (none, [])
          else (none, rest)
      | [] => (none, [])
  | 4 =>
      match rest with
      | b :: rest' =>
          if isSecond first b then
            match rest' with
            | c :: rest'' =>
                if isContinuation c then
                  match rest'' with
                  | d :: rest''' =>
                      if isContinuation d then
                        (some (Char.ofNat
                          (first.toNat % 8 * 262144 + low b * 4096 + low c * 64 + low d)), rest''')
                      else (none, rest'')
                  | [] => (none, [])
                else (none, rest')
            | [] => (none, [])
          else (none, rest)
      | [] => (none, [])
  | _ => (none, rest)

/-- A step takes at least one octet. -/
theorem length_next_le (first : UInt8) (rest : Bytes) :
    (next first rest).2.length ≤ rest.length := by
  unfold next
  repeat' split
  all_goals simp only [List.length_cons, List.length_nil]
  all_goals omega

/-- The characters and faults of a byte string, in order. -/
def pieces : Bytes → List (Option Char)
  | [] => []
  | first :: rest => (next first rest).1 :: pieces (next first rest).2
termination_by bs => bs.length
decreasing_by
  have := length_next_le first rest
  simp only [List.length_cons]
  omega

/-- The text of a byte string, each fault written as the replacement character. -/
def decodeLossy (bs : Bytes) : List Char := (pieces bs).map (·.getD '\uFFFD')

/-- The text of a byte string that holds no fault. -/
def decode? (bs : Bytes) : Option (List Char) := (pieces bs).mapM id

end FiberWeave.Text.Utf8

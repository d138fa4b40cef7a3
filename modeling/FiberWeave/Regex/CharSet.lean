/-!
# Sets of characters

A set of code points is a list of ranges. The sets that a bracket of a pattern describes are built
from ranges by union, complement and what follows from these two.

* `CharSet.contains` — membership.
* `CharSet.union`, `CharSet.complement`, `CharSet.inter`, `CharSet.diff`, `CharSet.symmDiff`.
* `CharSet.foldCase` — a set with both cases of the ASCII letters in it.
* `CharSet.ofName?` — the sets that have a name of their own in brackets.
-/

namespace FiberWeave.Regex

/-- The code points in any of several ranges, whose ends belong to them. -/
abbrev CharSet := List (Nat × Nat)

namespace CharSet

/-- The greatest code point. -/
def greatest : Nat := 0x10FFFF

/-- Whether a code point is in a set. -/
def contains (s : CharSet) (n : Nat) : Bool := s.any fun r => r.1 ≤ n && n ≤ r.2

/-- The set of one character. -/
def single (c : Char) : CharSet := [(c.toNat, c.toNat)]

/-- The members of either set. -/
def union (s t : CharSet) : CharSet := s ++ t

theorem contains_union (s t : CharSet) (n : Nat) :
    contains (union s t) n = (contains s n || contains t n) := by
  simp [union, contains]

/-- What is left of the range from `low` to `high` without ranges in ascending order. -/
def gaps (low high : Nat) : List (Nat × Nat) → CharSet
  | [] => if low ≤ high then [(low, high)] else []
  | (a, b) :: rest =>
      if low < a then (low, min high (a - 1)) :: gaps (max low (b + 1)) high rest
      else gaps (max low (b + 1)) high rest

/-- The code points up to `high` that are not in a set. -/
def complement (high : Nat) (s : CharSet) : CharSet :=
  (gaps 0 high (s.mergeSort fun a b => a.1 ≤ b.1)).filter fun r => r.1 ≤ r.2

/-- The members of both sets. -/
def inter (s t : CharSet) : CharSet :=
  complement greatest (union (complement greatest s) (complement greatest t))

/-- The members of the first set that are not in the second. -/
def diff (s t : CharSet) : CharSet := inter s (complement greatest t)

/-- The members of one of two sets only. -/
def symmDiff (s t : CharSet) : CharSet := union (diff s t) (diff t s)

/-- Whether all members are ASCII. -/
def isAscii (s : CharSet) : Bool := s.all fun r => r.2 < 0x80

/-- The part of a range that lies between two code points, moved up by `up` and down by `down`. -/
def shifted (low high up down : Nat) (r : Nat × Nat) : Option (Nat × Nat) :=
  let a := max low r.1
  let b := min high r.2
  if a ≤ b then some (a + up - down, b + up - down) else none

/-- A set with the other case of every ASCII letter in it. -/
def foldCase (s : CharSet) : CharSet :=
  union s (union (s.filterMap (shifted 0x41 0x5A 0x20 0)) (s.filterMap (shifted 0x61 0x7A 0 0x20)))

/-! ## Sets with names -/

/-- The decimal digits. -/
def digit : CharSet := [(0x30, 0x39)]

/-- The letters, digits and underscore. -/
def word : CharSet := [(0x30, 0x39), (0x41, 0x5A), (0x5F, 0x5F), (0x61, 0x7A)]

/-- The blanks. -/
def space : CharSet := [(0x09, 0x0D), (0x20, 0x20)]

/-- The sets that have a name of their own in brackets. -/
def named : List (String × CharSet) :=
  [("alnum", [(0x30, 0x39), (0x41, 0x5A), (0x61, 0x7A)]), ("alpha", [(0x41, 0x5A), (0x61, 0x7A)]),
    ("ascii", [(0x00, 0x7F)]), ("blank", [(0x09, 0x09), (0x20, 0x20)]),
    ("cntrl", [(0x00, 0x1F), (0x7F, 0x7F)]), ("digit", digit), ("graph", [(0x21, 0x7E)]),
    ("lower", [(0x61, 0x7A)]), ("print", [(0x20, 0x7E)]),
    ("punct", [(0x21, 0x2F), (0x3A, 0x40), (0x5B, 0x60), (0x7B, 0x7E)]), ("space", space),
    ("upper", [(0x41, 0x5A)]), ("word", word),
    ("xdigit", [(0x30, 0x39), (0x41, 0x46), (0x61, 0x66)])]

/-- The set with a name. -/
def ofName? (name : String) : Option CharSet := (named.find? fun row => row.1 == name).map (·.2)

end CharSet

end FiberWeave.Regex

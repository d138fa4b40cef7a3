/-!
# Blank characters

The characters that count as white space when text is trimmed: the Unicode property `White_Space`.

* `isBlank` — membership in that property.
* `trimStart`, `trim` — text without its blanks on the left, and on both sides.
* `isBlankText` — whether a text holds nothing but blanks.
-/

namespace FiberWeave.Text

/-- Whether a character has the Unicode property `White_Space`. -/
def isBlank (c : Char) : Bool :=
  let n := c.toNat
  (0x09 ≤ n && n ≤ 0x0D) || n == 0x20 || n == 0x85 || n == 0xA0 || n == 0x1680
    || (0x2000 ≤ n && n ≤ 0x200A) || n == 0x2028 || n == 0x2029 || n == 0x202F
    || n == 0x205F || n == 0x3000

/-- The text from its first character that is not blank. -/
def trimStart (cs : List Char) : List Char := cs.dropWhile isBlank

/-- The text up to its last character that is not blank. -/
def trimEnd (cs : List Char) : List Char := (cs.reverse.dropWhile isBlank).reverse

/-- The text without its outer blanks. -/
def trim (cs : List Char) : List Char := trimEnd (trimStart cs)

/-- Whether a text holds nothing but blanks. -/
def isBlankText (cs : List Char) : Bool := cs.all isBlank

theorem trimStart_eq_nil_iff (cs : List Char) : trimStart cs = [] ↔ isBlankText cs = true := by
  induction cs with
  | nil => simp [trimStart, isBlankText]
  | cons c rest ih =>
      simp only [trimStart, isBlankText, List.dropWhile_cons, List.all_cons] at ih ⊢
      cases isBlank c with
      | true => simp [ih]
      | false => simp

end FiberWeave.Text

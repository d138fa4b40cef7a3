import FiberWeave.Json.Error

/-!
# Reading JSON: words, strings and numbers

A reader takes what it reads off the front of a text. The text is read front to back and the first
thing wrong with it is reported, so the order in which characters are looked at matters.

* `Reader` — a step over a text that may fail.
* `Reader.peek` — the next character after blanks.
* `Reader.word`, `readString`, `skipString` — a fixed word, and the rest of a string.
* `readNumber`, `skipNumber` — a number.
-/

namespace FiberWeave.Json

/-- A step over a text that may fail. -/
abbrev Reader := StateT (List Char) (Except Error)

/-- Whether a character may stand between the parts of a JSON text. -/
def isSpace (c : Char) : Bool := c == ' ' || c == '\n' || c == '\t' || c == '\r'

namespace Reader

/-- The next character after blanks, which is not taken. -/
def peek : Reader (Option Char) := fun cs =>
  let cs := cs.dropWhile isSpace
  .ok (cs.head?, cs)

/-- The next character after blanks, which must be there. -/
def peekSome : Reader Char := do
  match ← peek with
  | some c => return c
  | none => throw .cutOff

/-- Takes a character. -/
def skip : Reader Unit := modify List.tail

/-- Takes a fixed word. -/
def word : (letters : List Char) → Reader Unit
  | [] => return ()
  | c :: letters => fun cs =>
      match cs with
      | [] => .error .cutOff
      | d :: rest => if c = d then word letters rest else .error .malformed

end Reader

/-! ## Strings -/

/-- Four hexadecimal digits. Fewer than four octets before the end of the text count as an early
end, whatever they are. -/
def hexUnit (cs : List Char) : Except Error (Nat × List Char) :=
  match cs with
  | a :: b :: c :: d :: rest =>
      match Bytes.hexValue? a, Bytes.hexValue? b, Bytes.hexValue? c, Bytes.hexValue? d with
      | some a, some b, some c, some d => .ok (a * 4096 + b * 256 + c * 16 + d, rest)
      | _, _, _, _ => .error .malformed
  | cs => if (String.ofList cs).utf8ByteSize < 4 then .error .cutOff else .error .malformed

/-- A UTF-16 unit, or two that belong together, after the letter that announces them. -/
def hexChar (cs : List Char) : Except Error (Char × List Char) := do
  let (n, rest) ← hexUnit cs
  if 0xDC00 ≤ n ∧ n < 0xE000 then throw .malformed
  else if 0xD800 ≤ n ∧ n < 0xDC00 then
    match rest with
    | [] => throw .cutOff
    | '\\' :: [] => throw .cutOff
    | '\\' :: 'u' :: rest =>
        let (low, rest) ← hexUnit rest
        if 0xDC00 ≤ low ∧ low < 0xE000 then
          return (Char.ofNat (0x10000 + (n - 0xD800) * 1024 + (low - 0xDC00)), rest)
        else throw .malformed
    | _ => throw .malformed
  else return (Char.ofNat n, rest)

/-- The character that a single letter after a backslash stands for. -/
def shortEscape? (c : Char) : Option Char :=
  if c = '"' ∨ c = '\\' ∨ c = '/' then some c
  else if c = 'b' then some '\x08'
  else if c = 'f' then some '\x0C'
  else if c = 'n' then some '\n'
  else if c = 'r' then some '\r'
  else if c = 't' then some '\t'
  else none

/-- The character after a backslash. -/
def escaped : List Char → Except Error (Char × List Char)
  | [] => .error .cutOff
  | 'u' :: rest => hexChar rest
  | c :: rest =>
      match shortEscape? c with
      | some c => .ok (c, rest)
      | none => .error .malformed

/-- The rest of a string up to its closing quote, in at most `fuel` characters. -/
def stringBody (decode : List Char → Except Error (Char × List Char)) :
    (fuel : Nat) → List Char → Except Error (List Char × List Char)
  | _, [] => .error .cutOff
  | 0, _ => .error .cutOff
  | fuel + 1, c :: rest =>
      if c = '"' then .ok ([], rest)
      else if c = '\\' then do
        let (c, rest) ← decode rest
        let (cs, rest) ← stringBody decode fuel rest
        return (c :: cs, rest)
      else if c.toNat < 0x20 then .error .malformed
      else do
        let (cs, rest) ← stringBody decode fuel rest
        return (c :: cs, rest)

/-- The rest of a string, after its opening quote. -/
def readString : Reader String := fun cs => do
  let (text, rest) ← stringBody escaped cs.length cs
  return (String.ofList text, rest)

/-- The character after a backslash in a string that nobody looks at: any UTF-16 unit will do. -/
def skipEscaped : List Char → Except Error (Char × List Char)
  | 'u' :: rest => (hexUnit rest).map fun r => ('u', r.2)
  | cs => escaped cs

/-- Passes over the rest of a string, after its opening quote. -/
def skipString : Reader Unit := fun cs => do
  let (_, rest) ← stringBody skipEscaped cs.length cs
  return ((), rest)

/-! ## Numbers -/

/-- The value of a decimal digit. -/
def digitValue (c : Char) : Nat := c.toNat - 48

/-- The digits at the front of a text, and what follows them. -/
def spanDigits (cs : List Char) : List Char × List Char :=
  (cs.takeWhile Char.isDigit, cs.dropWhile Char.isDigit)

/-- The greatest integer that is read as one. -/
def integerLimit : Nat := 0xFFFFFFFFFFFFFFFF

/-- Takes digits into `n` as long as that stays an integer, and gives those that are left. -/
def absorbDigits (n : Nat) : List Char → Nat × List Char
  | [] => (n, [])
  | c :: rest =>
      let next := n * 10 + digitValue c
      if next ≤ integerLimit then absorbDigits next rest else (n, c :: rest)

/-- The greatest power of ten that is a binary fraction of its own. -/
def greatestPower : Nat := 308

/-- A number divided by a power of ten, in as many steps as the power needs. -/
def divideByPower (x : Decimal.Binary64) (power : Nat) : Decimal.Binary64 :=
  if power ≤ greatestPower then x.div (.ofNat (Nat.pow 10 power))
  else if x.isZero then x
  else divideByPower (x.div (.ofNat (Nat.pow 10 greatestPower))) (power - greatestPower)
termination_by power
decreasing_by simp only [greatestPower] at *; omega

/-- The number `digits · 10 ^ power`. Each step is rounded; one that is too large is refused. -/
def fractionOf (negative : Bool) (digits : Nat) (power : Int) : Except Error Found :=
  let x := Decimal.Binary64.ofNat digits
  if power < 0 then .ok (.fraction negative (divideByPower x (-power).toNat))
  else if power ≤ greatestPower then
    let product := x.mul (.ofNat (Nat.pow 10 power.toNat))
    if product.isInfinite then .error .malformed else .ok (.fraction negative product)
  else if x.isZero then .ok (.fraction negative x)
  else .error .malformed

/-- The greatest exponent that is read as it stands. -/
def exponentLimit : Nat := 0x7FFFFFFF

/-- The rest of a number after the letter of its exponent. -/
def exponentPart (negative : Bool) (digits : Nat) (power : Int) (cs : List Char) :
    Except Error (Found × List Char) :=
  let (down, cs) :=
    match cs with
    | '+' :: cs => (false, cs)
    | '-' :: cs => (true, cs)
    | cs => (false, cs)
  match spanDigits cs with
  | ([], []) => .error .cutOff
  | ([], _) => .error .malformed
  | (ds, rest) =>
      let n := ds.foldl (fun n c => n * 10 + digitValue c) 0
      if exponentLimit < n then
        if digits ≠ 0 ∧ !down then .error .malformed
        else .ok (.fraction negative (.ofNat 0), rest)
      else do
        let found ← fractionOf negative digits (if down then power - n else power + n)
        return (found, rest)

/-- The rest of a number from its exponent on, if it has one. -/
def exponentOrEnd (negative : Bool) (digits : Nat) (power : Int) (cs : List Char) :
    Except Error (Found × List Char) :=
  match cs with
  | 'e' :: rest => exponentPart negative digits power rest
  | 'E' :: rest => exponentPart negative digits power rest
  | cs => do return (← fractionOf negative digits power, cs)

/-- The rest of a number after its point. Digits that no longer fit are left out. -/
def decimalPart (negative : Bool) (digits : Nat) (power : Int) (cs : List Char) :
    Except Error (Found × List Char) :=
  match spanDigits cs with
  | ([], []) => .error .cutOff
  | ([], _) => .error .malformed
  | (ds, rest) =>
      let (digits, left) := absorbDigits digits ds
      exponentOrEnd negative digits (power - (ds.length - left.length)) rest

/-- An integer, if it fits where integers are kept, or else a fraction. -/
def integerOf (negative : Bool) (n : Nat) : Found :=
  if !negative then .integer n
  else if n = 0 ∨ 0x8000000000000000 < n then .fraction true (.ofNat n)
  else .integer (-(n : Int))

/-- The rest of a number from its first digit on. -/
def readNumber (negative : Bool) : Reader Found := fun cs =>
  match spanDigits cs with
  | ([], []) => .error .cutOff
  | ([], _) => .error .malformed
  | (first :: more, rest) =>
      if first = '0' ∧ more ≠ [] then .error .malformed
      else
        let (n, left) := absorbDigits 0 (first :: more)
        match rest, left with
        | '.' :: rest, left => decimalPart negative n left.length rest
        | 'e' :: rest, left => exponentPart negative n left.length rest
        | 'E' :: rest, left => exponentPart negative n left.length rest
        | rest, [] => .ok (integerOf negative n, rest)
        | rest, left => do return (← fractionOf negative n left.length, rest)

/-- Passes over digits, at least one. -/
def skipDigits (cs : List Char) : Except Error (List Char) :=
  match spanDigits cs with
  | ([], _) => .error .malformed
  | (_, rest) => .ok rest

/-- Passes over the exponent of a number, if it has one. -/
def skipExponent (cs : List Char) : Except Error (List Char) :=
  match cs with
  | 'e' :: rest | 'E' :: rest =>
      match rest with
      | '+' :: rest | '-' :: rest => skipDigits rest
      | rest => skipDigits rest
  | cs => .ok cs

/-- Passes over a number that nobody looks at, from its first digit on. An early end makes it
malformed. -/
def skipNumber : Reader Unit := fun cs => do
  match spanDigits cs with
  | ([], _) => throw .malformed
  | (first :: more, rest) =>
      if first = '0' ∧ more ≠ [] then throw .malformed
      let rest ← match rest with
        | '.' :: rest => skipDigits rest
        | rest => pure rest
      return ((), ← skipExponent rest)

end FiberWeave.Json

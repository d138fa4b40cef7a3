import FiberWeave.Regex.Fault
import FiberWeave.Text.Blank

/-!
# Going through a pattern

* `Cursor` — what is left of a pattern, and the index of its first character.
* `Flags` — the ways in which parts of a pattern can be meant.
* `Cursor.bump`, `Cursor.gather`, `Cursor.number` — steps over what is at the front.

In a pattern that is written with gaps, blanks stand for nothing, and so does all from a `#` up to
the end of the line.
-/

namespace FiberWeave.Regex

/-- The flags that can be set inside a pattern. Which of several stretches is meant does not matter
here, so that the flag for it is read only. -/
structure Flags where
  anyCase : Bool := false
  /-- Lines inside the text count for the conditions on lines. -/
  everyLine : Bool := false
  /-- A point stands for line feeds as well. -/
  dotAll : Bool := false
  /-- Characters of all scripts are meant, and not octets. -/
  unicode : Bool := true
  /-- Carriage returns end lines as well. -/
  crlf : Bool := false
  /-- Blanks stand for nothing. -/
  gaps : Bool := false
  deriving DecidableEq, Repr, Inhabited

/-- What is left of a pattern, and the index of its first character. -/
structure Cursor where
  rest : List Char
  index : Nat
  deriving DecidableEq, Repr, Inhabited

namespace Cursor

/-- The character at the front. -/
def char? (c : Cursor) : Option Char := c.rest.head?

/-- Whether nothing is left. -/
def isDone (c : Cursor) : Bool := c.rest.isEmpty

/-- Behind the character at the front. -/
def next (c : Cursor) : Cursor :=
  match c.rest with
  | [] => c
  | _ :: rest => ⟨rest, c.index + 1⟩

/-- The place in front of the next character, as a stretch without characters. -/
def here (c : Cursor) : Span := ⟨c.index, c.index⟩

/-- The next character as a stretch. -/
def ahead (c : Cursor) : Span := ⟨c.index, c.next.index⟩

/-- The stretch from an index up to the cursor. -/
def since (c : Cursor) (start : Nat) : Span := ⟨start, c.index⟩

/-- Behind blanks and remarks, where `inRemark` says whether the text begins inside a remark. -/
def skipFrom (inRemark : Bool) : List Char → Nat → Cursor
  | [], n => ⟨[], n⟩
  | c :: rest, n =>
      if inRemark then skipFrom (c != '\n') rest (n + 1)
      else if Text.isBlank c then skipFrom false rest (n + 1)
      else if c = '#' then skipFrom true rest (n + 1)
      else ⟨c :: rest, n⟩

/-- Behind blanks and remarks, if they stand for nothing. -/
def skip (f : Flags) (c : Cursor) : Cursor := if f.gaps then skipFrom false c.rest c.index else c

/-- Behind the character at the front and the blanks after it. -/
def bump (f : Flags) (c : Cursor) : Cursor := c.next.skip f

/-- Behind a text, if it is at the front. -/
def strip? (c : Cursor) (text : List Char) : Option Cursor :=
  if text.isPrefixOf c.rest then some ⟨c.rest.drop text.length, c.index + text.length⟩ else none

/-- The character after the one at the front. With gaps it is the first that is no blank; a `#` and
blanks after it are passed over, but no more of a remark. -/
def peek? (f : Flags) (c : Cursor) : Option Char :=
  let after := c.rest.tail
  if f.gaps then
    match after.dropWhile Text.isBlank with
    | '#' :: rest => (rest.dropWhile Text.isBlank).head? <|> after.head?
    | [] => after.head?
    | d :: _ => some d
  else after.head?

/-- The characters at the front that have a property, and what follows; at most `fuel` of them. -/
def gatherUpTo (f : Flags) (p : Char → Bool) : (fuel : Nat) → Cursor → List Char × Cursor
  | 0, c => ([], c)
  | fuel + 1, c =>
      match c.char? with
      | some d =>
          if p d then
            let (more, c) := gatherUpTo f p fuel (c.bump f)
            (d :: more, c)
          else ([], c)
      | none => ([], c)

/-- The characters at the front that have a property, and what follows. -/
def gather (f : Flags) (p : Char → Bool) (c : Cursor) : List Char × Cursor :=
  gatherUpTo f p c.rest.length c

/-- Behind blanks, whether they stand for something or not. -/
def skipBlanks (c : Cursor) : Cursor :=
  let after := c.rest.dropWhile Text.isBlank
  ⟨after, c.index + (c.rest.length - after.length)⟩

/-- Whether a character is a decimal digit. -/
def isDigit (c : Char) : Bool := '0' ≤ c && c ≤ '9'

/-- The number at the front, and what follows. Blanks around it are passed over. -/
def number (f : Flags) (c : Cursor) : Except Fault Nat × Cursor :=
  let c := c.skipBlanks
  let (digits, after) := c.gather f isDigit
  let span := after.since c.index
  let (_, rest) := after.gather f Text.isBlank
  let value := digits.foldl (fun n d => n * 10 + (d.toNat - 48)) 0
  if digits.isEmpty then (.error { span, mistake := .countEmpty }, rest)
  else if 0xFFFFFFFF < value then (.error { span, mistake := .numberTooLarge }, rest)
  else (.ok value, rest)

end Cursor

/-- Refuses a pattern. -/
def refuse {α : Type} (span : Span) (mistake : Mistake) : Except Fault α :=
  .error { span, mistake }

/-! ## Setting flags -/

/-- Sets a flag by its letter. -/
def Flags.set (f : Flags) (letter : Char) (on : Bool) : Flags :=
  match letter with
  | 'i' => { f with anyCase := on }
  | 'm' => { f with everyLine := on }
  | 's' => { f with dotAll := on }
  | 'u' => { f with unicode := on }
  | 'R' => { f with crlf := on }
  | 'x' => { f with gaps := on }
  | _ => f

/-- The letters of flags. -/
def flagLetters : List Char := ['i', 'm', 's', 'U', 'u', 'R', 'x']

/-- The letters of flags up to the end of their list, with their indices; a hyphen is among them.
What they are followed by is a colon or a closing parenthesis. -/
def flagItems (found : List (Char × Nat)) : (fuel : Nat) → Cursor →
    Except Fault (List (Char × Nat) × Cursor)
  | 0, c => refuse c.here .flagCutOff
  | fuel + 1, c =>
      match c.char? with
      | none => refuse c.here .flagCutOff
      | some letter =>
          if letter = ':' ∨ letter = ')' then
            match found.getLast? with
            | some ('-', index) => refuse ⟨index, index + 1⟩ .flagDangling
            | _ => .ok (found, c)
          else if letter != '-' && !flagLetters.contains letter then
            refuse c.ahead .flagUnknown
          else
            match found.find? fun item => item.1 == letter with
            | some (_, index) =>
                .error { span := c.ahead, first := some ⟨index, index + 1⟩
                         mistake := if letter = '-' then .flagNegatedTwice else .flagTwice }
            | none =>
                if c.next.isDone then refuse c.next.here .flagCutOff
                else flagItems (found ++ [(letter, c.index)]) fuel c.next

/-- The flags after a list of letters. Those behind a hyphen are taken back. -/
def Flags.update (f : Flags) (letters : List Char) : Flags :=
  (letters.foldl (fun (f, on) letter =>
    if letter = '-' then (f, false) else (f.set letter on, on)) (f, true)).1

end FiberWeave.Regex

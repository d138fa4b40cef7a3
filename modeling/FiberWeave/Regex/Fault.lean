import FiberWeave.Text.Lines

/-!
# What is wrong with a pattern

* `Span` — a stretch of a pattern.
* `Mistake` — what is wrong, with its wording in `Mistake.message`.
* `Fault` — a mistake and where it is; `Fault.message` shows the pattern with carets under the place.
-/

namespace FiberWeave.Regex

/-- The characters of a pattern from one index up to another one. -/
structure Span where
  start : Nat
  stop : Nat
  deriving DecidableEq, Repr, Inhabited

/-- What can be wrong with a pattern. -/
inductive Mistake where
  | escapeInBrackets
  | rangeBackwards
  | rangeOfNoCharacter
  | bracketsUnclosed
  | numberTooLarge
  | codeEmpty
  | codeOfNoCharacter
  | codeDigit
  | escapeCutOff
  | escapeUnknown
  | flagDangling
  | flagTwice
  | flagNegatedTwice
  | flagCutOff
  | flagUnknown
  | nameTwice
  | nameEmpty
  | nameCharacter
  | nameCutOff
  | groupUnclosed
  | groupUnopened
  | countBackwards
  | countEmpty
  | countUnclosed
  | nothingRepeated
  | boundaryUnclosed
  | boundaryUnknown
  | boundaryCutOff
  | propertyMalformed
  | backreference
  | lookAround
  /-- A character beyond ASCII where octets are meant. -/
  | beyondAscii
  /-- The pattern fits octets that are no text. -/
  | noText
  | propertyUnknown
  | propertyValueUnknown
  /-- A class of characters of all scripts, for which there is no table. -/
  | classUnavailable
  /-- Both cases of the letters of all scripts, for which there is no table. -/
  | caseUnavailable
  deriving DecidableEq, Repr, Inhabited

/-- The wording of a mistake. -/
def Mistake.message : Mistake → String
  | escapeInBrackets => "invalid escape sequence found in character class"
  | rangeBackwards => "invalid character class range, the start must be <= the end"
  | rangeOfNoCharacter => "invalid range boundary, must be a literal"
  | bracketsUnclosed => "unclosed character class"
  | numberTooLarge => "decimal literal invalid"
  | codeEmpty => "hexadecimal literal empty"
  | codeOfNoCharacter => "hexadecimal literal is not a Unicode scalar value"
  | codeDigit => "invalid hexadecimal digit"
  | escapeCutOff => "incomplete escape sequence, reached end of pattern prematurely"
  | escapeUnknown => "unrecognized escape sequence"
  | flagDangling => "dangling flag negation operator"
  | flagTwice => "duplicate flag"
  | flagNegatedTwice => "flag negation operator repeated"
  | flagCutOff => "expected flag but got end of regex"
  | flagUnknown => "unrecognized flag"
  | nameTwice => "duplicate capture group name"
  | nameEmpty => "empty capture group name"
  | nameCharacter => "invalid capture group character"
  | nameCutOff => "unclosed capture group name"
  | groupUnclosed => "unclosed group"
  | groupUnopened => "unopened group"
  | countBackwards => "invalid repetition count range, the start must be <= the end"
  | countEmpty => "repetition quantifier expects a valid decimal"
  | countUnclosed => "unclosed counted repetition"
  | nothingRepeated => "repetition operator missing expression"
  | boundaryUnclosed =>
      "special word boundary assertion is either unclosed or contains an invalid character"
  | boundaryUnknown =>
      "unrecognized special word boundary assertion, valid choices are: start, end, start-half or "
        ++ "end-half"
  | boundaryCutOff =>
      "found either the beginning of a special word boundary or a bounded repetition on a \\b with "
        ++ "an opening brace, but no closing brace"
  | propertyMalformed => "invalid Unicode character class"
  | backreference => "backreferences are not supported"
  | lookAround => "look-around, including look-ahead and look-behind, is not supported"
  | beyondAscii => "Unicode not allowed here"
  | noText => "pattern can match invalid UTF-8"
  | propertyUnknown => "Unicode property not found"
  | propertyValueUnknown => "Unicode property value not found"
  | classUnavailable =>
      "Unicode-aware Perl class not found (make sure the unicode-perl feature is enabled)"
  | caseUnavailable =>
      "Unicode-aware case insensitivity matching is not available "
        ++ "(make sure the unicode-case feature is enabled)"

/-- A mistake in a pattern, and where it is. -/
structure Fault where
  span : Span
  mistake : Mistake
  /-- Where the same thing stands for the first time, if it must not stand twice. -/
  first : Option Span := none
  deriving DecidableEq, Repr, Inhabited

/-! ## Showing the place -/

/-- Line and column of an index, both counted from zero. -/
def position (pattern : List Char) (index : Nat) : Nat × Nat :=
  let before := pattern.take index
  (before.count '\n', (before.reverse.takeWhile (· != '\n')).length)

/-- Carets under columns of a line; where a stretch is empty there is one. -/
def carets (columns : List (Nat × Nat)) : List Char :=
  columns.foldl (fun line (start, stop) =>
    line ++ List.replicate (start - line.length) ' ' ++ List.replicate (max 1 (stop - start)) '^') []

/-- The stretches that a fault is about, in order. -/
def Fault.spans (f : Fault) : List Span :=
  ((f.span :: f.first.toList)).mergeSort fun a b => a.start ≤ b.start

/-- A pattern of one line with carets under it. -/
def Fault.pointer (f : Fault) (pattern : List Char) : String :=
  let columns := f.spans.map fun s => (s.start, s.stop)
  "    " ++ String.ofList pattern ++ "\n    " ++ String.ofList (carets columns) ++ "\n"

/-- A number on the left of a line. -/
def margin (width n : Nat) : String :=
  let digits := Nat.toDigits 10 n
  String.ofList (List.replicate (width - digits.length) ' ' ++ digits) ++ ": "

/-- A pattern of several lines, which are numbered, with carets under them. -/
def Fault.listing (f : Fault) (pattern : List Char) : String :=
  let lines := Text.lines pattern
  let count := lines.length + (if pattern.getLast? = some '\n' then 1 else 0)
  let width := if count ≤ 1 then 0 else (Nat.toDigits 10 count).length
  let places := f.spans.map fun s => (position pattern s.start, position pattern s.stop)
  let onOneLine := places.filter fun (a, b) => a.1 = b.1
  String.join (lines.zipIdx.map fun (line, n) =>
    let lead := if width = 0 then "    " else margin width (n + 1)
    let here := (onOneLine.filter fun (a, _) => a.1 = n).map fun (a, b) => (a.2, b.2)
    let under := if here.isEmpty then ""
      else String.ofList (List.replicate (if width = 0 then 4 else width + 2) ' ' ++ carets here)
        ++ "\n"
    lead ++ String.ofList line ++ "\n" ++ under)

/-- The stretches of a fault that go over several lines, in words. -/
def Fault.longStretches (f : Fault) (pattern : List Char) : List String :=
  f.spans.filterMap fun s =>
    let (line, column) := position pattern s.start
    let (lastLine, lastColumn) := position pattern s.stop
    if line = lastLine then none
    else some (s!"on line {line + 1} (column {column + 1}) "
      ++ s!"through line {lastLine + 1} (column {lastColumn})")

/-- The wording of a fault, with the pattern. -/
def Fault.message (f : Fault) (pattern : List Char) : String :=
  let cause := "error: " ++ f.mistake.message
  if pattern.contains '\n' then
    let divider := String.ofList (List.replicate 79 '~') ++ "\n"
    let notes := f.longStretches pattern
    "regex parse error:\n" ++ divider ++ f.listing pattern ++ divider
      ++ (if notes.isEmpty then "" else "\n".intercalate notes ++ "\n") ++ cause
  else "regex parse error:\n" ++ f.pointer pattern ++ cause

end FiberWeave.Regex

import FiberWeave.Bytes
import FiberWeave.Regex.Basic
import FiberWeave.Regex.Cursor

/-!
# What a backslash begins

* `Atom` — the smallest parts of a pattern.
* `escape` — the part that a backslash begins.
* `Atom.regex?`, `Atom.set?` — what a part means outside and inside of brackets.
-/

namespace FiberWeave.Regex

/-- A condition on a place, as it is written. -/
inductive Condition where
  | lineStart
  | lineEnd
  | textStart
  | textEnd
  | wordEdge
  | noWordEdge
  | wordStart
  | wordEnd
  | wordStartHalf
  | wordEndHalf
  deriving DecidableEq, Repr, Inhabited

/-- The smallest parts of a pattern. -/
inductive Atom where
  /-- A character; `octet` if it is written as two hexadecimal digits. -/
  | char (c : Char) (octet : Bool)
  | dot
  | condition (c : Condition)
  /-- A class of characters with a letter of its own. -/
  | letterClass (set : CharSet) (negated : Bool)
  | property (name : List Char)
  deriving DecidableEq, Repr, Inhabited

/-- A part of a pattern and where it stands. -/
structure Placed where
  atom : Atom
  span : Span
  deriving DecidableEq, Repr, Inhabited

/-! ## Codes of characters -/

/-- The value of hexadecimal digits. -/
def codeOf (digits : List Char) : Nat :=
  digits.foldl (fun n d => n * 16 + (Bytes.hexValue? d).getD 0) 0

/-- The character with a code. Zeros in front of it do not count. -/
def charOf? (digits : List Char) : Option Char :=
  let n := codeOf digits
  if n < 0xD800 ∨ 0xDFFF < n ∧ n ≤ CharSet.greatest then some (Char.ofNat n) else none

/-- Whether a character is a hexadecimal digit. -/
def isHexDigit (c : Char) : Bool := (Bytes.hexValue? c).isSome

/-- A fixed number of hexadecimal digits. -/
def fixedDigits (f : Flags) : (count : Nat) → Cursor → Except Fault (List Char × Cursor)
  | 0, c => .ok ([], c)
  | count + 1, c =>
      match c.char? with
      | none => refuse c.here .escapeCutOff
      | some d =>
          if isHexDigit d then do
            let (more, c) ← fixedDigits f count (c.bump f)
            return (d :: more, c)
          else refuse c.ahead .codeDigit

/-- A character written as hexadecimal digits after `\x`, `\u` or `\U`, where the cursor is at the
letter; without braces there are as many digits as the letter says. -/
def codedChar (f : Flags) (letter : Char) (c : Cursor) : Except Fault (Atom × Cursor) :=
  let c := c.bump f
  match c.char? with
  | none => refuse c.here .escapeCutOff
  | some '\x7b' =>
      let start := c.next.index
      let (digits, after) := (c.bump f).gather f isHexDigit
      match after.char? with
      | none => refuse (after.since c.index) .escapeCutOff
      | some '\x7d' =>
          let rest := after.bump f
          if digits.isEmpty then refuse (rest.since c.index) .codeEmpty
          else
            match charOf? digits with
            | some d => .ok (.char d false, rest)
            | none => refuse (after.since start) .codeOfNoCharacter
      | some _ => refuse after.ahead .codeDigit
  | some _ => do
      let count := if letter = 'x' then 2 else if letter = 'u' then 4 else 8
      let (digits, rest) ← fixedDigits f count c
      match charOf? digits with
      | some d => return (.char d (letter = 'x'), rest)
      | none => refuse (rest.since c.index) .codeOfNoCharacter

/-! ## Properties -/

/-- A property after `\p` or `\P`, where the cursor is at the letter. -/
def propertyAtom (f : Flags) (c : Cursor) : Except Fault (Atom × Cursor) :=
  let c := c.bump f
  match c.char? with
  | none => refuse c.here .escapeCutOff
  | some '\x7b' =>
      let (name, after) := (c.bump f).gather f (· != '\x7d')
      if after.isDone then refuse after.here .escapeCutOff
      else .ok (.property name, after.next)
  | some '\\' => refuse c.ahead .propertyMalformed
  | some d => .ok (.property [d], c.bump f)

/-- The name of a property without what does not count in it: case, blanks, hyphens and underscores,
and an `is` in front. -/
def propertyName (name : List Char) : List Char :=
  let lower := name.map Char.toLower
  let core := if ['i', 's'].isPrefixOf lower then lower.drop 2 else lower
  core.filter fun c => c.toNat < 0x80 && !(c = ' ' || c = '_' || c = '-')

/-- The names that are looked for among the values of a property, and not among properties. -/
def valueNames : List String := ["cf", "sc", "lc"]

/-- Why a property is unknown, as all are: there is no table of them. -/
def propertyMistake (name : List Char) : Mistake :=
  if valueNames.contains (String.ofList (propertyName name)) then .propertyValueUnknown
  else .propertyUnknown

/-! ## Edges of words -/

/-- The edges of words that have names. -/
def namedEdges : List (String × Condition) :=
  [("start", .wordStart), ("end", .wordEnd), ("start-half", .wordStartHalf),
    ("end-half", .wordEndHalf)]

/-- The edge of a word after `\b`, which may have a name in braces. Braces that hold anything else
are left for a count. -/
def wordEdgeAtom (f : Flags) (start : Nat) (c : Cursor) : Except Fault (Atom × Cursor) :=
  match c.char? with
  | some '\x7b' =>
      let inside := c.bump f
      match inside.char? with
      | none => refuse (inside.since start) .boundaryCutOff
      | some d =>
          if !(d.isAlpha || d = '-') then .ok (.condition .wordEdge, c)
          else
            let (name, after) := inside.gather f fun d => d.isAlpha || d = '-'
            if after.char? = some '\x7d' then
              match namedEdges.find? fun row => row.1.toList == name with
              | some (_, edge) => .ok (.condition edge, after.next)
              | none => refuse (after.since inside.index) .boundaryUnknown
            else refuse (after.since c.index) .boundaryUnclosed
  | _ => .ok (.condition .wordEdge, c)

/-! ## All of it -/

/-- Whether a character after a backslash stands for itself: any in ASCII but letters, digits and
angle brackets. -/
def isEscapable (c : Char) : Bool := c.toNat < 0x80 && !c.isAlphanum && c != '<' && c != '>'

/-- The letters after a backslash that stand for a control character. -/
def controlLetters : List (Char × Char) :=
  [('a', '\x07'), ('f', '\x0c'), ('t', '\t'), ('n', '\n'), ('r', '\r'), ('v', '\x0b')]

/-- The letters after a backslash that stand for a condition. -/
def conditionLetters : List (Char × Condition) :=
  [('A', .textStart), ('z', .textEnd), ('B', .noWordEdge), ('<', .wordStart), ('>', .wordEnd)]

/-- The letters after a backslash that stand for a class; the capitals are for what is not in it. -/
def classLetters : List (Char × CharSet) :=
  [('d', CharSet.digit), ('s', CharSet.space), ('w', CharSet.word)]

/-- The part that a backslash at the front begins. -/
def escape (f : Flags) (c : Cursor) : Except Fault (Placed × Cursor) :=
  let start := c.index
  let c := c.next
  let placed (found : Except Fault (Atom × Cursor)) : Except Fault (Placed × Cursor) :=
    found.map fun (atom, rest) => (⟨atom, rest.since start⟩, rest)
  match c.char? with
  | none => refuse (c.since start) .escapeCutOff
  | some d =>
      if Cursor.isDigit d then refuse (c.next.since start) .backreference
      else if d = 'x' ∨ d = 'u' ∨ d = 'U' then placed (codedChar f d c)
      else if d = 'p' ∨ d = 'P' then placed (propertyAtom f c)
      else if d = 'b' then placed (wordEdgeAtom f start c.next)
      else if isEscapable d then placed (.ok (.char d false, c.next))
      else
        match classLetters.find? fun row => row.1 == d.toLower with
        | some (_, set) => placed (.ok (.letterClass set d.isUpper, c.next))
        | none =>
            match controlLetters.find? fun row => row.1 == d with
            | some (_, control) => placed (.ok (.char control false, c.next))
            | none =>
                match conditionLetters.find? fun row => row.1 == d with
                | some (_, condition) => placed (.ok (.condition condition, c.next))
                | none => refuse (c.next.since start) .escapeUnknown

/-! ## Meaning -/

/-- The condition that is meant. Without a table of the letters of all scripts nothing can be said
about the edges of words, unless octets are meant. -/
def Condition.look (f : Flags) : Condition → Look
  | lineStart => if f.everyLine then (if f.crlf then .crlfStart else .lineStart) else .textStart
  | lineEnd => if f.everyLine then (if f.crlf then .crlfEnd else .lineEnd) else .textEnd
  | textStart => .textStart
  | textEnd => .textEnd
  | wordEdge => if f.unicode then .anyScript else .wordEdge
  | noWordEdge => if f.unicode then .anyScript else .noWordEdge
  | wordStart => if f.unicode then .anyScript else .wordStart
  | wordEnd => if f.unicode then .anyScript else .wordEnd
  | wordStartHalf => if f.unicode then .anyScript else .wordStartHalf
  | wordEndHalf => if f.unicode then .anyScript else .wordEndHalf

/-- The characters that a point stands for. -/
def dotSet (f : Flags) : CharSet :=
  let ends := if f.dotAll then [] else if f.crlf then [(0x0A, 0x0A), (0x0D, 0x0D)] else [(0x0A, 0x0A)]
  CharSet.complement CharSet.greatest ends

/-- The characters of a class with a letter. -/
def letterSet (f : Flags) (span : Span) (set : CharSet) (negated : Bool) : Except Fault CharSet :=
  if f.unicode then refuse span .classUnavailable
  else if negated then refuse span .noText
  else .ok set

/-- There is no table of properties. -/
def propertySet {α : Type} (f : Flags) (span : Span) (name : List Char) : Except Fault α :=
  refuse span (if f.unicode then propertyMistake name else .beyondAscii)

/-- What a part means by itself. -/
def Placed.regex? (f : Flags) (p : Placed) : Except Fault Regex :=
  match p.atom with
  | .char c octet =>
      if f.unicode then
        if f.anyCase then refuse p.span .caseUnavailable else .ok (one (CharSet.single c))
      else if octet && 0x80 ≤ c.toNat then refuse p.span .noText
      else .ok (one (if f.anyCase then CharSet.foldCase (CharSet.single c) else CharSet.single c))
  | .dot => if f.unicode then .ok (one (dotSet f)) else refuse p.span .noText
  | .condition c => .ok (look (c.look f))
  | .letterClass set negated => (letterSet f p.span set negated).map one
  | .property name => propertySet f p.span name

/-- A character in brackets, or at an end of a range. -/
def boundary (f : Flags) (span : Span) (c : Char) (octet : Bool) : Except Fault Nat :=
  if f.unicode || c.toNat < 0x80 then .ok c.toNat
  else refuse span (if octet then .noText else .beyondAscii)

/-- What a part means in brackets. A condition or a point is nothing there. -/
def Placed.set? (f : Flags) (p : Placed) : Except Fault CharSet :=
  match p.atom with
  | .char c octet => (boundary f p.span c octet).map fun n => [(n, n)]
  | .letterClass set negated => letterSet f p.span set negated
  | .property name => propertySet f p.span name
  | _ => refuse p.span .escapeInBrackets

end FiberWeave.Regex

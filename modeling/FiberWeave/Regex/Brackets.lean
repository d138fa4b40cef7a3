import FiberWeave.Regex.Escape

/-!
# Brackets

A bracket describes a set of characters by what is in it: characters, ranges, classes with names,
and brackets again. Two hyphens, ampersands or tildes between two such lists are an operation on
sets; all of them bind alike, and the left one first.

* `Members` — what a bracket holds so far.
* `Brackets` — how far a bracket has been read, with those around it.
* `brackets` — the set that the bracket at the front describes.

What a pattern means can be wrong although it is well formed. Such a fault counts only if no other
one is found, so that it is kept and the reading goes on.
-/

namespace FiberWeave.Regex

/-- An operation on two sets. -/
inductive SetOperation where
  | inter
  | diff
  | symmDiff
  deriving DecidableEq, Repr, Inhabited

/-- The set that an operation makes. -/
def SetOperation.apply : SetOperation → CharSet → CharSet → CharSet
  | inter, s, t => CharSet.inter s t
  | diff, s, t => CharSet.diff s t
  | symmDiff, s, t => CharSet.symmDiff s t

/-- The signs of operations. -/
def operationSigns : List (Char × SetOperation) :=
  [('&', .inter), ('-', .diff), ('~', .symmDiff)]

/-- What a bracket holds so far, and the stretch of the pattern that describes it. -/
structure Members where
  set : CharSet := []
  span : Span
  isEmpty : Bool := true
  deriving DecidableEq, Repr, Inhabited

/-- Nothing so far. -/
def Members.none (c : Cursor) : Members := { span := c.here }

/-- One member more, or several. -/
def Members.add (m : Members) (set : CharSet) (span : Span) : Members where
  set := CharSet.union m.set set
  span := ⟨if m.isEmpty then span.start else m.span.start, span.stop⟩
  isEmpty := false

/-- What stands around the members that are being read. -/
inductive Surrounding where
  /-- A bracket inside of a list of members. The stretch is that of its beginning. -/
  | bracket (outside : Members) (beginning : Span) (negated : Bool)
  /-- The left side of an operation. -/
  | operation (sign : SetOperation) (left : Members)
  deriving DecidableEq, Repr, Inhabited

/-- How far a bracket has been read, with those around it; innermost first. -/
structure Brackets where
  cursor : Cursor
  members : Members
  around : List Surrounding
  /-- The first fault in what the pattern means. -/
  fault : Option Fault
  deriving DecidableEq, Repr, Inhabited

namespace Brackets

/-- Keeps the first fault. -/
def note {α : Type} (fault : Option Fault) (found : Except Fault α) (otherwise : α) :
    α × Option Fault :=
  match found with
  | .ok a => (a, fault)
  | .error e => (otherwise, fault <|> some e)

/-- A set in both cases, if that is asked for. Only an empty set is the same in all scripts. -/
def caseless (f : Flags) (span : Span) (set : CharSet) : Except Fault CharSet :=
  if !f.anyCase then .ok set
  else if !f.unicode then .ok (CharSet.foldCase set)
  else if set.isEmpty then .ok set
  else refuse span .caseUnavailable

/-- A set as its bracket says: in both cases, then perhaps all but it. If octets are meant, it must
hold nothing beyond ASCII. -/
def finish (f : Flags) (span : Span) (negated : Bool) (set : CharSet) : Except Fault CharSet := do
  let set ← caseless f span set
  let set := if negated then CharSet.complement (if f.unicode then CharSet.greatest else 0xFF) set
    else set
  if !f.unicode && !CharSet.isAscii set then refuse span .noText else return set

/-- Adds what was found to the members. -/
def add (b : Brackets) (span : Span) (rest : Cursor) (found : Except Fault CharSet) : Brackets :=
  let (set, fault) := note b.fault found []
  { b with members := b.members.add set span, cursor := rest, fault }

/-- Ends the right side of an operation, if there is one: the operation is carried out. -/
def closeOperation (f : Flags) (b : Brackets) : Brackets :=
  match b.around with
  | .operation sign left :: around =>
      let (right, fault) := note b.fault (caseless f b.members.span b.members.set) []
      let (leftSet, fault) := note fault (caseless f left.span left.set) []
      { b with
        members := ⟨sign.apply leftSet right, ⟨left.span.start, b.members.span.stop⟩, false⟩
        around, fault }
  | _ => b

/-- Hyphens at the front of a bracket, which are members. -/
def leadingHyphens (f : Flags) (start : Nat) : (fuel : Nat) → Members → Cursor →
    Except Fault (Members × Cursor)
  | 0, m, c => .ok (m, c)
  | fuel + 1, m, c =>
      if c.char? = some '-' then
        let rest := c.bump f
        if rest.isDone then refuse ⟨start, start⟩ .bracketsUnclosed
        else leadingHyphens f start fuel (m.add (CharSet.single '-') c.ahead) rest
      else .ok (m, c)

/-- Opens the bracket at the front. A circumflex negates it, hyphens in front are members, and so is
a closing bracket in front of which there is nothing. -/
def openBracket (f : Flags) (b : Brackets) : Except Fault Brackets := do
  let start := b.cursor.index
  let unclosed (c : Cursor) : Except Fault Cursor :=
    if c.isDone then refuse (c.since start) .bracketsUnclosed else .ok c
  let c ← unclosed (b.cursor.bump f)
  let negated := c.char? = some '^'
  let c ← if negated then unclosed (c.bump f) else pure c
  let (members, c) ← leadingHyphens f start c.rest.length (.none c) c
  let (members, c) ←
    if members.isEmpty ∧ c.char? = some ']' then do
      let rest ← unclosed (c.bump f)
      pure (members.add (CharSet.single ']') c.ahead, rest)
    else pure (members, c)
  return { b with
    cursor := c, members, around := .bracket b.members (c.since start) negated :: b.around }

/-- Where the innermost open bracket begins. -/
def beginning (b : Brackets) : Span :=
  (b.around.findSome? fun s =>
    match s with
    | .bracket _ span _ => some span
    | .operation .. => none).getD b.cursor.here

/-- A class with a name at the front, as in `[:alpha:]`. -/
def namedClass? (c : Cursor) : Option (CharSet × Bool × Cursor) := do
  let c ← c.strip? ['[', ':']
  let negated := c.char? == some '^'
  let c := if negated then c.next else c
  let name := c.rest.takeWhile (· != ':')
  let set ← CharSet.ofName? (String.ofList name)
  let rest ← (Cursor.mk (c.rest.drop name.length) (c.index + name.length)).strip? [':', ']']
  return (set, negated, rest)

/-- The character, class or escape at the front. -/
def atom (f : Flags) (c : Cursor) : Except Fault (Placed × Cursor) :=
  match c.char? with
  | some '\\' => escape f c
  | some d => .ok (⟨.char d false, c.ahead⟩, c.next)
  | none => refuse c.here .bracketsUnclosed

/-- A range must have characters at its ends. -/
def asChar (p : Placed) : Except Fault (Char × Bool) :=
  match p.atom with
  | .char c octet => .ok (c, octet)
  | _ => refuse p.span .rangeOfNoCharacter

/-- The member at the front: a part by itself, or a range. A hyphen in front of the closing bracket
or of another hyphen makes no range. -/
def member (f : Flags) (b : Brackets) : Except Fault Brackets := do
  let (first, c) ← atom f b.cursor
  let c := c.skip f
  if c.isDone then refuse b.beginning .bracketsUnclosed
  else if c.char? != some '-' || c.peek? f == some ']' || c.peek? f == some '-' then
    match first.atom with
    | .dot | .condition _ => refuse first.span .escapeInBrackets
    | _ => return b.add first.span c (first.set? f)
  else
    let c := c.bump f
    if c.isDone then refuse b.beginning .bracketsUnclosed
    else
      let (last, c) ← atom f c
      let span : Span := ⟨first.span.start, last.span.stop⟩
      let (low, lowOctet) ← asChar first
      let (high, highOctet) ← asChar last
      if high < low then refuse span .rangeBackwards
      else
        return b.add span c do
          let a ← boundary f first.span low lowOctet
          let z ← boundary f last.span high highOctet
          return [(a, z)]

/-- Closes the innermost bracket at the closing bracket at the front. If no other one is open, the
set is complete. -/
def close (f : Flags) (b : Brackets) : Brackets :=
  let b := closeOperation f b
  let rest := b.cursor.next
  match b.around with
  | .bracket outside start negated :: around =>
      let span : Span := ⟨start.start, rest.index⟩
      let (set, fault) := note b.fault (finish f span negated b.members.set) []
      { cursor := rest, members := outside.add set span, around, fault }
  | _ => { b with cursor := rest }

/-- Reads what is at the front, which is not the end of the pattern. -/
def step (f : Flags) (b : Brackets) : Except Fault Brackets :=
  match b.cursor.char? with
  | some '[' =>
      match namedClass? b.cursor with
      | some (set, negated, rest) =>
          let span := rest.since b.cursor.index
          .ok (b.add span rest (finish f span negated set))
      | none => openBracket f b
  | some ']' => .ok (close f b)
  | some d =>
      match operationSigns.find? fun row => row.1 == d && b.cursor.next.char? == some d with
      | some (_, sign) =>
          let b := closeOperation f b
          let rest := b.cursor.next.next
          .ok { b with
            cursor := rest, members := .none rest, around := .operation sign b.members :: b.around }
      | none => member f b
  | none => refuse b.beginning .bracketsUnclosed

/-- Reads on until all brackets are closed. -/
def run (f : Flags) : (fuel : Nat) → Brackets → Except Fault Brackets
  | 0, b => refuse b.beginning .bracketsUnclosed
  | fuel + 1, b =>
      if b.around.isEmpty then .ok b
      else
        let c := b.cursor.skip f
        if c.isDone then refuse b.beginning .bracketsUnclosed
        else do run f fuel (← step f { b with cursor := c })

end Brackets

/-- The set that the bracket at the front describes, what follows it, and the first fault in what is
meant. -/
def brackets (f : Flags) (fault : Option Fault) (c : Cursor) :
    Except Fault (CharSet × Cursor × Option Fault) := do
  let b ← Brackets.openBracket f { cursor := c, members := .none c, around := [], fault }
  let b ← Brackets.run f (c.rest.length + 1) b
  return (b.members.set, b.cursor, b.fault)

end FiberWeave.Regex

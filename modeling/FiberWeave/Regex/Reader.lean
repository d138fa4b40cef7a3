import FiberWeave.Regex.Brackets

/-!
# Reading patterns

* `Reader` — how far a pattern has been read.
* `Regex.Refusal` — why a text is no pattern, with its wording.
* `Regex.ofText` — the pattern that a text describes.

Three kinds of faults are told apart, and an earlier kind wins: the text is malformed, it means
something that cannot be, or its automaton cannot be built.
-/

namespace FiberWeave.Regex

/-- What is kept of the surroundings of a group. Flags that are set inside of it end with it. -/
structure Enclosing where
  /-- Where the group is opened. -/
  opened : Nat
  flags : Flags
  branches : List Regex
  terms : List (Option Regex)
  deriving DecidableEq, Repr, Inhabited

/-- How far a pattern has been read. -/
structure Reader where
  cursor : Cursor
  flags : Flags := {}
  /-- The branches in front of this one, last first. -/
  branches : List Regex := []
  /-- The parts of this branch, last first; a part that only sets flags is none. -/
  terms : List (Option Regex) := []
  /-- The groups around, innermost first. -/
  groups : List Enclosing := []
  /-- The names of groups so far. -/
  names : List (List Char × Span) := []
  /-- The first fault in what the pattern means. -/
  fault : Option Fault := none
  deriving DecidableEq, Repr, Inhabited

namespace Reader

/-- The branch so far. -/
def branch (r : Reader) : Regex := ofList (r.terms.reverse.filterMap id)

/-- All branches so far. -/
def choice (r : Reader) : Regex := anyOf (r.branch :: r.branches).reverse

/-- Adds a part to the branch. -/
def push (r : Reader) (rest : Cursor) (term : Option Regex) : Reader :=
  { r with cursor := rest, terms := term :: r.terms }

/-- Adds what was found to the branch, or keeps the fault. -/
def pushFound (r : Reader) (rest : Cursor) (found : Except Fault Regex) : Reader :=
  let (term, fault) := Brackets.note r.fault found empty
  { r with cursor := rest, terms := some term :: r.terms, fault }

/-! ## Groups -/

/-- Opens a group whose inside begins at `rest`. -/
def openGroup (r : Reader) (flags : Flags) (rest : Cursor) : Reader :=
  { r with
    cursor := rest, flags, branches := [], terms := []
    groups := ⟨r.cursor.index, r.flags, r.branches, r.terms⟩ :: r.groups }

/-- Whether a character may stand in the name of a group, at its front or later. -/
def isNameChar (atFront : Bool) (c : Char) : Bool :=
  c = '_' || c.isAlpha || 0x80 ≤ c.toNat
    || !atFront && (c.isDigit || c = '.' || c = '[' || c = ']')

/-- The name of a group up to its angle bracket, and what follows. -/
def groupName (r : Reader) (c : Cursor) : Except Fault (Reader × Cursor) :=
  let name := c.rest.takeWhile (· != '>')
  let valid := name.zipIdx.takeWhile fun (d, n) => isNameChar (n = 0) d
  let after : Cursor := ⟨c.rest.drop valid.length, c.index + valid.length⟩
  let span := after.since c.index
  if after.isDone then refuse after.here .nameCutOff
  else if valid.length < name.length then refuse after.ahead .nameCharacter
  else if name.isEmpty then refuse span .nameEmpty
  else
    match r.names.find? fun known => known.1 == name with
    | some (_, first) => .error { span, mistake := .nameTwice, first := some first }
    | none => .ok ({ r with names := (name, span) :: r.names }, after.next)

/-- The beginnings of groups that look around. -/
def lookAroundMarks : List (List Char) := [['?', '='], ['?', '!'], ['?', '<', '='], ['?', '<', '!']]

/-- Reads what an opening parenthesis begins: a group, a group with a name, or flags. -/
def group (r : Reader) : Except Fault Reader :=
  let start := r.cursor.index
  let c := r.cursor.bump r.flags
  match lookAroundMarks.findSome? c.strip? with
  | some after => refuse (after.since start) .lookAround
  | none =>
      match c.strip? ['?', 'P', '<'] <|> c.strip? ['?', '<'] with
      | some inside => do
          let (named, rest) ← groupName r inside
          return named.openGroup r.flags rest
      | none =>
          match c.strip? ['?'] with
          | none => .ok (r.openGroup r.flags c)
          | some inside =>
              if inside.isDone then refuse r.cursor.ahead .groupUnclosed
              else do
                let (items, after) ← flagItems [] (inside.rest.length + 1) inside
                let flags := r.flags.update (items.map (·.1))
                if after.char? = some ':' then return r.openGroup flags after.next
                else if items.isEmpty then refuse c.here .nothingRepeated
                else return ({ r with flags }).push after.next none

/-- Closes the innermost group. -/
def closeGroup (r : Reader) : Except Fault Reader :=
  match r.groups with
  | [] => refuse r.cursor.ahead .groupUnopened
  | g :: groups =>
      .ok { r with
        cursor := r.cursor.next, flags := g.flags, branches := g.branches
        terms := some r.choice :: g.terms, groups }

/-! ## Repetition -/

/-- The part in front, which is to be repeated, and the parts before it. -/
def repeatable (r : Reader) : Except Fault (Regex × List (Option Regex)) :=
  match r.terms with
  | some body :: terms => .ok (body, terms)
  | _ => refuse r.cursor.here .nothingRepeated

/-- Behind a question mark, if there is one: which of several stretches is meant does not matter. -/
def skipLazy (c : Cursor) : Cursor := if c.char? = some '?' then c.next else c

/-- Repeats the part in front as a sign says. -/
def repeatBySign (r : Reader) (least : Nat) (most : Option Nat) : Except Fault Reader := do
  let (body, terms) ← r.repeatable
  return { r with
    cursor := skipLazy r.cursor.next, terms := some (repeated body least most) :: terms }

/-- The counts after an opening brace, and the cursor at what follows them. -/
def counts (f : Flags) (start : Nat) (c : Cursor) :
    Except Fault ((Nat × Option Nat) × Cursor) := do
  let unclosed (c : Cursor) : Except Fault Cursor :=
    if c.isDone then refuse (c.since start) .countUnclosed else .ok c
  let c ← unclosed (c.bump f)
  let (least, c) := c.number f
  let c ← unclosed c
  if c.char? = some ',' then
    let c ← unclosed (c.bump f)
    if c.char? = some '\x7d' then return ((← least, none), c)
    else
      let least ← least
      let (most, c) := c.number f
      return ((least, some (← most)), c)
  else
    let least ← least
    return ((least, some least), c)

/-- Repeats the part in front as often as the braces at the front say. -/
def repeatByCount (r : Reader) : Except Fault Reader := do
  let start := r.cursor.index
  let (body, terms) ← r.repeatable
  let ((least, most), c) ← counts r.flags start r.cursor
  if c.char? != some '\x7d' then refuse (c.since start) .countUnclosed
  else
    let rest := skipLazy (c.bump r.flags)
    if most.any (· < least) then refuse (rest.since start) .countBackwards
    else return { r with cursor := rest, terms := some (repeated body least most) :: terms }

/-! ## All of it -/

/-- The part at the front that is no group, no bracket and no repetition. -/
def atom (r : Reader) (d : Char) : Except Fault Reader :=
  let c := r.cursor
  let single (a : Atom) : Except Fault Reader :=
    .ok (r.pushFound c.next ((Placed.mk a c.ahead).regex? r.flags))
  match d with
  | '\\' => do
      let (placed, rest) ← escape r.flags c
      return r.pushFound rest (placed.regex? r.flags)
  | '.' => single .dot
  | '^' => single (.condition .lineStart)
  | '$' => single (.condition .lineEnd)
  | _ => single (.char d false)

/-- Reads the part at the front. -/
def step (r : Reader) (d : Char) : Except Fault Reader :=
  match d with
  | '(' => r.group
  | ')' => r.closeGroup
  | '|' => .ok { r with cursor := r.cursor.next, branches := r.branch :: r.branches, terms := [] }
  | '[' => do
      let (set, rest, fault) ← brackets r.flags r.fault r.cursor
      return { r with cursor := rest, terms := some (one set) :: r.terms, fault }
  | '?' => r.repeatBySign 0 (some 1)
  | '*' => r.repeatBySign 0 none
  | '+' => r.repeatBySign 1 none
  | '\x7b' => r.repeatByCount
  | _ => r.atom d

/-- Reads on to the end of the pattern, where no group may be open. Every step takes a character. -/
def run : (fuel : Nat) → Reader → Except Fault Reader
  | 0, r => .ok r
  | fuel + 1, r =>
      let c := r.cursor.skip r.flags
      match c.char? with
      | none =>
          match r.groups with
          | [] => .ok r
          | g :: _ => refuse ⟨g.opened, g.opened + 1⟩ .groupUnclosed
      | some d => do run fuel (← ({ r with cursor := c }).step d)

end Reader

/-- Why a text is no pattern. -/
inductive Refusal where
  | fault (pattern : String) (cause : Fault)
  /-- The automaton has more octets than is allowed. -/
  | tooLarge
  /-- The automaton needs a table of the letters of all scripts. -/
  | notBuilt
  deriving DecidableEq, Repr, Inhabited

/-- The octets that an automaton may have. -/
def weightLimit : Nat := 10485760

/-- The wording of a refusal. -/
def Refusal.message : Refusal → String
  | fault pattern cause => cause.message pattern.toList
  | tooLarge => s!"Compiled regex exceeds size limit of {weightLimit} bytes."
  | notBuilt => "error building NFA"

/-- The pattern that a text describes. -/
def ofText (text : String) : Except Refusal Regex :=
  let cs := text.toList
  match Reader.run (cs.length + 1) { cursor := ⟨cs, 0⟩ } with
  | .error cause => .error (.fault text cause)
  | .ok r =>
      match r.fault with
      | some cause => .error (.fault text cause)
      | none =>
          let pattern := r.choice
          if weightLimit < pattern.weight then .error .tooLarge
          else if pattern.needsScripts then .error .notBuilt
          else .ok pattern

end FiberWeave.Regex

import FiberWeave.Bytes
import FiberWeave.Log
import FiberWeave.Text.Utf8

/-!
# Messages on a terminal

A message may hold sequences that control a terminal: colours, titles, movements of the cursor.
Where messages are kept in a file they would be noise, so that they are left out, and control
characters with them, except for those that are white space.

* `Terminal.State`, `Terminal.State.after` — where in a sequence an octet stands.
* `Terminal.plain` — a text without sequences.
* `Remark.terminalText` — a message as it is shown: its level and its text.
-/

namespace FiberWeave

namespace Terminal

/-- Where in a sequence an octet stands. -/
inductive State where
  | ground
  | escape
  | escapeIntermediate
  | csiEntry
  | csiParam
  | csiIntermediate
  | csiIgnore
  | dcsEntry
  | dcsParam
  | dcsIntermediate
  | dcsIgnore
  | dcsData
  | title
  /-- A string for the terminal that ends with a sequence of its own. -/
  | hiddenString
  deriving DecidableEq, Repr, Inhabited

/-- Whether a number is in a range. -/
def inRange (low high n : Nat) : Bool := low ≤ n && n ≤ high

namespace State

/-- What an octet begins that follows an escape character. -/
def afterEscape (n : Nat) : State :=
  if inRange 0x20 0x2F n then escapeIntermediate
  else if n = 0x50 then dcsEntry
  else if n = 0x5B then csiEntry
  else if n = 0x5D then title
  else if n = 0x58 || n = 0x5E || n = 0x5F then hiddenString
  else if inRange 0x30 0x7E n then ground
  else escape

/-- The state after an octet. -/
def after (s : State) (b : UInt8) : State :=
  let n := b.toNat
  if n = 0x18 || n = 0x1A then ground
  else if n = 0x1B then escape
  else
    match s with
    | ground => ground
    | escape => afterEscape n
    | escapeIntermediate => if inRange 0x30 0x7E n then ground else s
    | csiEntry =>
        if inRange 0x20 0x2F n then csiIntermediate
        else if inRange 0x30 0x3F n then csiParam
        else if inRange 0x40 0x7E n then ground
        else s
    | csiParam =>
        if inRange 0x20 0x2F n then csiIntermediate
        else if inRange 0x3C 0x3F n then csiIgnore
        else if inRange 0x40 0x7E n then ground
        else s
    | csiIntermediate =>
        if inRange 0x30 0x3F n then csiIgnore
        else if inRange 0x40 0x7E n then ground
        else s
    | csiIgnore => if inRange 0x40 0x7E n then ground else s
    | dcsEntry =>
        if inRange 0x20 0x2F n then dcsIntermediate
        else if inRange 0x30 0x3F n then dcsParam
        else if inRange 0x40 0x7E n then dcsData
        else s
    | dcsParam =>
        if inRange 0x20 0x2F n then dcsIntermediate
        else if inRange 0x3C 0x3F n then dcsIgnore
        else if inRange 0x40 0x7E n then dcsData
        else s
    | dcsIntermediate =>
        if inRange 0x30 0x3F n then dcsIgnore
        else if inRange 0x40 0x7E n then dcsData
        else s
    | dcsIgnore => if n = 0x9C then ground else s
    | dcsData => if n = 0x9C then ground else s
    | title => if n = 0x07 then ground else s
    | hiddenString => if n = 0x9C then ground else s

/-- Whether control characters have their effect although they stand inside a sequence. -/
def obeysControls : State → Bool
  | ground | escape | escapeIntermediate => true
  | csiEntry | csiParam | csiIntermediate | csiIgnore => true
  | _ => false

end State

/-- Whether an octet is a control character that is white space. -/
def isBlankControl (b : UInt8) : Bool := b == 0x09 || b == 0x0A || b == 0x0C || b == 0x0D

/-- Whether an octet is shown where no sequence is open: white space, printing ASCII, and what begins
a character beyond ASCII. -/
def isShown (b : UInt8) : Bool :=
  isBlankControl b || inRange 0x20 0x7E b.toNat || inRange 0xC2 0xF4 b.toNat

/-- How far a text has been gone through. White space inside a sequence is shown, and what follows it
as well; `state` keeps the sequence, which goes on with the next control character. -/
structure Scan where
  state : State := .ground
  isShowing : Bool := true
  /-- The octets of a character that are still to come. -/
  due : Nat := 0
  /-- What is shown, last octet first. -/
  shown : Bytes := []
  deriving DecidableEq, Repr, Inhabited

namespace Scan

/-- Shows an octet that is shown where no sequence is open. A character beyond ASCII ends what was
open before. -/
def reveal (s : Scan) (b : UInt8) : Scan :=
  let due := Text.Utf8.width b - 1
  { s with
    isShowing := true, due, shown := b :: s.shown
    state := if due = 0 then s.state else .ground }

/-- Takes an octet inside a sequence. -/
def hide (s : Scan) (b : UInt8) : Scan := { s with isShowing := false, state := s.state.after b }

/-- Whether an octet inside a sequence makes that all is shown again. -/
def resumes (s : Scan) (b : UInt8) : Bool :=
  if s.state = .ground then isShown b else s.state.obeysControls && isBlankControl b

/-- Takes an octet. -/
def step (s : Scan) (b : UInt8) : Scan :=
  if 0 < s.due then { s with due := s.due - 1, shown := b :: s.shown }
  else if s.isShowing then if isShown b then s.reveal b else s.hide b
  else if s.resumes b then s.reveal b
  else s.hide b

end Scan

/-- A text without the sequences that control a terminal. -/
def plain (text : String) : String :=
  let scan := (Bytes.ofText text).foldl Scan.step {}
  String.ofList (Text.Utf8.decodeLossy scan.shown.reverse)

end Terminal

/-- A message as it is shown: its level and its text, without sequences that control a terminal.
Further lines are indented. -/
def Remark.terminalText (r : Remark) : String :=
  let lines := (Text.splitOn '\n' r.text.toList).map String.ofList
  Terminal.plain (r.level.terminalName ++ " " ++ "\n    ".intercalate lines ++ "\n")

end FiberWeave

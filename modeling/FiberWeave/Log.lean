import FiberWeave.Text.Blank
import FiberWeave.Text.Cut
import FiberWeave.Text.Lines

/-!
# Messages

Whatever the program has to say has one of four levels. An external engine writes its messages as
lines that begin with the name of a level; they are read back here.

* `Level`, `Remark` — a message with its level.
* `Remark.parseLine` — the level and text of a line that an engine wrote.
* `Remark.ofText` — the messages in all that an engine wrote.
* `Remark.chain`, `Remark.ofError` — an error with its causes in one line, and the message of one.
-/

namespace FiberWeave

/-- How much a message matters, from least to most. -/
inductive Level where
  | debug
  | info
  | warning
  | error
  deriving DecidableEq, Repr, Inhabited, Ord

namespace Level

/-- The name of a level. -/
def name : Level → String
  | debug => "DEBUG"
  | info => "INFO"
  | warning => "WARNING"
  | error => "ERROR"

/-- The name of a level on a terminal, where warnings have a shorter one. -/
def terminalName : Level → String
  | warning => "WARN"
  | level => level.name

/-- The place of a level in their order. -/
def rank : Level → Nat
  | debug => 0
  | info => 1
  | warning => 2
  | error => 3

/-- The beginnings of lines that state a level. -/
def markers : List (String × Level) :=
  [("DEBUG:", debug), ("INFO:", info), ("WARNING:", warning), ("WARN:", warning),
    ("ERROR:", error)]

end Level

/-- A message. -/
structure Remark where
  level : Level
  text : String
  /-- Whether the message is meant for a terminal alone, and is not kept for a caller. -/
  terminalOnly : Bool := false
  deriving DecidableEq, Repr, Inhabited

namespace Remark

/-- The level of a line and its text. A line that states no level is a debug message as it
stands. -/
def parseLine (line : List Char) : Level × List Char :=
  let stated := Level.markers.findSome? fun (marker, level) =>
    (Text.stripStart? marker.toList line).map fun rest => (level, Text.trimStart rest)
  stated.getD (.debug, line)

/-- The messages in the lines of a text. Blank lines are none. -/
def ofText (text : List Char) : List Remark :=
  ((Text.lines text).filter fun line => !Text.isBlankText line).map fun line =>
    let (level, message) := parseLine line
    { level, text := String.ofList message }

/-- An error and its causes, outermost first, in one line. -/
def chain (messages : List String) : String := ": ".intercalate messages

/-- The message of an error with its causes. -/
def ofError (message : String) (causes : List String) : Remark :=
  { level := .error, text := message ++ ": " ++ chain causes }

/-- Whether a list of messages has one of the given level that contains a text. -/
def contains (remarks : List Remark) (level : Level) (needle : String) : Bool :=
  remarks.any fun r => r.level == level && Text.occursIn needle.toList r.text.toList

end Remark

end FiberWeave

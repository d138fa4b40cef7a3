import FiberWeave.Log
import FiberWeave.Regex.Reader

/-!
# Which messages are shown

A user may say which messages are shown on the terminal, from which level on and from which part of
the program. All messages of this program come from one part.

* `LogFilter` — a threshold for each part of the program, and a pattern that must occur in messages.
* `LogFilter.parse` — a filter as users write it, and warnings about what is wrong with it.
* `LogFilter.shows` — whether a message is shown.
-/

namespace FiberWeave

/-- The least level that is shown, if any is. -/
abbrev Threshold := Option Level

/-- The threshold for the parts of the program whose names begin with `target`, or for all. -/
structure Directive where
  target : Option String
  threshold : Threshold
  deriving DecidableEq, Repr, Inhabited

namespace Directive

/-- The part of the program that all messages come from. -/
def source : String := "fiber_instrument"

/-- The length of a target, which says how special a directive is. -/
def weight (d : Directive) : Nat := (d.target.map String.utf8ByteSize).getD 0

/-- Whether a directive is about the messages of this program. -/
def applies (d : Directive) : Bool :=
  match d.target with
  | some target => target.toList.isPrefixOf source.toList
  | none => true

end Directive

/-- Which messages are shown. -/
structure LogFilter where
  directives : List Directive
  /-- A pattern that must occur in a message. -/
  pattern : Option Regex := none
  deriving DecidableEq, Repr, Inhabited

namespace LogFilter

/-- Shows messages from a level on. -/
def atLeast (level : Level) : LogFilter := ⟨[⟨none, some level⟩], none⟩

/-! ## Reading -/

/-- The names of thresholds. There is no level below that of debug messages, so that the last two
are the same. -/
def thresholds : List (String × Threshold) :=
  [("off", none), ("error", some .error), ("warn", some .warning), ("info", some .info),
    ("debug", some .debug), ("trace", some .debug)]

/-- The threshold of a name, in capitals or not. -/
def threshold? (name : List Char) : Option Threshold :=
  (thresholds.find? fun row => row.1.toList == name.map Char.toLower).map (·.2)

/-- What is wrong with a filter. -/
inductive Warning where
  | tooManySlashes (text : String)
  | invalidPart (text : String)
  | invalidPattern (cause : Regex.Refusal)
  deriving DecidableEq, Repr, Inhabited

/-- The wording of a warning. -/
def Warning.message : Warning → String
  | tooManySlashes text => "warning: invalid logging spec '" ++ text
      ++ "' (too many '/'s), ignoring it"
  | invalidPart text => "warning: invalid logging spec '" ++ text ++ "', ignoring it"
  | invalidPattern cause =>
      "warning: invalid regex filter - " ++ cause.message ++ ", ignoring it"

/-- A part of a filter: a threshold for all, a target that is shown whole, or a target and its
threshold. -/
def readDirective (part : List Char) : Except Warning Directive :=
  match Text.splitOn '=' part with
  | [text] =>
      match threshold? text with
      | some threshold => .ok ⟨none, threshold⟩
      | none => .ok ⟨some (String.ofList text), some .debug⟩
  | [target, text] =>
      let text := Text.trim text
      match text, threshold? text with
      | [], _ => .ok ⟨some (String.ofList target), some .debug⟩
      | _, some threshold => .ok ⟨some (String.ofList target), threshold⟩
      | _, none => .error (.invalidPart (String.ofList text))
  | _ => .error (.invalidPart (String.ofList part))

/-- Adds a directive, in the place of the one for the same target. -/
def insert (d : Directive) : List Directive → List Directive
  | [] => [d]
  | other :: rest => if other.target = d.target then d :: rest else other :: insert d rest

/-- Adds the directive of a part to a filter, or a warning. -/
def addPart (found : List Directive × List Warning) (part : List Char) :
    List Directive × List Warning :=
  match readDirective part with
  | .ok d => (insert d found.1, found.2)
  | .error w => (found.1, found.2 ++ [w])

/-- The pattern after the slash of a filter, or a warning. -/
def readPattern (text : Option (List Char)) : Option Regex × List Warning :=
  match text with
  | none => (none, [])
  | some text =>
      match Regex.ofText (String.ofList text) with
      | .ok pattern => (some pattern, [])
      | .error cause => (none, [.invalidPattern cause])

/-- A filter as users write it: parts with commas between them, then perhaps a slash and a pattern
that must occur in messages. Without any part, only errors are shown. -/
def parse (text : String) : LogFilter × List Warning :=
  match Text.splitOn '/' text.toList with
  | parts :: pattern =>
      if 1 < pattern.length then (atLeast .error, [.tooManySlashes text])
      else
        let parts := ((Text.splitOn ',' parts).map Text.trim).filter fun part => !part.isEmpty
        let (directives, warnings) := parts.foldl addPart ([], [])
        let directives := if directives.isEmpty then (atLeast .error).directives else directives
        let (pattern, more) := readPattern pattern.head?
        (⟨directives, pattern⟩, warnings ++ more)
  | [] => (atLeast .error, [])

/-! ## Showing -/

/-- The threshold for the messages of this program: that of the longest target, and the last one of
several of one length. -/
def threshold (f : LogFilter) : Threshold :=
  let bySize := f.directives.mergeSort fun a b => a.weight ≤ b.weight
  (bySize.reverse.find? Directive.applies).bind (·.threshold)

/-- Whether a message is shown. -/
def shows (f : LogFilter) (r : Remark) : Bool :=
  (f.threshold.any fun least => least.rank ≤ r.level.rank)
    && f.pattern.all fun pattern => pattern.occursIn r.text.toList

end LogFilter

end FiberWeave

import FiberWeave.Database
import FiberWeave.Digest
import FiberWeave.Json.Value

/-!
# Reports

What a run did, or what a classification found, for a user or for another program.

* `Outcome`, `RunReport` — what was done with each class of the work list.
* `ClassificationReport` — what is to be done with each class.
* `toText`, `toJson` — the two forms of each report.
-/

namespace FiberWeave

open Json (Value)

/-! ## Runs -/

/-- What was done with a class of the work list. -/
inductive Outcome where
  /-- Rewritten, with the digests of the file before and after. -/
  | rewritten (before after : String)
  /-- Not included. -/
  | excluded
  /-- Never to be rewritten. -/
  | skipped
  /-- Not rewritten, which does no harm. -/
  | toleratedFailure (reason : String)
  deriving DecidableEq, Repr, Inhabited

namespace Outcome

/-- The fields of an outcome. -/
def fields : Outcome → List (String × Value)
  | rewritten before after =>
      [("outcome", .text "rewritten"), ("before", .text before), ("after", .text after)]
  | excluded => [("outcome", .text "excluded")]
  | skipped => [("outcome", .text "skipped")]
  | toleratedFailure reason =>
      [("outcome", .text "tolerated_failure"), ("reason", .text reason)]

/-- The characters that take up exactly `octets` octets at the front of a text. -/
def frontOf : (octets : Nat) → List Char → Option (List Char)
  | 0, _ => some []
  | _ + 1, [] => none
  | octets + 1, c :: rest =>
      if c.utf8Size ≤ octets + 1 then (frontOf (octets + 1 - c.utf8Size) rest).map (c :: ·)
      else none

/-- The first twelve octets of a digest, or all of a text that cannot be cut there. -/
def shortDigest (digest : String) : String :=
  match frontOf 12 digest.toList with
  | some front => String.ofList front
  | none => digest

/-- An outcome in words. -/
def text : Outcome → String
  | rewritten _ after => "rewritten (" ++ shortDigest after ++ ")"
  | excluded => "excluded"
  | skipped => "skipped"
  | toleratedFailure reason => "not instrumented: " ++ reason

/-- An outcome as JSON. -/
def toJson (o : Outcome) : Value := .object o.fields

end Outcome

/-- What was done with a class. -/
structure ClassOutcome where
  className : String
  path : String
  outcome : Outcome
  deriving DecidableEq, Repr, Inhabited

/-- What a run did. -/
structure RunReport where
  buildDirectory : String
  scannedClasses : Nat
  classifiedClasses : Nat
  workList : List String
  rewritten : Nat := 0
  excluded : Nat := 0
  toleratedFailures : Nat := 0
  durationMs : Nat := 0
  classes : List ClassOutcome := []
  deriving DecidableEq, Repr, Inhabited

namespace RunReport

/-- The report of a run that has not rewritten anything yet. -/
def start (buildDirectory : String) (db : Database) (workList : List String) : RunReport where
  buildDirectory
  scannedClasses := db.scanned
  classifiedClasses := db.size
  workList

/-- Counts an outcome. -/
def count (r : RunReport) : Outcome → RunReport
  | .rewritten .. => { r with rewritten := r.rewritten + 1 }
  | .excluded | .skipped => { r with excluded := r.excluded + 1 }
  | .toleratedFailure _ => { r with toleratedFailures := r.toleratedFailures + 1 }

/-- Adds what was done with a class. -/
def push (r : RunReport) (className path : String) (outcome : Outcome) : RunReport :=
  let r := r.count outcome
  { r with classes := r.classes ++ [⟨className, path, outcome⟩] }

/-- A report in words. -/
def toText (r : RunReport) : String :=
  s!"build_directory: {r.buildDirectory}\n"
    ++ s!"scanned_classes: {r.scannedClasses}\n"
    ++ s!"classified_classes: {r.classifiedClasses}\n"
    ++ s!"work_list: {r.workList.length}\n"
    ++ s!"rewritten: {r.rewritten}\n"
    ++ s!"excluded: {r.excluded}\n"
    ++ s!"tolerated_failures: {r.toleratedFailures}\n"
    ++ s!"duration_ms: {r.durationMs}\n"
    ++ String.join (r.classes.map fun c => "- " ++ c.className ++ ": " ++ c.outcome.text ++ "\n")

/-- A report as JSON. -/
def toJson (r : RunReport) : Value :=
  .object [("build_directory", .text r.buildDirectory),
    ("scanned_classes", .number r.scannedClasses),
    ("classified_classes", .number r.classifiedClasses),
    ("work_list", .texts r.workList),
    ("rewritten", .number r.rewritten),
    ("excluded", .number r.excluded),
    ("tolerated_failures", .number r.toleratedFailures),
    ("duration_ms", .number r.durationMs),
    ("classes", .array (r.classes.map fun c =>
      .object ([("class_name", .text c.className), ("path", .text c.path)] ++ c.outcome.fields)))]

end RunReport

/-! ## Classifications -/

/-- A call as JSON. -/
def CallPoint.toJson (p : CallPoint) : Value :=
  .object [("method", .text p.method), ("target", .text p.target), ("offset", .number p.offset)]

/-- What is to be done with a class. -/
structure ClassSummary where
  className : String
  path : String
  classification : Classification
  suspendableMethods : List String
  suspendPoints : List CallPoint
  deriving DecidableEq, Repr, Inhabited

/-- The summary of an entry. -/
def ClassEntry.summary (e : ClassEntry) : ClassSummary :=
  ⟨e.name, e.file.path, e.classification, e.suspendableMethods, e.suspendPoints⟩

/-- What a classification found. -/
structure ClassificationReport where
  buildDirectory : String
  scannedClasses : Nat
  classifiedClasses : Nat
  workList : List String
  classes : List ClassSummary
  deriving DecidableEq, Repr, Inhabited

namespace ClassificationReport

/-- The report of a database. -/
def ofDatabase (buildDirectory : String) (db : Database) : ClassificationReport where
  buildDirectory
  scannedClasses := db.scanned
  classifiedClasses := db.size
  workList := db.workList.map (·.name)
  classes := db.entries.map (·.summary)

/-- A report in words. -/
def toText (r : ClassificationReport) : String :=
  s!"build_directory: {r.buildDirectory}\n"
    ++ s!"scanned_classes: {r.scannedClasses}\n"
    ++ s!"classified_classes: {r.classifiedClasses}\n"
    ++ s!"work_list: {r.workList.length}\n"
    ++ String.join (r.workList.map fun name => "- " ++ name ++ "\n")

/-- A report as JSON. -/
def toJson (r : ClassificationReport) : Value :=
  .object [("build_directory", .text r.buildDirectory),
    ("scanned_classes", .number r.scannedClasses),
    ("classified_classes", .number r.classifiedClasses),
    ("work_list", .texts r.workList),
    ("classes", .array (r.classes.map fun c =>
      .object [("class_name", .text c.className), ("path", .text c.path),
        ("classification", .text c.classification.tag),
        ("suspendable_methods", .texts c.suspendableMethods),
        ("suspend_points", .array (c.suspendPoints.map (·.toJson)))]))]

end ClassificationReport

end FiberWeave

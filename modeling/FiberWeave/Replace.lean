import FiberWeave.FileTree.Change

/-!
# Replacing a file

A file is replaced through a temporary file beside it, so that at no time anybody sees half of it:
the temporary file is made, filled, flushed to disk, given the mode of the old file, and moved over
it. Any of these steps may fail; then the temporary file is removed again.

* `Replace.Faults` — the steps that are made to fail, none by default, and how the file is filled.
* `Replace.Replacement` — how a replacement went, with the tree after each step.
* `replaceFile` — the whole replacement.
-/

namespace FiberWeave

namespace Replace

/-- The number of names that are tried for a temporary file. -/
def attempts : Nat := 64

/-- A temporary name beside a path. -/
def temporaryName (path : String) (processId attempt : Nat) : String :=
  path ++ s!".{processId}.{attempt}.tmp"

/-- The steps that are made to fail, and the pieces in which octets are written. -/
structure Faults where
  inspect : Option OsError := none
  /-- By the number of the attempt. -/
  create : Nat → Option OsError := fun _ => none
  /-- How many octets the temporary file holds after each write but the last one. -/
  pieces : List Nat := []
  /-- After this many octets. -/
  write : Option (Nat × OsError) := none
  flush : Option OsError := none
  setMode : Option OsError := none
  rename : Option OsError := none
  remove : Option OsError := none

/-- How a replacement went, and the tree after each step, in order. -/
structure Replacement where
  result : Except OsError Unit
  trees : List FileTree

/-- The tree after the last step of a replacement that began with `t`. -/
def Replacement.final (r : Replacement) (t : FileTree) : FileTree := r.trees.getLast?.getD t

/-- The mode of what a path leads to. -/
def inspect (faults : Faults) (t : FileTree) (path : String) : Except OsError Nat :=
  match faults.inspect with
  | some e => .error e
  | none => t.modeAt path

/-- One attempt to make a temporary file. -/
def tryCreate (faults : Faults) (processId : Nat) (t : FileTree) (path : String) (attempt : Nat) :
    Except OsError (Location × FileTree) :=
  match faults.create attempt with
  | some e => .error e
  | none => t.createNew (temporaryName path processId attempt)

/-- Makes a temporary file beside a path under the first name that is free. -/
def createBeside (faults : Faults) (processId : Nat) (t : FileTree) (path : String)
    (attempt : Nat) : (left : Nat) → Except OsError (Location × FileTree)
  | 0 => .error (.noTemporaryName path)
  | left + 1 =>
      match tryCreate faults processId t path attempt with
      | .error .alreadyExists => createBeside faults processId t path (attempt + 1) left
      | outcome => outcome

/-- Ends a replacement that failed after some steps: the temporary file is removed. -/
def giveUp (faults : Faults) (temporary : Location) (trees : List FileTree) (t : FileTree)
    (cause : OsError) : Replacement :=
  match faults.remove with
  | some _ => ⟨.error cause, trees ++ [t]⟩
  | none => ⟨.error cause, trees ++ [t.remove temporary]⟩

/-- Fills the temporary file and moves it over the path. -/
def fill (faults : Faults) (path : String) (bytes : Bytes) (mode : Nat) (temporary : Location)
    (created : FileTree) : Replacement :=
  let begun := created :: faults.pieces.map fun count =>
    created.setContent temporary (bytes.take count)
  match faults.write with
  | some (count, e) =>
      let partly := created.setContent temporary (bytes.take count)
      giveUp faults temporary (begun ++ [partly]) partly e
  | none =>
      let written := created.setContent temporary bytes
      match faults.flush with
      | some e => giveUp faults temporary (begun ++ [written]) written e
      | none =>
          match faults.setMode with
          | some e => giveUp faults temporary (begun ++ [written]) written e
          | none =>
              let ready := written.setMode temporary mode
              match faults.rename, ready.rename temporary path with
              | some e, _ => giveUp faults temporary (begun ++ [written, ready]) ready e
              | none, .error e => giveUp faults temporary (begun ++ [written, ready]) ready e
              | none, .ok replaced => ⟨.ok (), begun ++ [written, ready, replaced]⟩

/-- The whole replacement, step by step. -/
def run (faults : Faults) (processId : Nat) (t : FileTree) (path : String) (bytes : Bytes) :
    Replacement :=
  match inspect faults t path with
  | .error e => ⟨.error e, []⟩
  | .ok mode =>
      match createBeside faults processId t path 0 attempts with
      | .error e => ⟨.error e, []⟩
      | .ok (temporary, created) => fill faults path bytes mode temporary created

end Replace

/-- Replaces what a path leads to by a file with the given bytes and the old mode. -/
def replaceFile (faults : Replace.Faults) (processId : Nat) (t : FileTree) (path : String)
    (bytes : Bytes) : Except OsError Unit × FileTree :=
  let r := Replace.run faults processId t path bytes
  (r.result, r.final t)

end FiberWeave

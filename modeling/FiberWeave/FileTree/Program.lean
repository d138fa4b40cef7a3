import FiberWeave.FileTree.Walk
import FiberWeave.Text.Utf8

/-!
# Starting programs

A file that begins with `#!` is a script: its first line names the program that runs it, and perhaps
one argument. That program gets the argument and the path of the script in front of the arguments
of the script. It may be a script itself.

* `ScriptLine.of?` — the program and argument that a script names.
* `FileTree.start` — the arguments that one known program gets in the end, or why a start fails.
-/

namespace FiberWeave

/-- The program that runs a script, and an argument for it. -/
structure ScriptLine where
  program : String
  argument : Option String
  deriving DecidableEq, Repr, Inhabited

namespace ScriptLine

/-- The number of octets of a script that are looked at. -/
def window : Nat := 256

/-- Whether an octet separates the words of the line. -/
def isGap (b : UInt8) : Bool := b == 0x20 || b == 0x09

/-- Octets without the gaps at their end. -/
def trimEnd (bs : Bytes) : Bytes := (bs.reverse.dropWhile isGap).reverse

/-- The first line behind the mark, where `seen` is what can be seen of the script there, with zeros
after its end. If no line ends there, the name of the program at least must. -/
def line? (seen : Bytes) : Option Bytes :=
  let text := seen.takeWhile (· != 0)
  if text.contains 0x0A then some (trimEnd (text.takeWhile (· != 0x0A)))
  else
    let words := seen.dropWhile isGap
    if words.any fun b => isGap b || b == 0 then some (trimEnd seen.dropLast) else none

/-- The text of octets up to the first zero, as far as it is text. -/
def word (bs : Bytes) : String := String.ofList (Text.Utf8.decodeLossy (bs.takeWhile (· != 0)))

/-- The program and the argument on a line. -/
def ofLine? (line : Bytes) : Option ScriptLine :=
  match line.dropWhile isGap with
  | [] => none
  | words =>
      let isEnd (b : UInt8) : Bool := isGap b || b == 0
      let name := words.takeWhile fun b => !isEnd b
      let rest := words.drop name.length
      let argument := if (rest.head?.any isGap) then some (word (rest.dropWhile isGap)) else none
      some ⟨word name, argument⟩

/-- The program and the argument that a script names. Other files name none. -/
def of? (data : Bytes) : Option ScriptLine :=
  match data with
  | 0x23 :: 0x21 :: rest =>
      let seen := rest.take (window - 2)
      (line? (seen ++ List.replicate (window - 2 - seen.length) 0)).bind ofLine?
  | _ => none

end ScriptLine

namespace FileTree

/-- The number of files that a start may lead through. -/
def scriptLimit : Nat := 6

/-- Where the path of a program leads; an empty one leads to the working directory. -/
def programAt (t : FileTree) (path : String) : Except OsError Location :=
  if path.isEmpty then .ok t.workingDirectory else t.resolve path

/-- The arguments that the program at `known` gets if the file at a path is started, or why that
fails. No other file is a program, but it may be a script. -/
def startAt (t : FileTree) (known : Option Location) : (files : Nat) → (path : String) →
    (arguments : List String) → Except OsError (List String)
  | files, path, arguments => do
      let loc ← t.programAt path
      match t.get? loc with
      | some (.file content mode) =>
          if !Entry.mayRun mode then throw .permissionDenied
          match files with
          | 0 => throw .tooManyLinks
          | files + 1 =>
              if known = some loc then return arguments
              else
                match ScriptLine.of? content.toBytes with
                | none => throw .execFormat
                | some line =>
                    startAt t known files line.program
                      (line.argument.toList ++ path :: arguments)
      | some .directory => throw .permissionDenied
      | _ => throw .notFound

/-- The arguments that the program at `known` gets if a program is started by its name, or why that
fails. A name without a slash is looked up in the directories for programs, where there are no
programs, but every directory has itself and the one above it in it. -/
def start (t : FileTree) (known : Option Location) (program : String) (arguments : List String) :
    Except OsError (List String) :=
  if program.toList.contains '/' then t.startAt known scriptLimit program arguments
  else if program == "." || program == ".." then .error .permissionDenied
  else if nameLimit < program.utf8ByteSize then .error .nameTooLong
  else .error .notFound

end FileTree

end FiberWeave

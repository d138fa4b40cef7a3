import FiberWeave.CommandLine.Program
import FiberWeave.FileTree.Change

/-!
# The command line

Reads the files that the program looks at into a file tree, runs the program on it, and prints what
it says. Other programs cannot be started from here: an engine is answered as one that the
operating system refuses to start, so that no class is rewritten and no file has to be written.

* `Snapshot` — what was read of the file system so far.
* `main` — the command line.
-/

namespace FiberWeave

/-- What was read of the file system so far, and the paths that were looked at. -/
structure Snapshot where
  tree : FileTree := {}
  paths : List String := []

namespace Snapshot

/-- Makes a change to the tree, if it is possible. -/
def change (s : Snapshot) (c : FileTree.Change) : Snapshot :=
  { s with tree := (c.apply s.tree).toOption.getD s.tree }

/-- Says of a directory that it cannot be listed. -/
def close (s : Snapshot) (path : String) : Snapshot :=
  let here := (s.tree.resolve path).toOption
  let refuses (dir : Location) := here == some dir || s.tree.host.refusesListing dir
  { s with tree := { s.tree with host := { s.tree.host with refusesListing := refuses } } }

/-- Reads what is at a path, a directory with all that it lists. A path that leads elsewhere becomes a
link. A file that cannot be read is left out. -/
partial def add (s : Snapshot) (path : String) : IO Snapshot := do
  if s.paths.contains path then return s
  let s := { s with paths := path :: s.paths }
  let place := (← IO.currentDir) / path
  if !(← place.pathExists) then return s
  let real := (← IO.FS.realPath place).toString
  if real != path then return (← s.add real).change (.makeLink path real)
  if ← place.isDir then
    let s := s.change (.makeDirectory path)
    match ← place.readDir.toBaseIO with
    | .ok entries => entries.foldlM (fun s e => s.add e.path.toString) s
    | .error _ => return s.close path
  else
    match ← (IO.FS.readBinFile place).toBaseIO with
    | .ok bytes => return s.change (.writeFile path (.bytes bytes.toList) Entry.fileMode)
    | .error _ => return s

/-- An empty snapshot, seen from the working directory. -/
def start : IO Snapshot := do
  let here := (← IO.currentDir).toString
  let s := Snapshot.change {} (.makeDirectory here)
  let home := (s.tree.resolve here).toOption.getD []
  return { s with tree := { s.tree with workingDirectory := home } }

end Snapshot

/-- The environment of this process. -/
def Environment.current : IO Environment :=
  return {
    configPath := ← IO.getEnv configVariable
    engine := ← IO.getEnv engineVariable
    logFilter := ← IO.getEnv logVariable }

/-- Refuses to start a program. -/
def refuseLaunch (_ : Call) (world : FileTree × Unit) : Launch × (FileTree × Unit) :=
  (.notStarted .permissionDenied, world)

end FiberWeave

open FiberWeave in
/-- Runs the program on the files that its arguments and its configuration name. -/
def main (arguments : List String) : IO UInt32 := do
  let began ← IO.monoMsNow
  let environment ← Environment.current
  let arguments := "fiber-instrument" :: arguments
  let readNamed (s : Snapshot) : IO Snapshot :=
    (CommandLine.pathsToRead arguments environment s.tree).foldlM (·.add ·) s
  -- The configuration file names paths of its own, which are known once it is read.
  let snapshot ← readNamed (← readNamed (← Snapshot.start))
  let session := CommandLine.run refuseLaunch arguments environment
    { files := snapshot.tree, engine := () }
  let ended ← IO.monoMsNow
  IO.eprint session.errors
  IO.print (session.ending.timed (ended - began)).output
  return session.ending.exitCode.toUInt32

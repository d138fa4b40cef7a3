import FiberWeave.FileTree.Walk

/-!
# Changing a file tree

* `FileTree.makeDirectories`, `FileTree.writeFile`, `FileTree.makeLink`, `FileTree.discard` — what
  is done to a tree from outside, by path. `Change` is any one of them.
* `FileTree.createNew`, `FileTree.rename`, `FileTree.setMode`, `FileTree.unlink` — the single steps
  by which a file is replaced.
-/

namespace FiberWeave.FileTree

/-- Makes the directories that `names` lead through, seen from the path `base`. -/
def makeDirectoriesFrom (base : String) (t : FileTree) : (names : List String) →
    Except OsError FileTree
  | [] => .ok t
  | name :: rest => do
      let path := Path.join base name
      if t.isDirectory path then makeDirectoriesFrom path t rest
      else
        let loc ← t.slot path
        if (t.get? loc).isSome then throw .alreadyExists
        makeDirectoriesFrom path (t.put loc .directory) rest

/-- Makes a directory and all that are missing above it. -/
def makeDirectories (t : FileTree) (path : String) : Except OsError FileTree :=
  makeDirectoriesFrom (if Path.isAbsolute path then "/" else "") t (Path.pieces path)

/-- The location where a file written to a path ends up, through at most `links` links; nothing
need be there. -/
def landing (t : FileTree) : (links : Nat) → (path : String) → Except OsError Location
  | links, path => do
      let loc ← t.slot path
      match t.get? loc, links with
      | some (.link _), 0 => throw .tooManyLinks
      | some (.link target), links + 1 => landing t links (Path.join (pathOf loc.dropLast) target)
      | _, _ => return loc

/-- Makes a file or gives one another content and mode. -/
def writeFile (t : FileTree) (path : String) (content : Content) (mode : Nat) :
    Except OsError FileTree := do
  let loc ← t.landing linkLimit path
  match t.get? loc with
  | some .directory => throw .isDirectory
  | some (.file _ old) => if !Entry.mayWrite old then throw .permissionDenied
  | _ => pure ()
  return t.put loc (.file content mode)

/-- Makes a symbolic link. -/
def makeLink (t : FileTree) (path target : String) : Except OsError FileTree := do
  let loc ← t.slot path
  if (t.get? loc).isSome then throw .alreadyExists
  return t.put loc (.link target)

/-- Removes what is at a path, a directory with all that is in it. If nothing is there, nothing
happens. -/
def discard (t : FileTree) (path : String) : FileTree :=
  match t.slot path with
  | .error _ => t
  | .ok loc =>
      match t.get? loc with
      | some .directory => t.removeAll loc
      | some _ => t.remove loc
      | none => t

/-- Something that happens to a tree from outside. -/
inductive Change where
  | makeDirectory (path : String)
  | makeLink (path target : String)
  | writeFile (path : String) (content : Content) (mode : Nat)
  | discard (path : String)
  deriving DecidableEq, Repr, Inhabited

/-- The tree after a change; directories above a new entry are made as needed. -/
def Change.apply (t : FileTree) : Change → Except OsError FileTree
  | makeDirectory path => t.makeDirectories path
  | makeLink path target => do
      let t ← t.makeDirectories ((Path.parent? path).getD "/")
      t.makeLink path target
  | writeFile path content mode => do
      let t ← t.makeDirectories ((Path.parent? path).getD "/")
      t.writeFile path content mode
  | discard path => .ok (t.discard path)

/-! ## Single steps -/

/-- Makes an empty file where there is nothing, and gives its location. -/
def createNew (t : FileTree) (path : String) : Except OsError (Location × FileTree) := do
  let loc ← t.slot path
  if (t.get? loc).isSome then throw .alreadyExists
  return (loc, t.put loc (.file (.bytes []) Entry.fileMode))

/-- Gives the file at a location another content. -/
def setContent (t : FileTree) (loc : Location) (data : Bytes) : FileTree :=
  match t.get? loc with
  | some (.file _ mode) => t.put loc (.file (.bytes data) mode)
  | _ => t

/-- Gives the file at a location another mode. -/
def setMode (t : FileTree) (loc : Location) (mode : Nat) : FileTree :=
  match t.get? loc with
  | some (.file content _) => t.put loc (.file content mode)
  | _ => t

/-- Moves the file at a location to a path, in the place of what is there, unless that is a
directory. -/
def rename (t : FileTree) (source : Location) (path : String) : Except OsError FileTree := do
  let target ← t.slot path
  if t.isDirectoryAt target then throw .isDirectory
  if source = target then return t
  return t.move source target

end FiberWeave.FileTree

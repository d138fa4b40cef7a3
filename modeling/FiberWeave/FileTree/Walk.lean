import FiberWeave.FileTree.Basic
import FiberWeave.FileTree.OsError
import FiberWeave.Path

/-!
# Walking along a path

A path leads from the root, or from the working directory, to a location, name by name; symbolic
links on the way are followed.

* `FileTree.stride`, `FileTree.walk` — one step after the other, up to the first link, and through
  a number of links.
* `FileTree.resolve` — the location that a path leads to, with a link at its end followed.
* `FileTree.slot` — the location that a path names, whether or not something is there, with a link
  at its end left alone.
* `FileTree.isDirectory`, `FileTree.isFile` — questions about paths.
-/

namespace FiberWeave.FileTree

/-- The number of links that one path may lead through. -/
def linkLimit : Nat := 40

/-- The number of octets that one name may have. -/
def nameLimit : Nat := 255

/-- The number of octets that a whole path may have. -/
def pathLimit : Nat := 4095

/-- The location that names lead to from `loc`. From the first link on, `follow` goes on with the
names of its target in front of those that are left. -/
def stride (t : FileTree) (follow : Location → List String → Except OsError Location) :
    (loc : Location) → (names : List String) → Except OsError Location
  | loc, [] => .ok loc
  | loc, name :: rest =>
      if !t.isDirectoryAt loc then .error .notDirectory
      else if Path.isInert name then stride t follow loc rest
      else if name == ".." then stride t follow loc.dropLast rest
      else if nameLimit < name.utf8ByteSize then .error .nameTooLong
      else
        match t.get? (loc ++ [name]) with
        | none => .error .notFound
        | some (.link target) =>
            follow (if Path.isAbsolute target then [] else loc) (Path.pieces target ++ rest)
        | some _ => stride t follow (loc ++ [name]) rest

/-- The location that names lead to from `loc`, through at most `links` links. -/
def walk (t : FileTree) : (links : Nat) → (loc : Location) → (names : List String) →
    Except OsError Location
  | 0 => t.stride fun _ _ => .error .tooManyLinks
  | links + 1 => t.stride (walk t links)

/-- Refuses texts that are no paths for the operating system. -/
def checkPath (path : String) : Except OsError Unit :=
  if path.isEmpty then .error .notFound
  else if path.toList.contains '\x00' then .error .nulInPath
  else if pathLimit < path.utf8ByteSize then .error .nameTooLong
  else .ok ()

/-- Where a path starts. -/
def origin (t : FileTree) (path : String) : Location :=
  if Path.isAbsolute path then [] else t.workingDirectory

/-- The location that a path leads to. Something is there, and it is no link. -/
def resolve (t : FileTree) (path : String) : Except OsError Location := do
  checkPath path
  t.walk linkLimit (t.origin path) (Path.pieces path)

/-- The location that a path names. All of the path but its last name must lead to a directory;
nothing need be at the location itself. A path that ends in no name leads to what it resolves
to. -/
def slot (t : FileTree) (path : String) : Except OsError Location := do
  checkPath path
  let names := Path.pieces path
  match names.getLast? with
  | none => throw .notFound
  | some last =>
      if Path.isInert last || last == ".." then t.resolve path
      else do
        let dir ← t.walk linkLimit (t.origin path) names.dropLast
        if !t.isDirectoryAt dir then throw .notDirectory
        if nameLimit < last.utf8ByteSize then throw .nameTooLong
        return dir ++ [last]

/-- What a path leads to. -/
def stat (t : FileTree) (path : String) : Except OsError Entry := do
  match t.get? (← t.resolve path) with
  | some entry => return entry
  | none => throw .notFound

/-- Whether a path leads to a directory. -/
def isDirectory (t : FileTree) (path : String) : Bool :=
  match t.stat path with
  | .ok .directory => true
  | _ => false

/-- Whether a path leads to a file. -/
def isFile (t : FileTree) (path : String) : Bool :=
  match t.stat path with
  | .ok (.file ..) => true
  | _ => false

/-- Whether something is at the path, be it a link. -/
def isPresent (t : FileTree) (path : String) : Bool :=
  match t.slot path with
  | .ok loc => (t.get? loc).isSome
  | .error _ => false

/-- The path of a location. -/
def pathOf (loc : Location) : String := "/" ++ "/".intercalate loc

/-- The names in the directory that a path leads to. -/
def namesIn (t : FileTree) (path : String) : Except OsError (List String) := do
  let loc ← t.resolve path
  if !t.isDirectoryAt loc then throw .notDirectory
  if t.host.refusesListing loc then throw .permissionDenied
  return t.children loc

/-- The content of the file that a path leads to. -/
def contentAt (t : FileTree) (path : String) : Except OsError Content := do
  match ← t.stat path with
  | .file content mode => if Entry.mayRead mode then return content else throw .permissionDenied
  | _ => throw .isDirectory

/-- The bytes of the file that a path leads to. -/
def readFile (t : FileTree) (path : String) : Except OsError Bytes :=
  (t.contentAt path).map Content.toBytes

/-- The mode of what a path leads to. -/
def modeAt (t : FileTree) (path : String) : Except OsError Nat := do
  match ← t.stat path with
  | .file _ mode => return mode
  | _ => return Entry.directoryMode

end FiberWeave.FileTree

import FiberWeave.FileTree.Walk

/-!
# Listings

* `FileTree.below` — all entries below a directory with their paths, links not followed.
* `FileTree.listing` — the same in the order of the paths.
* `FileTree.walked`, `FileTree.jarsBelow` — what a walk from a path comes to, and the jars among it.
  The walk does not follow links, keeps to what directories list and passes over what the ignore
  files say: those in the directories that it goes through, and those in the directories above
  (`ignoreFiles`).
-/

namespace FiberWeave.FileTree

/-- The path of a location below the directory that `base` leads to. -/
def pathBelow (base : String) (names : List String) : String := names.foldl Path.join base

/-- The entries below a directory, with the names that lead to them from there. -/
def below (t : FileTree) (dir : Location) : List (List String × Entry) :=
  (t.entries.filter fun e => dir.isPrefixOf e.1 && dir.length < e.1.length).map fun e =>
    (e.1.drop dir.length, e.2)

/-- The entries below a directory in the order of their paths. -/
def listing (t : FileTree) (base : String) : List (String × Entry) :=
  match t.resolve base with
  | .error _ => []
  | .ok dir =>
      ((t.below dir).map fun e => (pathBelow base e.1, e.2)).mergeSort fun a b =>
        compare a.1 b.1 != .gt

/-- The name of the files that say what to pass over. -/
def ignoreName : String := ".ignore"

/-- The paths of the ignore files that bear on an entry below the directory `dir`, which the walk
from `base` leads to: those in the directories above, from the root on, then those on the way. -/
def ignorePaths (base : String) (dir : Location) (names : List String) : List String :=
  ((List.range dir.length).map fun n => pathOf (dir.take n ++ [ignoreName])) ++
    (List.range names.length).map fun n => Path.join (pathBelow base (names.take n)) ignoreName

/-- Whether a walk passes an entry over. -/
def passesOver (t : FileTree) (base : String) (dir : Location) (names : List String) : Bool :=
  t.host.ignores base dir ((ignorePaths base dir names).map fun path => (t.readFile path).toOption)
    names (t.isDirectoryAt (dir ++ names))

/-- Whether a walk comes to an entry: the directories on the way are listed, and neither they nor the
entry are passed over. -/
def comesTo (t : FileTree) (base : String) (dir : Location) (names : List String) : Bool :=
  (List.range names.length).all fun n =>
    !t.host.refusesListing (dir ++ names.take n) && !t.passesOver base dir (names.take (n + 1))

/-- The paths that a walk from a path comes to. -/
def walked (t : FileTree) (base : String) : List String :=
  match t.resolve base with
  | .error _ => []
  | .ok dir =>
      base ::
        if t.isDirectoryAt dir then
          ((t.below dir).filter fun e => t.comesTo base dir e.1).map fun e => pathBelow base e.1
        else []

/-- The paths of all ignore files that a walk from a path may read. -/
def ignoreFiles (t : FileTree) (base : String) : List String :=
  match t.resolve base with
  | .error _ => []
  | .ok dir => (t.below dir).flatMap fun e => ignorePaths base dir e.1

/-- The paths at and below a path that look like jars, in the order of paths. -/
def jarsBelow (t : FileTree) (base : String) : List String :=
  Path.sort ((t.walked base).filter Path.isJar)

end FiberWeave.FileTree

import FiberWeave.ClassName
import FiberWeave.Path

/-!
# Class files by location

The name of a class can be guessed from where its file lies below a root. The class file itself
has the last word on its name.

* `ClassFileRef.ofPath` — a class file found below a root.
* `ClassFileRef.isClassFile` — whether a path looks like that of a class file.
-/

namespace FiberWeave

/-- A class file and the names that its location suggests. -/
structure ClassFileRef where
  name : String
  internalName : String
  path : String
  deriving DecidableEq, Repr, Inhabited

namespace ClassFileRef

/-- The name with slashes that belongs to the parts of a path below the root. -/
def internalNameOf (parts : List Path.Part) : String :=
  let joined := "/".intercalate (parts.map Path.Part.text)
  match Text.stripEnd? ClassName.fileSuffix.toList joined.toList with
  | some stem => String.ofList stem
  | none => joined

/-- The class file at a path. A path that is not below the root is taken as a whole. -/
def ofPath (root path : String) : ClassFileRef :=
  let internalName := internalNameOf ((Path.relativeTo? root path).getD (Path.parts path))
  { name := String.ofList (Text.dotted internalName.toList), internalName, path }

/-- Whether the file name of a path ends like that of a class file. -/
def isClassFile (path : String) : Bool :=
  match Path.fileName? path with
  | some name => (Text.stripEnd? ClassName.fileSuffix.toList name.toList).isSome
  | none => false

/-- How deep below the root the location is. -/
def depth (file : ClassFileRef) : Nat := file.internalName.toList.count '/'

end ClassFileRef

end FiberWeave

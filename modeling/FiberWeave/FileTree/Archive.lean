import FiberWeave.FileTree.Walk

/-!
# Members of jars

* `Jar.Error` — why a member cannot be read.
* `Jar.read?` — the data of a member.
-/

namespace FiberWeave.Jar

/-- Why a member of a jar cannot be read. -/
inductive Error where
  | cannotOpen (jar : String)
  /-- The jar is no regular file. -/
  | cannotMap (jar : String)
  /-- The file holds no archive. -/
  | noArchive (jar : String)
  | cannotRead (name jar : String)
  deriving DecidableEq, Repr, Inhabited

/-- The wording of an error. -/
def Error.message : Error → String
  | .cannotOpen jar => "Failed to open jar: " ++ jar
  | .cannotMap jar => "Failed to mmap jar: " ++ jar
  | .noArchive jar => "Failed to read zip structure: " ++ jar
  | .cannotRead name jar => "Failed to read " ++ name ++ " from " ++ jar

/-- The data of the last member with a name, if there is one. -/
def read? (t : FileTree) (jar name : String) : Except Error (Option Bytes) :=
  match t.stat jar with
  | .error _ => .error (.cannotOpen jar)
  | .ok (.file content mode) =>
      if !Entry.mayRead mode then .error (.cannotOpen jar)
      else
        match t.members? content with
        | none => .error (.noArchive jar)
        | some members =>
            match members.reverse.find? fun m => m.name == name with
            | none => .ok none
            | some ⟨_, some data⟩ => .ok (some data)
            | some ⟨_, none⟩ => .error (.cannotRead name jar)
  | .ok _ => .error (.cannotMap jar)

end FiberWeave.Jar

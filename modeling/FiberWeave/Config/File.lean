import FiberWeave.Engine.Basic
import FiberWeave.Inclusion
import FiberWeave.Json.Reader
import FiberWeave.Text.Utf8

/-!
# The configuration file

A configuration file is a JSON record. Paths in it are seen from the directory of the file.

* `FileConfig` — what a file may say.
* `FileConfig.shape`, `EngineOptions.shape` — the records, field by field.
* `FileConfig.load` — the configuration in a file.
* `InclusionPolicy.read` — a policy as a list of beginnings, taken as they are.
-/

namespace FiberWeave

open Json (Shape Reader)

/-! ## Options and policies -/

/-- A field of the options. -/
def EngineOptions.field (key : String) (put : EngineOptions → Bool → EngineOptions) :
    Json.Field EngineOptions where
  key
  read options := return put options (← Json.readBool)
  required := true
  requiredInList := true

/-- The options as a record. -/
def EngineOptions.shape : Shape EngineOptions where
  name := "EngineOptions"
  open_ := true
  initial := {}
  fields := [
    field "check" fun o b => { o with check := b },
    field "verbose" fun o b => { o with verbose := b },
    field "debug" fun o b => { o with debug := b },
    field "allow_monitors" fun o b => { o with allowMonitors := b },
    field "allow_blocking" fun o b => { o with allowBlocking := b }]

/-- A policy as a list of beginnings, taken as they are. -/
def InclusionPolicy.read : Reader InclusionPolicy :=
  return ⟨← Json.readList (Json.readText "a string")⟩

/-! ## The file -/

/-- What a configuration file may say. -/
structure FileConfig where
  buildDirectory : Option String := none
  check : Option Bool := none
  verbose : Option Bool := none
  debug : Option Bool := none
  allowMonitors : Option Bool := none
  allowBlocking : Option Bool := none
  inclusions : List String := []
  classPath : List String := []
  engine : Option String := none
  engineArguments : List String := []
  deriving DecidableEq, Repr, Inhabited

namespace FileConfig

/-- A field that may be missing. -/
def optional {α : Type} (key : String) (r : Reader α)
    (put : FileConfig → Option α → FileConfig) : Json.Field FileConfig where
  key
  read config := return put config (← Json.readOptional r)
  required := false
  requiredInList := true

/-- A field that is an empty list unless it says otherwise. -/
def listed (key expected : String) (put : FileConfig → List String → FileConfig) :
    Json.Field FileConfig where
  key
  read config := return put config (← Json.readList (Json.readText expected))
  required := false
  requiredInList := false

/-- The file as a record. -/
def shape : Shape FileConfig where
  name := "FileConfig"
  open_ := false
  initial := {}
  fields := [
    optional "buildDirectory" (Json.readText "path string") fun c x =>
      { c with buildDirectory := x },
    optional "check" Json.readBool fun c x => { c with check := x },
    optional "verbose" Json.readBool fun c x => { c with verbose := x },
    optional "debug" Json.readBool fun c x => { c with debug := x },
    optional "allowMonitors" Json.readBool fun c x => { c with allowMonitors := x },
    optional "allowBlocking" Json.readBool fun c x => { c with allowBlocking := x },
    listed "inclusions" "a string" fun c x => { c with inclusions := x },
    listed "classpath" "path string" fun c x => { c with classPath := x },
    optional "engine" (Json.readText "path string") fun c x => { c with engine := x },
    listed "engineArgs" "a string" fun c x => { c with engineArguments := x }]

/-- A program as seen from a directory. A bare name is looked up elsewhere and stays as it is. -/
def anchorProgram (base program : String) : String :=
  if 1 < (Path.parts program).length then Path.join base program else program

/-- The configuration with its paths seen from a directory. -/
def anchor (c : FileConfig) (base : String) : FileConfig :=
  { c with
    buildDirectory := c.buildDirectory.map (Path.join base)
    classPath := c.classPath.map (Path.join base)
    engine := c.engine.map (anchorProgram base) }

/-- Why a configuration file gives no configuration. -/
inductive LoadError where
  | unreadable (path : String) (cause : OsError)
  | invalid (path : String) (cause : Json.Error)
  deriving DecidableEq, Repr, Inhabited

/-- The wording of an error, without its cause. -/
def LoadError.message : LoadError → String
  | unreadable path _ => "Failed to read config file: " ++ path
  | invalid path _ => "Failed to parse config file: " ++ path

/-- The wording of what lies behind an error. A text that is no JSON is not looked at further. -/
def LoadError.cause : LoadError → String
  | unreadable _ cause => cause.message
  | invalid _ cause => cause.message?.getD "the text is no JSON"

/-- The configuration in a file. -/
def load (t : FileTree) (path : String) : Except LoadError FileConfig := do
  match t.readFile path with
  | .error e => throw (.unreadable path e)
  | .ok bytes =>
      match Text.Utf8.decode? bytes with
      | none => throw (.unreadable path .notText)
      | some text =>
          match Json.readAll shape.read text with
          | .error e => throw (.invalid path e)
          | .ok config => return config.anchor ((Path.parent? path).getD "")

end FileConfig

end FiberWeave

import FiberWeave.Engine.Failure
import FiberWeave.Log

/-!
# Why a run ends early

* `Failure` — what ends a run; classes rewritten before it stay rewritten.
* `Failure.message`, `Failure.causes` — its wording, and that of what lies behind it.
-/

namespace FiberWeave

/-- What ends a run. -/
inductive Failure where
  | invalidBuildDirectory (path : String)
  | configuration (message : String)
  | io (path : String) (cause : OsError)
  | rewrite (className : String) (cause : RewriteFailure)
  | unclassified (className : String)
  deriving DecidableEq, Repr, Inhabited

namespace Failure

/-- The wording of a failure. -/
def message : Failure → String
  | invalidBuildDirectory path => "Invalid build directory: " ++ path
  | configuration text => "Invalid configuration: " ++ text
  | io path _ => "Instrumenting file " ++ path
  | rewrite name _ => "Unable to instrument class " ++ name
  | unclassified name => s!"Class {name} is on the work list but was never classified"

/-- The wording of what lies behind a failure. -/
def causes : Failure → List String
  | io _ cause => [cause.message]
  | rewrite _ cause => [cause.message]
  | _ => []

/-- A failure and what lies behind it in one line. -/
def text (f : Failure) : String := Remark.chain (f.message :: f.causes)

end Failure

end FiberWeave

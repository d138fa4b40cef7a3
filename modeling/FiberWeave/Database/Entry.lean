import FiberWeave.ClassFileRef
import FiberWeave.Facts

/-!
# Entries of the class database

* `Classification` — what is to be done with a class.
* `CallPoint` — a call seen from the class that makes it.
* `ClassEntry` — a class with all that was found out about it.
* `WorkItem` — a class that is to be rewritten, and its file.
-/

namespace FiberWeave

/-- What is to be done with a class. -/
inductive Classification where
  /-- Ruled out by its name and not looked at further. -/
  | notCandidate
  | noInstrumentation
  | requiresInstrumentation
  deriving DecidableEq, Repr, Inhabited

namespace Classification

/-- The name of a classification in reports. -/
def tag : Classification → String
  | notCandidate => "not_candidate"
  | noInstrumentation => "no_instrumentation"
  | requiresInstrumentation => "requires_instrumentation"

/-- The name of a classification in messages. -/
def title : Classification → String
  | notCandidate => "NotCandidate"
  | noInstrumentation => "NoInstrumentation"
  | requiresInstrumentation => "RequiresInstrumentation"

end Classification

/-- A call: the signature of the method that makes it, the method called, and the offset. -/
structure CallPoint where
  method : String
  target : String
  offset : Nat
  deriving DecidableEq, Repr, Inhabited

/-- The text of a method that is called. -/
def MemberRef.text (m : MemberRef) : String := m.owner ++ "." ++ m.name ++ m.descriptor

/-- A call as made by a method. -/
def CallPoint.ofCall (method : MethodFacts) (call : CallSite) : CallPoint :=
  ⟨method.signature, call.target.text, call.offset⟩

/-- A class with all that was found out about it. -/
structure ClassEntry where
  name : String
  file : ClassFileRef
  superName : Option String
  interfaces : List String
  isInterface : Bool
  classification : Classification
  instrumented : Bool
  problematic : Bool
  suspendableMethods : List String
  suspendPoints : List CallPoint
  /-- The suspendable methods that hold monitors. -/
  monitorMethods : List String
  /-- The blocking calls that suspendable methods make. -/
  blockingCalls : List CallPoint
  deriving DecidableEq, Repr, Inhabited

namespace ClassEntry

/-- Whether the class is to be rewritten. -/
def requiresInstrumentation (e : ClassEntry) : Bool :=
  e.classification == .requiresInstrumentation

/-- Whether a call in the class may suspend. -/
def hasSuspendPoints (e : ClassEntry) : Bool := !e.suspendPoints.isEmpty

/-- The place of the class in the hierarchy, as facts without methods. -/
def outline (e : ClassEntry) : ClassFacts where
  name := e.name
  superName := e.superName
  interfaces := e.interfaces
  isInterface := e.isInterface
  instrumented := e.instrumented

end ClassEntry

/-- A class that is to be rewritten. -/
structure WorkItem where
  name : String
  file : ClassFileRef
  deriving DecidableEq, Repr, Inhabited

end FiberWeave

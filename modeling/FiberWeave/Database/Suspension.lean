import FiberWeave.ClassName
import FiberWeave.Database.Entry
import FiberWeave.Hierarchy
import FiberWeave.MethodLists

/-!
# Which methods and calls suspend

The facts of single classes are put together: a method may be suspendable because a supertype or a
list says so, and a call because of the method that it names.

* `Knowledge` — the hierarchy and the lists that decisions draw on.
* `Knowledge.inheritsSuspendable`, `Knowledge.isSuspendable`, `Knowledge.isSuspendTarget` — the
  decisions.
* `Knowledge.entryOf` — the entry of a recorded class.
-/

namespace FiberWeave

/-- What decisions about suspension draw on. -/
structure Knowledge where
  hierarchy : Hierarchy
  lists : MethodLists

/-- A class as it was found: its file and its facts. -/
structure Recorded where
  file : ClassFileRef
  facts : ClassFacts
  deriving DecidableEq, Repr, Inhabited

namespace Knowledge

/-- Whether the list of supers makes a method suspendable in all subtypes of a type. -/
def passesByName (k : Knowledge) (name type : String) : Bool :=
  k.lists.isSuspendableSuper type name

/-- Whether the facts of a type, or its place in the list of suspendable methods, make a method
suspendable in all its subtypes. -/
def passesByFacts (k : Knowledge) (name descriptor type : String) (facts : ClassFacts) : Bool :=
  facts.declaresSuspendable name descriptor || k.lists.isSuspendable type name

/-- Whether a type by itself makes a method of its subtypes suspendable. The list of suspendable
methods counts only for types that can be found. -/
def passesOn (k : Knowledge) (name descriptor type : String) (facts? : Option ClassFacts) : Bool :=
  k.passesByName name type || facts?.any (k.passesByFacts name descriptor type)

/-- Whether a supertype of a class, at any distance, makes a method suspendable. -/
def inheritsSuspendable (k : Knowledge) (facts : ClassFacts) (name descriptor : String) : Bool :=
  k.hierarchy.anySupertype (k.passesOn name descriptor) [] facts.supertypes

/-- Whether a method of a class is suspendable. Initializers never are. -/
def isSuspendable (k : Knowledge) (facts : ClassFacts) (m : MethodFacts) : Bool :=
  !m.isInitializer
    && (m.declaredSuspendable || k.lists.isSuspendable facts.name m.name
      || k.inheritsSuspendable facts m.name m.descriptor)

/-- Whether a call may suspend: its target is known or listed, or its owner declares or inherits
it as suspendable. -/
def isSuspendTarget (k : Knowledge) (target : MemberRef) : Bool :=
  target.isSuspendPoint || k.lists.isSuspendable target.owner target.name
    || (k.hierarchy.facts? target.owner).any fun owner =>
        owner.declaresSuspendable target.name target.descriptor
          || k.inheritsSuspendable owner target.name target.descriptor

/-! ## Entries -/

/-- What was decided about a method: whether it is suspendable, and its calls that may suspend. -/
structure Judgement where
  method : MethodFacts
  suspendable : Bool
  points : List CallSite

/-- What is decided about a method of a class. -/
def judge (k : Knowledge) (facts : ClassFacts) (m : MethodFacts) : Judgement where
  method := m
  suspendable := k.isSuspendable facts m
  points := m.calls.filter fun call => k.isSuspendTarget call.target

/-- The classification of a class whose suspendable methods are given. A class that was rewritten
before needs no more. -/
def classificationOf (facts : ClassFacts) (suspendable : List MethodFacts) : Classification :=
  if suspendable.any (·.hasCode) && !facts.instrumented then .requiresInstrumentation
  else .noInstrumentation

/-- Whether a class may be rewritten by its name, and does not trip up analysis. -/
def isCandidate (name : String) : Bool :=
  !ClassName.isProblematic name && ClassName.mayInstrument name

/-- The entry of a class that is not looked at. -/
def plainEntry (recorded : Recorded) : ClassEntry where
  name := recorded.facts.name
  file := recorded.file
  superName := recorded.facts.superName
  interfaces := recorded.facts.interfaces
  isInterface := recorded.facts.isInterface
  classification := .notCandidate
  instrumented := recorded.facts.instrumented
  problematic := ClassName.isProblematic recorded.facts.name
  suspendableMethods := []
  suspendPoints := []
  monitorMethods := []
  blockingCalls := []

/-- The entry of a class from what was decided about its methods. -/
def judgedEntry (recorded : Recorded) (judged : List Judgement) : ClassEntry :=
  let suspendable := (judged.filter (·.suspendable)).map (·.method)
  { plainEntry recorded with
    classification := classificationOf recorded.facts suspendable
    suspendableMethods := suspendable.map (·.signature)
    suspendPoints := judged.flatMap fun j => j.points.map (CallPoint.ofCall j.method)
    monitorMethods := (suspendable.filter (·.usesMonitors)).map (·.signature)
    blockingCalls := suspendable.flatMap fun m => m.blockingCalls.map (CallPoint.ofCall m) }

/-- The entry of a class. A class that is no candidate is not looked at. -/
def entryOf (k : Knowledge) (recorded : Recorded) : ClassEntry :=
  if !isCandidate recorded.facts.name then plainEntry recorded
  else judgedEntry recorded (recorded.facts.methods.map (k.judge recorded.facts))

end Knowledge

end FiberWeave

import FiberWeave.ClassFile.Parse

/-!
# Facts of one class

What a class file says about suspension, without a look at any other class. Whether a method is
suspendable because a supertype says so is decided later, over all classes.

* `ClassFacts`, `MethodFacts` — the facts.
* `ClassFacts.ofClassFile`, `ClassFacts.analyze` — the facts of a class file, and of its bytes.
* `isSuspendPoint`, `isBlockingCall` — the calls that are known by name.
-/

namespace FiberWeave

/-! ## Names with a meaning of their own -/

/-- The exception that a method declares to say that it may suspend. -/
def suspendExecution : String := "co/paralleluniverse/fibers/SuspendExecution"

/-- The unchecked kin of `suspendExecution`. -/
def runtimeSuspendExecution : String := "co/paralleluniverse/fibers/RuntimeSuspendExecution"

/-- The annotation of a method that may suspend. -/
def suspendableAnnotation : String := "Lco/paralleluniverse/fibers/Suspendable;"

/-- The annotation of a class that has been rewritten. -/
def instrumentedAnnotation : String := "Lco/paralleluniverse/fibers/Instrumented;"

/-- The calls of the fiber runtime that suspend, by owner and names. -/
def suspendPoints : List (String × List String) :=
  [("co/paralleluniverse/fibers/Fiber",
      ["park", "parkAndUnpark", "parkAndSerialize", "yield", "yieldAndUnpark", "sleep", "join",
        "get"]),
    ("co/paralleluniverse/strands/Strand",
      ["park", "parkNanos", "parkUntil", "yield", "sleep", "join"])]

/-- The calls that block the thread that carries a fiber, by owner and names. -/
def blockingCalls : List (String × List String) :=
  [("java/lang/Thread", ["sleep", "join"]),
    ("java/lang/Object", ["wait"]),
    ("java/util/concurrent/locks/LockSupport", ["park", "parkNanos", "parkUntil"]),
    ("java/util/concurrent/locks/Lock", ["lock", "lockInterruptibly"]),
    ("java/util/concurrent/BlockingQueue", ["take", "put"])]

/-- Whether a table names the owner and the name of a method; descriptors do not count. -/
def MemberRef.isListedIn (target : MemberRef) (table : List (String × List String)) : Bool :=
  table.any fun row => row.1 == target.owner && row.2.contains target.name

/-- Whether a call suspends because the fiber runtime says so. -/
def MemberRef.isSuspendPoint (target : MemberRef) : Bool := target.isListedIn suspendPoints

/-- Whether a call blocks the carrying thread. -/
def MemberRef.isBlockingCall (target : MemberRef) : Bool := target.isListedIn blockingCalls

/-! ## Facts -/

/-- What a method says about suspension. -/
structure MethodFacts where
  name : String
  descriptor : String
  /-- The method declares one of the two exceptions or carries the annotation. -/
  declaredSuspendable : Bool := false
  hasCode : Bool := true
  usesMonitors : Bool := false
  calls : List CallSite := []
  deriving DecidableEq, Repr, Inhabited

namespace MethodFacts

/-- Name and descriptor in one word. -/
def signature (m : MethodFacts) : String := m.name ++ m.descriptor

/-- Whether a method sets up an object or a class. -/
def isInitializer (m : MethodFacts) : Bool := m.name == "<init>" || m.name == "<clinit>"

/-- The calls of a method that block, in order. -/
def blockingCalls (m : MethodFacts) : List CallSite :=
  m.calls.filter fun call => call.target.isBlockingCall

/-- The facts of a method of a class file. -/
def ofMethod (m : Method) : MethodFacts where
  name := m.name
  descriptor := m.descriptor
  declaredSuspendable :=
    m.exceptions.any (fun e => e == suspendExecution || e == runtimeSuspendExecution)
      || m.hasAnnotation suspendableAnnotation
  hasCode := m.hasCode && !m.isAbstract && !m.isNative
  usesMonitors := m.isSynchronized || m.usesMonitorEnter
  calls := m.calls

end MethodFacts

/-- What a class says about suspension. -/
structure ClassFacts where
  name : String
  superName : Option String := none
  interfaces : List String := []
  isInterface : Bool := false
  instrumented : Bool := false
  methods : List MethodFacts := []
  deriving DecidableEq, Repr, Inhabited

namespace ClassFacts

/-- The first method of a name and descriptor. -/
def method? (c : ClassFacts) (name descriptor : String) : Option MethodFacts :=
  c.methods.find? fun m => m.name == name && m.descriptor == descriptor

/-- Whether the class itself declares a method suspendable. -/
def declaresSuspendable (c : ClassFacts) (name descriptor : String) : Bool :=
  (c.method? name descriptor).any (·.declaredSuspendable)

/-- The superclass, if there is one, and the interfaces. -/
def supertypes (c : ClassFacts) : List String := c.superName.toList ++ c.interfaces

/-- The facts of a class file. -/
def ofClassFile (c : ClassFile) : ClassFacts where
  name := c.name
  superName := c.superName
  interfaces := c.interfaces
  isInterface := c.isInterface
  instrumented := c.hasAnnotation instrumentedAnnotation
  methods := c.methods.map MethodFacts.ofMethod

/-- The facts of a class from the bytes of its file. -/
def analyze (bytes : Bytes) : Except ClassFile.Error ClassFacts :=
  (ClassFile.parse bytes).map ofClassFile

end ClassFacts

end FiberWeave

import FiberWeave.Text.Cut

/-!
# Class names

A class is named with slashes inside class files and with dots elsewhere. Some names alone decide
that a class is left as it is.

* `ClassName.internal` — the form with slashes.
* `ClassName.isJavaCore`, `ClassName.isProblematic`, `ClassName.mayInstrument` — rules by name.
* `ClassName.filePath` — where a class lies below a class directory.
-/

namespace FiberWeave.ClassName

/-- Whether a name begins with the given text. -/
def startsWith (name start : String) : Bool := start.toList.isPrefixOf name.toList

/-- The form of a name with slashes. A name that has them already stays as it is. -/
def internal (name : String) : String := String.ofList (Text.slashed name.toList)

/-- The form with slashes is the name itself exactly when it has no dots. -/
theorem internal_eq_self_iff (name : String) : internal name = name ↔ '.' ∉ name.toList := by
  constructor
  · intro h hdot
    rw [← h, internal, String.toList_ofList] at hdot
    exact Text.dot_not_mem_slashed _ hdot
  · intro h
    rw [internal, Text.slashed_of_not_mem h, String.ofList_toList]

/-- The base class of fibers. -/
def fiberClass : String := "co/paralleluniverse/fibers/Fiber"

/-- The class that keeps the frames of a suspended fiber. -/
def stackClass : String := "co/paralleluniverse/fibers/Stack"

/-- The package of the instrumentor itself. -/
def instrumentorPackage : String := "co/paralleluniverse/fibers/instrument/"

/-- Packages of libraries that the instrumentor runs on. -/
def toolPackages : List String := ["org/objectweb/asm/", "org/netbeans/lib/"]

/-- Packages whose classes are known to trip up analysis. -/
def problematicPackages : List String :=
  ["org/gradle/", "javax/jms/", "ch/qos/logback/", "org/apache/logging/log4j/",
    "org/apache/log4j/"]

/-- Whether a class belongs to the core of the platform, which is never rewritten. -/
def isJavaCore (name : String) : Bool :=
  startsWith name "java/" || startsWith name "javax/" || startsWith name "sun/"
    || (startsWith name "com/sun/" && !startsWith name "com/sun/jersey")

/-- Whether a class is one of those that trip up analysis. They are passed over in silence. -/
def isProblematic (name : String) : Bool := problematicPackages.any (startsWith name)

/-- Whether a class is the base class of fibers or nested in it. -/
def isFiberClass (name : String) : Bool :=
  name == fiberClass || startsWith name (fiberClass ++ "$")

/-- Whether a class may be rewritten at all: not if it belongs to the instrumentor, the libraries
it runs on, the core of the fiber runtime or the core of the platform. -/
def mayInstrument (name : String) : Bool :=
  let name := internal name
  !(startsWith name instrumentorPackage || toolPackages.any (startsWith name)
    || isFiberClass name || name == stackClass || isJavaCore name)

/-- The ending of the name of a class file. -/
def fileSuffix : String := ".class"

/-- The path of a class file below a class directory. -/
def filePath (name : String) : String := internal name ++ fileSuffix

end FiberWeave.ClassName

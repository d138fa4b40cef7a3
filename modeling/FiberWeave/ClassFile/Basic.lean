import FiberWeave.Bytes

/-!
# Class files: what is read from them

A class file is seen here only as far as classification needs it: names, supertypes, methods with
the exceptions they declare, annotations, invoke instructions and the use of monitors.

* `ClassFile`, `Method`, `CallSite`, `MemberRef` — the view.
* `ClassFile.Error` — why a byte string is no class file, with its wording in `Error.message`.
-/

namespace FiberWeave

/-- A method, or interface method, named by a call. -/
structure MemberRef where
  owner : String
  name : String
  descriptor : String
  deriving DecidableEq, Repr, Inhabited

/-- An invoke instruction: the method it names and its offset in the code array. -/
structure CallSite where
  target : MemberRef
  offset : Nat
  deriving DecidableEq, Repr, Inhabited

/-- One method of a class file. -/
structure Method where
  access : Nat
  name : String
  descriptor : String
  exceptions : List String := []
  annotations : List String := []
  calls : List CallSite := []
  hasCode : Bool := false
  usesMonitorEnter : Bool := false
  deriving DecidableEq, Repr, Inhabited

/-- The part of a class file that classification looks at. -/
structure ClassFile where
  minorVersion : Nat
  majorVersion : Nat
  access : Nat
  name : String
  superName : Option String
  interfaces : List String
  methods : List Method
  annotations : List String
  deriving DecidableEq, Repr, Inhabited

/-! ## Access flags -/

/-- Whether two sets of flags have one in common. -/
def hasFlag (flags flag : Nat) : Bool :=
  flags &&& flag != 0

namespace Method

def isSynchronized (m : Method) : Bool := hasFlag m.access 0x0020
def isBridge (m : Method) : Bool := hasFlag m.access 0x0040
def isNative (m : Method) : Bool := hasFlag m.access 0x0100
def isAbstract (m : Method) : Bool := hasFlag m.access 0x0400

/-- Name and descriptor in one word; no two methods of a well-formed class share it. -/
def signature (m : Method) : String := m.name ++ m.descriptor

def hasAnnotation (m : Method) (descriptor : String) : Bool :=
  m.annotations.contains descriptor

end Method

namespace ClassFile

def isInterface (c : ClassFile) : Bool := hasFlag c.access 0x0200

def hasAnnotation (c : ClassFile) (descriptor : String) : Bool :=
  c.annotations.contains descriptor

/-- The number every class file starts with. -/
def magicNumber : Nat := 0xCAFEBABE

/-! ## Errors -/

/-- Why a byte string is not a class file. Offsets count from the start of the reader in use: the
file, an attribute body, or a code array. -/
inductive Error where
  /-- The first four octets are not `magicNumber`. -/
  | badMagic (found : Nat)
  /-- The bytes end before what must come next. -/
  | truncated (offset : Nat)
  /-- A constant of no known kind. -/
  | unknownConstant (tag index : Nat)
  /-- An index that names no constant, or one of the wrong kind. -/
  | badConstantRef (index : Nat)
  /-- An octet that starts no instruction, or a switch whose bounds are impossible. -/
  | badOpcode (opcode offset : Nat)
  /-- More bytes than the class takes. -/
  | trailingBytes (count : Nat)
  /-- A text constant that decodes to no text, where its text is needed. -/
  | badUtf8 (index : Nat)
  deriving DecidableEq, Repr, Inhabited

/-- The wording of an error. -/
def Error.message : Error → String
  | badMagic found => "not a class file (magic 0x" ++ hexDigits 8 found ++ ")"
  | truncated offset => s!"unexpected end of class file at offset {offset}"
  | unknownConstant tag index => s!"unknown constant pool tag {tag} at index {index}"
  | badConstantRef index =>
      s!"constant pool index {index} does not point to the expected entry"
  | badOpcode opcode offset =>
      "unknown opcode 0x" ++ hexDigits 2 opcode ++ s!" at code offset {offset}"
  | trailingBytes count => s!"{count} trailing bytes after class file"
  | badUtf8 index => s!"constant pool entry {index} is not valid modified UTF-8"

end ClassFile

end FiberWeave

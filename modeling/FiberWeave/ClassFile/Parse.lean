import FiberWeave.ClassFile.Annotation
import FiberWeave.ClassFile.Code

/-!
# Reading a whole class file

* `readMethod` — a method with those of its attributes that matter.
* `ClassFile.parse` — a class file from its bytes, which it must use up.
-/

namespace FiberWeave.ClassFile

/-- Passes over a list of attributes. -/
def skipAttributes : Parser Unit := do
  let count ← Parser.u2
  let _ ← Parser.times (do Parser.skip 2; Parser.skip (← Parser.u4)) count

/-- Reads the name and the body of an attribute. -/
def readAttribute (pool : Pool) : Parser (String × Bytes) := do
  let index ← Parser.u2
  let name ← pool.text index
  let length ← Parser.u4
  let body ← Parser.take length
  return (name, body)

/-- Reads the body of a code attribute: the instructions, then exception handlers and attributes,
which are passed over. -/
def readCode (pool : Pool) (body : Bytes) : Parser Code :=
  Parser.within body do
    Parser.skip 4
    let size ← Parser.u4
    let instructions ← Parser.take size
    let code ← Code.scan pool size 0 instructions
    let handlers ← Parser.u2
    Parser.skip (handlers * 8)
    skipAttributes
    return code

/-- Reads the classes listed in the body of an exceptions attribute. -/
def readExceptions (pool : Pool) (body : Bytes) : Parser (List String) :=
  Parser.within body do
    let count ← Parser.u2
    Parser.times (do pool.className (← Parser.u2)) count

/-- The two attributes that hold annotations. -/
def isAnnotationsAttribute (name : String) : Bool :=
  name == "RuntimeVisibleAnnotations" || name == "RuntimeInvisibleAnnotations"

/-! ## Methods -/

/-- Adds what an attribute says to the method that carries it. -/
def addAttribute (pool : Pool) (m : Method) (name : String) (body : Bytes) : Parser Method := do
  if name == "Code" then
    let code ← readCode pool body
    return { m with
      hasCode := true
      calls := m.calls ++ code.calls
      usesMonitorEnter := m.usesMonitorEnter || code.usesMonitorEnter }
  else if name == "Exceptions" then
    return { m with exceptions := m.exceptions ++ (← readExceptions pool body) }
  else if isAnnotationsAttribute name then
    return { m with annotations := m.annotations ++ (← Annotation.readTypes pool body) }
  else return m

/-- Reads `count` attributes of a method. -/
def addAttributes (pool : Pool) (m : Method) : (count : Nat) → Parser Method
  | 0 => return m
  | count + 1 => do
      let (name, body) ← readAttribute pool
      let m ← addAttribute pool m name body
      addAttributes pool m count

/-- Reads a method. -/
def readMethod (pool : Pool) : Parser Method := do
  let access ← Parser.u2
  let name ← pool.text (← Parser.u2)
  let descriptor ← pool.text (← Parser.u2)
  let count ← Parser.u2
  addAttributes pool { access, name, descriptor } count

/-! ## Classes -/

/-- Reads the annotations among `count` attributes of a class. -/
def readClassAnnotations (pool : Pool) : (count : Nat) → Parser (List String)
  | 0 => return []
  | count + 1 => do
      let (name, body) ← readAttribute pool
      let types ← if isAnnotationsAttribute name then Annotation.readTypes pool body else pure []
      return types ++ (← readClassAnnotations pool count)

/-- Fails unless every byte has been read. -/
def expectEnd : Parser Unit := fun c =>
  if c.rest.isEmpty then .ok ((), c) else .error (.trailingBytes c.rest.length)

/-- Reads a class from the magic number to its last attribute. -/
def read : Parser ClassFile := do
  let magic ← Parser.u4
  if magic ≠ magicNumber then throw (.badMagic magic)
  let minorVersion ← Parser.u2
  let majorVersion ← Parser.u2
  let pool ← Pool.read
  let access ← Parser.u2
  let name ← pool.className (← Parser.u2)
  let superIndex ← Parser.u2
  let superName ← if superIndex = 0 then pure none else some <$> pool.className superIndex
  let interfaceCount ← Parser.u2
  let interfaces ← Parser.times (do pool.className (← Parser.u2)) interfaceCount
  let fieldCount ← Parser.u2
  let _ ← Parser.times (do Parser.skip 6; skipAttributes) fieldCount
  let methodCount ← Parser.u2
  let methods ← Parser.times (readMethod pool) methodCount
  let attributeCount ← Parser.u2
  let annotations ← readClassAnnotations pool attributeCount
  return { minorVersion, majorVersion, access, name, superName, interfaces, methods, annotations }

/-- The class that a byte string holds, and nothing more. -/
def parse (bytes : Bytes) : Except Error ClassFile := do
  let (c, _) ← (do let c ← read; expectEnd; return c : Parser ClassFile).run ⟨bytes, 0⟩
  return c

end FiberWeave.ClassFile

import FiberWeave.ClassFile.Basic
import FiberWeave.ClassFile.ModifiedUtf8

/-!
# The class-file format

Class files as their format describes them: what they are made of, how it is written down, and what
of it a reader is to see.  Nothing here speaks of how class files are read.

* `Constant`, `ElementValue`, `Instruction`, `Attribute`, `Member`, `Class` — the parts.
* `encode` — the octets of each part.
* `fits` — the counts and lengths of a part are within the widths of their fields.
* `view?` — what there is to see in a part, if every index it goes by leads to a constant of the
  right kind, with a text that can be decoded.
-/

namespace FiberWeave.ClassFile.Format

/-! ## Numbers -/

/-- Two octets, most significant first. -/
def octets2 (n : Nat) : Bytes := [UInt8.ofNat (n / 256), UInt8.ofNat n]

/-- Four octets, most significant first. -/
def octets4 (n : Nat) : Bytes := octets2 (n / 0x10000) ++ octets2 (n % 0x10000)

/-- Eight octets, most significant first. -/
def octets8 (n : Nat) : Bytes := octets4 (n / 0x100000000) ++ octets4 (n % 0x100000000)

/-- Four octets in two's complement. -/
def signedOctets4 (n : Int) : Bytes := octets4 (n % 0x100000000).toNat

/-- An index into the constant pool, or another number of two octets. -/
def index (i : UInt16) : Bytes := octets2 i.toNat

/-- A count in two octets, and that many parts. -/
def counted {α : Type} (encode : α → Bytes) (parts : List α) : Bytes :=
  octets2 parts.length ++ parts.flatMap encode

/-- Whether a list has a length that two octets can count. -/
def isCountable {α : Type} (parts : List α) : Bool := parts.length < 0x10000

/-! ## The constant pool -/

/-- A constant. The numbers in it are indices of other constants, where nothing else is said. -/
inductive Constant where
  /-- A text, by its octets; they need not decode to one. -/
  | utf8 (payload : Bytes)
  | integer (bits : UInt32)
  | float (bits : UInt32)
  | long (bits : UInt64)
  | double (bits : UInt64)
  | classRef (name : UInt16)
  | string (text : UInt16)
  | fieldRef (owner nameAndType : UInt16)
  | methodRef (owner nameAndType : UInt16)
  | interfaceMethodRef (owner nameAndType : UInt16)
  | nameAndType (name descriptor : UInt16)
  | methodHandle (kind : UInt8) (target : UInt16)
  | methodType (descriptor : UInt16)
  /-- With the number of a bootstrap method. -/
  | dynamic (bootstrap nameAndType : UInt16)
  | invokeDynamic (bootstrap nameAndType : UInt16)
  | moduleRef (name : UInt16)
  | packageRef (name : UInt16)
  deriving DecidableEq, Repr

namespace Constant

/-- The number of indices that a constant takes. -/
def slots : Constant → Nat
  | long _ | double _ => 2
  | _ => 1

def encode : Constant → Bytes
  | .utf8 payload => 1 :: octets2 payload.length ++ payload
  | .integer bits => 3 :: octets4 bits.toNat
  | .float bits => 4 :: octets4 bits.toNat
  | .long bits => 5 :: octets8 bits.toNat
  | .double bits => 6 :: octets8 bits.toNat
  | .classRef name => 7 :: index name
  | .string text => 8 :: index text
  | .fieldRef owner named => 9 :: index owner ++ index named
  | .methodRef owner named => 10 :: index owner ++ index named
  | .interfaceMethodRef owner named => 11 :: index owner ++ index named
  | .nameAndType name descriptor => 12 :: index name ++ index descriptor
  | .methodHandle kind target => 15 :: kind :: index target
  | .methodType descriptor => 16 :: index descriptor
  | .dynamic bootstrap named => 17 :: index bootstrap ++ index named
  | .invokeDynamic bootstrap named => 18 :: index bootstrap ++ index named
  | .moduleRef name => 19 :: index name
  | .packageRef name => 20 :: index name

def fits : Constant → Bool
  | utf8 payload => isCountable payload
  | _ => true

end Constant

namespace Pool

/-- The number of indices that constants take; the first one of all is 1. -/
def slots : List Constant → Nat
  | [] => 0
  | c :: rest => c.slots + slots rest

/-- The constant at an index. The second index of a constant with two has none. -/
def at? : List Constant → Nat → Option Constant
  | [], _ => none
  | _ :: _, 0 => none
  | c :: _, 1 => some c
  | c :: rest, n + 2 => at? rest (n + 2 - c.slots)

/-- The text at an index. -/
def text? (pool : List Constant) (i : UInt16) : Option String :=
  match at? pool i.toNat with
  | some (.utf8 payload) => ModifiedUtf8.decode? payload
  | _ => none

/-- The name of the class at an index. -/
def className? (pool : List Constant) (i : UInt16) : Option String :=
  match at? pool i.toNat with
  | some (.classRef name) => text? pool name
  | _ => none

/-- The method of a class with the name and the descriptor at an index. -/
def member? (pool : List Constant) (owner nameAndType : UInt16) : Option MemberRef :=
  match at? pool nameAndType.toNat with
  | some (.nameAndType name descriptor) => do
      return {
        owner := ← className? pool owner
        name := ← text? pool name
        descriptor := ← text? pool descriptor }
  | _ => none

/-- The method at an index, which may be one of an interface. -/
def memberRef? (pool : List Constant) (i : UInt16) : Option MemberRef :=
  match at? pool i.toNat with
  | some (.methodRef owner nameAndType) => member? pool owner nameAndType
  | some (.interfaceMethodRef owner nameAndType) => member? pool owner nameAndType
  | _ => none

end Pool

/-! ## Annotations -/

/-- The kinds of value that are one constant. -/
inductive SimpleKind where
  | byte | char | double | float | int | long | short | boolean | string | classRef
  deriving DecidableEq, Repr

/-- The letter of a kind. -/
def SimpleKind.letter : SimpleKind → Char
  | byte => 'B' | char => 'C' | double => 'D' | float => 'F' | int => 'I' | long => 'J'
  | short => 'S' | boolean => 'Z' | string => 's' | classRef => 'c'

/-- The octet of an ASCII letter. -/
def letter (c : Char) : UInt8 := UInt8.ofNat c.toNat

/-- The octets of a text in ASCII. -/
def ascii (text : String) : Bytes := text.toList.map letter

/-- A value in an annotation. -/
inductive ElementValue where
  | simple (kind : SimpleKind) (value : UInt16)
  | enum (type name : UInt16)
  /-- An annotation with its type and its named values. -/
  | nested (type : UInt16) (pairs : List (UInt16 × ElementValue))
  | array (values : List ElementValue)

mutual

def ElementValue.encode : ElementValue → Bytes
  | .simple kind value => letter kind.letter :: index value
  | .enum type name => letter 'e' :: index type ++ index name
  | .nested type pairs =>
      letter '@' :: index type ++ octets2 pairs.length ++ encodePairs pairs
  | .array values => letter '[' :: octets2 values.length ++ encodeValues values

def encodePairs : List (UInt16 × ElementValue) → Bytes
  | [] => []
  | (name, value) :: rest => index name ++ value.encode ++ encodePairs rest

def encodeValues : List ElementValue → Bytes
  | [] => []
  | value :: rest => value.encode ++ encodeValues rest

end

mutual

def ElementValue.fits : ElementValue → Bool
  | .simple _ _ | .enum _ _ => true
  | .nested _ pairs => isCountable pairs && pairsFit pairs
  | .array values => isCountable values && valuesFit values

def pairsFit : List (UInt16 × ElementValue) → Bool
  | [] => true
  | (_, value) :: rest => value.fits && pairsFit rest

def valuesFit : List ElementValue → Bool
  | [] => true
  | value :: rest => value.fits && valuesFit rest

end

mutual

/-- Whether every annotation in a value has a type with a text. -/
def ElementValue.isTyped (pool : List Constant) : ElementValue → Bool
  | .simple _ _ | .enum _ _ => true
  | .nested type pairs => (Pool.text? pool type).isSome && pairsTyped pool pairs
  | .array values => valuesTyped pool values

def pairsTyped (pool : List Constant) : List (UInt16 × ElementValue) → Bool
  | [] => true
  | (_, value) :: rest => value.isTyped pool && pairsTyped pool rest

def valuesTyped (pool : List Constant) : List ElementValue → Bool
  | [] => true
  | value :: rest => value.isTyped pool && valuesTyped pool rest

end

/-- An annotation with its type and its named values. -/
structure AnnotationInfo where
  type : UInt16
  pairs : List (UInt16 × ElementValue)

namespace AnnotationInfo

def encode (a : AnnotationInfo) : Bytes :=
  index a.type ++ octets2 a.pairs.length ++ encodePairs a.pairs

def fits (a : AnnotationInfo) : Bool := isCountable a.pairs && pairsFit a.pairs

/-- The type of an annotation. -/
def view? (pool : List Constant) (a : AnnotationInfo) : Option String :=
  if pairsTyped pool a.pairs then Pool.text? pool a.type else none

end AnnotationInfo

/-! ## Instructions -/

/-- The opcodes whose operands are so many octets and name no method. -/
def plainOpcodes : (operands : Nat) → List Nat
  | 0 => List.range' 0x00 16 ++ List.range' 0x1A 28 ++ List.range' 0x3B 73 ++ List.range' 0x85 20 ++
      List.range' 0xAC 6 ++ [0xBE, 0xBF, 0xC2, 0xC3]
  | 1 => [0x10, 0x12] ++ List.range' 0x15 5 ++ List.range' 0x36 5 ++ [0xA9, 0xBC]
  | 2 => [0x11, 0x13, 0x14, 0x84] ++ List.range' 0x99 16 ++ List.range' 0xB2 4 ++
      [0xBB, 0xBD, 0xC0, 0xC1, 0xC6, 0xC7]
  | 3 => [0xC5]
  | 4 => [0xBA, 0xC8, 0xC9]
  | _ => []

/-- The opcodes that can have an index of two octets behind the opcode `wide`. -/
def wideOpcodes : List Nat := List.range' 0x15 5 ++ List.range' 0x36 5 ++ [0xA9]

/-- The kinds of call, other than those of interface methods. -/
inductive InvokeKind where
  | virtual | special | static
  deriving DecidableEq, Repr

def InvokeKind.opcode : InvokeKind → UInt8
  | virtual => 0xB6
  | special => 0xB7
  | static => 0xB8

/-- An instruction. Jumps are given by their distances. -/
inductive Instruction where
  /-- An instruction that names no method and is as long as its opcode says. -/
  | plain (opcode : UInt8) (operands : Bytes)
  | invoke (kind : InvokeKind) (method : UInt16)
  /-- With the number of arguments, and an octet without meaning. -/
  | invokeInterface (method : UInt16) (count last : UInt8)
  /-- A switch over successive numbers from `low` on. The octets of `filler` stand in front of the
  operands as far as they are needed to start these at a multiple of four. -/
  | tableSwitch (filler : Fin 3 → UInt8) (otherwise : UInt32) (low : Int) (jumps : List UInt32)
  | lookupSwitch (filler : Fin 3 → UInt8) (otherwise : UInt32) (jumps : List (UInt32 × UInt32))
  | wide (opcode : UInt8) (slot : UInt16)
  | wideIncrement (slot amount : UInt16)

/-- The number of octets from behind an opcode at an offset to the next multiple of four. -/
def padding (offset : Nat) : Nat := 3 - offset % 4

def fill (filler : Fin 3 → UInt8) (offset : Nat) : Bytes := (List.ofFn filler).take (padding offset)

namespace Instruction

/-- The octets of an instruction that starts at an offset of the code array. -/
def encode (offset : Nat) : Instruction → Bytes
  | plain opcode operands => opcode :: operands
  | invoke kind method => kind.opcode :: index method
  | invokeInterface method count last => 0xB9 :: index method ++ [count, last]
  | tableSwitch filler otherwise low jumps =>
      0xAA :: fill filler offset ++ octets4 otherwise.toNat ++ signedOctets4 low ++
        signedOctets4 (low + jumps.length - 1) ++ jumps.flatMap fun jump => octets4 jump.toNat
  | lookupSwitch filler otherwise jumps =>
      0xAB :: fill filler offset ++ octets4 otherwise.toNat ++ octets4 jumps.length ++
        jumps.flatMap fun jump => octets4 jump.1.toNat ++ octets4 jump.2.toNat
  | wide opcode slot => 0xC4 :: opcode :: index slot
  | wideIncrement slot amount => 0xC4 :: 0x84 :: index slot ++ index amount

/-- Whether an instruction is one. -/
def fits : Instruction → Bool
  | plain opcode operands => (plainOpcodes operands.length).contains opcode.toNat
  | tableSwitch _ _ low jumps =>
      -0x80000000 ≤ low && -0x80000000 ≤ low + jumps.length - 1 &&
        low + jumps.length - 1 < 0x80000000 && low < 0x80000000
  | lookupSwitch _ _ jumps => jumps.length < 0x80000000
  | wide opcode _ => wideOpcodes.contains opcode.toNat
  | _ => true

/-- The index of the method that an instruction calls, if it calls one by its name. -/
def method? : Instruction → Option UInt16
  | invoke _ method => some method
  | invokeInterface method _ _ => some method
  | _ => none

def isMonitorEnter : Instruction → Bool
  | plain opcode _ => opcode == 0xC2
  | _ => false

end Instruction

/-- The octets of instructions from an offset of the code array on. -/
def encodeCode (offset : Nat) : List Instruction → Bytes
  | [] => []
  | i :: rest => i.encode offset ++ encodeCode (offset + (i.encode offset).length) rest

/-- The calls of instructions from an offset of the code array on. -/
def calls? (pool : List Constant) (offset : Nat) : List Instruction → Option (List CallSite)
  | [] => some []
  | i :: rest => do
      let later ← calls? pool (offset + (i.encode offset).length) rest
      match i.method? with
      | none => return later
      | some method => return ⟨← Pool.memberRef? pool method, offset⟩ :: later

/-! ## Attributes -/

/-- An attribute by its name and its octets. -/
structure RawAttribute where
  name : UInt16
  body : Bytes
  deriving DecidableEq, Repr

namespace RawAttribute

def encode (a : RawAttribute) : Bytes := index a.name ++ octets4 a.body.length ++ a.body

def fits (a : RawAttribute) : Bool := a.body.length < 0x100000000

end RawAttribute

/-- A range of instructions with the place where exceptions in it are caught, and of what class
they are. -/
structure Handler where
  start : UInt16
  stop : UInt16
  target : UInt16
  type : UInt16
  deriving DecidableEq, Repr

def Handler.encode (h : Handler) : Bytes :=
  index h.start ++ index h.stop ++ index h.target ++ index h.type

/-- What a code attribute holds. -/
structure Code where
  maxStack : UInt16
  maxLocals : UInt16
  instructions : List Instruction
  handlers : List Handler
  attributes : List RawAttribute

namespace Code

def encode (code : Code) : Bytes :=
  let instructions := encodeCode 0 code.instructions
  index code.maxStack ++ index code.maxLocals ++ octets4 instructions.length ++ instructions ++
    counted Handler.encode code.handlers ++ counted RawAttribute.encode code.attributes

def fits (code : Code) : Bool :=
  code.instructions.all Instruction.fits && (encodeCode 0 code.instructions).length < 0x100000000 &&
    isCountable code.handlers && isCountable code.attributes &&
    code.attributes.all RawAttribute.fits

end Code

/-- The names of the two attributes that hold annotations. -/
def annotationNames : List String := ["RuntimeVisibleAnnotations", "RuntimeInvisibleAnnotations"]

/-- What an attribute of a class or a method holds. -/
inductive Content where
  | code (code : Code)
  | exceptions (classes : List UInt16)
  | annotations (annotations : List AnnotationInfo)
  /-- Octets of which nothing is known. -/
  | unknown (body : Bytes)

namespace Content

def encode : Content → Bytes
  | .code c => c.encode
  | .exceptions classes => counted index classes
  | .annotations as => counted AnnotationInfo.encode as
  | .unknown body => body

def fits : Content → Bool
  | .code c => c.fits
  | .exceptions classes => isCountable classes
  | .annotations as => isCountable as && as.all AnnotationInfo.fits
  | .unknown _ => true

/-- Whether an attribute of a method with this content can have this name. -/
def isNamed : Content → String → Bool
  | .code _, name => name = "Code"
  | .exceptions _, name => name = "Exceptions"
  | .annotations _, name => name ∈ annotationNames
  | .unknown _, name => name ∉ "Code" :: "Exceptions" :: annotationNames

/-- What is said about a method, as a method of which nothing else is known. -/
def said? (pool : List Constant) : Content → Option Method
  | .code c => do
      return {
        access := 0, name := "", descriptor := "", hasCode := true
        calls := ← calls? pool 0 c.instructions
        usesMonitorEnter := c.instructions.any Instruction.isMonitorEnter }
  | .exceptions classes => do
      return {
        access := 0, name := "", descriptor := ""
        exceptions := ← classes.mapM (Pool.className? pool) }
  | .annotations as => do
      return {
        access := 0, name := "", descriptor := ""
        annotations := ← as.mapM (AnnotationInfo.view? pool) }
  | .unknown _ => some { access := 0, name := "", descriptor := "" }

end Content

/-- An attribute of a class or a method. -/
structure Attribute where
  name : UInt16
  content : Content

namespace Attribute

def encode (a : Attribute) : Bytes :=
  index a.name ++ octets4 a.content.encode.length ++ a.content.encode

def fits (a : Attribute) : Bool := a.content.encode.length < 0x100000000 && a.content.fits

/-- What an attribute says about the method that has it. -/
def methodView? (pool : List Constant) (a : Attribute) : Option Method :=
  match Pool.text? pool a.name with
  | some name => if a.content.isNamed name then a.content.said? pool else none
  | none => none

/-- The annotations that an attribute gives to the class that has it. Only attributes with
annotations mean something there. -/
def classView? (pool : List Constant) (a : Attribute) : Option (List String) :=
  match Pool.text? pool a.name, a.content with
  | some name, .annotations as =>
      if name ∈ annotationNames then as.mapM (AnnotationInfo.view? pool) else none
  | some name, _ => if name ∈ annotationNames then none else some []
  | none, _ => none

end Attribute

/-! ## Classes -/

/-- A field; nothing is seen of it. -/
structure Field where
  access : UInt16
  name : UInt16
  descriptor : UInt16
  attributes : List RawAttribute
  deriving DecidableEq, Repr

namespace Field

def encode (f : Field) : Bytes :=
  index f.access ++ index f.name ++ index f.descriptor ++ counted RawAttribute.encode f.attributes

def fits (f : Field) : Bool := isCountable f.attributes && f.attributes.all RawAttribute.fits

end Field

/-- A method. -/
structure Method where
  access : UInt16
  name : UInt16
  descriptor : UInt16
  attributes : List Attribute

namespace Method

def encode (m : Method) : Bytes :=
  index m.access ++ index m.name ++ index m.descriptor ++ counted Attribute.encode m.attributes

def fits (m : Method) : Bool := isCountable m.attributes && m.attributes.all Attribute.fits

/-- What there is to see of a method: what all its attributes say, in their order. -/
def view? (pool : List Constant) (m : Method) : Option FiberWeave.Method := do
  let said ← m.attributes.mapM (Attribute.methodView? pool)
  return {
    access := m.access.toNat
    name := ← Pool.text? pool m.name
    descriptor := ← Pool.text? pool m.descriptor
    exceptions := said.flatMap FiberWeave.Method.exceptions
    annotations := said.flatMap FiberWeave.Method.annotations
    calls := said.flatMap FiberWeave.Method.calls
    hasCode := said.any FiberWeave.Method.hasCode
    usesMonitorEnter := said.any FiberWeave.Method.usesMonitorEnter }

end Method

/-- A class file. -/
structure Class where
  minorVersion : UInt16
  majorVersion : UInt16
  pool : List Constant
  access : UInt16
  thisClass : UInt16
  superClass : UInt16
  interfaces : List UInt16
  fields : List Field
  methods : List Method
  attributes : List Attribute

namespace Class

def encode (c : Class) : Bytes :=
  octets4 0xCAFEBABE ++ index c.minorVersion ++ index c.majorVersion ++
    octets2 (Pool.slots c.pool + 1) ++ c.pool.flatMap Constant.encode ++
    index c.access ++ index c.thisClass ++ index c.superClass ++ counted index c.interfaces ++
    counted Field.encode c.fields ++ counted Method.encode c.methods ++
    counted Attribute.encode c.attributes

def fits (c : Class) : Bool :=
  Pool.slots c.pool ≤ 65534 && c.pool.all Constant.fits && isCountable c.interfaces &&
    isCountable c.fields && c.fields.all Field.fits && isCountable c.methods &&
    c.methods.all Method.fits && isCountable c.attributes && c.attributes.all Attribute.fits

/-- The name of the superclass; there is none at index zero. -/
def superName? (pool : List Constant) (i : UInt16) : Option (Option String) :=
  if i = 0 then some none else (Pool.className? pool i).map some

/-- What there is to see of a class. -/
def view? (c : Class) : Option ClassFile := do
  return {
    minorVersion := c.minorVersion.toNat
    majorVersion := c.majorVersion.toNat
    access := c.access.toNat
    name := ← Pool.className? c.pool c.thisClass
    superName := ← superName? c.pool c.superClass
    interfaces := ← c.interfaces.mapM (Pool.className? c.pool)
    methods := ← c.methods.mapM (Method.view? c.pool)
    annotations := (← c.attributes.mapM (Attribute.classView? c.pool)).flatten }

end Class

end FiberWeave.ClassFile.Format

import FiberWeave.ClassFile.Parse
import FiberWeave.Proofs.ClassFile.Words

/-!
# The parser on machine words

The parser once more, part by part, as it is carried out on machine words: every octet is reached by
an index, every constant is written to its place in a table that was laid out before, and every sum,
difference and product is worked out in the word that holds it. What is looked up in the pool, and
the values that are returned, are those of the parser without words.

* `decode` — modified UTF-8, by an index that goes up.
* `readConstant`, `fill`, `readPool` — the constant pool.
* `nominalLength`, `instructionLength`, `walk` — the instructions of a code array.
* `parse` — a whole class file.
-/

namespace FiberWeave.ClassFile.Machine

open FiberWeave.ClassFile.Machine.Step

/-! ## Modified UTF-8 -/

/-- The six bits of the continuation octet at an index. -/
def continuation? (bs : Bytes) (i : UInt64) : Option Nat :=
  bs[i.toNat]?.bind ModifiedUtf8.continuation?

/-- The unit whose octets start at `i`, and the index behind them. -/
def unitAt (bs : Bytes) (i : UInt64) : Calc (Option (Nat × UInt64)) := do
  let a ← octet bs i
  if 0x01 ≤ a.toNat ∧ a.toNat ≤ 0x7F then return some (a.toNat, ← add i 1)
  else if 0xC0 ≤ a.toNat ∧ a.toNat ≤ 0xDF then
    match continuation? bs (← add i 1) with
    | some low => return some (a.toNat % 32 * 64 + low, ← add i 2)
    | none => return none
  else if 0xE0 ≤ a.toNat ∧ a.toNat ≤ 0xEF then
    match continuation? bs (← add i 1) with
    | some mid =>
        match continuation? bs (← add i 2) with
        | some low => return some (a.toNat % 16 * 4096 + mid * 64 + low, ← add i 3)
        | none => return none
    | none => return none
  else return none

/-- A loop that goes forward has fewer and fewer octets before it. -/
theorem left_lt {i next stop : UInt64} (hin : i < stop) (hnext : i < next) :
    stop.toNat - next.toNat < stop.toNat - i.toNat := by
  rw [UInt64.lt_iff_toNat_lt] at hin hnext
  omega

/-- The units from an index on. -/
def units (bs : Bytes) (i : UInt64) : Calc (Option (List Nat)) :=
  if _hin : i < size bs then do
    match ← unitAt bs i with
    | none => return none
    | some (u, next) =>
        if _hnext : i < next then return (← units bs next).map (u :: ·)
        else .fault .standstill
  else return some []
termination_by (size bs).toNat - i.toNat
decreasing_by exact left_lt ‹_› ‹_›

def decode (bs : Bytes) : Calc (Option String) := do
  if bs.all ModifiedUtf8.isPlain then
    return some (String.ofList (bs.map fun b => Char.ofNat b.toNat))
  else return (← units bs 0).bind fun us => (ModifiedUtf8.chars? us).map String.ofList

/-! ## The constant pool -/

/-- Reads the constant that has the given index. -/
def readConstant (index : UInt16) : Step Constant := do
  let tag ← u1
  match tag.toNat with
  | 1 => do
      let length ← u2
      let body ← take length.toUInt64
      match ← decode body with
      | some text => return .utf8 text
      | none => return .undecodable
  | 3 | 4 | 9 | 17 | 18 => do skip 4; return .other
  | 5 | 6 => do skip 8; return .wide
  | 7 => return .classRef (← u2).toNat
  | 8 | 16 | 19 | 20 => do skip 2; return .other
  | 10 | 11 => return .methodRef (← u2).toNat (← u2).toNat
  | 12 => return .nameAndType (← u2).toNat (← u2).toNat
  | 15 => do skip 3; return .other
  | _ => throw (.unknownConstant tag.toNat index.toNat)

/-- The number of indices that a constant takes. -/
def slots : Constant → UInt16
  | .wide => 2
  | _ => 1

theorem slots_pos (constant : Constant) : 0 < (slots constant).toNat := by
  unfold slots
  split <;> decide

/-- An index that stops at the last word still goes up while it is below a count. -/
theorem lt_saturatingAdd {index count more : UInt16} (hin : index < count)
    (hmore : 0 < more.toNat) : index.toNat < (saturatingAdd index more).toNat := by
  rw [UInt16.lt_iff_toNat_lt] at hin
  have hcount := count.toNat_lt
  rw [toNat_saturatingAdd]
  omega

/-- Reads constants into the table until the index comes to `count`. -/
def fill (count index : UInt16) (table : Array Constant) : Step (Array Constant) :=
  if _hin : index < count then do
    let constant ← readConstant index
    let table ← store table index.toUInt64 constant
    fill count (saturatingAdd index (slots constant)) table
  else return table
termination_by count.toNat - index.toNat
decreasing_by
  have hin : index.toNat < count.toNat := UInt16.lt_iff_toNat_lt.1 ‹_›
  have hup := lt_saturatingAdd ‹_› (slots_pos constant)
  omega

/-- Reads the pool at the cursor into a table with room for all indices below its count. -/
def readPool : Step Pool := do
  let count ← u2
  let table ← fill count 1 (Array.replicate (max count 1).toNat .unusable)
  return ⟨table⟩

/-! ## Instructions -/

/-- The number in a field of a code array, put together by `join`. -/
def field {α : Type} (code : Bytes) (start width : UInt64) (join : Bytes → Calc α) : Calc α := do
  match piece? code start (← add start width) with
  | some octets => join octets
  | none => throw (.truncated start.toNat)

def operand16 (code : Bytes) (start : UInt64) : Calc UInt16 := field code start 2 word16

def operand32 (code : Bytes) (start : UInt64) : Calc Int32 :=
  field code start 4 fun octets => return (← word32 octets).toInt32

def switchPadding (pc : UInt64) : Calc UInt64 := do
  return (← sub 4 ((← add pc 1) % 4)) % 4

/-- Where the operands of a switch start. -/
def switchBase (pc : UInt64) : Calc UInt64 := do
  add (← add pc 1) (← switchPadding pc)

/-- From an opcode to the end of a switch: what every switch of its kind has from `base` on, and so
many cases of so many octets. -/
def switchLength (pc base front cases width : UInt64) : Calc UInt64 := do
  add (← add (← sub base pc) front) (← mul cases width)

def tableSwitchLength (code : Bytes) (pc : UInt64) : Calc UInt64 := do
  let base ← switchBase pc
  let low ← operand32 code (← add base 4)
  let high ← operand32 code (← add base 8)
  let cases ← addSigned (← subSigned high.toInt64 low.toInt64) 1
  if cases < 0 then throw (.badOpcode Instruction.tableSwitch pc.toNat)
  switchLength pc base 12 cases.toUInt64 4

def lookupSwitchLength (code : Bytes) (pc : UInt64) : Calc UInt64 := do
  let base ← switchBase pc
  let pairs ← operand32 code (← add base 4)
  if pairs < 0 then throw (.badOpcode Instruction.lookupSwitch pc.toNat)
  switchLength pc base 8 pairs.toInt64.toUInt64 8

/-- How long the instruction at `pc` is by its opcode and by what follows. -/
def nominalLength (code : Bytes) (pc : UInt64) : Calc UInt64 := do
  let opcode := (← octet code pc).toNat
  if opcode = Instruction.tableSwitch then tableSwitchLength code pc
  else if opcode = Instruction.lookupSwitch then lookupSwitchLength code pc
  else if opcode = Instruction.wide then do
    let second ← add pc 1
    match code[second.toNat]? with
    | none => throw (.truncated second.toNat)
    | some inner => return if inner.toNat = Instruction.increment then 6 else 4
  else
    match Instruction.fixedOperandCount? opcode with
    | some n => return UInt64.ofNat (n + 1)
    | none => throw (.badOpcode opcode pc.toNat)

/-- How long the instruction at `pc` is, if it is all there. -/
def instructionLength (code : Bytes) (pc : UInt64) : Calc UInt64 := do
  let length ← nominalLength code pc
  if size code < (← add pc length) then throw (.truncated code.length)
  else return length

/-- The call of an instruction that calls a method, once this method has been looked up. -/
def callsAt (pool : Pool) (code : Bytes) (pc : UInt64) (opcode : Nat) : Calc (List CallSite) :=
  if Instruction.isInvoke opcode then do
    let index ← operand16 code (← add pc 1)
    let target ← pool.memberRef index.toNat
    return [⟨target, pc.toNat⟩]
  else return []

/-- Reads instructions until `pc` is no more in the code array, where it is to be at the end. -/
def walk (pool : Pool) (code : Bytes) (pc : UInt64) : Calc Code :=
  if _hin : pc < size code then do
    let opcode ← octet code pc
    let calls ← callsAt pool code pc opcode.toNat
    let next ← add pc (← instructionLength code pc)
    if _hnext : pc < next then do
      let later ← walk pool code next
      return {
        calls := calls ++ later.calls
        usesMonitorEnter :=
          opcode.toNat == Instruction.monitorEnter || later.usesMonitorEnter }
    else .fault .standstill
  else if pc = size code then return {}
  else .fault .overrun
termination_by (size code).toNat - pc.toNat
decreasing_by exact left_lt ‹_› ‹_›

/-! ## Attributes -/

def skipAttributes : Step Unit := do
  let count ← u2
  let _ ← times (do skip 2; skip (← u4).toUInt64) count.toNat

def readAttribute (pool : Pool) : Step (String × Bytes) := do
  let index ← u2
  let name ← pool.text index.toNat
  let length ← u4
  let body ← take length.toUInt64
  return (name, body)

def readCode (pool : Pool) (body : Bytes) : Step Code :=
  within body do
    skip 4
    let size ← u4
    let instructions ← take size.toUInt64
    let code ← walk pool instructions 0
    let handlers ← u2
    skip (← mul handlers.toUInt64 8)
    skipAttributes
    return code

def readClassName (pool : Pool) : Step String := do
  let index ← u2
  pool.className index.toNat

def readExceptions (pool : Pool) (body : Bytes) : Step (List String) :=
  within body do
    let count ← u2
    times (readClassName pool) count.toNat

def readType (pool : Pool) (value : Step Unit) : Step String := do
  let index ← u2
  let name ← pool.text index.toNat
  let pairs ← u2
  let _ ← times (do skip 2; value) pairs.toNat
  return name

/-- Passes over a value with at most `depth` levels of nesting. -/
def skipValue (pool : Pool) : (depth : Nat) → Step Unit
  | 0 => do throw (.truncated (← position).toNat)
  | depth + 1 => do
      let start ← position
      let tag ← u1
      if Annotation.isSimpleKind tag.toNat then skip 2
      else if tag.toNat = 'e'.toNat then skip 4
      else if tag.toNat = '@'.toNat then do
        let _ ← readType pool (skipValue pool depth)
      else if tag.toNat = '['.toNat then do
        let count ← u2
        let _ ← times (skipValue pool depth) count.toNat
      else throw (.truncated start.toNat)

def readTypes (pool : Pool) (body : Bytes) : Step (List String) :=
  within body do
    let count ← u2
    times (readType pool (skipValue pool (body.length + 1))) count.toNat

/-! ## Methods and classes -/

def addAttribute (pool : Pool) (m : Method) (name : String) (body : Bytes) : Step Method := do
  if name == "Code" then
    let code ← readCode pool body
    return { m with
      hasCode := true
      calls := m.calls ++ code.calls
      usesMonitorEnter := m.usesMonitorEnter || code.usesMonitorEnter }
  else if name == "Exceptions" then
    return { m with exceptions := m.exceptions ++ (← readExceptions pool body) }
  else if isAnnotationsAttribute name then
    return { m with annotations := m.annotations ++ (← readTypes pool body) }
  else return m

def addAttributes (pool : Pool) (m : Method) : (count : Nat) → Step Method
  | 0 => return m
  | count + 1 => do
      let (name, body) ← readAttribute pool
      let m ← addAttribute pool m name body
      addAttributes pool m count

def readMethod (pool : Pool) : Step Method := do
  let access ← u2
  let name ← pool.text (← u2).toNat
  let descriptor ← pool.text (← u2).toNat
  let count ← u2
  addAttributes pool { access := access.toNat, name, descriptor } count.toNat

def readClassAnnotations (pool : Pool) : (count : Nat) → Step (List String)
  | 0 => return []
  | count + 1 => do
      let (name, body) ← readAttribute pool
      let types ← if isAnnotationsAttribute name then readTypes pool body else pure []
      return types ++ (← readClassAnnotations pool count)

def expectEnd : Step Unit := fun r => do
  let left ← sub (size r.bytes) r.pos
  if 0 < left then throw (.trailingBytes left.toNat) else return ((), r)

def read : Step ClassFile := do
  let magic ← u4
  if magic.toNat ≠ magicNumber then throw (.badMagic magic.toNat)
  let minorVersion ← u2
  let majorVersion ← u2
  let pool ← readPool
  let access ← u2
  let name ← pool.className (← u2).toNat
  let superIndex ← u2
  let superName ← if superIndex = 0 then pure none else some <$> pool.className superIndex.toNat
  let interfaceCount ← u2
  let interfaces ← times (readClassName pool) interfaceCount.toNat
  let fieldCount ← u2
  let _ ← times (do skip 6; skipAttributes) fieldCount.toNat
  let methodCount ← u2
  let methods ← times (readMethod pool) methodCount.toNat
  let attributeCount ← u2
  let annotations ← readClassAnnotations pool attributeCount.toNat
  return {
    minorVersion := minorVersion.toNat
    majorVersion := majorVersion.toNat
    access := access.toNat
    name, superName, interfaces, methods, annotations }

/-- The class that a byte string holds, and nothing more. -/
def parse (bytes : Bytes) : Calc ClassFile := do
  let (c, _) ← (do let c ← read; expectEnd; return c : Step ClassFile).run { bytes }
  return c

end FiberWeave.ClassFile.Machine

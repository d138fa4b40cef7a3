import FiberWeave.ClassFile.Pool

/-!
# The instructions of a method

A code array is a row of instructions, each an opcode and the operands that belong to it. Only the
lengths matter here, so that the next opcode is found, and two kinds of instruction: invokes,
whose target is looked up at once, and the one that enters a monitor.

* `Instruction.operandCount` — how many octets follow an opcode.
* `Code.scan` — the calls and the use of monitors of a whole code array.
-/

namespace FiberWeave.ClassFile

namespace Instruction

def tableSwitch : Nat := 0xAA
def lookupSwitch : Nat := 0xAB
def monitorEnter : Nat := 0xC2
def wide : Nat := 0xC4
def increment : Nat := 0x84

/-- The four opcodes that call a method named by the two octets after them. -/
def isInvoke (opcode : Nat) : Bool := 0xB6 ≤ opcode && opcode ≤ 0xB9

/-- The operand octets of an opcode that always takes the same number of them. Switches and the
prefix `wide` are not among these. -/
def fixedOperandCount? (opcode : Nat) : Option Nat :=
  if opcode ≤ 0x0F then some 0
  else if opcode = 0x10 then some 1
  else if opcode = 0x11 then some 2
  else if opcode = 0x12 then some 1
  else if opcode ≤ 0x14 then some 2
  else if opcode ≤ 0x19 then some 1
  else if opcode ≤ 0x35 then some 0
  else if opcode ≤ 0x3A then some 1
  else if opcode ≤ 0x83 then some 0
  else if opcode = increment then some 2
  else if opcode ≤ 0x98 then some 0
  else if opcode ≤ 0xA8 then some 2
  else if opcode = 0xA9 then some 1
  else if opcode ≤ lookupSwitch then none
  else if opcode ≤ 0xB1 then some 0
  else if opcode ≤ 0xB8 then some 2
  else if opcode ≤ 0xBA then some 4
  else if opcode = 0xBB then some 2
  else if opcode = 0xBC then some 1
  else if opcode = 0xBD then some 2
  else if opcode ≤ 0xBF then some 0
  else if opcode ≤ 0xC1 then some 2
  else if opcode ≤ 0xC3 then some 0
  else if opcode = wide then none
  else if opcode = 0xC5 then some 3
  else if opcode ≤ 0xC7 then some 2
  else if opcode ≤ 0xC9 then some 4
  else none

/-- The unused octets between the opcode of a switch and its operands, which start at a multiple
of four. -/
def switchPadding (offset : Nat) : Nat := (4 - (offset + 1) % 4) % 4

/-- The two octets that start `skip` octets into `operands`, where the operands start at offset
`start` of the code array. -/
def operand16 (start skip : Nat) (operands : Bytes) : Except Error Nat :=
  let field : Bytes := (operands.drop skip).take 2
  if field.length = 2 then .ok field.number else .error (.truncated (start + skip))

/-- The signed number of four octets that starts `skip` octets into `operands`. -/
def operand32 (start skip : Nat) (operands : Bytes) : Except Error Int :=
  let field : Bytes := (operands.drop skip).take 4
  if field.length = 4 then .ok field.signed32 else .error (.truncated (start + skip))

/-- How many octets after the opcode at `offset` belong to its instruction, judged from the octets
that follow. The octets need not all be there. -/
def operandCount (offset opcode : Nat) (operands : Bytes) : Except Error Nat :=
  if opcode = tableSwitch then do
    let padding := switchPadding offset
    let low ← operand32 (offset + 1) (padding + 4) operands
    let high ← operand32 (offset + 1) (padding + 8) operands
    let cases := high - low + 1
    if cases < 0 then throw (.badOpcode opcode offset)
    return padding + 12 + 4 * cases.toNat
  else if opcode = lookupSwitch then do
    let padding := switchPadding offset
    let pairs ← operand32 (offset + 1) (padding + 4) operands
    if pairs < 0 then throw (.badOpcode opcode offset)
    return padding + 8 + 8 * pairs.toNat
  else if opcode = wide then
    match operands with
    | [] => throw (.truncated (offset + 1))
    | inner :: _ => return if inner.toNat = increment then 5 else 3
  else
    match fixedOperandCount? opcode with
    | some n => return n
    | none => throw (.badOpcode opcode offset)

end Instruction

/-- What a code array does that matters here. -/
structure Code where
  calls : List CallSite := []
  usesMonitorEnter : Bool := false
  deriving DecidableEq, Repr, Inhabited

/-- Reads the instructions of a code array of `size` octets from `offset` on. The target of an
invoke is looked up before the length of the instruction is checked. -/
def Code.scan (pool : Pool) (size offset : Nat) : (code : Bytes) → Except Error Code
  | [] => .ok {}
  | first :: operands => do
      let opcode := first.toNat
      let calls ←
        if Instruction.isInvoke opcode then do
          let index ← Instruction.operand16 (offset + 1) 0 operands
          let target ← pool.memberRef index
          pure [CallSite.mk target offset]
        else pure []
      let count ← Instruction.operandCount offset opcode operands
      if hasAtLeast count operands then do
        let later ← scan pool size (offset + 1 + count) (operands.drop count)
        return {
          calls := calls ++ later.calls
          usesMonitorEnter := opcode == Instruction.monitorEnter || later.usesMonitorEnter }
      else throw (.truncated size)
termination_by code => code.length
decreasing_by simp only [List.length_drop, List.length_cons]; omega

end FiberWeave.ClassFile

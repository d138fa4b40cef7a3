import FiberWeave.Proofs.ClassFile.RoundTrip
import Mathlib.Data.List.ReduceOption

/-!
# The calls in a code attribute

An instruction stands where the octets of the instructions before it end, and so does the call that
it makes.  `callSites` says this of all instructions at once, without a scan; a scan that took one
operand for an opcode, or one opcode for an operand, would give other calls.

* `encodeCode_append` — instructions behind others are written from where these end.
* `callsFrom_eq` — the calls that a scan collects are those that `callSites` names.
* `exists_instruction_iff` — there are instructions for all opcodes up to `0xC9`, and for no others.
* **`addAttribute_code`** — a code attribute adds to a method the calls of its instructions.

The pool is any one in which the methods are found, and what stands in a code attribute besides its
instructions is arbitrary.
-/

namespace FiberWeave.ClassFile

open Format FiberWeave.ClassFile.Parser

/-! ## Where instructions stand -/

/-- The calls that instructions make, in their order; each is at the offset where the octets of the
instructions before it end. -/
def callSites (target : UInt16 → MemberRef) (instructions : List Format.Instruction) :
    List CallSite :=
  (instructions.mapIdx fun k i => i.method?.map fun method =>
    CallSite.mk (target method) (encodeCode 0 (instructions.take k)).length).reduceOption

theorem encodeCode_append (offset : Nat) (before after : List Format.Instruction) :
    encodeCode offset (before ++ after) =
      encodeCode offset before ++ encodeCode (offset + (encodeCode offset before).length) after := by
  induction before generalizing offset with
  | nil => rfl
  | cons i rest ih =>
      rw [List.cons_append, encodeCode, encodeCode, ih, List.append_assoc, List.length_append,
        Nat.add_assoc]

/-- The calls of the last instructions of a code array, with the ones before them counted in. -/
theorem callsFrom_eq_of_append (target : UInt16 → MemberRef)
    (before after : List Format.Instruction) :
    callsFrom target (encodeCode 0 before).length after =
      (after.mapIdx fun k i => i.method?.map fun method => CallSite.mk (target method)
        (encodeCode 0 (before ++ after.take k)).length).reduceOption := by
  induction after generalizing before with
  | nil => rfl
  | cons i rest ih =>
      have hnext : (encodeCode 0 before).length + (i.encode (encodeCode 0 before).length).length =
          (encodeCode 0 (before ++ [i])).length := by
        rw [encodeCode_append, List.length_append, Nat.zero_add]
        simp [encodeCode]
      have hbefore : ∀ k, before ++ (i :: rest).take (k + 1) = before ++ [i] ++ rest.take k := by
        intro k
        simp
      rw [callsFrom, hnext, ih, List.mapIdx_cons]
      simp only [hbefore, List.take_zero, List.append_nil]
      cases i.method? with
      | none => exact (List.reduceOption_cons_of_none _).symm
      | some method => exact (List.reduceOption_cons_of_some _ _).symm

/-- **The calls that a scan collects are at the offsets where their instructions stand.** -/
theorem callsFrom_eq (target : UInt16 → MemberRef) (instructions : List Format.Instruction) :
    callsFrom target 0 instructions = callSites target instructions :=
  callsFrom_eq_of_append target [] instructions

/-! ## What instructions there are -/

/-- The opcodes with a place of their own among the instructions. -/
def specialOpcodes : List Nat := [0xAA, 0xAB, 0xB6, 0xB7, 0xB8, 0xB9, 0xC4]

theorem le_of_mem_plainOpcodes {opcode operands : Nat}
    (h : opcode ∈ plainOpcodes operands) : opcode ≤ 0xC9 := by
  have hall : ∀ n < 5, ∀ opcode ∈ plainOpcodes n, opcode ≤ 0xC9 := by decide +kernel
  by_cases hsmall : operands < 5
  · exact hall operands hsmall opcode h
  · obtain ⟨n, rfl⟩ := Nat.exists_eq_add_of_le (Nat.not_lt.1 hsmall)
    rw [Nat.add_comm] at h
    exact absurd h List.not_mem_nil

/-- **There are instructions for all opcodes up to `0xC9`, and for no others.** -/
theorem exists_instruction_iff (opcode : UInt8) :
    (∃ i : Format.Instruction, i.fits = true ∧ ∀ offset, (i.encode offset).head? = some opcode) ↔
      opcode.toNat ≤ 0xC9 := by
  constructor
  · rintro ⟨i, hfits, hhead⟩
    have hfirst := hhead 0
    cases i with
    | plain first operands =>
        obtain rfl : first = opcode := Option.some.inj hfirst
        exact le_of_mem_plainOpcodes (by simpa [Format.Instruction.fits] using hfits)
    | invoke kind method =>
        obtain rfl : kind.opcode = opcode := Option.some.inj hfirst
        cases kind <;> decide
    | invokeInterface | tableSwitch | lookupSwitch | wide | wideIncrement =>
        obtain rfl := Option.some.inj hfirst
        decide
  · intro hle
    have hall : ∀ n ≤ 0xC9, (∃ k < 5, n ∈ plainOpcodes k) ∨ n ∈ specialOpcodes := by
      decide +kernel
    rcases hall opcode.toNat hle with ⟨k, -, hplain⟩ | hspecial
    · refine ⟨.plain opcode (List.replicate k 0), ?_, fun _ => rfl⟩
      simpa [Format.Instruction.fits] using hplain
    · have hcases : opcode = 0xAA ∨ opcode = 0xAB ∨ opcode = 0xB6 ∨ opcode = 0xB7 ∨
          opcode = 0xB8 ∨ opcode = 0xB9 ∨ opcode = 0xC4 := by
        simpa [specialOpcodes, ← UInt8.toNat_inj] using hspecial
      rcases hcases with rfl | rfl | rfl | rfl | rfl | rfl | rfl
      · exact ⟨.tableSwitch (fun _ => 0) 0 0 [0], by decide, fun _ => rfl⟩
      · exact ⟨.lookupSwitch (fun _ => 0) 0 [], by decide, fun _ => rfl⟩
      · exact ⟨.invoke .virtual 0, rfl, fun _ => rfl⟩
      · exact ⟨.invoke .special 0, rfl, fun _ => rfl⟩
      · exact ⟨.invoke .static 0, rfl, fun _ => rfl⟩
      · exact ⟨.invokeInterface 0 0 0, rfl, fun _ => rfl⟩
      · exact ⟨.wideIncrement 0 0, rfl, fun _ => rfl⟩

/-- Among instructions, only one enters a monitor. -/
theorem isMonitorEnter_iff {i : Format.Instruction} (hfits : i.fits = true) :
    i.isMonitorEnter = true ↔ i = .plain 0xC2 [] := by
  constructor
  · intro h
    cases i with
    | plain opcode operands =>
        obtain rfl : opcode = 0xC2 := by simpa [Format.Instruction.isMonitorEnter] using h
        have hcount : some 0 = some operands.length := (plain_opcode hfits).count
        rw [List.length_eq_zero_iff.1 (Option.some.inj hcount).symm]
    | _ => cases h
  · rintro rfl
    rfl

/-! ## Code attributes -/

/-- **A code attribute adds to a method the calls of its instructions**, one for each instruction
that calls a method, and says whether one of them enters a monitor. -/
theorem addAttribute_code {pool : Pool} {target : UInt16 → MemberRef} {code : Format.Code}
    (hfits : code.fits = true) (htarget : Resolves pool target code.instructions) (m : Method)
    (c : Cursor) :
    ∃ m', addAttribute pool m "Code" code.encode c = .ok (m', c) ∧
      m'.calls = m.calls ++ callSites target code.instructions ∧
      (m'.usesMonitorEnter = true ↔
        m.usesMonitorEnter = true ∨ .plain 0xC2 [] ∈ code.instructions) ∧
      m' = { m with
        hasCode := true, calls := m'.calls, usesMonitorEnter := m'.usesMonitorEnter } := by
  have hread := reads_code hfits htarget c.rest c.offset
  rw [callsFrom_eq] at hread
  have hinstructions : ∀ i ∈ code.instructions, i.fits = true := by
    simp only [Format.Code.fits, Bool.and_eq_true, List.all_eq_true] at hfits
    exact hfits.1.1.1.1
  refine ⟨{ m with
    hasCode := true
    calls := m.calls ++ callSites target code.instructions
    usesMonitorEnter := m.usesMonitorEnter ||
      code.instructions.any Format.Instruction.isMonitorEnter }, ?_, rfl, ?_, rfl⟩
  · exact congrArg (· >>= fun r : Code × Cursor => .ok ({ m with
      hasCode := true
      calls := m.calls ++ r.1.calls
      usesMonitorEnter := m.usesMonitorEnter || r.1.usesMonitorEnter }, r.2)) hread
  · rw [Bool.or_eq_true, List.any_eq_true]
    refine or_congr Iff.rfl ⟨?_, fun hmem => ⟨_, hmem, rfl⟩⟩
    rintro ⟨i, hi, henters⟩
    rwa [(isMonitorEnter_iff (hinstructions i hi)).1 henters] at hi

/-- Constants that name one method, at index 6. -/
def runPool : Pool :=
  ⟨#[.unusable, .utf8 "A", .classRef 1, .utf8 "run", .utf8 "()V", .nameAndType 3 4, .methodRef 2 5]⟩

/-- The method that they name. -/
def runRef : MemberRef := ⟨"A", "run", "()V"⟩

/-- A code array in which octets of operands could be taken for opcodes of calls and of monitors. -/
def maskedCode : Format.Code where
  maxStack := 1
  maxLocals := 1
  instructions := [
    .plain 0x10 [0xB8],
    .tableSwitch (fun _ => 0xC2) 0xB6 0 [0xB8],
    .wide 0x15 0xB8B9,
    .invoke .static 6,
    .lookupSwitch (fun _ => 0xB7) 0xC2 [(0xB6, 0xB9)],
    .plain 0xC2 [],
    .invokeInterface 6 0xB8 0xC2,
    .plain 0xB1 []]
  handlers := [⟨0, 0xB8, 0xC2, 0⟩]
  attributes := [⟨1, [0xB8, 0xC2]⟩]

theorem addAttribute_code_masked :
    ∃ m', addAttribute runPool { access := 1, name := "go", descriptor := "()V" } "Code"
        maskedCode.encode ⟨[], 0⟩ = .ok (m', ⟨[], 0⟩) ∧
      m'.calls = [⟨runRef, 24⟩, ⟨runRef, 45⟩] ∧ m'.usesMonitorEnter = true := by
  have htarget : Resolves runPool (fun _ => runRef) maskedCode.instructions := by
    intro i hi method hmethod
    have hindices : maskedCode.instructions.filterMap Format.Instruction.method? = [6, 6] := rfl
    have hmem := List.mem_filterMap.2 ⟨i, hi, hmethod⟩
    obtain rfl : method = 6 := by simpa [hindices] using hmem
    rfl
  have hsites : callSites (fun _ => runRef) maskedCode.instructions =
      [⟨runRef, 24⟩, ⟨runRef, 45⟩] := by decide +kernel
  obtain ⟨m', hread, hcalls, hmonitor, -⟩ := addAttribute_code (by decide +kernel) htarget
    { access := 1, name := "go", descriptor := "()V" } ⟨[], 0⟩
  refine ⟨m', hread, ?_, hmonitor.2 (.inr (by simp [maskedCode]))⟩
  rw [hcalls, hsites, List.nil_append]

end FiberWeave.ClassFile

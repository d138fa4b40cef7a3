import FiberWeave.ClassFile.Code
import FiberWeave.Proofs.ClassFile.Reads

/-!
# Reading the instructions of a method

A scan goes by the lengths of instructions.  One wrong length, and everything after it is misread, so
each kind of instruction is shown to be as long for the scan as it is written.

* `plain_opcode` — the opcodes with a fixed number of operands, against the table of the scan.
* `operand32_signed` — numbers in the operands of a switch.
* `Instruction.stepped` — what the scan makes of the front of one instruction.
* **`scan_encodeCode`** — a scan of a code array finds the calls in it and the use of monitors,
  whatever pool their methods are found in; `resolves_of_calls?` — the pool of a class file is one.
-/

namespace FiberWeave.ClassFile

open Format

/-! ## Opcodes -/

/-- What the scan knows of an opcode with a fixed number of operands. -/
structure IsPlain (opcode operands : Nat) : Prop where
  count : Instruction.fixedOperandCount? opcode = some operands
  not_invoke : Instruction.isInvoke opcode = false
  not_tableSwitch : opcode ≠ Instruction.tableSwitch
  not_lookupSwitch : opcode ≠ Instruction.lookupSwitch
  not_wide : opcode ≠ Instruction.wide

theorem plain_opcode {opcode operands : Nat} (h : (plainOpcodes operands).contains opcode = true) :
    IsPlain opcode operands := by
  have hall : ∀ n < 5, ∀ opcode ∈ plainOpcodes n, Instruction.fixedOperandCount? opcode = some n ∧
      Instruction.isInvoke opcode = false ∧ opcode ≠ Instruction.tableSwitch ∧
      opcode ≠ Instruction.lookupSwitch ∧ opcode ≠ Instruction.wide := by decide +kernel
  have hmem : opcode ∈ plainOpcodes operands := by simpa using h
  have hsmall : operands < 5 := by
    by_contra hlarge
    obtain ⟨n, rfl⟩ := Nat.exists_eq_add_of_le (Nat.not_lt.1 hlarge)
    rw [Nat.add_comm] at hmem
    exact absurd hmem List.not_mem_nil
  obtain ⟨hcount, hinvoke, htable, hlookup, hwide⟩ := hall operands hsmall opcode hmem
  exact ⟨hcount, hinvoke, htable, hlookup, hwide⟩

theorem wide_opcode {opcode : Nat} (h : wideOpcodes.contains opcode = true) :
    opcode ≠ Instruction.increment := by
  have hall : ∀ opcode ∈ wideOpcodes, opcode ≠ Instruction.increment := by decide
  exact hall opcode (by simpa using h)

/-! ## Operands -/

theorem padding_eq (offset : Nat) : Instruction.switchPadding offset = padding offset := by
  simp only [Instruction.switchPadding, padding]
  omega

theorem length_fill (filler : Fin 3 → UInt8) (offset : Nat) :
    (fill filler offset).length = padding offset := by
  simp [fill, padding]

theorem signed32_signedOctets4 {n : Int} (hlow : -0x80000000 ≤ n) (hhigh : n < 0x80000000) :
    Bytes.signed32 (signedOctets4 n) = n := by
  have hnumber : Bytes.number (signedOctets4 n) = (n % 0x100000000).toNat :=
    Parser.number_octets4 (by omega)
  simp only [Bytes.signed32, hnumber]
  split <;> omega

theorem signedOctets4_natCast {n : Nat} (h : n < 0x80000000) :
    signedOctets4 (n : Int) = octets4 n := by
  have hmod : ((n : Int) % 0x100000000).toNat = n := by omega
  rw [signedOctets4, hmod]

/-- A number that stands behind other operands. -/
theorem operand32_signed {start skip : Nat} {n : Int} {front back : Bytes}
    (hskip : front.length = skip) (hlow : -0x80000000 ≤ n) (hhigh : n < 0x80000000) :
    Instruction.operand32 start skip (front ++ (signedOctets4 n ++ back)) = .ok n := by
  have hlength : (signedOctets4 n).length = 4 := rfl
  have hfield : ((front ++ (signedOctets4 n ++ back)).drop skip).take 4 = signedOctets4 n := by
    rw [← hskip, List.drop_left, ← hlength, List.take_left]
  simp only [Instruction.operand32, hfield, hlength, if_true, signed32_signedOctets4 hlow hhigh]

theorem length_flatMap_const {α : Type} {encode : α → Bytes} {n : Nat}
    (h : ∀ a, (encode a).length = n) (parts : List α) :
    (parts.flatMap encode).length = n * parts.length := by
  simp [List.length_flatMap, h, Nat.mul_comm]

theorem operand16_index {start : Nat} {i : UInt16} {back : Bytes} :
    Instruction.operand16 start 0 (index i ++ back) = .ok i.toNat := by
  have hfield : ((index i ++ back).drop 0).take 2 = index i := rfl
  have hlength : (index i).length = 2 := rfl
  simp only [Instruction.operand16, hfield, hlength, if_true]
  rw [index, Parser.number_octets2 i.toNat_lt]

/-! ## Instructions -/

/-- What a scan makes of the opcode of an instruction and of the operands behind it. -/
structure Stepped (offset : Nat) (i : Format.Instruction) (first : UInt8) (operands : Bytes) :
    Prop where
  encode : i.encode offset = first :: operands
  count : ∀ later, Instruction.operandCount offset first.toNat (operands ++ later) =
    .ok operands.length
  method : ∀ m, i.method? = some m → Instruction.isInvoke first.toNat = true ∧
    ∀ later, Instruction.operand16 (offset + 1) 0 (operands ++ later) = .ok m.toNat
  noMethod : i.method? = none → Instruction.isInvoke first.toNat = false
  monitor : (first.toNat == Instruction.monitorEnter) = i.isMonitorEnter

theorem toNat_beq_monitorEnter (opcode : UInt8) :
    (opcode.toNat == Instruction.monitorEnter) = (opcode == 0xC2) := by
  rw [Bool.eq_iff_iff, beq_iff_eq, beq_iff_eq, ← UInt8.toNat_inj]
  rfl

theorem stepped_plain (offset : Nat) {opcode : UInt8} {operands : Bytes}
    (h : IsPlain opcode.toNat operands.length) :
    Stepped offset (.plain opcode operands) opcode operands where
  encode := rfl
  count later := by
    simp only [Instruction.operandCount, h.not_tableSwitch, h.not_lookupSwitch, h.not_wide, if_false,
      h.count]
    rfl
  method := nofun
  noMethod _ := h.not_invoke
  monitor := toNat_beq_monitorEnter opcode

theorem stepped_invoke (offset : Nat) (kind : InvokeKind) (method : UInt16) :
    Stepped offset (.invoke kind method) kind.opcode (index method) where
  encode := rfl
  count later := by cases kind <;> rfl
  method m hm := by
    obtain rfl := Option.some.inj hm
    exact ⟨by cases kind <;> rfl, fun _ => operand16_index⟩
  noMethod := nofun
  monitor := by cases kind <;> rfl

theorem stepped_invokeInterface (offset : Nat) (method : UInt16) (count last : UInt8) :
    Stepped offset (.invokeInterface method count last) 0xB9 (index method ++ [count, last]) where
  encode := rfl
  count later := rfl
  method m hm := by
    obtain rfl := Option.some.inj hm
    refine ⟨rfl, fun later => ?_⟩
    rw [List.append_assoc]
    exact operand16_index
  noMethod := nofun
  monitor := rfl

/-- What stands before the numbers of a switch. -/
theorem length_switchFront (filler : Fin 3 → UInt8) (offset otherwise : Nat) :
    (fill filler offset ++ octets4 otherwise).length = Instruction.switchPadding offset + 4 := by
  rw [List.length_append, length_fill, padding_eq]
  rfl

/-- The length of a switch over successive numbers. -/
theorem operandCount_tableSwitch {offset : Nat} {operands : Bytes} {low high : Int}
    (hlow : Instruction.operand32 (offset + 1) (Instruction.switchPadding offset + 4) operands =
      .ok low)
    (hhigh : Instruction.operand32 (offset + 1) (Instruction.switchPadding offset + 8) operands =
      .ok high)
    (hcases : 0 ≤ high - low + 1) :
    Instruction.operandCount offset Instruction.tableSwitch operands =
      .ok (Instruction.switchPadding offset + 12 + 4 * (high - low + 1).toNat) := by
  unfold Instruction.operandCount
  rw [if_pos rfl]
  dsimp only
  rw [hlow, hhigh]
  exact if_neg (Int.not_lt.2 hcases)

/-- The length of a switch over pairs of numbers and places. -/
theorem operandCount_lookupSwitch {offset : Nat} {operands : Bytes} {pairs : Int}
    (hpairs : Instruction.operand32 (offset + 1) (Instruction.switchPadding offset + 4) operands =
      .ok pairs) (hcount : 0 ≤ pairs) :
    Instruction.operandCount offset Instruction.lookupSwitch operands =
      .ok (Instruction.switchPadding offset + 8 + 8 * pairs.toNat) := by
  unfold Instruction.operandCount
  rw [if_neg (by decide), if_pos rfl]
  dsimp only
  rw [hpairs]
  exact if_neg (Int.not_lt.2 hcount)

theorem stepped_tableSwitch (offset : Nat) {filler : Fin 3 → UInt8} {otherwise : UInt32} {low : Int}
    {jumps : List UInt32}
    (h : (Format.Instruction.tableSwitch filler otherwise low jumps).fits = true) :
    Stepped offset (.tableSwitch filler otherwise low jumps) 0xAA
      (fill filler offset ++ octets4 otherwise.toNat ++ signedOctets4 low ++
        signedOctets4 (low + jumps.length - 1) ++
        jumps.flatMap fun jump => octets4 jump.toNat) where
  encode := by simp [Format.Instruction.encode]
  count later := by
    simp only [Format.Instruction.fits, Bool.and_eq_true, decide_eq_true_eq] at h
    obtain ⟨⟨⟨hmin, hmin'⟩, hmax'⟩, hmax⟩ := h
    have hfront := length_switchFront filler offset otherwise.toNat
    have hfront' : (fill filler offset ++ octets4 otherwise.toNat ++ signedOctets4 low).length =
        Instruction.switchPadding offset + 8 := by
      rw [List.length_append, hfront]
      rfl
    have hjumps := length_flatMap_const (n := 4) (fun jump : UInt32 =>
      (rfl : (octets4 jump.toNat).length = 4)) jumps
    generalize (jumps.flatMap fun jump => octets4 jump.toNat) = places at hjumps ⊢
    have hlow : Instruction.operand32 (offset + 1) (Instruction.switchPadding offset + 4)
        (fill filler offset ++ octets4 otherwise.toNat ++ signedOctets4 low ++
          signedOctets4 (low + jumps.length - 1) ++ places ++ later) = .ok low := by
      rw [List.append_assoc, List.append_assoc, List.append_assoc _ (signedOctets4 low)]
      exact operand32_signed hfront hmin hmax
    have hhigh : Instruction.operand32 (offset + 1) (Instruction.switchPadding offset + 8)
        (fill filler offset ++ octets4 otherwise.toNat ++ signedOctets4 low ++
          signedOctets4 (low + jumps.length - 1) ++ places ++ later) =
          .ok (low + jumps.length - 1) := by
      rw [List.append_assoc, List.append_assoc _ (signedOctets4 (low + jumps.length - 1))]
      exact operand32_signed hfront' hmin' hmax'
    have hcases : low + jumps.length - 1 - low + 1 = jumps.length := by omega
    refine (operandCount_tableSwitch hlow hhigh (by omega)).trans ?_
    rw [hcases, List.length_append, List.length_append, hfront', hjumps, Int.toNat_natCast]
    rfl
  method := nofun
  noMethod _ := rfl
  monitor := rfl

theorem stepped_lookupSwitch (offset : Nat) {filler : Fin 3 → UInt8} {otherwise : UInt32}
    {jumps : List (UInt32 × UInt32)}
    (h : (Format.Instruction.lookupSwitch filler otherwise jumps).fits = true) :
    Stepped offset (.lookupSwitch filler otherwise jumps) 0xAB
      (fill filler offset ++ octets4 otherwise.toNat ++ octets4 jumps.length ++
        jumps.flatMap fun jump => octets4 jump.1.toNat ++ octets4 jump.2.toNat) where
  encode := by simp [Format.Instruction.encode]
  count later := by
    have hcount : jumps.length < 0x80000000 := by simpa [Format.Instruction.fits] using h
    have hfront := length_switchFront filler offset otherwise.toNat
    have hjumps := length_flatMap_const (n := 8) (fun jump : UInt32 × UInt32 =>
      (rfl : (octets4 jump.1.toNat ++ octets4 jump.2.toNat).length = 8)) jumps
    generalize (jumps.flatMap fun jump => octets4 jump.1.toNat ++ octets4 jump.2.toNat) = places
      at hjumps ⊢
    have hpairs : Instruction.operand32 (offset + 1) (Instruction.switchPadding offset + 4)
        (fill filler offset ++ octets4 otherwise.toNat ++ octets4 jumps.length ++ places ++ later) =
          .ok jumps.length := by
      rw [List.append_assoc, List.append_assoc _ (octets4 jumps.length),
        ← signedOctets4_natCast hcount]
      exact operand32_signed hfront (by omega) (by omega)
    refine (operandCount_lookupSwitch hpairs (by omega)).trans ?_
    rw [List.length_append, List.length_append, hfront, hjumps, Int.toNat_natCast]
    rfl
  method := nofun
  noMethod _ := rfl
  monitor := rfl

theorem stepped_wide (offset : Nat) {opcode : UInt8} (slot : UInt16)
    (h : opcode.toNat ≠ Instruction.increment) :
    Stepped offset (.wide opcode slot) 0xC4 (opcode :: index slot) where
  encode := rfl
  count later := by
    have hcount : Instruction.operandCount offset Instruction.wide (opcode :: index slot ++ later) =
        .ok (if opcode.toNat = Instruction.increment then 5 else 3) := rfl
    rw [if_neg h] at hcount
    exact hcount
  method := nofun
  noMethod _ := rfl
  monitor := rfl

theorem stepped_wideIncrement (offset : Nat) (slot amount : UInt16) :
    Stepped offset (.wideIncrement slot amount) 0xC4 (0x84 :: index slot ++ index amount) where
  encode := rfl
  count _ := rfl
  method := nofun
  noMethod _ := rfl
  monitor := rfl

theorem exists_stepped (offset : Nat) {i : Format.Instruction} (hi : i.fits = true) :
    ∃ first operands, Stepped offset i first operands := by
  cases i with
  | plain opcode operands => exact ⟨_, _, stepped_plain offset (plain_opcode hi)⟩
  | invoke kind method => exact ⟨_, _, stepped_invoke offset kind method⟩
  | invokeInterface method count last =>
      exact ⟨_, _, stepped_invokeInterface offset method count last⟩
  | tableSwitch filler otherwise low jumps => exact ⟨_, _, stepped_tableSwitch offset hi⟩
  | lookupSwitch filler otherwise jumps => exact ⟨_, _, stepped_lookupSwitch offset hi⟩
  | wide opcode slot => exact ⟨_, _, stepped_wide offset slot (wide_opcode hi)⟩
  | wideIncrement slot amount => exact ⟨_, _, stepped_wideIncrement offset slot amount⟩

/-! ## Code arrays -/

section Scan

variable {pool : Pool} {size offset : Nat} {i : Format.Instruction} {first : UInt8}
  {operands later : Bytes} {code : Code}

/-- What a scan does once it knows the calls of an instruction. -/
theorem scan_rest (hi : Stepped offset i first operands)
    (hlater : Code.scan pool size (offset + 1 + operands.length) later = .ok code)
    (calls : List CallSite) : (do
      let count ← Instruction.operandCount offset first.toNat (operands ++ later)
      if hasAtLeast count (operands ++ later) then do
        let later ← Code.scan pool size (offset + 1 + count) ((operands ++ later).drop count)
        return (⟨calls ++ later.calls,
          first.toNat == Instruction.monitorEnter || later.usesMonitorEnter⟩ : Code)
      else throw (Error.truncated size)) =
    .ok ⟨calls ++ code.calls, i.isMonitorEnter || code.usesMonitorEnter⟩ := by
  have hroom : hasAtLeast operands.length (operands ++ later) = true := by
    rw [hasAtLeast_iff, List.length_append]
    exact Nat.le_add_right _ _
  rw [hi.count later, ← hi.monitor]
  change (if hasAtLeast operands.length (operands ++ later) = true then _ else _) = _
  rw [if_pos hroom, List.drop_left, hlater]
  rfl

theorem scan_plain (hi : Stepped offset i first operands)
    (hlater : Code.scan pool size (offset + 1 + operands.length) later = .ok code)
    (hinvoke : Instruction.isInvoke first.toNat = false) :
    Code.scan pool size offset (first :: (operands ++ later)) =
      .ok ⟨code.calls, i.isMonitorEnter || code.usesMonitorEnter⟩ := by
  rw [Code.scan]
  dsimp only
  rw [if_neg (by simp [hinvoke])]
  exact scan_rest hi hlater []

theorem scan_call (hi : Stepped offset i first operands)
    (hlater : Code.scan pool size (offset + 1 + operands.length) later = .ok code)
    (hinvoke : Instruction.isInvoke first.toNat = true) {index : Nat} {target : MemberRef}
    (hindex : Instruction.operand16 (offset + 1) 0 (operands ++ later) = .ok index)
    (htarget : pool.memberRef index = .ok target) :
    Code.scan pool size offset (first :: (operands ++ later)) =
      .ok ⟨⟨target, offset⟩ :: code.calls, i.isMonitorEnter || code.usesMonitorEnter⟩ := by
  rw [Code.scan]
  dsimp only
  rw [if_pos hinvoke, hindex]
  change (pool.memberRef index >>= _) = _
  rw [htarget]
  exact scan_rest hi hlater [⟨target, offset⟩]

end Scan

/-- The calls of instructions from an offset of the code array on, where it is known which methods
their indices name. -/
def callsFrom (target : UInt16 → MemberRef) (offset : Nat) :
    List Format.Instruction → List CallSite
  | [] => []
  | i :: rest =>
      (i.method?.map fun method => ⟨target method, offset⟩).toList ++
        callsFrom target (offset + (i.encode offset).length) rest

/-- The methods that instructions call by their indices are found in a pool. -/
def Resolves (pool : Pool) (target : UInt16 → MemberRef) (instructions : List Format.Instruction) :
    Prop :=
  ∀ i ∈ instructions, ∀ method, i.method? = some method →
    pool.memberRef method.toNat = .ok (target method)

/-- A scan goes over whatever it can step over. -/
theorem scan_of_stepped {pool : Pool} {target : UInt16 → MemberRef} {size offset : Nat}
    {instructions : List Format.Instruction}
    (hstepped : ∀ i ∈ instructions, ∀ offset, ∃ first operands, Stepped offset i first operands)
    (htarget : Resolves pool target instructions) :
    Code.scan pool size offset (encodeCode offset instructions) =
      .ok ⟨callsFrom target offset instructions,
        instructions.any Format.Instruction.isMonitorEnter⟩ := by
  induction instructions generalizing offset with
  | nil =>
      rw [encodeCode, Code.scan]
      rfl
  | cons i rest ih =>
      obtain ⟨first, operands, hi⟩ := hstepped i (by simp) offset
      have hlength : offset + (i.encode offset).length = offset + 1 + operands.length := by
        rw [hi.encode, List.length_cons]
        omega
      have hrest : Code.scan pool size (offset + 1 + operands.length) _ = .ok _ :=
        ih (fun j hj => hstepped j (.tail _ hj)) fun j hj => htarget j (.tail _ hj)
      rw [encodeCode, callsFrom, hlength, hi.encode, List.cons_append, List.any_cons]
      cases hmethod : i.method? with
      | none => exact scan_plain hi hrest (hi.noMethod hmethod)
      | some method =>
          obtain ⟨hinvoke, hoperand⟩ := hi.method method hmethod
          exact scan_call hi hrest hinvoke (hoperand _) (htarget i (by simp) method hmethod)

/-- **A scan of a code array finds the calls in it and the use of monitors.** -/
theorem scan_encodeCode {pool : Pool} {target : UInt16 → MemberRef} {size offset : Nat}
    {instructions : List Format.Instruction} (hfits : ∀ i ∈ instructions, i.fits = true)
    (htarget : Resolves pool target instructions) :
    Code.scan pool size offset (encodeCode offset instructions) =
      .ok ⟨callsFrom target offset instructions,
        instructions.any Format.Instruction.isMonitorEnter⟩ :=
  scan_of_stepped (fun i hi offset => exists_stepped offset (hfits i hi)) htarget

/-- Where the format says which calls there are, their methods are found in the pool that is read. -/
theorem resolves_of_calls? {pool : List Format.Constant} {offset : Nat}
    {instructions : List Format.Instruction} {calls : List CallSite}
    (hcalls : calls? pool offset instructions = some calls) :
    ∃ target, Resolves (tableOf pool) target instructions ∧
      calls = callsFrom target offset instructions := by
  refine ⟨fun method => (Format.Pool.memberRef? pool method).getD default, ?_⟩
  induction instructions generalizing offset calls with
  | nil =>
      obtain rfl := Option.some.inj hcalls
      exact ⟨nofun, rfl⟩
  | cons i rest ih =>
      rw [calls?] at hcalls
      obtain ⟨later, hlater, hcalls⟩ := Option.bind_eq_some_iff.1 hcalls
      obtain ⟨hresolves, hrest⟩ := ih hlater
      rw [callsFrom, ← hrest]
      cases hmethod : i.method? with
      | none =>
          obtain rfl : later = calls := by simpa [hmethod] using hcalls
          refine ⟨List.forall_mem_cons.2 ⟨?_, hresolves⟩, rfl⟩
          simp [hmethod]
      | some method =>
          simp only [hmethod, Option.bind_eq_bind, Option.bind_eq_some_iff, Option.pure_def,
            Option.some.injEq] at hcalls
          obtain ⟨target, htarget, rfl⟩ := hcalls
          refine ⟨List.forall_mem_cons.2 ⟨fun other hother => ?_, hresolves⟩, by simp [htarget]⟩
          obtain rfl := Option.some.inj (hmethod.symm.trans hother)
          simpa [htarget] using memberRef_of_memberRef? htarget

end FiberWeave.ClassFile

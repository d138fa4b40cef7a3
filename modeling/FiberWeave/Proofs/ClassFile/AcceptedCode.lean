import FiberWeave.Proofs.ClassFile.Extent
import FiberWeave.Proofs.ClassFile.Recognition

/-!
# Code arrays that are accepted

A scan that succeeds has cut the code array into pieces, and a row of pieces is all that it looks
for.  The octets tell where each piece ends, so there is one way to cut them, and a code array with
something else than instructions in it is no row of instructions when it is cut in another way.

* `scan_cons_eq_ok`, `exists_of_scan_cons` — one step of a scan that succeeds.
* `scan_eq_ok_iff` — the code arrays that a scan accepts, and what it finds in them.
* `forall_not_isLapse` — a row of instructions is not also one with lapses.
* **`readCode_instructions`** — in a code attribute that is read, the code array is a row of
  instructions and lapses from its first octet to its last, and is one of instructions only if
  there is no lapse in it.
-/

namespace FiberWeave.ClassFile

open Format FiberWeave.ClassFile.Parser

/-! ## Code arrays -/

section Scan

variable {pool : Pool} {size offset : Nat} {first : UInt8} {operands : Bytes} {code : Code}

/-- The call at an offset, if there is one. -/
def callsAt (pool : Pool) (offset opcode : Nat) (operands : Bytes) :
    Except Error (List CallSite) :=
  if Instruction.isInvoke opcode then do
    let index ← Instruction.operand16 (offset + 1) 0 operands
    let target ← pool.memberRef index
    return [⟨target, offset⟩]
  else return []

theorem scan_cons :
    Code.scan pool size offset (first :: operands) = (do
      let calls ← callsAt pool offset first.toNat operands
      let count ← Instruction.operandCount offset first.toNat operands
      if hasAtLeast count operands then do
        let later ← Code.scan pool size (offset + 1 + count) (operands.drop count)
        return ⟨calls ++ later.calls,
          first.toNat == Instruction.monitorEnter || later.usesMonitorEnter⟩
      else throw (Error.truncated size)) := by
  rw [Code.scan, callsAt]
  dsimp only
  split
  · simp only [bind_assoc, pure_bind]
  · simp only [pure_bind]

theorem scan_cons_eq_ok (h : Code.scan pool size offset (first :: operands) = .ok code) :
    ∃ calls count later, callsAt pool offset first.toNat operands = .ok calls ∧
      Instruction.operandCount offset first.toNat operands = .ok count ∧
      count ≤ operands.length ∧
      Code.scan pool size (offset + 1 + count) (operands.drop count) = .ok later ∧
      code = ⟨calls ++ later.calls,
        first.toNat == Instruction.monitorEnter || later.usesMonitorEnter⟩ := by
  rw [scan_cons] at h
  obtain ⟨calls, hcalls, h⟩ := exists_of_bind_eq_ok h
  obtain ⟨count, hcount, h⟩ := exists_of_bind_eq_ok h
  split at h
  case isFalse => cases h
  case isTrue hroom =>
      obtain ⟨later, hlater, h⟩ := exists_of_bind_eq_ok h
      exact ⟨calls, count, later, hcalls, hcount, (hasAtLeast_iff _ _).1 hroom, hlater,
        (Except.ok.inj h).symm⟩

/-- The method that an index names in a pool. -/
def Pool.named (pool : Pool) (method : UInt16) : MemberRef :=
  (pool.memberRef method.toNat).toOption.getD default

theorem Pool.named_of_memberRef {method : UInt16} {target : MemberRef}
    (h : pool.memberRef method.toNat = .ok target) : pool.named method = target := by
  rw [Pool.named, h]
  rfl

/-- The call that an instruction is. -/
theorem callsAt_eq_ok {i : Format.Instruction} {later : Bytes} {calls : List CallSite}
    (hi : Stepped offset i first operands)
    (h : callsAt pool offset first.toNat (operands ++ later) = .ok calls) :
    (∀ method, i.method? = some method →
      pool.memberRef method.toNat = .ok (pool.named method)) ∧
    calls = (i.method?.map fun method => ⟨pool.named method, offset⟩).toList := by
  unfold callsAt at h
  cases hmethod : i.method? with
  | none =>
      rw [hi.noMethod hmethod] at h
      exact ⟨nofun, (Except.ok.inj h).symm⟩
  | some method =>
      obtain ⟨hinvoke, hindex⟩ := hi.method method hmethod
      rw [if_pos hinvoke, hindex later] at h
      obtain ⟨target, htarget, h⟩ := exists_of_bind_eq_ok (α := MemberRef) h
      have hnamed : pool.named method = target := Pool.named_of_memberRef htarget
      obtain rfl := Except.ok.inj h
      refine ⟨fun other hother => ?_, by simp [hnamed]⟩
      obtain rfl := Option.some.inj hother
      rw [hnamed, htarget]

/-- What a scan does with an opcode and the octets behind it. -/
theorem exists_of_scan_cons (h : Code.scan pool size offset (first :: operands) = .ok code) :
    ∃ (i : Format.Instruction) (rest : Bytes) (later : Code), (i.IsWellFormed ∨ i.IsLapse) ∧
      first :: operands = i.encode offset ++ rest ∧
      Code.scan pool size (offset + (i.encode offset).length) rest = .ok later ∧
      (∀ method, i.method? = some method →
        pool.memberRef method.toNat = .ok (pool.named method)) ∧
      code = ⟨(i.method?.map fun method => ⟨pool.named method, offset⟩).toList ++ later.calls,
        i.isMonitorEnter || later.usesMonitorEnter⟩ := by
  obtain ⟨calls, count, later, hcalls, hcount, hroom, hlater, rfl⟩ := scan_cons_eq_ok h
  obtain ⟨i, hi, hencode⟩ := exists_encode hcount hroom
  obtain ⟨first', operands', hstepped⟩ := exists_stepped_of_accepted hi offset
  -- the opcode and the operands are those that the scan has found
  obtain ⟨rfl, rfl⟩ := List.cons.inj (hstepped.encode.symm.trans hencode)
  rw [← List.take_append_drop count operands] at hcalls
  obtain ⟨hresolves, rfl⟩ := callsAt_eq_ok hstepped hcalls
  refine ⟨i, operands.drop count, later, hi, ?_, ?_, hresolves, ?_⟩
  · rw [hencode, List.cons_append, List.take_append_drop]
  · rw [hencode, List.length_cons, List.length_take_of_le hroom, Nat.add_comm count,
      ← Nat.add_assoc]
    exact hlater
  · rw [← hstepped.monitor]

/-- **A scan accepts just the code arrays that are rows of instructions and of what is taken for
one**, if the methods that these call are found in the pool. -/
theorem scan_eq_ok_iff {array : Bytes} :
    Code.scan pool size offset array = .ok code ↔
      ∃ instructions : List Format.Instruction, array = encodeCode offset instructions ∧
        (∀ i ∈ instructions, i.IsWellFormed ∨ i.IsLapse) ∧
        Resolves pool pool.named instructions ∧
        code = ⟨callsFrom pool.named offset instructions,
          instructions.any Format.Instruction.isMonitorEnter⟩ := by
  constructor
  · -- by the length of the array, as the scan itself goes
    intro h
    induction hlength : array.length using Nat.strongRecOn
      generalizing offset array code with
    | _ length ih =>
    cases array with
    | nil =>
        rw [Code.scan] at h
        obtain rfl := Except.ok.inj h
        exact ⟨[], rfl, fun _ h => absurd h List.not_mem_nil, fun _ h => absurd h List.not_mem_nil,
          rfl⟩
    | cons first operands =>
        obtain ⟨i, rest, later, hi, hcons, hlater, hresolves, rfl⟩ := exists_of_scan_cons h
        obtain ⟨first', operands', hstepped⟩ := exists_stepped_of_accepted hi offset
        have hshort : rest.length < length := by
          rw [← hlength, hcons, hstepped.encode, List.length_append, List.length_cons]
          omega
        obtain ⟨instructions, rfl, haccepted, htargets, rfl⟩ := ih _ hshort hlater rfl
        refine ⟨i :: instructions, hcons, List.forall_mem_cons.2 ⟨hi, haccepted⟩,
          List.forall_mem_cons.2 ⟨hresolves, htargets⟩, ?_⟩
        rw [callsFrom, List.any_cons]
  · rintro ⟨instructions, rfl, haccepted, hresolves, rfl⟩
    exact scan_of_stepped (fun i hi => exists_stepped_of_accepted (haccepted i hi)) hresolves

end Scan

/-! ## One reading only -/

/-- What is taken for an instruction does not look like one. -/
theorem encode_ne_of_isLapse {i j : Format.Instruction} {offset : Nat} (hi : i.IsWellFormed)
    (hj : j.IsLapse) : i.encode offset ≠ j.encode offset := by
  intro heq
  have hhead := congrArg List.head? heq
  cases hj with
  | emptyTable h =>
      cases i with
      | tableSwitch filler otherwise low jumps =>
          have hoctets : ∀ n, (octets4 n).length = 4 := fun _ => rfl
          have hsigned : ∀ n, (signedOctets4 n).length = 4 := fun _ => rfl
          have hjumps := length_flatMap_const (fun jump : UInt32 => hoctets jump.toNat) jumps
          have hlength := congrArg List.length heq
          simp only [Format.Instruction.encode, List.cons_append, List.length_cons,
            List.length_append, length_fill, hoctets, hsigned, hjumps, List.flatMap_nil,
            List.length_nil] at hlength
          exact hi.2 (List.length_eq_zero_iff.1 (by omega))
      | plain opcode operands =>
          obtain rfl : opcode = 0xAA := Option.some.inj hhead
          exact (plain_opcode hi).not_tableSwitch rfl
      | invoke kind method => cases kind <;> cases hhead
      | invokeInterface | lookupSwitch | wide | wideIncrement => cases hhead
  | strayWide h hincrement =>
      cases i with
      | wide opcode slot =>
          obtain rfl := (List.cons.inj (List.cons.inj heq).2).1
          exact Bool.false_ne_true (h.symm.trans hi)
      | wideIncrement slot amount => exact hincrement (List.cons.inj (List.cons.inj heq).2).1.symm
      | plain opcode operands =>
          obtain rfl : opcode = 0xC4 := Option.some.inj hhead
          exact (plain_opcode hi).not_wide rfl
      | invoke kind method => cases kind <;> cases hhead
      | invokeInterface | tableSwitch | lookupSwitch => cases hhead

/-- The octets of a code array tell where its first instruction ends. -/
theorem encode_eq_of_append_eq {i j : Format.Instruction} {offset : Nat} {rest rest' : Bytes}
    (hi : i.IsWellFormed ∨ i.IsLapse) (hj : j.IsWellFormed ∨ j.IsLapse)
    (heq : i.encode offset ++ rest = j.encode offset ++ rest') :
    i.encode offset = j.encode offset ∧ rest = rest' := by
  obtain ⟨first, operands, hstepped⟩ := exists_stepped_of_accepted hi offset
  obtain ⟨first', operands', hstepped'⟩ := exists_stepped_of_accepted hj offset
  rw [hstepped.encode, hstepped'.encode] at heq ⊢
  obtain ⟨rfl, htail⟩ := List.cons.inj heq
  have hcount := hstepped.count rest
  rw [show operands ++ rest = operands' ++ rest' from htail, hstepped'.count rest'] at hcount
  obtain ⟨rfl, rfl⟩ := List.append_inj htail (Except.ok.inj hcount).symm
  exact ⟨rfl, rfl⟩

theorem encode_ne_nil {i : Format.Instruction} (hi : i.IsWellFormed ∨ i.IsLapse) (offset : Nat) :
    i.encode offset ≠ [] := by
  obtain ⟨first, operands, hstepped⟩ := exists_stepped_of_accepted hi offset
  rw [hstepped.encode]
  exact List.cons_ne_nil _ _

/-- A row of instructions cannot be read as one with lapses in it. -/
theorem forall_not_isLapse {offset : Nat} {row other : List Format.Instruction}
    (hrow : ∀ i ∈ row, i.IsWellFormed) (hother : ∀ i ∈ other, i.IsWellFormed ∨ i.IsLapse)
    (heq : encodeCode offset row = encodeCode offset other) : ∀ i ∈ other, ¬i.IsLapse := by
  induction row generalizing offset other with
  | nil =>
      cases other with
      | nil => exact nofun
      | cons j other =>
          exact absurd (List.append_eq_nil_iff.1 heq.symm).1
            (encode_ne_nil (hother j (by simp)) offset)
  | cons i row ih =>
      have hi : i.IsWellFormed := hrow i (by simp)
      cases other with
      | nil =>
          exact absurd (List.append_eq_nil_iff.1 heq).1 (encode_ne_nil (.inl hi) offset)
      | cons j other =>
          obtain ⟨hencode, hrest⟩ := encode_eq_of_append_eq (.inl hi) (hother j (by simp)) heq
          rw [hencode] at hrest
          refine List.forall_mem_cons.2 ⟨fun hj => encode_ne_of_isLapse hi hj hencode, ?_⟩
          exact ih (fun k hk => hrow k (.tail _ hk)) (fun k hk => hother k (.tail _ hk)) hrest

/-! ## Code attributes -/

theorem take_eq_ok {n : Nat} {c d : Cursor} {bytes : Bytes} (h : take n c = .ok (bytes, d)) :
    c.rest = bytes ++ d.rest ∧ bytes.length = n := by
  obtain ⟨hroom, rfl, rfl⟩ := (take_ok_iff n c d bytes).1 h
  exact ⟨(List.take_append_drop n c.rest).symm, List.length_take_of_le hroom⟩

theorem lift_eq_ok {α : Type} {attempt : Except Error α} {c d : Cursor} {a : α}
    (h : (liftM attempt : Parser α) c = .ok (a, d)) : attempt = .ok a := by
  cases attempt with
  | error => cases h
  | ok => exact congrArg Except.ok (Prod.mk.inj (Except.ok.inj h)).1

/-- What stands in the body of a code attribute up to the end of its code array. -/
theorem readCode_eq_ok {pool : Pool} {body : Bytes} {c d : Cursor} {code : Code}
    (h : readCode pool body c = .ok (code, d)) :
    ∃ front array rest : Bytes, front.length = 4 ∧ array.length < 0x100000000 ∧
      body = front ++ octets4 array.length ++ array ++ rest ∧
      Code.scan pool array.length 0 array = .ok code := by
  unfold readCode Parser.within at h
  split at h
  case h_2 => cases h
  case h_1 code' after hbody =>
      obtain ⟨rfl, rfl⟩ := Prod.mk.inj (Except.ok.inj h)
      obtain ⟨_, c₁, hskip, hbody⟩ := bind_eq_ok hbody
      obtain ⟨front, _, hfront, hend⟩ := bind_eq_ok hskip
      obtain ⟨-, rfl⟩ := Prod.mk.inj (Except.ok.inj hend)
      obtain ⟨size, c₂, hsize, hbody⟩ := bind_eq_ok hbody
      obtain ⟨field, _, hfield, hend⟩ := bind_eq_ok hsize
      obtain ⟨rfl, rfl⟩ := Prod.mk.inj (Except.ok.inj hend)
      obtain ⟨array, c₃, harray, hbody⟩ := bind_eq_ok hbody
      obtain ⟨code'', c₄, hscan, hbody⟩ := bind_eq_ok hbody
      obtain ⟨handlers, c₅, -, hbody⟩ := bind_eq_ok hbody
      obtain ⟨_, c₆, -, hbody⟩ := bind_eq_ok hbody
      obtain ⟨_, c₇, -, hend⟩ := bind_eq_ok hbody
      obtain ⟨rfl, -⟩ := Prod.mk.inj (Except.ok.inj hend)
      obtain ⟨hrest, hfrontLength⟩ := take_eq_ok hfront
      obtain ⟨hrest', hfieldLength⟩ := take_eq_ok hfield
      obtain ⟨hrest'', hsize⟩ := take_eq_ok harray
      have hnumber : octets4 array.length = field := by rw [hsize, octets4_number hfieldLength]
      refine ⟨front, array, c₃.rest, hfrontLength, hsize ▸ number_lt hfieldLength, ?_, ?_⟩
      · rw [hnumber, List.append_assoc, ← hrest'', List.append_assoc, ← hrest', ← hrest]
      · rw [hsize]
        exact lift_eq_ok hscan

/-- **In a code attribute that is read, the code array is a row of instructions, from its first octet
to its last**, except that a switch over successive numbers may be one over none and that `wide` may
stand in front of any opcode.  It is a row of instructions of the format exactly if neither occurs. -/
theorem readCode_instructions {pool : Pool} {body : Bytes} {c d : Cursor} {code : Code}
    (h : readCode pool body c = .ok (code, d)) :
    ∃ (front array rest : Bytes) (instructions : List Format.Instruction),
      front.length = 4 ∧ array.length < 0x100000000 ∧
      body = front ++ octets4 array.length ++ array ++ rest ∧
      array = encodeCode 0 instructions ∧
      (∀ i ∈ instructions, i.IsWellFormed ∨ i.IsLapse) ∧
      ((∃ row, array = encodeCode 0 row ∧ ∀ i ∈ row, i.IsWellFormed) ↔
        ∀ i ∈ instructions, ¬i.IsLapse) := by
  obtain ⟨front, array, rest, hfront, hsize, hbody, hscan⟩ := readCode_eq_ok h
  obtain ⟨instructions, harray, haccepted, -, -⟩ := scan_eq_ok_iff.1 hscan
  refine ⟨front, array, rest, instructions, hfront, hsize, hbody, harray, haccepted, ?_, ?_⟩
  · rintro ⟨row, hrow, hwellFormed⟩
    exact forall_not_isLapse hwellFormed haccepted (hrow.symm.trans harray)
  · intro hnone
    exact ⟨instructions, harray, fun i hi => (haccepted i hi).resolve_right (hnone i hi)⟩

/-- Both lapses, in front of an instruction that returns. -/
def lapsingCode : List Format.Instruction :=
  [.wide 0x00 0, .tableSwitch (fun _ => 0) 17 1 [], .plain 0xB1 []]

/-- The body of a code attribute with them. -/
def lapsingBody : Bytes :=
  octets4 0x10001 ++ octets4 21 ++ encodeCode 0 lapsingCode ++ octets4 0

theorem readCode_instructions_lapsingBody :
    readCode ⟨#[]⟩ lapsingBody ⟨[], 0⟩ = .ok (⟨[], false⟩, ⟨[], 0⟩) ∧
    ∃ (front array rest : Bytes) (instructions : List Format.Instruction),
      front.length = 4 ∧ lapsingBody = front ++ octets4 array.length ++ array ++ rest ∧
      array = encodeCode 0 instructions ∧ (∃ i ∈ instructions, i.IsLapse) ∧
      ¬∃ row, array = encodeCode 0 row ∧ ∀ i ∈ row, i.IsWellFormed := by
  have hread : readCode ⟨#[]⟩ lapsingBody ⟨[], 0⟩ = .ok (⟨[], false⟩, ⟨[], 0⟩) := by
    decide +kernel
  obtain ⟨front, array, rest, instructions, hfront, hsize, hbody, harray, -, hwellFormed⟩ :=
    readCode_instructions hread
  have hlapse : (Format.Instruction.wide 0x00 0).IsLapse := .strayWide rfl (by decide)
  have haccepted : ∀ i ∈ lapsingCode, i.IsWellFormed ∨ i.IsLapse := by
    simp only [lapsingCode, List.forall_mem_cons]
    exact ⟨.inr hlapse, .inr (.emptyTable rfl), .inl rfl, nofun⟩
  -- the array is the one that was written
  have hsame : array = encodeCode 0 lapsingCode := by
    rw [lapsingBody, List.append_assoc, List.append_assoc, List.append_assoc,
      List.append_assoc] at hbody
    obtain ⟨-, hbody⟩ := List.append_inj hbody hfront.symm
    obtain ⟨hlength, hbody⟩ := List.append_inj hbody rfl
    have hcount := congrArg Bytes.number hlength
    rw [number_octets4 (by decide), number_octets4 hsize] at hcount
    exact (List.append_inj hbody hcount).1.symm
  have hnone : ¬∃ row, array = encodeCode 0 row ∧ ∀ i ∈ row, i.IsWellFormed := by
    rintro ⟨row, hrow, hall⟩
    exact forall_not_isLapse hall haccepted (hrow.symm.trans hsame) _ List.mem_cons_self hlapse
  refine ⟨hread, front, array, rest, instructions, hfront, hbody, harray, ?_, hnone⟩
  by_contra habsent
  exact hnone (hwellFormed.2 fun i hi hi' => habsent ⟨i, hi, hi'⟩)

end FiberWeave.ClassFile

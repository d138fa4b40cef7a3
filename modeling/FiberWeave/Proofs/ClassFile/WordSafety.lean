import FiberWeave.Proofs.ClassFile.AcceptedCode
import FiberWeave.Proofs.ClassFile.WordPool

/-!
# No fault in reading

Class files come from anywhere, and so do the numbers in them.  Whatever they are, the parser on
machine words finds every octet it asks for, keeps every number in its word and writes to places
that there are; each of its steps follows a step of the parser that knows no words.

* `switchBase_eq`, `switchLength_eq` — the lengths of switches are far from the end of the words,
  for all bounds and counts of 32 bits.
* `agrees_instructionLength` — an instruction that is all there takes an octet or more and ends
  within the code array; **`agrees_walk`** — so the walk over it ends where it does.
* `follows_code`, `follows_value`, `follows_method`, `follows_read` — the parts of a class file.
* **`parse_safe`** — no class file, and nothing that is taken for one, makes the parser come to a
  fault.
-/

namespace FiberWeave.ClassFile.Machine

open FiberWeave.ClassFile.Machine.Step

/-! ## Instructions -/

section Instructions

variable {code : Bytes} {pc place : UInt64} {skip : Nat}

/-- The octets from a place on, if as many are there as are asked for. -/
theorem piece?_eq {start stop : UInt64} {n : Nat} (hn : 0 < n)
    (hstop : stop.toNat = start.toNat + n) :
    piece? code start stop = if ((code.drop start.toNat).take n).length = n then
      some ((code.drop start.toNat).take n) else none := by
  rw [piece?, hstop, Nat.add_sub_cancel_left, List.length_take, List.length_drop]
  split
  · rw [if_pos (by omega)]
  · rw [if_neg (by omega)]

/-- A field is read by its place as it is read behind the octets that are skipped. -/
theorem agrees_field {w β : Type} {value : w → β} {join : Bytes → Calc w} {plain : Bytes → β}
    {width : UInt64} {n : Nat} (hwidth : width.toNat = n) (hn : 0 < n)
    (hplace : place.toNat + n < 0x10000000000000000) (hskip : place.toNat = pc.toNat + 1 + skip)
    (hjoin : ∀ bs : Bytes, bs.length = n → ∃ a, join bs = .value a ∧ value a = plain bs) :
    Agrees (fun a b => value a = b) (field code place width join)
      (let octets := ((code.drop (pc.toNat + 1)).drop skip).take n
        if octets.length = n then .ok (plain octets)
        else .error (.truncated (pc.toNat + 1 + skip))) := by
  obtain ⟨stop, hadd, hstop⟩ := add_of_fits (a := place) hwidth hplace
  rw [field, hadd, Calc.value_bind, piece?_eq hn hstop, List.drop_drop, ← hskip]
  dsimp only
  by_cases hfield : ((code.drop place.toNat).take n).length = n
  · rw [if_pos hfield, if_pos hfield]
    obtain ⟨a, ha, hvalue⟩ := hjoin _ hfield
    dsimp only
    rw [ha]
    exact .value hvalue
  · rw [if_neg hfield, if_neg hfield]
    exact .error _

theorem agrees_operand16 (hplace : place.toNat + 2 < 0x10000000000000000)
    (hskip : place.toNat = pc.toNat + 1 + skip) :
    Agrees (fun a b => a.toNat = b) (operand16 code place)
      (Instruction.operand16 (pc.toNat + 1) skip (code.drop (pc.toNat + 1))) :=
  agrees_field rfl (by decide) hplace hskip fun _ => exists_word16

theorem agrees_operand32 (hplace : place.toNat + 4 < 0x10000000000000000)
    (hskip : place.toNat = pc.toNat + 1 + skip) :
    Agrees (fun a b => a.toInt = b) (operand32 code place)
      (Instruction.operand32 (pc.toNat + 1) skip (code.drop (pc.toNat + 1))) := by
  refine agrees_field rfl (by decide) hplace hskip fun bs hbs => ?_
  obtain ⟨w, hw, hnumber⟩ := exists_word32 hbs
  rw [hw]
  exact ⟨w.toInt32, rfl, toInt_toInt32 w hnumber⟩

/-! ### Switches -/

theorem switchPadding_lt (offset : Nat) : Instruction.switchPadding offset < 4 :=
  Nat.mod_lt _ (by decide)

/-- The operands of a switch start at most three octets behind its opcode. -/
theorem switchBase_eq (hpc : pc.toNat < 0x8000000000000000) :
    ∃ base, switchBase pc = .value base ∧
      base.toNat = pc.toNat + 1 + Instruction.switchPadding pc.toNat := by
  obtain ⟨after, hafter, hone⟩ := add_of_fits (a := pc) (b := 1) (n := 1) rfl (by omega)
  have hmod : (after % 4).toNat = (pc.toNat + 1) % 4 := by
    rw [UInt64.toNat_mod, hone]
    rfl
  obtain ⟨left, hsub, hleft⟩ := sub_of_fits (a := 4) (m := 4) rfl hmod (by omega)
  have hpadding : (left % 4).toNat = Instruction.switchPadding pc.toNat := by
    rw [UInt64.toNat_mod, hleft]
    rfl
  have hsmall := switchPadding_lt pc.toNat
  obtain ⟨base, hadd, hbase⟩ := add_of_fits (a := after) hpadding (by omega)
  refine ⟨base, ?_, by omega⟩
  unfold switchBase switchPadding
  rw [hafter, Calc.value_bind, Calc.value_bind, hsub, Calc.value_bind]
  exact hadd

/-- The length of an instruction with its opcode, which is far from the end of the words. -/
def IsLength (length : UInt64) (operands : Nat) : Prop :=
  length.toNat = operands + 1 ∧ operands < 0x10000000000

/-- No number of cases that is read from a code array comes near the end of the words. -/
theorem switchLength_eq {base front cases width : UInt64}
    (hbase : base.toNat = pc.toNat + 1 + Instruction.switchPadding pc.toNat)
    (hfront : front.toNat ≤ 12) (hcases : cases.toNat ≤ 0x100000000) (hwidth : width.toNat ≤ 8) :
    ∃ length, switchLength pc base front cases width = .value length ∧
      IsLength length
        (Instruction.switchPadding pc.toNat + front.toNat + width.toNat * cases.toNat) := by
  have hpadding := switchPadding_lt pc.toNat
  have hproduct : cases.toNat * width.toNat ≤ 0x100000000 * 8 := Nat.mul_le_mul hcases hwidth
  obtain ⟨before, hsub, hbefore⟩ := sub_of_fits (a := base) (b := pc) rfl rfl (by omega)
  obtain ⟨fixed, hadd, hfixed⟩ := add_of_fits (a := before) (b := front) rfl (by omega)
  obtain ⟨all, hmul, hall⟩ := mul_of_fits (a := cases) (b := width) rfl rfl (by omega)
  obtain ⟨length, hsum, hlength⟩ := add_of_fits (a := fixed) (b := all) rfl (by omega)
  refine ⟨length, ?_, ?_⟩
  · rw [switchLength, hsub, Calc.value_bind, hadd, Calc.value_bind, hmul, Calc.value_bind, hsum]
  · rw [IsLength, Nat.mul_comm width.toNat]
    omega

/-- The sign of a number of cases is tested before it becomes a word without sign. -/
theorem agrees_cases {P : Prop} [Decidable P] {base front cases width : UInt64} {n : Int}
    {e : Error} (hbase : base.toNat = pc.toNat + 1 + Instruction.switchPadding pc.toNat)
    (hfront : front.toNat ≤ 12) (hwidth : width.toNat ≤ 8) (hsign : P ↔ n < 0)
    (hn : n ≤ 0x100000000) (hcases : 0 ≤ n → cases.toNat = n.toNat) :
    Agrees IsLength (do
      if P then throw e
      switchLength pc base front cases width) (do
      if n < 0 then throw e
      return Instruction.switchPadding pc.toNat + front.toNat + width.toNat * n.toNat) := by
  refine Agrees.ite hsign (fun _ => .error _) fun hpositive => ?_
  rw [hsign] at hpositive
  have hword := hcases (by omega)
  have hsmall : cases.toNat ≤ 0x100000000 := by omega
  obtain ⟨length, hlength, hisLength⟩ := switchLength_eq hbase hfront hsmall hwidth
  rw [hlength]
  rw [hword] at hisLength
  exact .value hisLength

theorem toNat_toUInt64 {n : Int64} (h : 0 ≤ n.toInt) : n.toUInt64.toNat = n.toInt.toNat :=
  Int64.toNat_toUInt64_of_le (Int64.le_iff_toInt_le.2 h)

/-- The number of cases between any two bounds of 32 bits is a signed number of 64 bits. -/
theorem exists_range (low high : Int32) :
    ∃ range cases, subSigned high.toInt64 low.toInt64 = .value range ∧
      addSigned range 1 = .value cases ∧ cases.toInt = high.toInt - low.toInt + 1 := by
  have hlow := low.toInt_lt
  have hlow' := low.le_toInt
  have hhigh := high.toInt_lt
  have hhigh' := high.le_toInt
  obtain ⟨range, hsub, hrange⟩ := subSigned_of_fits (i := high.toInt64) (j := low.toInt64) (by
    rw [Int32.toInt_toInt64, Int32.toInt_toInt64, IsSigned64]
    omega)
  rw [Int32.toInt_toInt64, Int32.toInt_toInt64] at hrange
  obtain ⟨cases, hadd, hcases⟩ := addSigned_of_fits (i := range) (j := 1) (by
    rw [IsSigned64, Int64.toInt_one]
    omega)
  rw [hrange, Int64.toInt_one] at hcases
  exact ⟨range, cases, hsub, hadd, hcases⟩

theorem agrees_tableSwitch (hpc : pc.toNat < 0x8000000000000000) :
    Agrees IsLength (tableSwitchLength code pc)
      (Instruction.operandCount pc.toNat Instruction.tableSwitch (code.drop (pc.toNat + 1))) := by
  obtain ⟨base, hbase, hbaseEq⟩ := switchBase_eq hpc
  have hpadding := switchPadding_lt pc.toNat
  obtain ⟨b₄, hb₄, hfour⟩ := add_of_fits (a := base) (b := 4) (n := 4) rfl (by omega)
  obtain ⟨b₈, hb₈, height⟩ := add_of_fits (a := base) (b := 8) (n := 8) rfl (by omega)
  unfold tableSwitchLength Instruction.operandCount
  rw [if_pos rfl, hbase]
  simp only [Calc.value_bind, hb₄, hb₈]
  refine (agrees_operand32 (by omega) (by omega)).bind fun low _ hlow => ?_
  refine (agrees_operand32 (by omega) (by omega)).bind fun high _ hhigh => ?_
  subst hlow hhigh
  obtain ⟨range, cases, hsub, hadd, hcases⟩ := exists_range low high
  rw [hsub, Calc.value_bind, hadd, Calc.value_bind]
  have hlow := low.le_toInt
  have hhigh := high.toInt_lt
  refine agrees_cases hbaseEq (by decide) (by decide) ?_ (by omega) ?_
  · rw [Int64.lt_iff_toInt_lt, Int64.toInt_zero, hcases]
  · intro hpositive
    rw [toNat_toUInt64 (by omega), hcases]

theorem agrees_lookupSwitch (hpc : pc.toNat < 0x8000000000000000) :
    Agrees IsLength (lookupSwitchLength code pc)
      (Instruction.operandCount pc.toNat Instruction.lookupSwitch (code.drop (pc.toNat + 1))) := by
  obtain ⟨base, hbase, hbaseEq⟩ := switchBase_eq hpc
  have hpadding := switchPadding_lt pc.toNat
  obtain ⟨b₄, hb₄, hfour⟩ := add_of_fits (a := base) (b := 4) (n := 4) rfl (by omega)
  unfold lookupSwitchLength Instruction.operandCount
  rw [if_neg (by decide), if_pos rfl, hbase]
  simp only [Calc.value_bind, hb₄]
  refine (agrees_operand32 (by omega) (by omega)).bind fun pairs _ hpairs => ?_
  subst hpairs
  have hbound := pairs.toInt_lt
  refine agrees_cases hbaseEq (by decide) (by decide) ?_ (by omega) ?_
  · rw [Int32.lt_iff_toInt_lt, Int32.toInt_zero]
  · intro hpositive
    rw [toNat_toUInt64 (by rw [Int32.toInt_toInt64]; exact hpositive), Int32.toInt_toInt64]

/-! ### Lengths and the walk -/

theorem fixedOperandCount?_le {opcode : UInt8} {n : Nat}
    (h : Instruction.fixedOperandCount? opcode.toNat = some n) : n ≤ 4 := by
  have hall : ∀ m < 256, ∀ n ∈ Instruction.fixedOperandCount? m, n ≤ 4 := by decide +kernel
  exact hall opcode.toNat opcode.toNat_lt n h

theorem agrees_nominalLength (hlength : code.length < 0x8000000000000000)
    (hpc : pc.toNat < code.length) :
    Agrees IsLength (nominalLength code pc)
      (Instruction.operandCount pc.toNat code[pc.toNat].toNat (code.drop (pc.toNat + 1))) := by
  unfold nominalLength
  rw [octet_of_lt hpc]
  generalize code[pc.toNat] = opcode
  dsimp only [Calc.value_bind]
  by_cases htable : opcode.toNat = Instruction.tableSwitch
  · rw [if_pos htable, htable]
    exact agrees_tableSwitch (by omega)
  by_cases hlookup : opcode.toNat = Instruction.lookupSwitch
  · rw [if_neg htable, if_pos hlookup, hlookup]
    exact agrees_lookupSwitch (by omega)
  unfold Instruction.operandCount
  rw [if_neg htable, if_neg hlookup, if_neg htable, if_neg hlookup]
  refine Agrees.ite Iff.rfl (fun _ => ?_) fun _ => ?_
  · obtain ⟨second, hadd, hsecond⟩ := add_of_fits (a := pc) (b := 1) (n := 1) rfl (by omega)
    rw [hadd, Calc.value_bind, hsecond, ← List.head?_drop]
    cases code.drop (pc.toNat + 1) with
    | nil => exact .error _
    | cons inner _ =>
        refine .value ?_
        split
        · exact ⟨rfl, by decide⟩
        · exact ⟨rfl, by decide⟩
  · cases hfixed : Instruction.fixedOperandCount? opcode.toNat with
    | none => exact .error _
    | some n =>
        have hsmall := fixedOperandCount?_le hfixed
        refine .value ⟨?_, by omega⟩
        exact UInt64.toNat_ofNat_of_lt' (Nat.lt_of_le_of_lt (Nat.succ_le_succ hsmall) (by decide))

/-- How many operands an instruction has, if they are all there. -/
def checkedCount (size offset opcode : Nat) (operands : Bytes) : Except Error Nat := do
  let count ← Instruction.operandCount offset opcode operands
  if hasAtLeast count operands then return count else throw (.truncated size)

/-- What a scan does once it knows that the operands are there, it does with their number. -/
theorem checkedCount_bind {α : Type} (size offset opcode : Nat) (operands : Bytes)
    (next : Nat → Except Error α) :
    (do
      let count ← Instruction.operandCount offset opcode operands
      if hasAtLeast count operands then next count else throw (.truncated size)) =
      (do next (← checkedCount size offset opcode operands)) := by
  rw [checkedCount]
  cases Instruction.operandCount offset opcode operands with
  | error e => rfl
  | ok count =>
      show (if hasAtLeast count operands then next count else throw _) =
        ((if hasAtLeast count operands then pure count else throw _) >>= next)
      split <;> rfl

/-- An instruction that is all there takes at least one octet and ends within the code array. -/
theorem agrees_instructionLength (hlength : code.length < 0x8000000000000000)
    (hpc : pc.toNat < code.length) :
    Agrees (fun length count => length.toNat = count + 1 ∧ pc.toNat + length.toNat ≤ code.length)
      (instructionLength code pc)
      (checkedCount code.length pc.toNat code[pc.toNat].toNat (code.drop (pc.toNat + 1))) := by
  refine (agrees_nominalLength hlength hpc).bind fun length count hisLength => ?_
  obtain ⟨heq, hsmall⟩ := hisLength
  obtain ⟨stop, hadd, hstop⟩ := add_of_fits (a := pc) (b := length) rfl (by omega)
  rw [hadd, Calc.value_bind]
  have hhas : hasAtLeast count (code.drop (pc.toNat + 1)) = true ↔ ¬ size code < stop := by
    rw [hasAtLeast_iff, List.length_drop, UInt64.lt_iff_toNat_lt, toNat_size hlength]
    omega
  by_cases hend : size code < stop
  · rw [if_pos hend, if_neg (fun h => hhas.1 h hend)]
    exact .error _
  · rw [if_neg hend, if_pos (hhas.2 hend)]
    rw [UInt64.lt_iff_toNat_lt, toNat_size hlength] at hend
    exact .value ⟨heq, by omega⟩

theorem agrees_calls (pool : Pool) (hpc : pc.toNat < 0x8000000000000000) (opcode : Nat) :
    Agrees (· = ·) (callsAt pool code pc opcode)
      (FiberWeave.ClassFile.callsAt pool pc.toNat opcode (code.drop (pc.toNat + 1))) := by
  obtain ⟨place, hadd, hplace⟩ := add_of_fits (a := pc) (b := 1) (n := 1) rfl (by omega)
  refine Agrees.ite Iff.rfl (fun _ => ?_) fun _ => .value rfl
  rw [hadd, Calc.value_bind]
  refine (agrees_operand16 (by omega) (by omega)).bind fun index _ hindex => ?_
  subst hindex
  exact (agrees_ofExcept (pool.memberRef index.toNat)).bind fun _ _ htarget =>
    .value (congrArg (fun target => [CallSite.mk target pc.toNat]) htarget)

/-- The walk goes over a code array as the scan does. It goes forward with every instruction, and
comes to the end of the array. -/
theorem agrees_walk (pool : Pool) (pc : UInt64) (hlength : code.length < 0x8000000000000000)
    (hpc : pc.toNat ≤ code.length) :
    Agrees (· = ·) (walk pool code pc)
      (Code.scan pool code.length pc.toNat (code.drop pc.toNat)) := by
  have hsize := toNat_size hlength
  induction hleft : code.length - pc.toNat using Nat.strongRecOn generalizing pc with
  | ind left ih =>
      subst hleft
      rw [walk]
      by_cases hin : pc < size code
      · rw [dif_pos hin]
        rw [UInt64.lt_iff_toNat_lt, hsize] at hin
        rw [octet_of_lt hin, List.drop_eq_getElem_cons hin, scan_cons, Calc.value_bind]
        refine (agrees_calls pool (by omega) _).bind ?_
        rintro calls _ rfl
        rw [checkedCount_bind]
        refine (agrees_instructionLength hlength hin).bind ?_
        rintro length count ⟨hcount, hend⟩
        obtain ⟨next, hadd, hnext⟩ := add_of_fits (a := pc) (b := length) rfl (by omega)
        rw [hadd, Calc.value_bind, dif_pos (UInt64.lt_iff_toNat_lt.2 (by omega)), List.drop_drop,
          show pc.toNat + 1 + count = next.toNat by omega]
        refine (ih _ (by omega) next (by omega) rfl).bind ?_
        rintro later _ rfl
        exact .value rfl
      · rw [dif_neg hin]
        rw [UInt64.lt_iff_toNat_lt, hsize] at hin
        have hend : pc = size code := by
          rw [← UInt64.toNat_inj, hsize]
          omega
        rw [if_pos hend, List.drop_eq_nil_of_le (by omega), Code.scan]
        exact .value rfl

end Instructions

/-! ## Attributes -/

/-- As many parts as a count says. -/
theorem Follows.counted {α β : Type} {p : Step α} {q : Parser α} {f : List α → Step β}
    {g : List α → Parser β} (h : Follows (· = ·) p q)
    (hnext : ∀ values, Follows (· = ·) (f values) (g values)) :
    Follows (· = ·) (do f (← Step.times p (← u2).toNat))
      (do g (← Parser.times q (← Parser.u2))) :=
  follows_u2.bind_word fun count => (h.times count.toNat).bind_eq hnext

theorem follows_skipAttributes :
    Follows (· = ·) skipAttributes FiberWeave.ClassFile.skipAttributes := by
  refine Follows.counted ?_ fun _ => follows_pure rfl
  exact (follows_skip 2).bind_eq fun _ => follows_size.bind_word fun _ => follows_skip _

section Parts

variable (pool : Pool) {body : Bytes}

/-- The body of an attribute is a piece of the file, so it is not too long either. -/
theorem follows_attribute :
    Follows (fun a b => a = b ∧ a.2.length < 0x8000000000000000) (readAttribute pool)
      (FiberWeave.ClassFile.readAttribute pool) := by
  refine follows_u2.bind_word fun index => ?_
  refine (follows_lookup (pool.text index.toNat)).bind_eq fun name => ?_
  refine follows_size.bind_word fun length => ?_
  refine (follows_take length.toUInt64).bind fun body _ htaken => ?_
  exact follows_pure ⟨congrArg (name, ·) htaken.eq, htaken.length_lt⟩

theorem follows_className :
    Follows (· = ·) (readClassName pool) (do pool.className (← Parser.u2)) :=
  follows_u2.bind_word fun _ => follows_lookup _

/-- The walk goes over what was taken for the code array, and eight octets for each handler are a
number of octets. -/
theorem follows_code (hbody : body.length < 0x8000000000000000) :
    Follows (· = ·) (readCode pool body) (FiberWeave.ClassFile.readCode pool body) := by
  refine Follows.within ?_ hbody
  refine (follows_skip 4).bind_eq fun _ => follows_size.bind_word fun size => ?_
  refine (follows_take size.toUInt64).bind fun instructions _ htaken => ?_
  have hwalk := agrees_walk pool 0 htaken.length_lt (Nat.zero_le _)
  rw [htaken.length_eq] at hwalk
  rw [← htaken.eq]
  refine hwalk.follows.bind_eq fun code => follows_u2.bind_word fun handlers => ?_
  have hcount := handlers.toNat_lt
  obtain ⟨all, hmul, hall⟩ :=
    mul_of_fits (b := 8) (n := 8) (UInt16.toNat_toUInt64 handlers) rfl (by omega)
  rw [hmul, ← hall]
  exact (follows_skip all).bind_eq fun _ =>
    follows_skipAttributes.bind_eq fun _ => follows_pure rfl

theorem follows_exceptions (hbody : body.length < 0x8000000000000000) :
    Follows (· = ·) (readExceptions pool body) (FiberWeave.ClassFile.readExceptions pool body) :=
  Follows.within (follows_u2.bind_word fun _ => (follows_className pool).times _) hbody

/-! ## Annotations -/

theorem follows_type {value : Step Unit} {plain : Parser Unit} (h : Follows (· = ·) value plain) :
    Follows (· = ·) (readType pool value) <| Annotation.readType pool plain := by
  refine follows_u2.bind_word fun index => ?_
  refine (follows_lookup (pool.text index.toNat)).bind_eq fun name => ?_
  exact Follows.counted ((follows_skip 2).bind_eq fun _ => h) fun _ => follows_pure rfl

theorem follows_value (depth : Nat) :
    Follows (· = ·) (skipValue pool depth) <| Annotation.skipValue pool depth := by
  induction depth with
  | zero => exact follows_position.bind_word fun _ => follows_throw _
  | succ depth ih =>
      refine follows_position.bind_word fun start => follows_u1.bind_word fun tag => ?_
      refine .ite Iff.rfl (follows_skip 2) (.ite Iff.rfl (follows_skip 4) (.ite Iff.rfl ?_
        (.ite Iff.rfl ?_ (follows_throw _))))
      · exact (follows_type pool ih).bind_eq fun _ => follows_pure rfl
      · exact Follows.counted ih fun _ => follows_pure rfl

theorem follows_types (hbody : body.length < 0x8000000000000000) :
    Follows (· = ·) (readTypes pool body) <| Annotation.readTypes pool body :=
  Follows.within
    (follows_u2.bind_word fun _ => (follows_type pool (follows_value pool _)).times _) hbody

/-! ## Methods and classes -/

theorem follows_addAttribute (m : Method) (name : String)
    (hbody : body.length < 0x8000000000000000) :
    Follows (· = ·) (addAttribute pool m name body)
      (FiberWeave.ClassFile.addAttribute pool m name body) := by
  refine .ite Iff.rfl ?_ (.ite Iff.rfl ?_ (.ite Iff.rfl ?_ (follows_pure rfl)))
  · exact (follows_code pool hbody).bind_eq fun _ => follows_pure rfl
  · exact (follows_exceptions pool hbody).bind_eq fun _ => follows_pure rfl
  · exact (follows_types pool hbody).bind_eq fun _ => follows_pure rfl

theorem follows_addAttributes (m : Method) (count : Nat) :
    Follows (· = ·) (addAttributes pool m count)
      (FiberWeave.ClassFile.addAttributes pool m count) := by
  induction count generalizing m with
  | zero => exact follows_pure rfl
  | succ count ih =>
      refine (follows_attribute pool).bind ?_
      rintro ⟨name, body⟩ _ ⟨rfl, hbody⟩
      exact (follows_addAttribute pool m name hbody).bind_eq ih

theorem follows_method :
    Follows (· = ·) (readMethod pool) (FiberWeave.ClassFile.readMethod pool) := by
  refine follows_u2.bind_word fun access => follows_u2.bind_word fun nameIndex => ?_
  refine (follows_lookup (pool.text nameIndex.toNat)).bind_eq fun name => ?_
  refine follows_u2.bind_word fun descriptorIndex => ?_
  refine (follows_lookup (pool.text descriptorIndex.toNat)).bind_eq fun descriptor => ?_
  exact follows_u2.bind_word fun count => follows_addAttributes pool _ _

theorem follows_classAnnotations (count : Nat) :
    Follows (· = ·) (readClassAnnotations pool count)
      (FiberWeave.ClassFile.readClassAnnotations pool count) := by
  induction count with
  | zero => exact follows_pure rfl
  | succ count ih =>
      refine (follows_attribute pool).bind ?_
      rintro ⟨name, body⟩ _ ⟨rfl, hbody⟩
      refine .ite Iff.rfl ((follows_types pool hbody).bind_eq fun types => ?_)
        ((follows_pure rfl).bind_eq fun types => ?_)
      · exact ih.bind_eq fun _ => follows_pure rfl
      · exact ih.bind_eq fun _ => follows_pure rfl

/-- The interfaces, fields, methods and attributes of a class, which come last in it. -/
theorem follows_members {β : Type} (f : List String → List Method → List String → β) :
    Follows (· = ·) (do
      let interfaceCount ← u2
      let interfaces ← times (readClassName pool) interfaceCount.toNat
      let fieldCount ← u2
      let _ ← times (do skip 6; skipAttributes) fieldCount.toNat
      let methodCount ← u2
      let methods ← times (readMethod pool) methodCount.toNat
      let attributeCount ← u2
      let annotations ← readClassAnnotations pool attributeCount.toNat
      return f interfaces methods annotations) (do
      let interfaceCount ← Parser.u2
      let interfaces ← Parser.times (do pool.className (← Parser.u2)) interfaceCount
      let fieldCount ← Parser.u2
      let _ ← Parser.times (do Parser.skip 6; FiberWeave.ClassFile.skipAttributes) fieldCount
      let methodCount ← Parser.u2
      let methods ← Parser.times (FiberWeave.ClassFile.readMethod pool) methodCount
      let attributeCount ← Parser.u2
      let annotations ← FiberWeave.ClassFile.readClassAnnotations pool attributeCount
      return f interfaces methods annotations) := by
  refine (follows_className pool).counted fun interfaces => ?_
  refine ((follows_skip 6).bind_eq fun _ => follows_skipAttributes).counted fun _ => ?_
  refine (follows_method pool).counted fun methods => ?_
  refine follows_u2.bind_word fun count => ?_
  exact (follows_classAnnotations pool _).bind_eq fun _ => follows_pure rfl

end Parts

theorem follows_expectEnd : Follows (· = ·) expectEnd FiberWeave.ClassFile.expectEnd := by
  intro r hr
  have hlength := hr.length_lt
  have hpos := hr.pos_le
  have hleft : r.cursor.rest.length = r.bytes.length - r.pos.toNat := List.length_drop
  obtain ⟨left, hsub, hrest⟩ := sub_of_fits (b := r.pos) (toNat_size hlength) rfl hpos
  rw [← hleft] at hrest
  have hempty : r.cursor.rest.isEmpty = true ↔ ¬ 0 < left := by
    rw [List.isEmpty_iff_length_eq_zero, UInt64.lt_iff_toNat_lt, UInt64.toNat_zero]
    omega
  unfold expectEnd FiberWeave.ClassFile.expectEnd
  rw [hsub, Calc.value_bind, ← hrest]
  by_cases hmore : 0 < left
  · rw [if_pos hmore, if_neg (fun h => hempty.1 h hmore)]
    exact .error _
  · rw [if_neg hmore, if_pos (hempty.2 hmore)]
    exact .value ⟨rfl, hr, rfl⟩

theorem follows_read : Follows (· = ·) read FiberWeave.ClassFile.read := by
  unfold read FiberWeave.ClassFile.read
  refine follows_u4.bind_word fun magic => .ite Iff.rfl (follows_throw_bind _) ?_
  refine follows_u2.bind_word fun minorVersion => follows_u2.bind_word fun majorVersion => ?_
  refine follows_pool.bind_eq fun pool => follows_u2.bind_word fun access => ?_
  refine follows_u2.bind_word fun thisIndex => ?_
  refine (follows_lookup (pool.className thisIndex.toNat)).bind_eq fun name => ?_
  refine follows_u2.bind_word fun superIndex => ?_
  -- Index zero stands for no supertype; what comes after it is the same.
  refine .ite (by rw [← UInt16.toNat_inj]; rfl) ?_ ?_
  · exact (follows_pure rfl).bind_eq fun superName => follows_members pool _
  · have hname := follows_lookup (pool.className superIndex.toNat)
    exact (hname.bind_eq fun _ => follows_pure rfl).bind_eq fun superName => follows_members pool _

/-! ## Whole files -/

/-- The parser on machine words gives the class or the error that the parser without words gives. -/
theorem agrees_parse {bytes : Bytes} (hlength : bytes.length < 0x8000000000000000) :
    Agrees (· = ·) (parse bytes) (FiberWeave.ClassFile.parse bytes) := by
  have hfile : Follows (· = ·) (do let c ← read; expectEnd; return c)
      (do
        let c ← FiberWeave.ClassFile.read
        FiberWeave.ClassFile.expectEnd
        return c) :=
    follows_read.bind fun _ _ hc => follows_expectEnd.bind fun _ _ _ => follows_pure hc
  exact (hfile _ (Reader.sound_start hlength)).bind fun _ _ h => .value h.1

/-- **Reading is safe.**  Whatever octets there are, if there are fewer than `2 ^ 63` of them, the
parser comes to no fault, and gives the class or the error that the parser without words gives.  No
octets make it measure an instruction wrong: a length that it finds is one or more and does not lead
past the end of the code array, so that no walk over a code array gets stuck or goes too far. -/
theorem parse_safe :
    (∀ bytes : Bytes, bytes.length < 0x8000000000000000 →
      (∀ f, parse bytes ≠ .fault f) ∧
        parse bytes = .ofExcept (FiberWeave.ClassFile.parse bytes)) ∧
    ∀ code : Bytes, code.length < 0x8000000000000000 →
      (∀ pc : UInt64, pc.toNat < code.length →
        (∀ f, instructionLength code pc ≠ .fault f) ∧
          ∀ length, instructionLength code pc = .value length →
            0 < length.toNat ∧ pc.toNat + length.toNat ≤ code.length) ∧
      ∀ pool f, walk pool code 0 ≠ .fault f := by
  refine ⟨fun bytes hlength => ?_, fun code hlength => ⟨fun pc hpc => ?_, fun pool => ?_⟩⟩
  · have hparse := agrees_parse hlength
    exact ⟨hparse.ne_fault, hparse.eq_ofExcept⟩
  · have hlengthOf := agrees_instructionLength hlength hpc
    refine ⟨hlengthOf.ne_fault, fun length h => ?_⟩
    obtain ⟨count, hcount, hend⟩ := hlengthOf.of_value h
    exact ⟨by omega, hend⟩
  · exact (agrees_walk pool 0 hlength (Nat.zero_le _)).ne_fault

/-- A class file with a constant of eight octets in the last place of its pool. -/
def wideLast : Bytes :=
  [0xCA, 0xFE, 0xBA, 0xBE, 0, 0, 0, 52, 0, 4,
    1, 0, 1, 65, 7, 0, 1, 5, 0, 0, 0, 0, 0, 0, 0, 9,
    0, 33, 0, 2, 0, 0, 0, 0, 0, 0, 0, 0, 0, 0]

/-- A switch over all numbers of 32 bits, none of whose jumps are there. -/
def fullSwitch : Bytes :=
  [0xAA, 0, 0, 0, 0, 0, 0, 0, 0x80, 0, 0, 0, 0x7F, 0xFF, 0xFF, 0xFF]

theorem parse_safe_wideLast :
    (wideLast.length < 0x8000000000000000 ∧ parse wideLast = .value {
      minorVersion := 0, majorVersion := 52, access := 33, name := "A", superName := none,
      interfaces := [], methods := [], annotations := [] }) ∧
    fullSwitch.length < 0x8000000000000000 ∧ (∀ f, instructionLength fullSwitch 0 ≠ .fault f) ∧
      ∀ pool f, walk pool fullSwitch 0 ≠ .fault f := by
  obtain ⟨hfiles, hcode⟩ := parse_safe
  have hplain : Calc.ofExcept (FiberWeave.ClassFile.parse wideLast) = .value {
      minorVersion := 0, majorVersion := 52, access := 33, name := "A", superName := none,
      interfaces := [], methods := [], annotations := [] } := by
    decide +kernel
  have hfile := (hfiles wideLast (by decide)).2
  obtain ⟨hlengths, hwalks⟩ := hcode fullSwitch (by decide)
  exact ⟨⟨by decide, hfile.trans hplain⟩, by decide, (hlengths 0 (by decide)).1, hwalks⟩

end FiberWeave.ClassFile.Machine

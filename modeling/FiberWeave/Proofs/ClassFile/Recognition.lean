import FiberWeave.Proofs.ClassFile.CodeArrays

/-!
# What is taken for an instruction

The scan finds the end of an instruction from its opcode and a few of its operands.  The octets up to
this end are an instruction, with two exceptions: a switch over successive numbers may be one over
none, and the opcode `wide` may stand in front of any opcode.

* `IsWellFormed`, `IsLapse` — the instructions of the format, and what is taken for one.
* `exists_stepped_of_accepted` — the scan knows where each of them ends.
* `octets4_number`, `signedOctets4_signed32`, `exists_index`, `exists_fill`, `exists_flatMap` —
  octets as the numbers and parts that they stand for.
* `operandCount_tableSwitch_eq_ok` and so on — what is known if an opcode and its operands have a
  length.
* **`exists_encode`** — whatever has a length is an instruction or one of the two exceptions.
-/

namespace FiberWeave.ClassFile

open Format

/-! ## Instructions and what is taken for one -/

namespace Format.Instruction

/-- Whether an instruction is one of the format: a table has an entry for each number from the
lowest to the highest one, and the highest is no less than the lowest. -/
def IsWellFormed : Instruction → Prop
  | tableSwitch filler otherwise low jumps =>
      (tableSwitch filler otherwise low jumps).fits = true ∧ jumps ≠ []
  | i => i.fits = true

/-- What is taken for an instruction and is none. -/
inductive IsLapse : Instruction → Prop
  /-- A switch over successive numbers of which the highest is one less than the lowest. -/
  | emptyTable {filler : Fin 3 → UInt8} {otherwise : UInt32} {low : Int}
      (h : (tableSwitch filler otherwise low []).fits = true) :
      IsLapse (tableSwitch filler otherwise low [])
  /-- The opcode `wide` in front of an opcode that cannot follow it. -/
  | strayWide {opcode : UInt8} {slot : UInt16} (h : wideOpcodes.contains opcode.toNat = false)
      (hincrement : opcode ≠ 0x84) : IsLapse (wide opcode slot)

variable {i : Instruction}

theorem IsWellFormed.fits (h : i.IsWellFormed) : i.fits = true := by
  cases i with
  | tableSwitch => exact h.1
  | _ => exact h

end Format.Instruction

theorem exists_stepped_of_accepted {i : Format.Instruction} (h : i.IsWellFormed ∨ i.IsLapse)
    (offset : Nat) : ∃ first operands, Stepped offset i first operands := by
  rcases h with h | ⟨h⟩ | ⟨-, hincrement⟩
  · exact exists_stepped offset h.fits
  · exact exists_stepped offset h
  · have hopcode : _ ≠ Instruction.increment := fun heq => hincrement (UInt8.toNat_inj.1 heq)
    exact ⟨_, _, stepped_wide offset _ hopcode⟩

/-! ## Octets and numbers -/

theorem octets4_number {bytes : Bytes} (h : bytes.length = 4) :
    octets4 bytes.number = bytes := by
  match bytes, h with
  | [a, b, c, d], _ =>
      have ha := a.toNat_lt
      have hb := b.toNat_lt
      have hc := c.toNat_lt
      have hd := d.toNat_lt
      simp only [Bytes.number, octets4, octets2, List.foldl_cons, List.foldl_nil,
        List.cons_append, List.nil_append, List.cons.injEq, and_true, ← UInt8.toNat_inj,
        UInt8.toNat_ofNat']
      omega

theorem number_lt {bytes : Bytes} (h : bytes.length = 4) : bytes.number < 0x100000000 := by
  match bytes, h with
  | [a, b, c, d], _ =>
      have ha := a.toNat_lt
      have hb := b.toNat_lt
      have hc := c.toNat_lt
      have hd := d.toNat_lt
      simp only [Bytes.number, List.foldl_cons, List.foldl_nil]
      omega

theorem exists_octets4 {bytes : Bytes} (h : bytes.length = 4) :
    ∃ n : UInt32, octets4 n.toNat = bytes := by
  refine ⟨UInt32.ofNat bytes.number, ?_⟩
  rw [UInt32.toNat_ofNat_of_lt' (number_lt h), octets4_number h]

theorem exists_index {bytes : Bytes} (h : bytes.length = 2) : ∃ i : UInt16, index i = bytes := by
  match bytes, h with
  | [a, b], _ =>
      have ha := a.toNat_lt
      have hb := b.toNat_lt
      refine ⟨UInt16.ofNat (a.toNat * 256 + b.toNat), ?_⟩
      rw [index, UInt16.toNat_ofNat_of_lt' (by change _ < 65536; omega)]
      simp only [octets2, List.cons.injEq, and_true, ← UInt8.toNat_inj, UInt8.toNat_ofNat']
      omega

theorem signed32_bounds {bytes : Bytes} (h : bytes.length = 4) :
    -0x80000000 ≤ bytes.signed32 ∧ bytes.signed32 < 0x80000000 := by
  have hnumber := number_lt h
  simp only [Bytes.signed32]
  split <;> omega

theorem signedOctets4_signed32 {bytes : Bytes} (h : bytes.length = 4) :
    signedOctets4 bytes.signed32 = bytes := by
  have hnumber := number_lt h
  have hmod : (bytes.signed32 % 0x100000000).toNat = bytes.number := by
    simp only [Bytes.signed32]
    split <;> omega
  rw [signedOctets4, hmod, octets4_number h]

theorem exists_fill {bytes : Bytes} {offset : Nat} (h : bytes.length = padding offset) :
    ∃ filler, fill filler offset = bytes := by
  have hshort : bytes.length ≤ 3 := by simp [h, padding]
  refine ⟨fun k => bytes.getD k 0, ?_⟩
  rw [fill, ← h]
  rcases bytes with _ | ⟨a, _ | ⟨b, _ | ⟨c, _ | ⟨d, more⟩⟩⟩⟩
  · rfl
  · rfl
  · rfl
  · rfl
  · simp only [List.length_cons] at hshort
    omega

/-- Parts of one length, if there are octets for so many of them. -/
theorem exists_flatMap {α : Type} {encode : α → Bytes} {width : Nat}
    (hencode : ∀ bytes : Bytes, bytes.length = width → ∃ a, encode a = bytes) {n : Nat}
    {bytes : Bytes} (h : bytes.length = width * n) :
    ∃ parts : List α, parts.length = n ∧ parts.flatMap encode = bytes := by
  induction n generalizing bytes with
  | zero => exact ⟨[], rfl, (List.length_eq_zero_iff.1 h).symm⟩
  | succ n ih =>
      rw [Nat.mul_succ] at h
      have hrest : (bytes.drop width).length = width * n := by
        rw [List.length_drop, h, Nat.add_sub_cancel]
      obtain ⟨a, ha⟩ := hencode (bytes.take width) (List.length_take_of_le (by omega))
      obtain ⟨parts, rfl, hparts⟩ := ih hrest
      exact ⟨a :: parts, rfl, by rw [List.flatMap_cons, ha, hparts, List.take_append_drop]⟩

/-! ## Lengths and instructions -/

theorem exists_of_bind_eq_ok {ε α β : Type} {attempt : Except ε α} {f : α → Except ε β} {b : β}
    (h : (attempt >>= f) = .ok b) : ∃ a, attempt = .ok a ∧ f a = .ok b := by
  cases attempt with
  | error => cases h
  | ok a => exact ⟨a, rfl, h⟩

/-- Octets that stand behind others, as a number. -/
theorem operand32_append {start skip : Nat} {front field back : Bytes} (hskip : front.length = skip)
    (hfield : field.length = 4) :
    Instruction.operand32 start skip (front ++ (field ++ back)) = .ok field.signed32 := by
  have hbounds := signed32_bounds hfield
  rw [← operand32_signed hskip hbounds.1 hbounds.2, signedOctets4_signed32 hfield]

theorem exists_append_of_le_length (n : Nat) (bytes : Bytes) (h : n ≤ bytes.length) :
    ∃ front back, bytes = front ++ back ∧ front.length = n :=
  ⟨bytes.take n, bytes.drop n, (List.take_append_drop n bytes).symm, List.length_take_of_le h⟩

section Lengths

variable {offset count : Nat} {operands : Bytes}

theorem operandCount_tableSwitch_eq_ok
    (h : Instruction.operandCount offset Instruction.tableSwitch operands = .ok count) :
    ∃ low high,
      Instruction.operand32 (offset + 1) (Instruction.switchPadding offset + 4) operands = .ok low ∧
      Instruction.operand32 (offset + 1) (Instruction.switchPadding offset + 8) operands = .ok high ∧
      0 ≤ high - low + 1 ∧
      count = Instruction.switchPadding offset + 12 + 4 * (high - low + 1).toNat := by
  unfold Instruction.operandCount at h
  rw [if_pos rfl] at h
  obtain ⟨low, hlow, h⟩ := exists_of_bind_eq_ok h
  obtain ⟨high, hhigh, h⟩ := exists_of_bind_eq_ok h
  dsimp only at h
  split at h
  case isTrue => cases h
  case isFalse hcases => exact ⟨low, high, hlow, hhigh, Int.not_lt.1 hcases, (Except.ok.inj h).symm⟩

theorem operandCount_lookupSwitch_eq_ok
    (h : Instruction.operandCount offset Instruction.lookupSwitch operands = .ok count) :
    ∃ pairs,
      Instruction.operand32 (offset + 1) (Instruction.switchPadding offset + 4) operands =
        .ok pairs ∧
      0 ≤ pairs ∧ count = Instruction.switchPadding offset + 8 + 8 * pairs.toNat := by
  unfold Instruction.operandCount at h
  rw [if_neg (by decide), if_pos rfl] at h
  obtain ⟨pairs, hpairs, h⟩ := exists_of_bind_eq_ok h
  dsimp only at h
  split at h
  case isTrue => cases h
  case isFalse hcount => exact ⟨pairs, hpairs, Int.not_lt.1 hcount, (Except.ok.inj h).symm⟩

theorem operandCount_wide_eq_ok
    (h : Instruction.operandCount offset Instruction.wide operands = .ok count) :
    ∃ inner rest, operands = inner :: rest ∧
      count = if inner.toNat = Instruction.increment then 5 else 3 := by
  cases operands with
  | nil => cases h
  | cons inner rest => exact ⟨inner, rest, rfl, (Except.ok.inj h).symm⟩

theorem operandCount_fixed_eq_ok {opcode : Nat} (htable : opcode ≠ Instruction.tableSwitch)
    (hlookup : opcode ≠ Instruction.lookupSwitch) (hwide : opcode ≠ Instruction.wide)
    (h : Instruction.operandCount offset opcode operands = .ok count) :
    Instruction.fixedOperandCount? opcode = some count := by
  unfold Instruction.operandCount at h
  rw [if_neg htable, if_neg hlookup, if_neg hwide] at h
  split at h
  case h_1 n hn => rw [hn, Except.ok.inj h]
  case h_2 => cases h

/-- What stands in front of the numbers of a switch. -/
theorem exists_switchFront (offset : Nat) (operands : Bytes)
    (h : Instruction.switchPadding offset + 4 ≤ operands.length) :
    ∃ filler, ∃ otherwise : UInt32, ∃ rest,
      operands = fill filler offset ++ octets4 otherwise.toNat ++ rest := by
  obtain ⟨filling, rest, rfl, hfilling⟩ := exists_append_of_le_length _ _
    (Nat.le_of_add_right_le h)
  rw [List.length_append, hfilling, Nat.add_le_add_iff_left] at h
  obtain ⟨place, rest, rfl, hplace⟩ := exists_append_of_le_length _ _ h
  obtain ⟨filler, rfl⟩ := exists_fill (hfilling.trans (padding_eq offset))
  obtain ⟨otherwise, rfl⟩ := exists_octets4 hplace
  exact ⟨filler, otherwise, rest, (List.append_assoc ..).symm⟩

/-- A switch over successive numbers, which may be none. -/
theorem exists_tableSwitch
    (h : Instruction.operandCount offset Instruction.tableSwitch operands = .ok count)
    (hroom : count ≤ operands.length) :
    ∃ i : Format.Instruction, (i.IsWellFormed ∨ i.IsLapse) ∧
      i.encode offset = 0xAA :: operands.take count := by
  obtain ⟨low, high, hlow, hhigh, hcases, rfl⟩ := operandCount_tableSwitch_eq_ok h
  obtain ⟨filler, otherwise, rest, rfl⟩ := exists_switchFront offset operands (by omega)
  have hfront := length_switchFront filler offset otherwise.toNat
  rw [List.length_append, hfront] at hroom
  obtain ⟨lowest, rest, rfl, hlowest⟩ :=
    exists_append_of_le_length 4 rest (by omega)
  rw [List.length_append, hlowest] at hroom
  obtain ⟨highest, rest, rfl, hhighest⟩ :=
    exists_append_of_le_length 4 rest (by omega)
  rw [List.length_append, hhighest] at hroom
  obtain ⟨places, later, rfl, hplaces⟩ :=
    exists_append_of_le_length (4 * (high - low + 1).toNat) rest (by omega)
  obtain rfl := Except.ok.inj ((operand32_append hfront hlowest).symm.trans hlow)
  have hfront' : (fill filler offset ++ octets4 otherwise.toNat ++ lowest).length =
      Instruction.switchPadding offset + 8 := by
    rw [List.length_append, hfront, hlowest]
  rw [← List.append_assoc] at hhigh
  obtain rfl := Except.ok.inj ((operand32_append hfront' hhighest).symm.trans hhigh)
  obtain ⟨jumps, hjumps, rfl⟩ := exists_flatMap (fun _ => exists_octets4) hplaces
  have hlast : lowest.signed32 + jumps.length - 1 = highest.signed32 := by omega
  have hfits : (Format.Instruction.tableSwitch filler otherwise lowest.signed32 jumps).fits =
      true := by
    have hlowest := signed32_bounds hlowest
    have hhighest := signed32_bounds hhighest
    simp only [Format.Instruction.fits, hlast, Bool.and_eq_true, decide_eq_true_eq]
    exact ⟨⟨⟨hlowest.1, hhighest.1⟩, hhighest.2⟩, hlowest.2⟩
  refine ⟨.tableSwitch filler otherwise lowest.signed32 jumps, ?_, ?_⟩
  · cases jumps with
    | nil => exact .inr (.emptyTable hfits)
    | cons jump jumps => exact .inl ⟨hfits, List.cons_ne_nil _ _⟩
  · have htaken : (fill filler offset ++ octets4 otherwise.toNat ++ (lowest ++ (highest ++
        (jumps.flatMap (fun jump => octets4 jump.toNat) ++ later)))).take
          (Instruction.switchPadding offset + 12 +
            4 * (highest.signed32 - lowest.signed32 + 1).toNat) =
        fill filler offset ++ octets4 otherwise.toNat ++ lowest ++ highest ++
          jumps.flatMap fun jump => octets4 jump.toNat := by
      simp only [← List.append_assoc]
      refine List.take_left' ?_
      simp only [List.length_append, hplaces, hhighest]
      simp only [← List.length_append, hfront']
    rw [htaken, Format.Instruction.encode, hlast, signedOctets4_signed32 hlowest,
      signedOctets4_signed32 hhighest]
    rfl

/-- A switch over pairs of numbers and places. -/
theorem exists_lookupSwitch
    (h : Instruction.operandCount offset Instruction.lookupSwitch operands = .ok count)
    (hroom : count ≤ operands.length) :
    ∃ i : Format.Instruction, (i.IsWellFormed ∨ i.IsLapse) ∧
      i.encode offset = 0xAB :: operands.take count := by
  obtain ⟨pairs, hpairs, hcount, rfl⟩ := operandCount_lookupSwitch_eq_ok h
  obtain ⟨filler, otherwise, rest, rfl⟩ := exists_switchFront offset operands (by omega)
  have hfront := length_switchFront filler offset otherwise.toNat
  rw [List.length_append, hfront] at hroom
  obtain ⟨number, rest, rfl, hnumber⟩ :=
    exists_append_of_le_length 4 rest (by omega)
  rw [List.length_append, hnumber] at hroom
  obtain ⟨places, later, rfl, hplaces⟩ :=
    exists_append_of_le_length (8 * pairs.toNat) rest (by omega)
  obtain rfl := Except.ok.inj ((operand32_append hfront hnumber).symm.trans hpairs)
  have hpair : ∀ bytes : Bytes, bytes.length = 8 →
      ∃ jump : UInt32 × UInt32, octets4 jump.1.toNat ++ octets4 jump.2.toNat = bytes := by
    intro bytes hbytes
    obtain ⟨first, second, rfl, hfirst⟩ :=
      exists_append_of_le_length 4 bytes (by omega)
    rw [List.length_append, hfirst] at hbytes
    obtain ⟨number, rfl⟩ := exists_octets4 hfirst
    obtain ⟨place, rfl⟩ := exists_octets4 (Nat.add_left_cancel hbytes)
    exact ⟨(number, place), rfl⟩
  obtain ⟨jumps, hjumps, rfl⟩ := exists_flatMap hpair hplaces
  have hbounds := signed32_bounds hnumber
  have hlength : (jumps.length : Int) = number.signed32 := by omega
  have hsmall : jumps.length < 0x80000000 := by omega
  refine ⟨.lookupSwitch filler otherwise jumps,
    .inl (by simpa [Format.Instruction.IsWellFormed, Format.Instruction.fits] using hsmall), ?_⟩
  have htaken : (fill filler offset ++ octets4 otherwise.toNat ++ (number ++
      (jumps.flatMap (fun jump => octets4 jump.1.toNat ++ octets4 jump.2.toNat) ++ later))).take
        (Instruction.switchPadding offset + 8 + 8 * number.signed32.toNat) =
      fill filler offset ++ octets4 otherwise.toNat ++ number ++
        jumps.flatMap fun jump => octets4 jump.1.toNat ++ octets4 jump.2.toNat := by
    simp only [← List.append_assoc]
    refine List.take_left' ?_
    simp only [List.length_append, hplaces, hnumber]
    simp only [← List.length_append, hfront]
  rw [htaken, Format.Instruction.encode, ← signedOctets4_natCast hsmall, hlength,
    signedOctets4_signed32 hnumber]
  rfl

/-- The opcode `wide` and whatever follows it. -/
theorem exists_wide
    (h : Instruction.operandCount offset Instruction.wide operands = .ok count)
    (hroom : count ≤ operands.length) :
    ∃ i : Format.Instruction, (i.IsWellFormed ∨ i.IsLapse) ∧
      i.encode offset = 0xC4 :: operands.take count := by
  obtain ⟨inner, rest, rfl, rfl⟩ := operandCount_wide_eq_ok h
  by_cases hincrement : inner.toNat = Instruction.increment
  · obtain rfl : inner = 0x84 := UInt8.toNat_inj.1 hincrement
    have hrest : 2 + 2 ≤ rest.length := Nat.le_of_succ_le_succ hroom
    obtain ⟨slot, later, rfl, hslot⟩ :=
      exists_append_of_le_length _ _ (Nat.le_of_add_right_le hrest)
    rw [List.length_append, hslot, Nat.add_le_add_iff_left] at hrest
    obtain ⟨amount, later, rfl, hamount⟩ := exists_append_of_le_length _ _ hrest
    obtain ⟨slot, rfl⟩ := exists_index hslot
    obtain ⟨amount, rfl⟩ := exists_index hamount
    exact ⟨.wideIncrement slot amount, .inl rfl, rfl⟩
  · rw [if_neg hincrement] at hroom ⊢
    obtain ⟨slot, later, rfl, hslot⟩ :=
      exists_append_of_le_length _ _ (Nat.le_of_succ_le_succ hroom)
    obtain ⟨slot, rfl⟩ := exists_index hslot
    refine ⟨.wide inner slot, ?_, rfl⟩
    cases hinner : wideOpcodes.contains inner.toNat with
    | true => exact .inl hinner
    | false => exact .inr (.strayWide hinner fun heq => hincrement (heq ▸ rfl))

/-- An opcode with a fixed number of operands. -/
theorem exists_fixed (offset : Nat) {first : UInt8}
    (h : Instruction.fixedOperandCount? first.toNat = some count)
    (hroom : count ≤ operands.length) :
    ∃ i : Format.Instruction, i.IsWellFormed ∧ i.encode offset = first :: operands.take count := by
  have hall : ∀ opcode < 256, ∀ count, Instruction.fixedOperandCount? opcode = some count →
      (plainOpcodes count).contains opcode = true ∨
        opcode ∈ [0xB6, 0xB7, 0xB8] ∧ count = 2 ∨ opcode = 0xB9 ∧ count = 4 := by
    have htable : ∀ opcode < 256, (Instruction.fixedOperandCount? opcode).all fun count =>
        (plainOpcodes count).contains opcode || (opcode ∈ [0xB6, 0xB7, 0xB8] && count == 2) ||
          (opcode == 0xB9 && count == 4) := by decide +kernel
    intro opcode hopcode count hcount
    have hentry := htable opcode hopcode
    rw [hcount] at hentry
    simpa [or_assoc] using hentry
  rcases hall first.toNat first.toNat_lt count h with hplain | ⟨hcall, rfl⟩ | ⟨hcall, rfl⟩
  · refine ⟨.plain first (operands.take count), ?_, rfl⟩
    change (plainOpcodes (operands.take count).length).contains first.toNat = true
    rwa [List.length_take_of_le hroom]
  · obtain ⟨method, later, rfl, hmethod⟩ := exists_append_of_le_length _ _ hroom
    obtain ⟨method, rfl⟩ := exists_index hmethod
    obtain ⟨kind, hkind⟩ : ∃ kind : InvokeKind, kind.opcode = first := by
      have hnumbers : first.toNat = 0xB6 ∨ first.toNat = 0xB7 ∨ first.toNat = 0xB8 := by
        simpa using hcall
      rcases hnumbers with heq | heq | heq
      · exact ⟨.virtual, UInt8.toNat_inj.1 heq.symm⟩
      · exact ⟨.special, UInt8.toNat_inj.1 heq.symm⟩
      · exact ⟨.static, UInt8.toNat_inj.1 heq.symm⟩
    exact ⟨.invoke kind method, rfl, congrArg (· :: _) hkind⟩
  · obtain ⟨method, later, rfl, hmethod⟩ :=
      exists_append_of_le_length 2 operands (by omega)
    obtain ⟨method, rfl⟩ := exists_index hmethod
    obtain rfl : first = 0xB9 := UInt8.toNat_inj.1 hcall
    have hlater : 2 ≤ later.length := by
      rw [List.length_append, hmethod] at hroom
      omega
    match later, hlater with
    | count :: last :: later, _ => exact ⟨.invokeInterface method count last, rfl, rfl⟩

/-- Whatever has a length for the scan is an instruction or taken for one. -/
theorem exists_encode {first : UInt8}
    (h : Instruction.operandCount offset first.toNat operands = .ok count)
    (hroom : count ≤ operands.length) :
    ∃ i : Format.Instruction, (i.IsWellFormed ∨ i.IsLapse) ∧
      i.encode offset = first :: operands.take count := by
  by_cases htable : first.toNat = Instruction.tableSwitch
  · obtain rfl : first = 0xAA := UInt8.toNat_inj.1 htable
    exact exists_tableSwitch h hroom
  by_cases hlookup : first.toNat = Instruction.lookupSwitch
  · obtain rfl : first = 0xAB := UInt8.toNat_inj.1 hlookup
    exact exists_lookupSwitch h hroom
  by_cases hwide : first.toNat = Instruction.wide
  · obtain rfl : first = 0xC4 := UInt8.toNat_inj.1 hwide
    exact exists_wide h hroom
  obtain ⟨i, hi, hencode⟩ :=
    exists_fixed offset (operandCount_fixed_eq_ok htable hlookup hwide h) hroom
  exact ⟨i, .inl hi, hencode⟩

end Lengths

end FiberWeave.ClassFile

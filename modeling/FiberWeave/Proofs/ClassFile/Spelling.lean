import FiberWeave.ClassFile.ModifiedUtf8
import Mathlib.Tactic.Common

/-!
# Spellings of a text

A class file writes a UTF-16 unit in one, two or three octets, whichever has room for it, and a NUL
in two.  Octets of more than one length have room for a small unit, so that a text has several
spellings; `encode` gives the shortest one of each unit, which is the one that the format asks for.

* `encode` — a text as the format has it written.
* `Form`, `Spells` — any octets that have room for a unit, and for one unit after the other.
* `units?_eq_some_iff`, `chars?_eq_some_iff` — what the decoder reads, unit by unit.
* **`decode?_eq_some_iff`** — the decoder accepts the spellings of a text, all of them.
* `Overlong` — a unit takes more octets than it needs.
* **`decode?_shortest`** — which spellings are the ones that `encode` gives, and which texts have
  others as well.
-/

namespace FiberWeave.ClassFile.ModifiedUtf8

/-! ## The format -/

/-- A unit in one octet. -/
def inOne (u : Nat) : Bytes := [UInt8.ofNat u]

/-- A unit in two octets. -/
def inTwo (u : Nat) : Bytes := [UInt8.ofNat (0xC0 + u / 64), UInt8.ofNat (0x80 + u % 64)]

/-- A unit in three octets. -/
def inThree (u : Nat) : Bytes :=
  [UInt8.ofNat (0xE0 + u / 4096), UInt8.ofNat (0x80 + u / 64 % 64), UInt8.ofNat (0x80 + u % 64)]

/-- A unit in as few octets as it needs; NUL takes two. -/
def encodeUnit (u : Nat) : Bytes :=
  if 0 < u ∧ u < 0x80 then inOne u else if u < 0x800 then inTwo u else inThree u

/-- The UTF-16 units of a character: itself, or a pair of surrogates. -/
def unitsOf (c : Char) : List Nat :=
  if c.toNat < 0x10000 then [c.toNat]
  else [0xD800 + (c.toNat - 0x10000) / 1024, 0xDC00 + (c.toNat - 0x10000) % 1024]

/-- The UTF-16 units of a text. -/
def textUnits (s : String) : List Nat := s.toList.flatMap unitsOf

/-- A text as the format has it written. -/
def encode (s : String) : Bytes := (textUnits s).flatMap encodeUnit

/-! ## Octets -/

/-- An octet goes on with a sequence that has begun. -/
def IsContinuation (b : UInt8) : Prop := 0x80 ≤ b.toNat ∧ b.toNat ≤ 0xBF

/-- An octet begins a sequence of two. -/
def LeadsTwo (a : UInt8) : Prop := 0xC0 ≤ a.toNat ∧ a.toNat ≤ 0xDF

/-- An octet begins a sequence of three. -/
def LeadsThree (a : UInt8) : Prop := 0xE0 ≤ a.toNat ∧ a.toNat ≤ 0xEF

theorem continuation?_low (n : Nat) :
    continuation? (UInt8.ofNat (0x80 + n % 64)) = some (n % 64) := by
  have hb : (UInt8.ofNat (0x80 + n % 64)).toNat = 0x80 + n % 64 := by
    simp only [UInt8.toNat_ofNat']
    omega
  rw [continuation?, hb, if_pos (by omega)]
  exact congrArg some (by omega)

theorem continuation?_eq_some_iff {b : UInt8} {low : Nat} :
    continuation? b = some low ↔ IsContinuation b ∧ b.toNat % 64 = low := by
  have hb : b.toNat / 64 = 2 ↔ IsContinuation b := by
    unfold IsContinuation
    omega
  rw [continuation?]
  split
  · rename_i h
    simp [hb.1 h]
  · rename_i h
    simp [mt hb.2 h]

theorem not_isContinuation {b : UInt8} (h : continuation? b = none) : ¬IsContinuation b := by
  intro hb
  cases h.symm.trans (continuation?_eq_some_iff.2 ⟨hb, rfl⟩)

theorem isContinuation_low (n : Nat) : IsContinuation (UInt8.ofNat (0x80 + n % 64)) := by
  simp only [IsContinuation, UInt8.toNat_ofNat']
  omega

theorem inTwo_of_octets {a b : UInt8} (ha : LeadsTwo a) (hb : IsContinuation b) :
    inTwo (a.toNat % 32 * 64 + b.toNat % 64) = [a, b] := by
  obtain ⟨ha, ha'⟩ := ha
  obtain ⟨hb, hb'⟩ := hb
  simp only [inTwo, List.cons.injEq, and_true, ← UInt8.toNat_inj, UInt8.toNat_ofNat']
  omega

theorem inThree_of_octets {a b c : UInt8} (ha : LeadsThree a) (hb : IsContinuation b)
    (hc : IsContinuation c) :
    inThree (a.toNat % 16 * 4096 + b.toNat % 64 * 64 + c.toNat % 64) = [a, b, c] := by
  obtain ⟨ha, ha'⟩ := ha
  obtain ⟨hb, hb'⟩ := hb
  obtain ⟨hc, hc'⟩ := hc
  simp only [inThree, List.cons.injEq, and_true, ← UInt8.toNat_inj, UInt8.toNat_ofNat']
  omega

/-! ## Spellings -/

/-- Octets that have room for a unit. -/
inductive Form : Nat → Bytes → Prop where
  | one {u : Nat} (hpos : 0 < u) (hu : u < 0x80) : Form u (inOne u)
  | two {u : Nat} (hu : u < 0x800) : Form u (inTwo u)
  | three {u : Nat} (hu : u < 0x10000) : Form u (inThree u)

/-- Octets that write one unit after the other, each in any form. -/
inductive Spells : List Nat → Bytes → Prop where
  | nil : Spells [] []
  | cons {u : Nat} {us : List Nat} {b bs : Bytes} (hb : Form u b) (hbs : Spells us bs) :
      Spells (u :: us) (b ++ bs)

theorem form_one {a : UInt8} (ha : 0x01 ≤ a.toNat ∧ a.toNat ≤ 0x7F) : Form a.toNat [a] := by
  have hform := Form.one ha.1 (Nat.lt_succ_of_le ha.2)
  rwa [inOne, UInt8.ofNat_toNat] at hform

theorem form_two {a b : UInt8} (ha : LeadsTwo a) (hb : IsContinuation b) :
    Form (a.toNat % 32 * 64 + b.toNat % 64) [a, b] := by
  rw [← inTwo_of_octets ha hb]
  exact .two (by omega)

theorem form_three {a b c : UInt8} (ha : LeadsThree a) (hb : IsContinuation b)
    (hc : IsContinuation c) :
    Form (a.toNat % 16 * 4096 + b.toNat % 64 * 64 + c.toNat % 64) [a, b, c] := by
  rw [← inThree_of_octets ha hb hc]
  exact .three (by omega)

theorem Form.lt {u : Nat} {b : Bytes} (h : Form u b) : u < 0x10000 := by
  cases h <;> omega

theorem form_encodeUnit {u : Nat} (hu : u < 0x10000) : Form u (encodeUnit u) := by
  unfold encodeUnit
  split
  · rename_i h
    exact .one h.1 h.2
  · split
    · rename_i h
      exact .two h
    · exact .three hu

theorem length_encodeUnit_le {u : Nat} {b : Bytes} (h : Form u b) :
    (encodeUnit u).length ≤ b.length := by
  cases h with
  | one hpos hu => simp [encodeUnit, hpos, hu]
  | two hu =>
      rw [encodeUnit, if_pos hu]
      split <;> simp [inOne, inTwo]
  | three _ =>
      unfold encodeUnit
      split
      · simp [inOne, inThree]
      · split <;> simp [inTwo, inThree]

namespace Spells

variable {us vs : List Nat} {bs cs : Bytes}

theorem lt (h : Spells us bs) : ∀ u ∈ us, u < 0x10000 := by
  induction h with
  | nil => simp
  | cons hb _ ih => exact List.forall_mem_cons.2 ⟨hb.lt, ih⟩

theorem append (h : Spells us bs) (h' : Spells vs cs) : Spells (us ++ vs) (bs ++ cs) := by
  induction h with
  | nil => exact h'
  | cons hb _ ih =>
      rw [List.append_assoc]
      exact .cons hb ih

/-- A spelling falls into those of the parts of what it spells. -/
theorem of_append (h : Spells (us ++ vs) bs) :
    ∃ b c, bs = b ++ c ∧ Spells us b ∧ Spells vs c := by
  induction us generalizing bs with
  | nil => exact ⟨[], bs, rfl, .nil, h⟩
  | cons u us ih =>
      cases h with
      | cons hb hrest =>
          obtain ⟨b, c, rfl, hus, hvs⟩ := ih hrest
          exact ⟨_, c, (List.append_assoc ..).symm, .cons hb hus, hvs⟩

theorem flatMap_encodeUnit (h : ∀ u ∈ us, u < 0x10000) : Spells us (us.flatMap encodeUnit) := by
  induction us with
  | nil => exact .nil
  | cons u us ih =>
      obtain ⟨hu, hus⟩ := List.forall_mem_cons.1 h
      exact .cons (form_encodeUnit hu) (ih hus)

/-- No spelling is shorter than the one of the format. -/
theorem length_le (h : Spells us bs) : (us.flatMap encodeUnit).length ≤ bs.length := by
  induction h with
  | nil => simp
  | cons hb _ ih =>
      have hfirst := length_encodeUnit_le hb
      simp only [List.flatMap_cons, List.length_append]
      omega

end Spells

/-! ## What is read -/

/-- A unit is read from any form of it. -/
theorem units?_form {u : Nat} {b : Bytes} (h : Form u b) (bs : Bytes) :
    units? (b ++ bs) = (units? bs).map (u :: ·) := by
  cases h with
  | one hpos hu =>
      have ha : (UInt8.ofNat u).toNat = u := by
        simp only [UInt8.toNat_ofNat']
        omega
      rw [inOne, List.cons_append, List.nil_append, units?.eq_def]
      simp only [ha]
      rw [if_pos (by omega)]
      cases units? bs <;> rfl
  | two hu =>
      have ha : (UInt8.ofNat (0xC0 + u / 64)).toNat = 0xC0 + u / 64 := by
        simp only [UInt8.toNat_ofNat']
        omega
      have heq : (0xC0 + u / 64) % 32 * 64 + u % 64 = u := by omega
      rw [inTwo, List.cons_append, List.cons_append, List.nil_append, units?.eq_def]
      simp only [ha, continuation?_low, Option.bind_eq_bind, Option.bind_some, heq]
      rw [if_neg (by omega), if_pos (by omega)]
      cases units? bs <;> rfl
  | three hu =>
      have ha : (UInt8.ofNat (0xE0 + u / 4096)).toNat = 0xE0 + u / 4096 := by
        simp only [UInt8.toNat_ofNat']
        omega
      have heq : (0xE0 + u / 4096) % 16 * 4096 + u / 64 % 64 * 64 + u % 64 = u := by omega
      rw [inThree, List.cons_append, List.cons_append, List.cons_append, List.nil_append,
        units?.eq_def]
      simp only [ha, continuation?_low, Option.bind_eq_bind, Option.bind_some, heq]
      rw [if_neg (by omega), if_neg (by omega), if_pos (by omega)]
      cases units? bs <;> rfl

/-- What units are read from is a spelling of them. -/
theorem spells_of_units? {us : List Nat} {bs : Bytes} (h : units? bs = some us) : Spells us bs := by
  fun_induction units? bs generalizing us with
  | case1 =>
      cases h
      exact .nil
  | case2 a rest ha ih =>
      simp only [Option.bind_eq_bind, Option.bind_eq_some_iff, Option.pure_def,
        Option.some.injEq] at h
      obtain ⟨vs, hvs, rfl⟩ := h
      exact .cons (form_one ha) (ih hvs)
  | case3 a _ ha b rest ih =>
      simp only [Option.bind_eq_bind, Option.bind_eq_some_iff, Option.pure_def,
        Option.some.injEq] at h
      obtain ⟨low, hlow, vs, hvs, rfl⟩ := h
      obtain ⟨hb, rfl⟩ := continuation?_eq_some_iff.1 hlow
      exact .cons (form_two ha hb) (ih hvs)
  | case5 a _ _ ha b c rest ih =>
      simp only [Option.bind_eq_bind, Option.bind_eq_some_iff, Option.pure_def,
        Option.some.injEq] at h
      obtain ⟨mid, hmid, low, hlow, vs, hvs, rfl⟩ := h
      obtain ⟨hb, rfl⟩ := continuation?_eq_some_iff.1 hmid
      obtain ⟨hc, rfl⟩ := continuation?_eq_some_iff.1 hlow
      exact .cons (form_three ha hb hc) (ih hvs)
  | case4 => cases h
  | case6 => cases h
  | case7 => cases h

/-- **The units that are read from octets are those that the octets spell.** -/
theorem units?_eq_some_iff {us : List Nat} {bs : Bytes} : units? bs = some us ↔ Spells us bs := by
  refine ⟨spells_of_units?, fun h => ?_⟩
  induction h with
  | nil => rfl
  | cons hb _ ih => rw [units?_form hb, ih, Option.map_some]

/-! ## Where sequences begin -/

/-- The octets of a form, by what they are in a sequence. -/
theorem Form.octets {u : Nat} {b : Bytes} (h : Form u b) :
    (∃ a, b = [a] ∧ 0x01 ≤ a.toNat ∧ a.toNat ≤ 0x7F) ∨
    (∃ a c, b = [a, c] ∧ LeadsTwo a ∧ IsContinuation c) ∨
    (∃ a c d, b = [a, c, d] ∧ LeadsThree a ∧ IsContinuation c ∧ IsContinuation d) := by
  cases h with
  | one hpos hu =>
      refine .inl ⟨_, rfl, ?_⟩
      simp only [UInt8.toNat_ofNat']
      omega
  | two hu =>
      refine .inr (.inl ⟨_, _, rfl, ?_, isContinuation_low u⟩)
      simp only [LeadsTwo, UInt8.toNat_ofNat']
      omega
  | three hu =>
      refine .inr (.inr ⟨_, _, _, rfl, ?_, isContinuation_low _, isContinuation_low u⟩)
      simp only [LeadsThree, UInt8.toNat_ofNat']
      omega

theorem LeadsTwo.not_isContinuation {a : UInt8} (ha : LeadsTwo a) : ¬IsContinuation a := by
  simp only [LeadsTwo, IsContinuation] at ha ⊢
  omega

theorem LeadsThree.not_isContinuation {a : UInt8} (ha : LeadsThree a) : ¬IsContinuation a := by
  simp only [LeadsThree, IsContinuation] at ha ⊢
  omega

/-- No octet goes on with a sequence but those after the first one. -/
theorem Form.exists_cons {u : Nat} {b : Bytes} (h : Form u b) :
    ∃ a rest, b = a :: rest ∧ ¬IsContinuation a ∧ ∀ c ∈ rest, IsContinuation c := by
  rcases h.octets with ⟨a, rfl, ha⟩ | ⟨a, c, rfl, ha, hc⟩ | ⟨a, c, d, rfl, ha, hc, hd⟩
  · refine ⟨a, [], rfl, fun hcont => ?_, by simp⟩
    have hle := hcont.1
    omega
  · exact ⟨a, [c], rfl, ha.not_isContinuation, by simp [hc]⟩
  · exact ⟨a, [c, d], rfl, ha.not_isContinuation, by simp [hc, hd]⟩

namespace Spells

variable {us : List Nat} {before rest : Bytes}

/-- **A sequence begins wherever an octet does not go on with one.** -/
theorem split (h : Spells us (before ++ rest)) (hrest : ∀ a ∈ rest.head?, ¬IsContinuation a) :
    ∃ us₁ us₂, us = us₁ ++ us₂ ∧ Spells us₁ before ∧ Spells us₂ rest := by
  generalize hbs : before ++ rest = bs at h
  induction h generalizing before with
  | nil =>
      obtain ⟨rfl, rfl⟩ := List.append_eq_nil_iff.1 hbs
      exact ⟨[], [], rfl, .nil, .nil⟩
  | @cons u us b bs hb hspells ih =>
      rcases List.append_eq_append_iff.1 hbs with ⟨more, rfl, rfl⟩ | ⟨more, rfl, rfl⟩
      · -- The first sequence ends within `rest`: at its beginning, or before it begins.
        obtain ⟨a, tail, hcons, -, htail⟩ := hb.exists_cons
        rcases List.append_eq_cons_iff.1 hcons with ⟨rfl, rfl⟩ | ⟨later, rfl, rfl⟩
        · exact ⟨[], u :: us, rfl, .nil, .cons hb hspells⟩
        · cases more with
          | nil =>
              refine ⟨[u], us, rfl, ?_, hspells⟩
              simpa using Spells.cons hb .nil
          | cons c more =>
              exact absurd (htail c (by simp)) (hrest c rfl)
      · obtain ⟨us₁, us₂, rfl, hbefore, hafter⟩ := ih rfl
        exact ⟨u :: us₁, us₂, rfl, .cons hb hbefore, hafter⟩

/-- So a form of a unit among the octets is where that unit is written. -/
theorem split_form {u : Nat} {b after : Bytes} (hb : Form u b)
    (h : Spells us (before ++ (b ++ after))) :
    ∃ us₁ us₂, us = us₁ ++ u :: us₂ ∧ Spells us₁ before ∧ Spells us₂ after := by
  obtain ⟨a, tail, rfl, ha, -⟩ := hb.exists_cons
  obtain ⟨us₁, us₂, rfl, hbefore, hrest⟩ := h.split (by simpa using ha)
  have hread := units?_eq_some_iff.2 hrest
  rw [units?_form hb] at hread
  obtain ⟨us₃, hafter, rfl⟩ := Option.map_eq_some_iff.1 hread
  exact ⟨us₁, us₃, rfl, hbefore, units?_eq_some_iff.1 hafter⟩

end Spells

/-! ## Characters -/

theorem toNat_ofNat {n : Nat} (h : n.isValidChar) : (Char.ofNat n).toNat = n := by
  rw [Char.ofNat, dif_pos h]
  rfl

/-- A unit that is no surrogate is the one of its character. -/
theorem unitsOf_ofNat {u : Nat} (hu : u < 0x10000) (hhigh : isHighSurrogate u = false)
    (hlow : isLowSurrogate u = false) : unitsOf (Char.ofNat u) = [u] := by
  simp only [isHighSurrogate, isLowSurrogate, Bool.and_eq_false_iff,
    decide_eq_false_iff_not] at hhigh hlow
  have hvalid : (Char.ofNat u).toNat = u := toNat_ofNat (by omega)
  rw [unitsOf, hvalid, if_pos hu]

/-- A pair of surrogates is the one of its character. -/
theorem unitsOf_ofPair {u v : Nat} (hu : isHighSurrogate u = true) (hv : isLowSurrogate v = true) :
    unitsOf (Char.ofNat (0x10000 + (u - 0xD800) * 1024 + (v - 0xDC00))) = [u, v] := by
  simp only [isHighSurrogate, isLowSurrogate, Bool.and_eq_true, decide_eq_true_eq] at hu hv
  have hvalid := toNat_ofNat (n := 0x10000 + (u - 0xD800) * 1024 + (v - 0xDC00)) (by omega)
  rw [unitsOf, hvalid, if_neg (by omega)]
  simp only [List.cons.injEq, and_true]
  omega

/-- A character has one unit that is no surrogate, or a pair of surrogates. -/
theorem unitsOf_cases (c : Char) :
    (unitsOf c = [c.toNat] ∧ isHighSurrogate c.toNat = false ∧ isLowSurrogate c.toNat = false) ∨
      ∃ u v, unitsOf c = [u, v] ∧ isHighSurrogate u = true ∧ isLowSurrogate v = true ∧
        Char.ofNat (0x10000 + (u - 0xD800) * 1024 + (v - 0xDC00)) = c := by
  have hvalid : c.toNat < 0xD800 ∨ 0xDFFF < c.toNat ∧ c.toNat < 0x110000 := c.valid
  simp only [isHighSurrogate, isLowSurrogate, Bool.and_eq_false_iff, decide_eq_false_iff_not,
    Bool.and_eq_true, decide_eq_true_eq]
  unfold unitsOf
  split
  · exact .inl ⟨rfl, by omega, by omega⟩
  · have hchar : 0x10000 + (0xD800 + (c.toNat - 0x10000) / 1024 - 0xD800) * 1024 +
        (0xDC00 + (c.toNat - 0x10000) % 1024 - 0xDC00) = c.toNat := by omega
    exact .inr ⟨_, _, rfl, by omega, by omega, by rw [hchar, Char.ofNat_toNat]⟩

/-- The characters of units come out of them again. -/
theorem chars?_unitsOf (c : Char) (us : List Nat) :
    chars? (unitsOf c ++ us) = (chars? us).map (c :: ·) := by
  rcases unitsOf_cases c with ⟨hunits, hhigh, hlow⟩ | ⟨u, v, hunits, hhigh, hlow, hchar⟩
  · rw [hunits, List.singleton_append, chars?.eq_def]
    simp only [hhigh, hlow, Bool.false_eq_true, if_false, Char.ofNat_toNat]
    cases chars? us <;> rfl
  · rw [hunits, List.cons_append, List.singleton_append, chars?]
    simp only [hhigh, hlow, if_true, hchar]
    cases chars? us <;> rfl

/-- **The characters that units stand for are those that have these units.** -/
theorem chars?_eq_some_iff {us : List Nat} (hus : ∀ u ∈ us, u < 0x10000) {cs : List Char} :
    chars? us = some cs ↔ us = cs.flatMap unitsOf := by
  constructor
  · intro h
    fun_induction chars? us generalizing cs with
    | case1 =>
        cases h
        rfl
    | case2 u hu v rest hv ih =>
        simp only [Option.bind_eq_bind, Option.bind_eq_some_iff, Option.pure_def,
          Option.some.injEq] at h
        obtain ⟨later, hlater, rfl⟩ := h
        have hrest := ih (fun x hx => hus x (List.mem_cons_of_mem _ (List.mem_cons_of_mem _ hx)))
          hlater
        rw [List.flatMap_cons, unitsOf_ofPair hu hv, ← hrest]
        rfl
    | case6 u rest hhigh hlow ih =>
        simp only [Option.bind_eq_bind, Option.bind_eq_some_iff, Option.pure_def,
          Option.some.injEq] at h
        obtain ⟨later, hlater, rfl⟩ := h
        obtain ⟨hu, hlt⟩ := List.forall_mem_cons.1 hus
        rw [List.flatMap_cons, unitsOf_ofNat hu (by simpa using hhigh) (by simpa using hlow),
          ← ih hlt hlater]
        rfl
    | case3 => cases h
    | case4 => cases h
    | case5 => cases h
  · rintro rfl
    induction cs with
    | nil => rfl
    | cons c cs ih =>
        rw [List.flatMap_cons] at hus ⊢
        rw [chars?_unitsOf, ih fun u hu => hus u (List.mem_append_right _ hu), Option.map_some]

/-! ## Texts -/

/-- What is decoded without the short cut for ASCII. -/
def decodeByUnits? (bs : Bytes) : Option String := do
  let units ← units? bs
  return String.ofList (← chars? units)

theorem unitsOf_lt {c : Char} : ∀ u ∈ unitsOf c, u < 0x10000 := by
  have hvalid : c.toNat < 0xD800 ∨ 0xDFFF < c.toNat ∧ c.toNat < 0x110000 := c.valid
  intro u hu
  unfold unitsOf at hu
  split at hu
  · simp_all
  · simp only [List.mem_cons, List.not_mem_nil, or_false] at hu
    omega

theorem textUnits_lt (s : String) : ∀ u ∈ textUnits s, u < 0x10000 := by
  intro u hu
  obtain ⟨c, -, hc⟩ := List.mem_flatMap.1 hu
  exact unitsOf_lt u hc

/-- Decoding unit by unit reads the spellings of a text. -/
theorem decodeByUnits?_eq_some_iff {bs : Bytes} {s : String} :
    decodeByUnits? bs = some s ↔ Spells (textUnits s) bs := by
  simp only [decodeByUnits?, Option.bind_eq_bind, Option.bind_eq_some_iff, Option.pure_def,
    Option.some.injEq, units?_eq_some_iff]
  constructor
  · rintro ⟨us, hus, cs, hcs, rfl⟩
    rw [textUnits, String.toList_ofList, ← (chars?_eq_some_iff hus.lt).1 hcs]
    exact hus
  · intro h
    exact ⟨_, h, s.toList, (chars?_eq_some_iff h.lt).2 rfl, String.ofList_toList⟩

/-- Octets that are plain ASCII spell their characters. -/
theorem spells_of_plain {bs : Bytes} (h : ∀ b ∈ bs, isPlain b = true) :
    Spells (textUnits (String.ofList (bs.map fun b => Char.ofNat b.toNat))) bs := by
  rw [textUnits, String.toList_ofList]
  induction bs with
  | nil => exact .nil
  | cons a bs ih =>
      obtain ⟨ha, hbs⟩ := List.forall_mem_cons.1 h
      simp only [isPlain, Bool.and_eq_true, decide_eq_true_eq] at ha
      have hunit : unitsOf (Char.ofNat a.toNat) = [a.toNat] := by
        refine unitsOf_ofNat (by omega) ?_ ?_
        · simp only [isHighSurrogate, Bool.and_eq_false_iff, decide_eq_false_iff_not]
          omega
        · simp only [isLowSurrogate, Bool.and_eq_false_iff, decide_eq_false_iff_not]
          omega
      rw [List.map_cons, List.flatMap_cons, hunit]
      exact .cons (form_one (by omega)) (ih hbs)

/-- **The short cut for ASCII changes nothing.** -/
theorem decode?_eq_decodeByUnits? (bs : Bytes) : decode? bs = decodeByUnits? bs := by
  unfold decode?
  split
  · rename_i h
    exact (decodeByUnits?_eq_some_iff.2 (spells_of_plain (List.all_eq_true.1 h))).symm
  · rfl

/-- **What is decoded to a text are its spellings.** -/
theorem decode?_eq_some_iff {bs : Bytes} {s : String} :
    decode? bs = some s ↔ Spells (textUnits s) bs := by
  rw [decode?_eq_decodeByUnits?, decodeByUnits?_eq_some_iff]

theorem decode?_encode (s : String) : decode? (encode s) = some s :=
  decode?_eq_some_iff.2 (.flatMap_encodeUnit (textUnits_lt s))

/-! ## Longer than needed -/

/-- Somewhere a unit takes more octets than it needs. -/
def Overlong (bs : Bytes) : Prop :=
  ∃ before u after, (0 < u ∧ u < 0x80 ∧ bs = before ++ (inTwo u ++ after)) ∨
    (u < 0x800 ∧ bs = before ++ (inThree u ++ after))

theorem Overlong.append_left {bs : Bytes} (h : Overlong bs) (first : Bytes) :
    Overlong (first ++ bs) := by
  obtain ⟨before, u, after, ⟨hpos, hu, rfl⟩ | ⟨hu, rfl⟩⟩ := h
  · exact ⟨first ++ before, u, after, .inl ⟨hpos, hu, by rw [List.append_assoc]⟩⟩
  · exact ⟨first ++ before, u, after, .inr ⟨hu, by rw [List.append_assoc]⟩⟩

/-- A form is the shortest one, or it is longer than needed. -/
theorem form_cases {u : Nat} {b : Bytes} (h : Form u b) (after : Bytes) :
    b = encodeUnit u ∨ Overlong (b ++ after) := by
  unfold encodeUnit
  cases h with
  | one hpos hu => exact .inl (by rw [if_pos ⟨hpos, hu⟩])
  | two hu =>
      by_cases hone : 0 < u ∧ u < 0x80
      · exact .inr ⟨[], u, after, .inl ⟨hone.1, hone.2, rfl⟩⟩
      · exact .inl (by rw [if_neg hone, if_pos hu])
  | three _ =>
      by_cases htwo : u < 0x800
      · exact .inr ⟨[], u, after, .inr ⟨htwo, rfl⟩⟩
      · exact .inl (by rw [if_neg (by omega), if_neg htwo])

namespace Spells

variable {us : List Nat} {bs : Bytes}

/-- A spelling without an octet too many is the one of the format. -/
theorem eq_of_not_overlong (h : Spells us bs) (hshort : ¬Overlong bs) :
    bs = us.flatMap encodeUnit := by
  induction h with
  | nil => rfl
  | cons hb _ ih =>
      rcases form_cases hb _ with heq | hlong
      · rw [List.flatMap_cons, ← heq, ← ih fun hlong => hshort (hlong.append_left _)]
      · exact absurd hlong hshort

/-- The unit that takes too many octets, and a shorter spelling. -/
theorem exists_shorter (h : Spells us bs) (hlong : Overlong bs) :
    ∃ u ∈ us, u < 0x800 ∧ ∃ cs, Spells us cs ∧ cs.length < bs.length := by
  obtain ⟨before, u, after, ⟨hpos, hu, rfl⟩ | ⟨hu, rfl⟩⟩ := hlong
  · obtain ⟨us₁, us₂, rfl, hbefore, hafter⟩ := h.split_form (.two (by omega))
    refine ⟨u, by simp, by omega, _, hbefore.append (.cons (.one hpos hu) hafter), ?_⟩
    simp [inOne, inTwo]
  · obtain ⟨us₁, us₂, rfl, hbefore, hafter⟩ := h.split_form (.three (by omega))
    refine ⟨u, by simp, hu, _, hbefore.append (.cons (.two hu) hafter), ?_⟩
    simp [inTwo, inThree]

end Spells

/-- The spelling of the format has no octet too many. -/
theorem not_overlong_encode (s : String) : ¬Overlong (encode s) := by
  intro hlong
  have hspells : Spells (textUnits s) (encode s) := decode?_eq_some_iff.1 (decode?_encode s)
  obtain ⟨-, -, -, cs, hcs, hlt⟩ := hspells.exists_shorter hlong
  exact absurd hcs.length_le (Nat.not_le.2 hlt)

/-- A small unit of a text is a character of it. -/
theorem mem_toList_of_mem_textUnits {s : String} {u : Nat} (hu : u ∈ textUnits s)
    (hsmall : u < 0x800) : ∃ c ∈ s.toList, c.toNat = u := by
  obtain ⟨c, hc, huc⟩ := List.mem_flatMap.1 hu
  refine ⟨c, hc, ?_⟩
  unfold unitsOf at huc
  split at huc
  · exact (List.mem_singleton.1 huc).symm
  · simp only [List.mem_cons, List.not_mem_nil, or_false] at huc
    omega

/-- A text with a character below U+0800 has a spelling with an octet too many. -/
theorem exists_overlong {s : String} {c : Char} (hc : c ∈ s.toList) (hsmall : c.toNat < 0x800) :
    ∃ bs, Spells (textUnits s) bs ∧ Overlong bs := by
  obtain ⟨before, after, hsplit⟩ := List.append_of_mem hc
  have hunits : textUnits s =
      before.flatMap unitsOf ++ c.toNat :: after.flatMap unitsOf := by
    rw [textUnits, hsplit, List.flatMap_append, List.flatMap_cons, unitsOf, if_pos (by omega)]
    rfl
  have hlt := textUnits_lt s
  rw [hunits] at hlt ⊢
  obtain ⟨hbefore, hrest⟩ := List.forall_mem_append.1 hlt
  obtain ⟨hunit, hafter⟩ := List.forall_mem_cons.1 hrest
  exact ⟨_, (Spells.flatMap_encodeUnit hbefore).append
    (.cons (.three hunit) (.flatMap_encodeUnit hafter)), _, _, _, .inr ⟨hsmall, rfl⟩⟩

/-- **The spelling that the format asks for** is the one without an octet too many.  The decoder
accepts any other as well, and there are others just of texts with a character below U+0800; of two
payloads that are decoded to one text, one at least has an octet too many. -/
theorem decode?_shortest (bs : Bytes) (s : String) :
    (bs = encode s ↔ decode? bs = some s ∧ ¬Overlong bs) ∧
    ((∃ cs, cs ≠ encode s ∧ decode? cs = some s) ↔ ∃ c ∈ s.toList, c.toNat < 0x800) ∧
    (∀ cs, decode? bs = some s → decode? cs = some s → bs ≠ cs → Overlong bs ∨ Overlong cs) := by
  have hshortest : ∀ cs, decode? cs = some s → ¬Overlong cs → cs = encode s :=
    fun cs h hshort => (decode?_eq_some_iff.1 h).eq_of_not_overlong hshort
  refine ⟨⟨?_, fun h => hshortest bs h.1 h.2⟩, ⟨?_, ?_⟩, ?_⟩
  · rintro rfl
    exact ⟨decode?_encode s, not_overlong_encode s⟩
  · rintro ⟨cs, hne, h⟩
    have hlong : Overlong cs := by
      by_contra hshort
      exact hne (hshortest cs h hshort)
    obtain ⟨u, hu, hsmall, -⟩ := (decode?_eq_some_iff.1 h).exists_shorter hlong
    obtain ⟨c, hc, rfl⟩ := mem_toList_of_mem_textUnits hu hsmall
    exact ⟨c, hc, hsmall⟩
  · rintro ⟨c, hc, hsmall⟩
    obtain ⟨cs, hspells, hlong⟩ := exists_overlong hc hsmall
    refine ⟨cs, ?_, decode?_eq_some_iff.2 hspells⟩
    rintro rfl
    exact not_overlong_encode s hlong
  · intro cs hbs hcs hne
    by_contra hshort
    obtain ⟨hshort, hshort'⟩ := not_or.1 hshort
    exact hne ((hshortest bs hbs hshort).trans (hshortest cs hcs hshort').symm)

theorem decode?_shortest_letter :
    decode? [0x41] = some "A" ∧ decode? [0xC1, 0x81] = some "A" ∧ encode "A" = [0x41] ∧
      (Overlong [0x41] ∨ Overlong [0xC1, 0x81]) :=
  ⟨by decide, by decide, by decide,
    (decode?_shortest [0x41] "A").2.2 [0xC1, 0x81] (by decide) (by decide) (by decide)⟩

end FiberWeave.ClassFile.ModifiedUtf8

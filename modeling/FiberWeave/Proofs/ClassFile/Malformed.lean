import FiberWeave.Proofs.ClassFile.Spelling
import Mathlib.Data.List.Basic

/-!
# What is no spelling of any text

The octets that the decoder refuses, told by what is wrong with them: an octet that occurs in no
sequence, one that goes on with a sequence where none has begun, a sequence that stops too early, or
half a pair of surrogates.  Each of these can be seen at one place, without reading what is before.

* `Unfinished` — a sequence that has begun and needs another octet.
* `Malformed` — octets with something wrong.
* `not_malformed`, `malformed_of_decodeByUnits?` — there is nothing wrong with spellings, and
  something with all else.
* **`decode?_specified`** — a text is decoded from the octets that the format has for it, and what
  is malformed is all that is not decoded.
-/

namespace FiberWeave.ClassFile.ModifiedUtf8

/-! ## What can be wrong -/

/-- A sequence that has begun and needs another octet. -/
inductive Unfinished : Bytes → Prop where
  | two {a : UInt8} (ha : LeadsTwo a) : Unfinished [a]
  | three {a : UInt8} (ha : LeadsThree a) : Unfinished [a]
  | threeMore {a b : UInt8} (ha : LeadsThree a) (hb : IsContinuation b) : Unfinished [a, b]

/-- No sequence is unfinished at the end of octets. -/
def Settled (before : Bytes) : Prop := ∀ seq, Unfinished seq → ¬seq <:+ before

/-- An octet is a NUL, or one from `0xF0` on. -/
def IsForbidden (a : UInt8) : Prop := a.toNat = 0 ∨ 0xF0 ≤ a.toNat

/-- Octets that spell no text. -/
inductive Malformed : Bytes → Prop where
  /-- An octet that no sequence has. -/
  | forbidden {before after : Bytes} {a : UInt8} (ha : IsForbidden a) :
      Malformed (before ++ a :: after)
  /-- An octet that goes on with a sequence where none has begun. -/
  | stray {before after : Bytes} {a : UInt8} (hbefore : Settled before) (ha : IsContinuation a) :
      Malformed (before ++ a :: after)
  /-- A sequence with another octet in it. -/
  | missing {before seq after : Bytes} {a : UInt8} (hseq : Unfinished seq)
      (ha : ¬IsContinuation a) : Malformed (before ++ (seq ++ a :: after))
  /-- A sequence that the end cuts short. -/
  | cutOff {before seq : Bytes} (hseq : Unfinished seq) : Malformed (before ++ seq)
  /-- The first half of a pair of surrogates, and not the second one after it. -/
  | unpairedHigh {before after : Bytes} {u : Nat} (hu : isHighSurrogate u = true)
      (hafter : ∀ v, isLowSurrogate v = true → ¬inThree v <+: after) :
      Malformed (before ++ (inThree u ++ after))
  /-- The second half of a pair of surrogates, and not the first one before it. -/
  | unpairedLow {before after : Bytes} {v : Nat} (hv : isLowSurrogate v = true)
      (hbefore : ∀ u, isHighSurrogate u = true → ¬inThree u <:+ before) :
      Malformed (before ++ (inThree v ++ after))

/-! ## Spellings are not malformed -/

theorem units?_unfinished {seq : Bytes} (h : Unfinished seq) : units? seq = none := by
  cases h with
  | two ha =>
      obtain ⟨ha, ha'⟩ := ha
      rw [units?, if_neg (by omega), if_pos ⟨ha, ha'⟩]
  | three ha =>
      obtain ⟨ha, ha'⟩ := ha
      rw [units?, if_neg (by omega), if_neg (by omega), if_pos ⟨ha, ha'⟩]
  | threeMore ha _ =>
      obtain ⟨ha, ha'⟩ := ha
      rw [units?, if_neg (by omega), if_neg (by omega), if_pos ⟨ha, ha'⟩]

theorem Unfinished.exists_cons {seq : Bytes} (h : Unfinished seq) :
    ∃ a rest, seq = a :: rest ∧ ¬IsContinuation a ∧ ∀ c ∈ rest, IsContinuation c := by
  cases h with
  | two ha => exact ⟨_, [], rfl, ha.not_isContinuation, by simp⟩
  | three ha => exact ⟨_, [], rfl, ha.not_isContinuation, by simp⟩
  | threeMore ha hb => exact ⟨_, [_], rfl, ha.not_isContinuation, by simp [hb]⟩

theorem settled_nil : Settled [] := by
  intro seq hseq hsuffix
  obtain ⟨a, rest, rfl, -, -⟩ := hseq.exists_cons
  simp at hsuffix

theorem not_isForbidden_of_kind {a : UInt8}
    (h : (0x01 ≤ a.toNat ∧ a.toNat ≤ 0x7F) ∨ LeadsTwo a ∨ LeadsThree a ∨ IsContinuation a) :
    ¬IsForbidden a := by
  simp only [LeadsTwo, LeadsThree, IsContinuation] at h
  unfold IsForbidden
  omega

theorem Form.not_isForbidden {u : Nat} {b : Bytes} (h : Form u b) : ∀ a ∈ b, ¬IsForbidden a := by
  have hlater : ∀ {c : UInt8}, IsContinuation c → ¬IsForbidden c := fun hc =>
    not_isForbidden_of_kind (.inr (.inr (.inr hc)))
  rcases h.octets with ⟨a, rfl, ha⟩ | ⟨a, c, rfl, ha, hc⟩ | ⟨a, c, d, rfl, ha, hc, hd⟩
  · exact List.forall_mem_singleton.2 (not_isForbidden_of_kind (.inl ha))
  · refine List.forall_mem_cons.2 ⟨not_isForbidden_of_kind (.inr (.inl ha)), ?_⟩
    exact List.forall_mem_singleton.2 (hlater hc)
  · refine List.forall_mem_cons.2 ⟨not_isForbidden_of_kind (.inr (.inr (.inl ha))), ?_⟩
    exact List.forall_mem_cons.2 ⟨hlater hc, List.forall_mem_singleton.2 (hlater hd)⟩

/-- What stands in a form before an octet that goes on with it is unfinished. -/
theorem Form.unfinished {u : Nat} {before more : Bytes} {x : UInt8}
    (h : Form u (before ++ x :: more)) (hx : IsContinuation x) : Unfinished before := by
  have hfirst : before ≠ [] := by
    rintro rfl
    obtain ⟨a, rest, hcons, ha, -⟩ := h.exists_cons
    obtain ⟨rfl, -⟩ := List.cons.inj hcons
    exact ha hx
  obtain ⟨a, before, rfl⟩ := List.exists_cons_of_ne_nil hfirst
  rcases h.octets with ⟨a', hb, ha⟩ | ⟨a', c, hb, ha, -⟩ | ⟨a', c, d, hb, ha, hc, -⟩
  · simp at hb
  · simp only [List.cons_append, List.cons.injEq, List.append_eq_singleton_iff, reduceCtorEq,
      and_false, or_false] at hb
    obtain ⟨rfl, rfl, -⟩ := hb
    exact .two ha
  · rcases before with _ | ⟨b, _ | ⟨e, before⟩⟩
    · obtain ⟨rfl, -⟩ := List.cons.inj hb
      exact .three ha
    · simp only [List.cons_append, List.nil_append, List.cons.injEq] at hb
      obtain ⟨rfl, rfl, -⟩ := hb
      exact .threeMore ha hc
    · simp at hb

namespace Spells

variable {us : List Nat} {before after bs : Bytes} {a : UInt8}

theorem not_isForbidden (h : Spells us bs) : ∀ a ∈ bs, ¬IsForbidden a := by
  induction h with
  | nil => simp
  | cons hb _ ih => exact List.forall_mem_append.2 ⟨hb.not_isForbidden, ih⟩

/-- Before an octet that goes on with a sequence, one is unfinished. -/
theorem not_settled (h : Spells us (before ++ a :: after)) (ha : IsContinuation a) :
    ¬Settled before := by
  generalize hbs : before ++ a :: after = bs at h
  induction h generalizing before with
  | nil => simp at hbs
  | cons hb hspells ih =>
      rcases List.append_eq_append_iff.1 hbs with ⟨more, rfl, hmore⟩ | ⟨more, rfl, hmore⟩
      · cases more with
        | nil =>
            have hnone : ¬Settled [] := ih hmore
            exact absurd settled_nil hnone
        | cons c more =>
            obtain ⟨rfl, rfl⟩ := List.cons.inj hmore
            exact fun hsettled => hsettled before (hb.unfinished ha) List.suffix_rfl
      · intro hsettled
        refine ih hmore.symm fun seq hseq hsuffix => hsettled seq hseq ?_
        exact hsuffix.trans (List.suffix_append ..)

theorem not_unfinished {seq : Bytes} (h : Spells us (before ++ seq)) : ¬Unfinished seq := by
  intro hseq
  obtain ⟨a, rest, rfl, ha, -⟩ := hseq.exists_cons
  obtain ⟨-, us₂, -, -, hspells⟩ := h.split (by simpa using ha)
  cases (units?_eq_some_iff.2 hspells).symm.trans (units?_unfinished hseq)

end Spells

/-! ### Pairs of surrogates -/

theorem isLowSurrogate_of_high {u : Nat} (hu : isHighSurrogate u = true) :
    isLowSurrogate u = false := by
  simp only [isHighSurrogate, isLowSurrogate, Bool.and_eq_true, decide_eq_true_eq,
    Bool.and_eq_false_iff, decide_eq_false_iff_not] at hu ⊢
  omega

theorem isHighSurrogate_of_low {u : Nat} (hu : isLowSurrogate u = true) :
    isHighSurrogate u = false := by
  cases hhigh : isHighSurrogate u with
  | false => rfl
  | true => cases hu.symm.trans (isLowSurrogate_of_high hhigh)

/-- **Surrogates of characters are paired**: after a first half comes a second one, and before a
second half a first one. -/
theorem paired_of_flatMap {cs : List Char} {us₁ us₂ : List Nat} {u : Nat}
    (h : cs.flatMap unitsOf = us₁ ++ u :: us₂) :
    (isHighSurrogate u = true → ∃ v ∈ us₂.head?, isLowSurrogate v = true) ∧
      (isLowSurrogate u = true → ∃ w ∈ us₁.getLast?, isHighSurrogate w = true) := by
  induction cs generalizing us₁ with
  | nil => simp at h
  | cons c cs ih =>
      rw [List.flatMap_cons] at h
      rcases unitsOf_cases c with ⟨hunits, hhigh, hlow⟩ | ⟨x, y, hunits, hhigh, hlow, -⟩
      · rw [hunits, List.singleton_append] at h
        rcases us₁ with _ | ⟨x, us₁⟩
        · obtain ⟨rfl, -⟩ := List.cons.inj h
          exact ⟨fun hu => absurd hu (by simp [hhigh]), fun hu => absurd hu (by simp [hlow])⟩
        · refine (ih (List.cons.inj h).2).imp_right fun hbefore hu => ?_
          obtain ⟨w, hw, hwhigh⟩ := hbefore hu
          exact ⟨w, List.mem_getLast?_cons hw, hwhigh⟩
      · rw [hunits, List.cons_append, List.singleton_append] at h
        rcases us₁ with _ | ⟨x', _ | ⟨y', us₁⟩⟩
        · obtain ⟨rfl, rfl⟩ := List.cons.inj h
          refine ⟨fun _ => ⟨y, rfl, hlow⟩, fun hu => absurd hu ?_⟩
          simp [isLowSurrogate_of_high hhigh]
        · simp only [List.cons_append, List.nil_append, List.cons.injEq] at h
          obtain ⟨rfl, rfl, -⟩ := h
          refine ⟨fun hu => absurd hlow ?_, fun _ => ⟨x, rfl, hhigh⟩⟩
          simp [isLowSurrogate_of_high hu]
        · refine (ih (List.cons.inj (List.cons.inj h).2).2).imp_right fun hbefore hu => ?_
          obtain ⟨w, hw, hwhigh⟩ := hbefore hu
          exact ⟨w, List.mem_getLast?_cons (List.mem_getLast?_cons hw), hwhigh⟩

theorem form_surrogate {u : Nat} (hu : isHighSurrogate u = true ∨ isLowSurrogate u = true) :
    Form u (inThree u) := by
  simp only [isHighSurrogate, isLowSurrogate, Bool.and_eq_true, decide_eq_true_eq] at hu
  exact .three (by omega)

theorem form_of_surrogate {u : Nat} {b : Bytes} (h : Form u b)
    (hu : isHighSurrogate u = true ∨ isLowSurrogate u = true) : b = inThree u := by
  simp only [isHighSurrogate, isLowSurrogate, Bool.and_eq_true, decide_eq_true_eq] at hu
  cases h with
  | one => omega
  | two => omega
  | three => rfl

theorem Spells.eq_nil {us : List Nat} (h : Spells us []) : us = [] :=
  (Option.some.inj (units?_eq_some_iff.2 h)).symm

/-- A spelling begins with the octets of a surrogate if that is the first unit. -/
theorem Spells.head?_iff {us : List Nat} {bs : Bytes} {v : Nat}
    (hv : isHighSurrogate v = true ∨ isLowSurrogate v = true) (h : Spells us bs) :
    v ∈ us.head? ↔ inThree v <+: bs := by
  constructor
  · intro hhead
    obtain ⟨us, rfl⟩ := List.head?_eq_some_iff.1 hhead
    cases h with
    | cons hb _ =>
        rw [form_of_surrogate hb hv]
        exact ⟨_, rfl⟩
  · rintro ⟨after, rfl⟩
    rw [← List.nil_append (inThree v ++ after)] at h
    obtain ⟨us₁, us₂, rfl, hnil, -⟩ := h.split_form (form_surrogate hv)
    rw [hnil.eq_nil]
    rfl

/-- It ends with them if that is the last one. -/
theorem Spells.getLast?_iff {us : List Nat} {bs : Bytes} {v : Nat}
    (hv : isHighSurrogate v = true ∨ isLowSurrogate v = true) (h : Spells us bs) :
    v ∈ us.getLast? ↔ inThree v <:+ bs := by
  constructor
  · intro hlast
    obtain ⟨us, rfl⟩ := List.getLast?_eq_some_iff.1 hlast
    obtain ⟨b, c, rfl, -, hlast⟩ := h.of_append
    cases hlast with
    | cons hc hnil =>
        cases hnil with
        | nil =>
            rw [form_of_surrogate hc hv, List.append_nil]
            exact List.suffix_append ..
  · rintro ⟨before, rfl⟩
    rw [← List.append_nil (inThree v)] at h
    obtain ⟨us₁, us₂, rfl, -, hnil⟩ := h.split_form (form_surrogate hv)
    rw [hnil.eq_nil]
    simp

/-- **There is nothing wrong with spellings of a text.** -/
theorem not_malformed {s : String} {bs : Bytes} (h : Spells (textUnits s) bs) : ¬Malformed bs := by
  intro hwrong
  cases hwrong with
  | forbidden ha => exact h.not_isForbidden _ (by simp) ha
  | stray hbefore ha => exact h.not_settled ha hbefore
  | missing hseq ha =>
      rw [← List.append_assoc] at h
      obtain ⟨us₁, -, -, hspells, -⟩ := h.split (by simpa using ha)
      exact hspells.not_unfinished hseq
  | cutOff hseq => exact h.not_unfinished hseq
  | unpairedHigh hu hafter =>
      obtain ⟨us₁, us₂, hunits, -, hspells⟩ := h.split_form (form_surrogate (.inl hu))
      obtain ⟨v, hv, hlow⟩ := (paired_of_flatMap hunits).1 hu
      exact hafter v hlow ((hspells.head?_iff (.inr hlow)).1 hv)
  | unpairedLow hv hbefore =>
      obtain ⟨us₁, us₂, hunits, hspells, -⟩ := h.split_form (form_surrogate (.inr hv))
      obtain ⟨u, hu, hhigh⟩ := (paired_of_flatMap hunits).2 hv
      exact hbefore u hhigh ((hspells.getLast?_iff (.inl hhigh)).1 hu)

/-! ## All else is malformed -/

/-- After a form no sequence is unfinished.  Both would end with the same octets; the shorter one
would begin within the longer one, where only octets stand that go on with it. -/
theorem settled_append {u : Nat} {b : Bytes} (h : Form u b) (before : Bytes) :
    Settled (before ++ b) := by
  intro seq hseq hsuffix
  have hne : seq ≠ b := by
    rintro rfl
    have hread := units?_form h []
    rw [List.append_nil, units?_unfinished hseq] at hread
    cases hread
  obtain ⟨a, rest, rfl, ha, hrest⟩ := hseq.exists_cons
  obtain ⟨a', rest', rfl, ha', hrest'⟩ := h.exists_cons
  rcases List.suffix_or_suffix_of_suffix hsuffix (List.suffix_append ..) with hin | hin
  · have hlater := (List.suffix_cons_iff.1 hin).resolve_left hne
    exact ha (hrest' a (hlater.subset List.mem_cons_self))
  · have hlater := (List.suffix_cons_iff.1 hin).resolve_left hne.symm
    exact ha' (hrest a' (hlater.subset List.mem_cons_self))

/-- A step on what is not there is not done. -/
theorem eq_none_of_bind {α β : Type} {o : Option α} {f : α → β}
    (h : (do return f (← o)) = none) : o = none := by
  cases o with
  | none => rfl
  | some a => cases h

/-- If units are read from no octets, there is something wrong with these. -/
theorem malformed_of_units? {before bs : Bytes} (hbefore : Settled before)
    (h : units? bs = none) : Malformed (before ++ bs) := by
  fun_induction units? bs generalizing before with
  | case1 => cases h
  | case2 a rest ha ih =>
      have hrest : units? rest = none := eq_none_of_bind h
      have hwrong := ih (settled_append (form_one ha) before) hrest
      rwa [List.append_assoc] at hwrong
  | case3 a _ ha b rest ih =>
      cases hb : continuation? b with
      | none => exact .missing (.two ha) (not_isContinuation hb)
      | some low =>
          have hrest : units? rest = none := by
            rw [hb] at h
            exact eq_none_of_bind h
          have hform := form_two ha (continuation?_eq_some_iff.1 hb).1
          have hwrong := ih (settled_append hform before) hrest
          rwa [List.append_assoc] at hwrong
  | case4 a _ ha => exact .cutOff (.two ha)
  | case5 a _ _ ha b c rest ih =>
      cases hb : continuation? b with
      | none => exact .missing (.three ha) (not_isContinuation hb)
      | some mid =>
          have hbcont := (continuation?_eq_some_iff.1 hb).1
          cases hc : continuation? c with
          | none => exact .missing (.threeMore ha hbcont) (not_isContinuation hc)
          | some low =>
              have hrest : units? rest = none := by
                rw [hb, hc] at h
                exact eq_none_of_bind h
              have hform := form_three ha hbcont (continuation?_eq_some_iff.1 hc).1
              have hwrong := ih (settled_append hform before) hrest
              rwa [List.append_assoc] at hwrong
  | case6 a rest _ _ ha hshort =>
      rcases rest with _ | ⟨b, _ | ⟨c, rest⟩⟩
      · exact .cutOff (.three ha)
      · by_cases hb : IsContinuation b
        · exact .cutOff (.threeMore ha hb)
        · exact .missing (.three ha) hb
      · exact absurd rfl (hshort b c rest)
  | case7 a rest hone htwo hthree =>
      by_cases ha : IsContinuation a
      · exact .stray hbefore ha
      · refine .forbidden ?_
        simp only [IsContinuation, IsForbidden] at ha ⊢
        omega

/-- The last unit is no first half if there is none. -/
theorem forall_getLast?_cons {us : List Nat} {u : Nat} (hu : isHighSurrogate u = false)
    (h : ∀ w ∈ us.getLast?, isHighSurrogate w = false) :
    ∀ w ∈ (u :: us).getLast?, isHighSurrogate w = false := by
  rw [List.getLast?_cons]
  cases hlast : us.getLast? with
  | none => simp [hu]
  | some w => simpa using h w hlast

/-- If units are those of no characters, a surrogate is not paired. -/
theorem unpaired_of_chars? {us : List Nat} (h : chars? us = none) :
    ∃ us₁ u us₂, us = us₁ ++ u :: us₂ ∧
      ((isHighSurrogate u = true ∧ ∀ v ∈ us₂.head?, isLowSurrogate v = false) ∨
        (isLowSurrogate u = true ∧ ∀ w ∈ us₁.getLast?, isHighSurrogate w = false)) := by
  fun_induction chars? us with
  | case1 => cases h
  | case2 u hu v rest hv ih =>
      obtain ⟨us₁, x, us₂, rfl, hx⟩ := ih (eq_none_of_bind h)
      refine ⟨u :: v :: us₁, x, us₂, rfl, hx.imp_right (And.imp_right fun hlast => ?_)⟩
      rw [List.getLast?_cons_cons]
      exact forall_getLast?_cons (isHighSurrogate_of_low hv) hlast
  | case3 u hu v rest hv => exact ⟨[], u, v :: rest, rfl, .inl ⟨hu, by simpa using hv⟩⟩
  | case4 u hu => exact ⟨[], u, [], rfl, .inl ⟨hu, by simp⟩⟩
  | case5 u rest hhigh hlow => exact ⟨[], u, rest, rfl, .inr ⟨hlow, by simp⟩⟩
  | case6 u rest hhigh hlow ih =>
      obtain ⟨us₁, x, us₂, rfl, hx⟩ := ih (eq_none_of_bind h)
      refine ⟨u :: us₁, x, us₂, rfl, hx.imp_right (And.imp_right fun hlast => ?_)⟩
      exact forall_getLast?_cons (by simpa using hhigh) hlast

/-- **Octets that nothing is decoded from are malformed.** -/
theorem malformed_of_decodeByUnits? {bs : Bytes} (h : decodeByUnits? bs = none) :
    Malformed bs := by
  cases hunits : units? bs with
  | none => exact malformed_of_units? settled_nil hunits
  | some us =>
      have hchars : chars? us = none := by
        rw [decodeByUnits?, hunits] at h
        exact eq_none_of_bind h
      obtain ⟨us₁, u, us₂, rfl, hu⟩ := unpaired_of_chars? hchars
      obtain ⟨before, rest, rfl, hbefore, hrest⟩ := (units?_eq_some_iff.1 hunits).of_append
      cases hrest with
      | cons hb hafter =>
          rcases hu with ⟨hhigh, hnext⟩ | ⟨hlow, hlast⟩
          · rw [form_of_surrogate hb (.inl hhigh)]
            refine .unpairedHigh hhigh fun v hv hbegins => ?_
            have hnot := hnext v ((hafter.head?_iff (.inr hv)).2 hbegins)
            simp [hv] at hnot
          · rw [form_of_surrogate hb (.inr hlow)]
            refine .unpairedLow hlow fun w hw hends => ?_
            have hnot := hlast w ((hbefore.getLast?_iff (.inl hw)).2 hends)
            simp [hw] at hnot

/-- **Decoding undoes the encoding of every text**, the short cut for ASCII changes nothing, and
what is malformed is all that is not decoded. -/
theorem decode?_specified :
    (∀ s, decode? (encode s) = some s) ∧
    (∀ bs, decode? bs = decodeByUnits? bs) ∧
    (∀ bs, decode? bs = none ↔ Malformed bs) := by
  refine ⟨decode?_encode, decode?_eq_decodeByUnits?, fun bs => ⟨fun h => ?_, fun h => ?_⟩⟩
  · exact malformed_of_decodeByUnits? (decode?_eq_decodeByUnits? bs ▸ h)
  · cases hread : decode? bs with
    | none => rfl
    | some s => exact absurd h (not_malformed (decode?_eq_some_iff.1 hread))

/-- A supplementary character, and the four octets that it has elsewhere. -/
example :
    decode? [0xED, 0xA0, 0xBD, 0xED, 0xB8, 0x80] = some (String.singleton (Char.ofNat 0x1F600)) ∧
      decode? [0xF0, 0x9F, 0x98, 0x80] = none := by decide

end FiberWeave.ClassFile.ModifiedUtf8

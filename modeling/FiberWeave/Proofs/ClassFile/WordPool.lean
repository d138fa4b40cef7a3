import FiberWeave.Proofs.ClassFile.WordParser
import Mathlib.Tactic.ByContra
import Mathlib.Tactic.SplitIfs

/-!
# The constant pool on machine words

The pool is the part of a class file where the parser writes to a table, and goes by an index that
stops at the last of its words.  With a constant of eight octets in the last place of a pool of the
greatest size, this index has nowhere to go; it is shown here that nothing is written there.  The
texts in the pool are decoded by an index as well, with up to two octets looked at beyond it.

* `Units.exists_read`, `units_eq` — the units of a text are those that are read from the front of a
  list, and **`decode_eq`** — so is the text.
* `follows_constant` — one constant.
* `filling`, `readSlots_succ`, `store_next` — a constant and the places it takes.
* **`follows_fill`**, `follows_pool` — the table that is filled holds the pool that is read.
-/

namespace FiberWeave.ClassFile.Machine

open FiberWeave.ClassFile.Machine.Step

/-! ## Modified UTF-8 -/

namespace Units

variable {a : UInt8} {bs : Bytes} {i : UInt64}

/-- The bits of the continuation octet that comes first. -/
def front? (bs : Bytes) : Option Nat := bs.head?.bind ModifiedUtf8.continuation?

theorem units?_one (rest : Bytes) (h : 0x01 ≤ a.toNat ∧ a.toNat ≤ 0x7F) :
    ModifiedUtf8.units? (a :: rest) = (ModifiedUtf8.units? rest).map (a.toNat :: ·) := by
  rw [ModifiedUtf8.units?.eq_def]
  dsimp only
  rw [if_pos h]
  cases ModifiedUtf8.units? rest <;> rfl

theorem units?_two (rest : Bytes) (h : 0xC0 ≤ a.toNat ∧ a.toNat ≤ 0xDF) :
    ModifiedUtf8.units? (a :: rest) = (front? rest).bind fun low =>
      (ModifiedUtf8.units? (rest.drop 1)).map ((a.toNat % 32 * 64 + low) :: ·) := by
  rw [ModifiedUtf8.units?.eq_def]
  dsimp only
  rw [if_neg (by omega), if_pos h]
  cases rest with
  | nil => rfl
  | cons b rest =>
      show (ModifiedUtf8.continuation? b).bind _ = (ModifiedUtf8.continuation? b).bind _
      congr 1
      funext low
      cases hunits : ModifiedUtf8.units? rest <;> simp [hunits]

theorem units?_three (rest : Bytes) (h : 0xE0 ≤ a.toNat ∧ a.toNat ≤ 0xEF) :
    ModifiedUtf8.units? (a :: rest) = (front? rest).bind fun mid =>
      (front? (rest.drop 1)).bind fun low =>
        (ModifiedUtf8.units? (rest.drop 2)).map
          ((a.toNat % 16 * 4096 + mid * 64 + low) :: ·) := by
  rw [ModifiedUtf8.units?.eq_def]
  dsimp only
  rw [if_neg (by omega), if_neg (by omega), if_pos h]
  match rest with
  | [] => rfl
  | [b] => cases hb : ModifiedUtf8.continuation? b <;> simp [front?, hb]
  | b :: c :: rest =>
      show (ModifiedUtf8.continuation? b).bind _ = (ModifiedUtf8.continuation? b).bind _
      congr 1
      funext mid
      show (ModifiedUtf8.continuation? c).bind _ = (ModifiedUtf8.continuation? c).bind _
      congr 1
      funext low
      cases hunits : ModifiedUtf8.units? rest <;> simp [hunits]

theorem units?_other (rest : Bytes) (hone : ¬ (0x01 ≤ a.toNat ∧ a.toNat ≤ 0x7F))
    (htwo : ¬ (0xC0 ≤ a.toNat ∧ a.toNat ≤ 0xDF)) (hthree : ¬ (0xE0 ≤ a.toNat ∧ a.toNat ≤ 0xEF)) :
    ModifiedUtf8.units? (a :: rest) = none := by
  rw [ModifiedUtf8.units?.eq_def]
  dsimp only
  rw [if_neg hone, if_neg htwo, if_neg hthree]

/-- What is known of the unit that starts at an index, or of there being none. -/
inductive Read (bs : Bytes) (i : UInt64) : Option (Nat × UInt64) → Prop
  | none (h : ModifiedUtf8.units? (bs.drop i.toNat) = none) : Read bs i none
  | some {u : Nat} {next : UInt64} (hnext : i.toNat < next.toNat) (hin : next.toNat ≤ bs.length)
      (h : ModifiedUtf8.units? (bs.drop i.toNat) =
        (ModifiedUtf8.units? (bs.drop next.toNat)).map (u :: ·)) : Read bs i (some (u, next))

/-- A continuation octet is found by its index as it is found at the front of what is left. -/
theorem continuation?_eq (bs : Bytes) (j : UInt64) :
    continuation? bs j = front? (bs.drop j.toNat) := by
  rw [continuation?, front?, List.head?_drop]

theorem lt_of_front? {skip u : Nat} (h : front? (bs.drop skip) = some u) : skip < bs.length := by
  by_contra hle
  rw [List.drop_eq_nil_of_le (by omega)] at h
  cases h

/-- A unit, or none, is read at any index that is within the text. -/
theorem exists_read (hlength : bs.length < 0x8000000000000000) (hi : i.toNat < bs.length) :
    ∃ found, unitAt bs i = .value found ∧ Read bs i found := by
  obtain ⟨j₁, hj₁, hone⟩ := add_of_fits (a := i) (b := 1) (n := 1) rfl (by omega)
  obtain ⟨j₂, hj₂, htwo⟩ := add_of_fits (a := i) (b := 2) (n := 2) rfl (by omega)
  obtain ⟨j₃, hj₃, hthree⟩ := add_of_fits (a := i) (b := 3) (n := 3) rfl (by omega)
  have hfirst := List.drop_eq_getElem_cons hi
  unfold unitAt
  rw [octet_of_lt hi]
  generalize bs[i.toNat] = a at hfirst ⊢
  simp only [Calc.value_bind, hj₁, hj₂, hj₃, continuation?_eq, hone, htwo]
  split_ifs with h₁ h₂ h₃
  · refine ⟨_, rfl, .some (by omega) (by omega) ?_⟩
    rw [hfirst, units?_one _ h₁, hone]
  · have hplain := units?_two (bs.drop (i.toNat + 1)) h₂
    rw [← hfirst, List.drop_drop] at hplain
    cases hlow : front? (bs.drop (i.toNat + 1)) with
    | none => exact ⟨_, rfl, .none (by rw [hplain, hlow]; rfl)⟩
    | some low =>
        have hin := lt_of_front? hlow
        exact ⟨_, rfl, .some (by omega) (by omega) (by rw [hplain, hlow, htwo]; rfl)⟩
  · have hplain := units?_three (bs.drop (i.toNat + 1)) h₃
    rw [← hfirst, List.drop_drop, List.drop_drop] at hplain
    cases hmid : front? (bs.drop (i.toNat + 1)) with
    | none => exact ⟨_, rfl, .none (by rw [hplain, hmid]; rfl)⟩
    | some mid =>
        cases hlow : front? (bs.drop (i.toNat + 2)) with
        | none =>
            refine ⟨_, rfl, .none ?_⟩
            rw [hplain, hmid, Option.bind_some, hlow]
            rfl
        | some low =>
            have hin := lt_of_front? hlow
            refine ⟨_, rfl, .some (by omega) (by omega) ?_⟩
            rw [hplain, hmid, Option.bind_some, hlow, hthree]
            rfl
  · exact ⟨_, rfl, .none (by rw [hfirst, units?_other _ h₁ h₂ h₃])⟩

end Units

/-- Units are read by an index as they are read from the front of a list. -/
theorem units_eq {bs : Bytes} (hlength : bs.length < 0x8000000000000000) (i : UInt64)
    (hi : i.toNat ≤ bs.length) :
    units bs i = .value (ModifiedUtf8.units? (bs.drop i.toNat)) := by
  have hsize := toNat_size hlength
  induction hleft : bs.length - i.toNat using Nat.strongRecOn generalizing i with
  | ind left ih =>
      subst hleft
      rw [units]
      by_cases hin : i < size bs
      · rw [dif_pos hin]
        rw [UInt64.lt_iff_toNat_lt, hsize] at hin
        obtain ⟨found, hfound, hread⟩ := Units.exists_read hlength hin
        rw [hfound, Calc.value_bind]
        cases hread with
        | none h =>
            rw [h]
            rfl
        | some hnext hend h =>
            dsimp only
            rw [dif_pos (UInt64.lt_iff_toNat_lt.2 hnext), ih _ (by omega) _ hend rfl, h]
            rfl
      · rw [dif_neg hin]
        rw [UInt64.lt_iff_toNat_lt, hsize] at hin
        rw [List.drop_eq_nil_of_le (by omega)]
        rfl

theorem decode_eq {bs : Bytes} (hlength : bs.length < 0x8000000000000000) :
    decode bs = .value (ModifiedUtf8.decode? bs) := by
  unfold decode ModifiedUtf8.decode?
  split
  · rfl
  · rw [units_eq hlength 0 (Nat.zero_le _)]
    show Calc.value _ = Calc.value _
    congr 1
    show (ModifiedUtf8.units? bs).bind _ = (ModifiedUtf8.units? bs).bind _
    congr 1
    funext us
    cases ModifiedUtf8.chars? us <;> rfl

/-! ## The constant pool -/

theorem follows_skipped (n : UInt64) (constant : Constant) :
    Follows (· = ·) (do skip n; return constant) (do Parser.skip n.toNat; return constant) :=
  (follows_skip n).bind_eq fun _ => follows_pure rfl

theorem follows_twoIndices (g : Nat → Nat → Constant) :
    Follows (· = ·) (do return g (← u2).toNat (← u2).toNat)
      (do return g (← Parser.u2) (← Parser.u2)) :=
  follows_u2.bind_word fun _ => follows_u2.bind_word fun _ => follows_pure rfl

theorem follows_payload : Follows (· = ·) (do
    let length ← u2
    let body ← take length.toUInt64
    match ← decode body with
    | some text => return Constant.utf8 text
    | none => return .undecodable) (do
    let length ← Parser.u2
    let body ← Parser.take length
    match ModifiedUtf8.decode? body with
    | some text => return Constant.utf8 text
    | none => return .undecodable) := by
  refine follows_length.bind_word fun length => ?_
  refine (follows_take length.toUInt64).bind fun body _ htaken => ?_
  rw [decode_eq htaken.length_lt, ← htaken.eq]
  show Follows _ (match ModifiedUtf8.decode? body with | some _ => _ | none => _) _
  cases ModifiedUtf8.decode? body with
  | none => exact follows_pure rfl
  | some text => exact follows_pure rfl

theorem follows_constant (index : UInt16) :
    Follows (· = ·) (readConstant index) (Constant.read index.toNat) := by
  unfold readConstant Constant.read
  refine follows_u1.bind_word fun tag => ?_
  generalize tag.toNat = n
  split
  · exact follows_payload
  · exact follows_skipped 4 _
  · exact follows_skipped 4 _
  · exact follows_skipped 4 _
  · exact follows_skipped 4 _
  · exact follows_skipped 4 _
  · exact follows_skipped 8 _
  · exact follows_skipped 8 _
  · exact follows_u2.bind_word fun _ => follows_pure rfl
  · exact follows_skipped 2 _
  · exact follows_skipped 2 _
  · exact follows_skipped 2 _
  · exact follows_skipped 2 _
  · exact follows_twoIndices _
  · exact follows_twoIndices _
  · exact follows_twoIndices _
  · exact follows_skipped 3 _
  case h_18 => simp only [follows_throw, *]

/-- A constant is written where the constants read so far end. -/
theorem store_next {before : List Constant} {table : Array Constant} {index : UInt16} {more : Nat}
    (htable : table.toList = before ++ List.replicate (more + 1) .unusable)
    (hbefore : before.length = index.toNat) (constant : Constant) :
    ∃ table', store table index.toUInt64 constant = .value table' ∧
      table'.toList = before ++ [constant] ++ List.replicate more .unusable := by
  have hsize : table.size = before.length + (more + 1) := by
    rw [← Array.length_toList, htable, List.length_append, List.length_replicate]
  have hin : index.toUInt64.toNat < table.size := by
    rw [UInt16.toNat_toUInt64]
    omega
  refine ⟨_, if_pos hin, ?_⟩
  rw [Array.toList_setIfInBounds, htable, UInt16.toNat_toUInt64, ← hbefore,
    List.set_append_right _ _ (Nat.le_refl _), Nat.sub_self, List.replicate_succ,
    List.set_cons_zero, List.append_assoc]
  rfl

/-- What stands in the table for a constant that has room for all its indices. -/
def filling : Constant → List Constant
  | .wide => [.wide, .unusable]
  | constant => [constant]

theorem length_filling (constant : Constant) :
    (filling constant).length = (slots constant).toNat := by
  cases constant <;> rfl

/-- Unused places behind a constant are as good as places that it has taken. -/
theorem filling_unusable (constant : Constant) (more : Nat) :
    [constant] ++ List.replicate more .unusable =
      (filling constant).take (more + 1) ++
        List.replicate (more + 1 - (filling constant).length) .unusable := by
  cases constant with
  | wide => cases more <;> simp [filling, List.replicate_succ]
  | _ => simp [filling]

/-- Reading constants until all places are taken, one constant at a time. -/
theorem readSlots_succ (count left : Nat) :
    Pool.readSlots count (left + 1) = (do
      let constant ← Constant.read (count - (left + 1))
      let later ← Pool.readSlots count (left + 1 - (filling constant).length)
      return (filling constant).take (left + 1) ++ later) := by
  cases left with
  | zero =>
      rw [Pool.readSlots]
      congr 1
      funext constant
      cases constant <;> rfl
  | succ left =>
      rw [Pool.readSlots]
      congr 1
      funext constant
      cases constant with
      | wide => simp [filling]
      | _ => rfl

/-- **The table is filled with the constants that are read**, and no constant is written outside of
it. The constants read so far stand in front of the index, and all places from there on are
unused. -/
theorem follows_fill (count index : UInt16) {left : Nat} {before : List Constant}
    {table : Array Constant} (hleft : count.toNat - index.toNat = left)
    (htable : table.toList = before ++ List.replicate left .unusable)
    (hbefore : index < count → before.length = index.toNat) :
    Follows (fun table' constants => table'.toList = before ++ constants) (fill count index table)
      (Pool.readSlots count.toNat left) := by
  induction left using Nat.strongRecOn generalizing index before table with
  | ind left ih =>
      rw [fill]
      cases left with
      | zero =>
          rw [dif_neg (by rw [UInt16.lt_iff_toNat_lt]; omega)]
          exact follows_pure htable
      | succ left =>
          have hin : index < count := by
            rw [UInt16.lt_iff_toNat_lt]
            omega
          rw [dif_pos hin, readSlots_succ, show count.toNat - (left + 1) = index.toNat by omega]
          refine (follows_constant index).bind_eq fun constant => ?_
          obtain ⟨table', hstore, htable'⟩ := store_next htable (hbefore hin) constant
          rw [hstore]
          have hcount := count.toNat_lt
          have hslots := slots_pos constant
          have hup := toNat_saturatingAdd index (slots constant)
          rw [List.append_assoc, filling_unusable, ← List.append_assoc] at htable'
          -- An index that would be past the last word stops there, where nothing is left to fill.
          rw [← length_filling] at hslots hup
          have hnext := ih (left + 1 - (filling constant).length) (by omega)
            (saturatingAdd index (slots constant)) (by omega) htable' ?_
          · refine hnext.map_right ?_
            intro table'' later h
            rw [h, List.append_assoc]
          · intro hin'
            rw [UInt16.lt_iff_toNat_lt] at hin'
            rw [List.length_append, List.length_take, hbefore hin]
            omega

/-- The table has room for index zero, even if nothing else is in it. -/
theorem toNat_room (count : UInt16) : (max count 1).toNat = count.toNat - 1 + 1 := by
  show (if count ≤ 1 then 1 else count).toNat = _
  have hone : (1 : UInt16).toNat = 1 := rfl
  by_cases h : count ≤ 1
  · rw [if_pos h]
    rw [UInt16.le_iff_toNat_le] at h
    omega
  · rw [if_neg h]
    rw [UInt16.le_iff_toNat_le] at h
    omega

theorem follows_pool : Follows (· = ·) readPool Pool.read := by
  refine follows_u2.bind_word fun count => ?_
  have htable : (Array.replicate (max count 1).toNat Constant.unusable).toList =
      [.unusable] ++ List.replicate (count.toNat - 1) .unusable := by
    rw [Array.toList_replicate, toNat_room, List.replicate_succ]
    rfl
  refine (follows_fill count 1 rfl htable fun _ => rfl).bind fun table constants h => ?_
  exact follows_pure (congrArg Pool.mk (Array.toList_inj.1 h))

end FiberWeave.ClassFile.Machine

import FiberWeave.ClassFile.Annotation
import FiberWeave.Proofs.ClassFile.Format
import Mathlib.Data.List.Forall2

/-!
# What parsers read

* `Parser.Reads` — a parser takes just these octets, whatever follows them and wherever they stand,
  and gives this result.
* `Reads.bind`, `Reads.times`, `Reads.within` — parsers put together read what their parts read.
* `reads_u2`, `reads_u4`, `reads_index` — numbers.
* `reads_pool` — the constant pool, and `text_of_text?`, `className_of_className?`,
  `memberRef_of_memberRef?`: lookups in the pool that was read find what the format says.
* `reads_value`, `reads_annotation` — annotations of any depth.
-/

namespace FiberWeave.ClassFile

open Format

namespace Parser

/-- A parser takes just these octets, whatever follows them and wherever they stand, and gives this
result. -/
def Reads {α : Type} (p : Parser α) (bytes : Bytes) (a : α) : Prop :=
  ∀ rest offset, p ⟨bytes ++ rest, offset⟩ = .ok (a, ⟨rest, offset + bytes.length⟩)

variable {α β : Type} {p : Parser α} {f : α → Parser β} {bytes more : Bytes} {a : α} {b : β}

/-! ## Parsers put together -/

theorem reads_pure (a : α) : Reads (pure a) [] a := fun _ _ => rfl

/-- A parser that reads nothing gives what it has. -/
theorem Reads.of_pure {a' : α} (h : Reads (pure a) bytes a') : bytes = [] ∧ a' = a := by
  have hempty := Except.ok.inj (h [] 0)
  simp only [Prod.mk.injEq, Cursor.mk.injEq, List.append_nil] at hempty
  exact ⟨hempty.2.1, hempty.1.symm⟩

theorem Reads.bind (hp : Reads p bytes a) (hf : Reads (f a) more b) :
    Reads (p >>= f) (bytes ++ more) b := by
  intro rest offset
  have hfirst := hp (more ++ rest) offset
  have hnext := hf rest (offset + bytes.length)
  rw [← List.append_assoc] at hfirst
  rw [List.length_append, ← Nat.add_assoc, ← hnext]
  exact bind_of_ok hfirst f

/-- A step that reads nothing. -/
theorem Reads.bind_nil (hp : Reads p [] a) (hf : Reads (f a) more b) : Reads (p >>= f) more b :=
  hp.bind hf

/-- The last step, which reads nothing. -/
theorem Reads.bind_pure {b : β} {f : α → Parser β} (hp : Reads p bytes a) (hf : Reads (f a) [] b) :
    Reads (p >>= f) bytes b := by
  simpa using hp.bind hf

theorem Reads.map (g : α → β) (hp : Reads p bytes a) : Reads (g <$> p) bytes (g a) := by
  intro rest offset
  have hfirst := hp rest offset
  exact congrArg (· >>= fun r : α × Cursor => .ok (g r.1, r.2)) hfirst

/-- A lookup reads nothing. -/
theorem reads_lift {attempt : Except Error α} (h : attempt = .ok a) :
    Reads (liftM attempt) [] a := by
  subst h
  exact fun _ _ => rfl

/-- A step that looks where it is. -/
theorem reads_position {f : Nat → Parser β} (h : ∀ offset, Reads (f offset) bytes b) :
    Reads (position >>= f) bytes b := fun rest offset => h offset rest offset

theorem forall₂_of_mapM {ι : Type} {f : ι → Option α} {R : ι → α → Prop} {items : List ι}
    {values : List α} (h : items.mapM f = some values)
    (hR : ∀ i ∈ items, ∀ a, f i = some a → R i a) : List.Forall₂ R items values := by
  induction items generalizing values with
  | nil =>
      obtain rfl := Option.some.inj h
      exact .nil
  | cons i rest ih =>
      simp only [List.mapM_cons, Option.bind_eq_bind, Option.bind_eq_some_iff, Option.pure_def,
        Option.some.injEq] at h
      obtain ⟨a, ha, later, hlater, rfl⟩ := h
      exact .cons (hR i (by simp) a ha) (ih hlater fun j hj => hR j (.tail _ hj))

theorem reads_times {ι : Type} {items : List ι} {encode : ι → Bytes} {values : List α}
    (h : List.Forall₂ (fun i a => Reads p (encode i) a) items values) :
    Reads (times p items.length) (items.flatMap encode) values := by
  induction h with
  | nil => exact reads_pure []
  | cons hfirst _ ih => exact hfirst.bind (ih.bind_pure (reads_pure _))

/-- A parser on octets of its own need not reach their end. -/
theorem Reads.within (hp : Reads p bytes a) (more : Bytes) :
    Reads (Parser.within (bytes ++ more) p) [] a := by
  intro rest offset
  simp [Parser.within, hp more 0]

/-! ## Octets and numbers -/

theorem reads_take {n : Nat} (h : bytes.length = n) : Reads (take n) bytes bytes := by
  intro rest offset
  rw [take_ok_iff]
  subst h
  simp

theorem reads_skip {n : Nat} (h : bytes.length = n) : Reads (skip n) bytes () :=
  (reads_take h).bind_pure (reads_pure ())

theorem reads_u1 (b : UInt8) : Reads u1 [b] b.toNat := by
  have hnumber : Bytes.number [b] = b.toNat := by simp [Bytes.number]
  have hread := (reads_take (rfl : [b].length = 1)).bind_pure (f := fun bs => pure bs.number)
    (reads_pure _)
  rwa [hnumber] at hread

theorem number_octets2 {n : Nat} (h : n < 0x10000) : Bytes.number (octets2 n) = n := by
  simp only [Bytes.number, octets2, List.foldl_cons, List.foldl_nil, UInt8.toNat_ofNat']
  omega

theorem number_octets4 {n : Nat} (h : n < 0x100000000) : Bytes.number (octets4 n) = n := by
  simp only [Bytes.number, octets4, octets2, List.cons_append, List.nil_append, List.foldl_cons,
    List.foldl_nil, UInt8.toNat_ofNat']
  omega

theorem reads_u2 {n : Nat} (h : n < 0x10000) : Reads u2 (octets2 n) n := by
  have hread := (reads_take (rfl : (octets2 n).length = 2)).bind_pure (f := fun bs => pure bs.number)
    (reads_pure _)
  rwa [number_octets2 h] at hread

theorem reads_u4 {n : Nat} (h : n < 0x100000000) : Reads u4 (octets4 n) n := by
  have hread := (reads_take (rfl : (octets4 n).length = 4)).bind_pure (f := fun bs => pure bs.number)
    (reads_pure _)
  rwa [number_octets4 h] at hread

theorem reads_index (i : UInt16) : Reads u2 (index i) i.toNat := reads_u2 i.toNat_lt

/-- As many parts as a count says. -/
theorem reads_counted {ι : Type} {p : Parser α} {items : List ι} {encode : ι → Bytes}
    {values : List α} {f : List α → Parser β} {g : Nat → Parser β}
    (hcount : isCountable items = true)
    (h : List.Forall₂ (fun i a => Reads p (encode i) a) items values)
    (hg : ∀ n, g n = times p n >>= f) (hf : Reads (f values) more b) :
    Reads (u2 >>= g) (counted encode items ++ more) b := by
  rw [counted, List.append_assoc]
  refine (reads_u2 (by simpa [isCountable] using hcount)).bind ?_
  rw [hg]
  exact (reads_times h).bind hf

end Parser

/-! ## The constant pool -/

open FiberWeave.ClassFile.Parser

/-- What is kept of a constant. -/
def keptOf : Format.Constant → ClassFile.Constant
  | .utf8 payload =>
      match ModifiedUtf8.decode? payload with
      | some text => .utf8 text
      | none => .undecodable
  | .long _ | .double _ => .wide
  | .classRef name => .classRef name.toNat
  | .methodRef owner named | .interfaceMethodRef owner named => .methodRef owner.toNat named.toNat
  | .nameAndType name descriptor => .nameAndType name.toNat descriptor.toNat
  | _ => .other

section Constants

variable {α : Type} {bytes : Bytes}

theorem reads_skipped {n : Nat} (h : bytes.length = n) (a : α) :
    Reads (do skip n; return a) bytes a := (reads_skip h).bind_pure (reads_pure a)

theorem reads_oneIndex (g : Nat → α) (i : UInt16) :
    Reads (do return g (← u2)) (index i) (g i.toNat) := (reads_index i).bind_pure (reads_pure _)

theorem reads_twoIndices (g : Nat → Nat → α) (i j : UInt16) :
    Reads (do return g (← u2) (← u2)) (index i ++ index j) (g i.toNat j.toNat) :=
  (reads_index i).bind (reads_oneIndex (g i.toNat) j)

theorem reads_payload {payload : Bytes} (h : isCountable payload = true) :
    Reads (do
      let length ← u2
      let body ← take length
      match ModifiedUtf8.decode? body with
      | some text => return .utf8 text
      | none => return .undecodable) (octets2 payload.length ++ payload)
      (keptOf (.utf8 payload)) := by
  refine (reads_u2 (by simpa [isCountable] using h)).bind ((reads_take rfl).bind_pure ?_)
  rw [keptOf]
  cases ModifiedUtf8.decode? payload with
  | none => exact reads_pure _
  | some text => exact reads_pure _

/-- What follows an octet that says how to go on. -/
theorem reads_tagged {p : Parser α} {f : Nat → Parser α} {tag : UInt8} {a : α}
    (hp : Reads p bytes a) (hf : f tag.toNat = p) : Reads (u1 >>= f) (tag :: bytes) a :=
  (reads_u1 tag).bind (hf ▸ hp)

theorem reads_constant (i : Nat) {c : Format.Constant} (hc : c.fits = true) :
    Reads (ClassFile.Constant.read i) c.encode (keptOf c) := by
  unfold ClassFile.Constant.read
  cases c with
  | utf8 payload => exact reads_tagged (reads_payload hc) rfl
  | integer bits => exact reads_tagged (reads_skipped (n := 4) rfl Constant.other) rfl
  | float bits => exact reads_tagged (reads_skipped (n := 4) rfl Constant.other) rfl
  | long bits => exact reads_tagged (reads_skipped (n := 8) rfl Constant.wide) rfl
  | double bits => exact reads_tagged (reads_skipped (n := 8) rfl Constant.wide) rfl
  | classRef name => exact reads_tagged (reads_oneIndex Constant.classRef name) rfl
  | string text => exact reads_tagged (reads_skipped (n := 2) rfl Constant.other) rfl
  | fieldRef owner named => exact reads_tagged (reads_skipped (n := 4) rfl Constant.other) rfl
  | methodRef owner named => exact reads_tagged (reads_twoIndices Constant.methodRef owner named) rfl
  | interfaceMethodRef owner named =>
      exact reads_tagged (reads_twoIndices Constant.methodRef owner named) rfl
  | nameAndType name descriptor =>
      exact reads_tagged (reads_twoIndices Constant.nameAndType name descriptor) rfl
  | methodHandle kind target => exact reads_tagged (reads_skipped (n := 3) rfl Constant.other) rfl
  | methodType descriptor => exact reads_tagged (reads_skipped (n := 2) rfl Constant.other) rfl
  | dynamic bootstrap named => exact reads_tagged (reads_skipped (n := 4) rfl Constant.other) rfl
  | invokeDynamic bootstrap named => exact reads_tagged (reads_skipped (n := 4) rfl Constant.other) rfl
  | moduleRef name => exact reads_tagged (reads_skipped (n := 2) rfl Constant.other) rfl
  | packageRef name => exact reads_tagged (reads_skipped (n := 2) rfl Constant.other) rfl

end Constants

/-- The entries of the pool that constants fill. -/
def entriesOf (pool : List Format.Constant) : List ClassFile.Constant :=
  pool.flatMap fun c => if c.slots = 2 then [keptOf c, .unusable] else [keptOf c]

theorem slots_eq_or (c : Format.Constant) :
    (c.slots = 2 ∧ keptOf c = .wide) ∨ (c.slots = 1 ∧ keptOf c ≠ .wide) := by
  cases c with
  | long => exact .inl ⟨rfl, rfl⟩
  | double => exact .inl ⟨rfl, rfl⟩
  | utf8 payload =>
      refine .inr ⟨rfl, ?_⟩
      rw [keptOf]
      split <;> simp
  | _ => exact .inr ⟨rfl, by simp [keptOf]⟩

/-- A constant in one index, and the ones after it. -/
theorem reads_narrow {count slots : Nat} {c : ClassFile.Constant} {first later : Bytes}
    {rest : List ClassFile.Constant} (hc : ∀ i, Reads (ClassFile.Constant.read i) first c)
    (hwide : c ≠ .wide) (hrest : Reads (Pool.readSlots count slots) later rest) :
    Reads (Pool.readSlots count (slots + 1)) (first ++ later) (c :: rest) := by
  cases slots with
  | zero =>
      obtain ⟨rfl, rfl⟩ := hrest.of_pure
      rw [List.append_nil, Pool.readSlots]
      exact (hc _).bind_pure (reads_pure [c])
  | succ n =>
      rw [Pool.readSlots]
      refine (hc _).bind ?_
      have hafter := hrest.bind_pure (f := fun rest => pure (c :: rest)) (reads_pure (c :: rest))
      cases c <;> first | exact hafter | exact absurd rfl hwide

/-- A constant in two indices, and the ones after it. -/
theorem reads_wide {count slots : Nat} {first later : Bytes} {rest : List ClassFile.Constant}
    (hc : ∀ i, Reads (ClassFile.Constant.read i) first .wide)
    (hrest : Reads (Pool.readSlots count slots) later rest) :
    Reads (Pool.readSlots count (slots + 2)) (first ++ later) (.wide :: .unusable :: rest) := by
  rw [Pool.readSlots]
  exact (hc _).bind (hrest.bind_pure (reads_pure _))

theorem reads_slots (count : Nat) {pool : List Format.Constant}
    (hpool : ∀ c ∈ pool, c.fits = true) :
    Reads (Pool.readSlots count (Format.Pool.slots pool)) (pool.flatMap Format.Constant.encode)
      (entriesOf pool) := by
  induction pool with
  | nil => exact reads_pure []
  | cons c rest ih =>
      have hc := fun i => reads_constant i (hpool c (by simp))
      have hrest := ih fun d hd => hpool d (.tail _ hd)
      rw [Format.Pool.slots, List.flatMap_cons, entriesOf, List.flatMap_cons]
      rcases slots_eq_or c with ⟨hslots, hkept⟩ | ⟨hslots, hkept⟩
      · rw [hslots, if_pos rfl, hkept, Nat.add_comm]
        exact reads_wide (hkept ▸ hc) hrest
      · rw [hslots, if_neg (by decide), Nat.add_comm]
        exact reads_narrow hc hkept hrest

/-- The table that is read for the constants of a class file. -/
def tableOf (pool : List Format.Constant) : Pool := ⟨(.unusable :: entriesOf pool).toArray⟩

theorem reads_pool {pool : List Format.Constant} (hpool : ∀ c ∈ pool, c.fits = true)
    (hslots : Format.Pool.slots pool ≤ 65534) :
    Reads Pool.read (octets2 (Format.Pool.slots pool + 1) ++ pool.flatMap Format.Constant.encode)
      (tableOf pool) := by
  rw [Pool.read]
  refine (reads_u2 (by omega)).bind ?_
  rw [Nat.add_sub_cancel]
  exact (reads_slots _ hpool).bind_pure (reads_pure _)

/-! ### Lookups -/

section Lookups

variable {pool : List Format.Constant} {i : UInt16}

theorem entry_of_at? {c : Format.Constant} {n : Nat} (h : Format.Pool.at? pool n = some c) :
    (ClassFile.Constant.unusable :: entriesOf pool)[n]? = some (keptOf c) := by
  fun_induction Format.Pool.at? pool n with
  | case1 => cases h
  | case2 => cases h
  | case3 d rest =>
      obtain rfl := Option.some.inj h
      rw [entriesOf, List.flatMap_cons]
      split <;> rfl
  | case4 d rest n ih =>
      have hrest := ih h
      rw [entriesOf, List.flatMap_cons]
      rcases slots_eq_or d with ⟨hslots, -⟩ | ⟨hslots, -⟩
      · rw [hslots, Nat.add_sub_cancel] at hrest
        rw [if_pos hslots]
        exact hrest
      · rw [hslots] at hrest
        rw [if_neg (by simp [hslots])]
        exact hrest

theorem tableOf_entries {c : Format.Constant} (h : Format.Pool.at? pool i.toNat = some c) :
    (tableOf pool).entries[i.toNat]? = some (keptOf c) := by
  simpa [tableOf] using entry_of_at? h

theorem text_of_text? {text : String} (h : Format.Pool.text? pool i = some text) :
    (tableOf pool).text i.toNat = .ok text := by
  unfold Format.Pool.text? at h
  split at h
  · rename_i payload hat
    simp [Pool.text, tableOf_entries hat, keptOf, h]
  · cases h

theorem className_of_className? {name : String} (h : Format.Pool.className? pool i = some name) :
    (tableOf pool).className i.toNat = .ok name := by
  unfold Format.Pool.className? at h
  split at h
  · rename_i named hat
    simp [Pool.className, tableOf_entries hat, keptOf, text_of_text? h]
  · cases h

/-- A lookup of a method is the same for the two kinds of constant. -/
theorem memberRef_of_member? {owner named : UInt16} {target : MemberRef}
    (hat : (tableOf pool).entries[i.toNat]? = some (.methodRef owner.toNat named.toNat))
    (h : Format.Pool.member? pool owner named = some target) :
    (tableOf pool).memberRef i.toNat = .ok target := by
  unfold Format.Pool.member? at h
  split at h
  · rename_i name descriptor hnamed
    simp only [Option.bind_eq_bind, Option.bind_eq_some_iff, Option.pure_def,
      Option.some.injEq] at h
    obtain ⟨ownerName, howner, text, htext, type, htype, rfl⟩ := h
    simp only [Pool.memberRef, hat, tableOf_entries hnamed, keptOf, className_of_className? howner,
      text_of_text? htext, text_of_text? htype]
    rfl
  · cases h

theorem memberRef_of_memberRef? {target : MemberRef}
    (h : Format.Pool.memberRef? pool i = some target) :
    (tableOf pool).memberRef i.toNat = .ok target := by
  unfold Format.Pool.memberRef? at h
  split at h
  · rename_i hat
    exact memberRef_of_member? (tableOf_entries hat) h
  · rename_i hat
    exact memberRef_of_member? (tableOf_entries hat) h
  · cases h

end Lookups

/-! ## Annotations -/

section Annotations

open Annotation

variable {pool : List Format.Constant}

/-- An annotation is its type and its pairs. -/
theorem reads_type {value : Parser Unit} {type : UInt16} {pairs : List (UInt16 × ElementValue)}
    {text : String} (htype : Format.Pool.text? pool type = some text)
    (hcount : isCountable pairs = true)
    (hpairs : Reads (times (do skip 2; value) pairs.length) (encodePairs pairs)
      (List.replicate pairs.length ())) :
    Reads (readType (tableOf pool) value)
      (index type ++ octets2 pairs.length ++ encodePairs pairs) text := by
  unfold readType
  rw [List.append_assoc]
  refine (reads_index type).bind ((reads_lift (text_of_text? htype)).bind_nil ?_)
  exact (reads_u2 (by simpa [isCountable] using hcount)).bind (hpairs.bind_pure (reads_pure _))

theorem isSimpleKind_letter (kind : SimpleKind) :
    isSimpleKind (letter kind.letter).toNat = true := by
  cases kind <;> rfl

theorem length_encode_pos (v : ElementValue) : 0 < v.encode.length := by
  cases v <;> simp [ElementValue.encode]

mutual

/-- A value is passed over, if its depth is no more than its octets. -/
theorem reads_value : (v : ElementValue) → (depth : Nat) → v.encode.length ≤ depth →
    v.fits = true → v.isTyped pool = true →
      Reads (skipValue (tableOf pool) depth) v.encode ()
  | v, 0, hdepth, _, _ => absurd (length_encode_pos v) (Nat.not_lt.2 hdepth)
  | .simple kind value, depth + 1, _, _, _ => by
      rw [skipValue, ElementValue.encode]
      exact reads_position fun start =>
        reads_tagged (reads_skip (n := 2) rfl) (if_pos (isSimpleKind_letter kind))
  | .enum type name, depth + 1, _, _, _ => by
      rw [skipValue, ElementValue.encode]
      exact reads_position fun start => reads_tagged (reads_skip (n := 4) rfl) rfl
  | .nested type pairs, depth + 1, hdepth, hfits, htyped => by
      rw [skipValue]
      simp only [ElementValue.encode, ElementValue.fits, ElementValue.isTyped, Bool.and_eq_true,
        List.length_cons, List.length_append, Option.isSome_iff_exists] at hdepth hfits htyped ⊢
      obtain ⟨text, htext⟩ := htyped.1
      have hpairs := reads_pairs pairs depth (by omega) hfits.2 htyped.2
      have htype := (reads_type htext hfits.1 hpairs).bind_pure (f := fun _ => pure ())
        (reads_pure ())
      exact reads_position fun start => reads_tagged htype rfl
  | .array values, depth + 1, hdepth, hfits, htyped => by
      rw [skipValue]
      simp only [ElementValue.encode, ElementValue.fits, ElementValue.isTyped, Bool.and_eq_true,
        List.length_cons, List.length_append] at hdepth hfits htyped ⊢
      have hvalues := reads_values values depth (by omega) hfits.2 htyped
      have hcount : values.length < 0x10000 := by simpa [isCountable] using hfits.1
      have hall := (reads_u2 hcount).bind
        (f := fun count => times (skipValue (tableOf pool) depth) count >>= fun _ => pure ())
        (hvalues.bind_pure (reads_pure ()))
      exact reads_position fun start => reads_tagged hall rfl

theorem reads_pairs : (pairs : List (UInt16 × ElementValue)) → (depth : Nat) →
    (encodePairs pairs).length ≤ depth → pairsFit pairs = true → pairsTyped pool pairs = true →
      Reads (times (do skip 2; skipValue (tableOf pool) depth) pairs.length)
        (encodePairs pairs) (List.replicate pairs.length ())
  | [], _, _, _, _ => reads_pure []
  | (name, value) :: rest, depth, hdepth, hfits, htyped => by
      simp only [encodePairs, pairsFit, pairsTyped, Bool.and_eq_true, List.length_append]
        at hdepth hfits htyped ⊢
      have hvalue := reads_value value depth (by omega) hfits.1 htyped.1
      have hrest := reads_pairs rest depth (by omega) hfits.2 htyped.2
      exact ((reads_skip (n := 2) rfl).bind hvalue).bind (hrest.bind_pure (reads_pure _))

theorem reads_values : (values : List ElementValue) → (depth : Nat) →
    (encodeValues values).length ≤ depth → valuesFit values = true →
    valuesTyped pool values = true →
      Reads (times (skipValue (tableOf pool) depth) values.length)
        (encodeValues values) (List.replicate values.length ())
  | [], _, _, _, _ => reads_pure []
  | value :: rest, depth, hdepth, hfits, htyped => by
      simp only [encodeValues, valuesFit, valuesTyped, Bool.and_eq_true, List.length_append]
        at hdepth hfits htyped ⊢
      have hvalue := reads_value value depth (by omega) hfits.1 htyped.1
      have hrest := reads_values rest depth (by omega) hfits.2 htyped.2
      exact hvalue.bind (hrest.bind_pure (reads_pure _))

end

theorem reads_annotation {a : AnnotationInfo} {type : String} {depth : Nat}
    (hdepth : a.encode.length ≤ depth) (hfits : a.fits = true) (h : a.view? pool = some type) :
    Reads (readType (tableOf pool) (skipValue (tableOf pool) depth)) a.encode type := by
  unfold AnnotationInfo.view? at h
  split at h
  · rename_i htyped
    simp only [AnnotationInfo.encode, AnnotationInfo.fits, Bool.and_eq_true, List.length_append]
      at hdepth hfits ⊢
    exact reads_type h hfits.1 (reads_pairs a.pairs depth (by omega) hfits.2 htyped)
  · cases h

/-- The types of all annotations in the body of an attribute. -/
theorem reads_types {as : List AnnotationInfo} {types : List String}
    (hcount : isCountable as = true) (hfits : ∀ a ∈ as, a.fits = true)
    (h : as.mapM (AnnotationInfo.view? pool) = some types) :
    Reads (readTypes (tableOf pool) (counted AnnotationInfo.encode as)) [] types := by
  unfold readTypes
  rw [← List.append_nil (counted AnnotationInfo.encode as)]
  refine Reads.within ?_ []
  refine (reads_u2 (by simpa [isCountable] using hcount)).bind (reads_times ?_)
  refine forall₂_of_mapM h fun a ha type htype => reads_annotation ?_ (hfits a ha) htype
  have hle := (List.sublist_flatten_of_mem (List.mem_map_of_mem (f := AnnotationInfo.encode) ha)).length_le
  simp only [counted, List.length_append, List.append_nil, List.flatMap_def]
  omega

end Annotations

end FiberWeave.ClassFile

import FiberWeave.ClassFile.Cursor

/-!
# Reading on machine words

The parser counts octets with natural numbers, which have no end.  Here is the arithmetic of a
machine instead: words of a fixed width, lists and tables with bounds, and a reader that holds a
list of octets and a position in it.  Nothing wraps and nothing is read or written out of bounds
unnoticed; a calculation that would do so comes to a fault.

* `Calc` — a calculation with a value, an error or a fault.
* `add`, `sub`, `mul`, `addSigned`, `subSigned` — arithmetic, with a fault for a result that does
  not fit; `add_of_fits` and its like — the result of one that does.
* `octet`, `slice`, `store` — the parts of lists and tables, with a fault for one that is not there.
* `Step` — a step of a reader; `take`, `u1`, `u2`, `u4`, `times`, `within` — the steps that others
  are made of.
* `Agrees`, `Follows` — a calculation, or a step, gives what one without words gives, and comes to
  no fault.
* `Follows.bind_eq`, `Follows.bind_word`, `Follows.times` — steps put together follow parsers put
  together; **`follows_take`**, `follows_u2` — the primitive ones follow the primitive ones.
-/

namespace FiberWeave.ClassFile.Machine

/-- What no reading of a class file may come to. -/
inductive Fault where
  /-- An index or a slice that is not within a list, or an index outside a table. -/
  | outOfBounds
  /-- A sum, a difference or a product that its word cannot hold. -/
  | overflow
  /-- A loop that does not go forward. -/
  | standstill
  /-- Instructions that do not end where their code array does. -/
  | overrun
  deriving DecidableEq, Repr

/-- What comes of a calculation. An error is an answer, a fault is none. -/
inductive Calc (α : Type) where
  | value (a : α)
  | error (e : Error)
  | fault (f : Fault)
  deriving DecidableEq, Repr

namespace Calc

variable {α β : Type}

def bind : Calc α → (α → Calc β) → Calc β
  | value a, next => next a
  | error e, _ => error e
  | fault f, _ => fault f

def tryCatch : Calc α → (Error → Calc α) → Calc α
  | error e, handle => handle e
  | outcome, _ => outcome

instance : Monad Calc where
  pure := value
  bind := bind

instance : MonadExceptOf Error Calc where
  throw := error
  tryCatch := tryCatch

/-- A result that was reached without words. -/
def ofExcept : Except Error α → Calc α
  | .ok a => value a
  | .error e => error e

instance : MonadLift (Except Error) Calc where
  monadLift := ofExcept

@[simp] theorem value_bind (a : α) (f : α → Calc β) : (value a >>= f) = f a := rfl

end Calc

/-! ## Words -/

def add (a b : UInt64) : Calc UInt64 :=
  if a.toNat + b.toNat < 0x10000000000000000 then .value (a + b) else .fault .overflow

def sub (a b : UInt64) : Calc UInt64 :=
  if b.toNat ≤ a.toNat then .value (a - b) else .fault .overflow

def mul (a b : UInt64) : Calc UInt64 :=
  if a.toNat * b.toNat < 0x10000000000000000 then .value (a * b) else .fault .overflow

/-- Whether a signed word holds a number. -/
def IsSigned64 (n : Int) : Prop := -0x8000000000000000 ≤ n ∧ n < 0x8000000000000000

instance (n : Int) : Decidable (IsSigned64 n) := inferInstanceAs (Decidable (_ ∧ _))

def addSigned (a b : Int64) : Calc Int64 :=
  if IsSigned64 (a.toInt + b.toInt) then .value (a + b) else .fault .overflow

def subSigned (a b : Int64) : Calc Int64 :=
  if IsSigned64 (a.toInt - b.toInt) then .value (a - b) else .fault .overflow

/-- A sum, or nothing if there is no word for it. -/
def checkedAdd (a b : UInt64) : Option UInt64 :=
  if a.toNat + b.toNat < 0x10000000000000000 then some (a + b) else none

/-- A sum, or the last word if there is none for it. -/
def saturatingAdd (a b : UInt16) : UInt16 :=
  UInt16.ofNat (min (a.toNat + b.toNat) 0xFFFF)

section Words

variable {a b : UInt64} {i j : Int64}

theorem toNat_add_of_fits (h : a.toNat + b.toNat < 0x10000000000000000) :
    (a + b).toNat = a.toNat + b.toNat := by
  rw [UInt64.toNat_add, Nat.mod_eq_of_lt h]

theorem add_of_fits {n : Nat} (hb : b.toNat = n) (h : a.toNat + n < 0x10000000000000000) :
    ∃ c, add a b = .value c ∧ c.toNat = a.toNat + n := by
  subst hb
  exact ⟨a + b, if_pos h, toNat_add_of_fits h⟩

theorem sub_of_fits {m n : Nat} (ha : a.toNat = m) (hb : b.toNat = n) (h : n ≤ m) :
    ∃ c, sub a b = .value c ∧ c.toNat = m - n := by
  subst ha hb
  exact ⟨a - b, if_pos h, UInt64.toNat_sub_of_le a b (UInt64.le_iff_toNat_le.2 h)⟩

theorem mul_of_fits {m n : Nat} (ha : a.toNat = m) (hb : b.toNat = n)
    (h : m * n < 0x10000000000000000) :
    ∃ c, mul a b = .value c ∧ c.toNat = m * n := by
  subst ha hb
  exact ⟨a * b, if_pos h, by rw [UInt64.toNat_mul, Nat.mod_eq_of_lt h]⟩

/-- Arithmetic does not go round the end of a word. -/
example : add 0xFFFFFFFFFFFFFFFF 1 = .fault .overflow ∧ sub 3 4 = .fault .overflow := by decide

theorem bmod_of_isSigned64 {n : Int} (h : IsSigned64 n) : n.bmod (0x10000000000000000) = n := by
  obtain ⟨hlow, hhigh⟩ := h
  exact Int.bmod_eq_of_le (by omega) (by omega)

theorem addSigned_of_fits (h : IsSigned64 (i.toInt + j.toInt)) :
    ∃ k, addSigned i j = .value k ∧ k.toInt = i.toInt + j.toInt :=
  ⟨i + j, if_pos h, by rw [Int64.toInt_add, bmod_of_isSigned64 h]⟩

theorem subSigned_of_fits (h : IsSigned64 (i.toInt - j.toInt)) :
    ∃ k, subSigned i j = .value k ∧ k.toInt = i.toInt - j.toInt :=
  ⟨i - j, if_pos h, by rw [Int64.toInt_sub, bmod_of_isSigned64 h]⟩

theorem checkedAdd_of_fits (h : a.toNat + b.toNat < 0x10000000000000000) :
    ∃ c, checkedAdd a b = some c ∧ c.toNat = a.toNat + b.toNat :=
  ⟨a + b, if_pos h, toNat_add_of_fits h⟩

@[simp] theorem toNat_saturatingAdd (a b : UInt16) :
    (saturatingAdd a b).toNat = min (a.toNat + b.toNat) 0xFFFF := by
  rw [saturatingAdd, UInt16.toNat_ofNat']
  omega

end Words

/-! ## Lists and tables -/

/-- The number of octets, in a word. -/
def size (bs : Bytes) : UInt64 := UInt64.ofNat bs.length

/-- The octets from one offset to another, if the list has them. -/
def piece? (bs : Bytes) (start stop : UInt64) : Option Bytes :=
  if start.toNat ≤ stop.toNat ∧ stop.toNat ≤ bs.length then
    some ((bs.drop start.toNat).take (stop.toNat - start.toNat))
  else none

def slice (bs : Bytes) (start stop : UInt64) : Calc Bytes :=
  match piece? bs start stop with
  | some piece => .value piece
  | none => .fault .outOfBounds

def octet (bs : Bytes) (i : UInt64) : Calc UInt8 :=
  match bs[i.toNat]? with
  | some b => .value b
  | none => .fault .outOfBounds

/-- Writes to an element of a table. -/
def store {α : Type} (table : Array α) (i : UInt64) (a : α) : Calc (Array α) :=
  if i.toNat < table.size then .value (table.setIfInBounds i.toNat a) else .fault .outOfBounds

theorem toNat_size {bs : Bytes} (h : bs.length < 0x8000000000000000) :
    (size bs).toNat = bs.length :=
  UInt64.toNat_ofNat_of_lt' (Nat.lt_trans h (by decide))

theorem slice_of_le {bs : Bytes} {start stop : UInt64} (hstart : start.toNat ≤ stop.toNat)
    (hstop : stop.toNat ≤ bs.length) :
    slice bs start stop = .value ((bs.drop start.toNat).take (stop.toNat - start.toNat)) := by
  rw [slice, piece?, if_pos ⟨hstart, hstop⟩]

theorem octet_of_lt {bs : Bytes} {i : UInt64} (h : i.toNat < bs.length) :
    octet bs i = .value bs[i.toNat] := by
  rw [octet, List.getElem?_eq_getElem h]

/-! ## Numbers of several octets -/

def word16 (bs : Bytes) : Calc UInt16 := do
  let b₀ ← octet bs 0
  let b₁ ← octet bs 1
  return UInt16.ofNat (Bytes.number [b₀, b₁])

def word32 (bs : Bytes) : Calc UInt32 := do
  let b₀ ← octet bs 0
  let b₁ ← octet bs 1
  let b₂ ← octet bs 2
  let b₃ ← octet bs 3
  return UInt32.ofNat (Bytes.number [b₀, b₁, b₂, b₃])

theorem exists_word8 {bs : Bytes} (h : bs.length = 1) :
    ∃ b, octet bs 0 = .value b ∧ b.toNat = bs.number := by
  obtain ⟨b, rfl⟩ := List.length_eq_one_iff.1 h
  exact ⟨b, rfl, by simp [Bytes.number]⟩

theorem exists_word16 {bs : Bytes} (h : bs.length = 2) :
    ∃ w, word16 bs = .value w ∧ w.toNat = bs.number := by
  match bs, h with
  | [b₀, b₁], _ =>
      refine ⟨_, rfl, ?_⟩
      have h₀ := b₀.toNat_lt
      have h₁ := b₁.toNat_lt
      simp only [Bytes.number, List.foldl_cons, List.foldl_nil, UInt16.toNat_ofNat']
      omega

theorem exists_word32 {bs : Bytes} (h : bs.length = 4) :
    ∃ w, word32 bs = .value w ∧ w.toNat = bs.number := by
  match bs, h with
  | [b₀, b₁, b₂, b₃], _ =>
      refine ⟨_, rfl, ?_⟩
      have h₀ := b₀.toNat_lt
      have h₁ := b₁.toNat_lt
      have h₂ := b₂.toNat_lt
      have h₃ := b₃.toNat_lt
      simp only [Bytes.number, List.foldl_cons, List.foldl_nil, UInt32.toNat_ofNat']
      omega

/-- Four octets as a signed word, by the two readings of them. -/
theorem toInt_toInt32 (w : UInt32) {bs : Bytes} (h : w.toNat = bs.number) :
    w.toInt32.toInt = bs.signed32 := by
  have hlt := w.toNat_lt
  have hbits : w.toInt32.toInt = (w.toNat : Int).bmod (0x100000000) := by
    show w.toBitVec.toInt = _
    rw [BitVec.toInt_eq_toNat_bmod]
    rfl
  rw [hbits, Bytes.signed32, ← h]
  split
  · exact Int.bmod_eq_of_le (by omega) (by omega)
  · rw [Int.bmod_def]
    omega

/-! ## The reader -/

/-- All octets, and the position of the next one to be read. -/
structure Reader where
  bytes : Bytes
  pos : UInt64 := 0

/-- A step of a reader. -/
abbrev Step := StateT Reader Calc

namespace Step

/-- The next `n` octets. If fewer are left, the error names the position where they would start. -/
def take (n : UInt64) : Step Bytes := fun r =>
  match (checkedAdd r.pos n).filter (· ≤ size r.bytes) with
  | some stop => do
      let piece ← slice r.bytes r.pos stop
      return (piece, { r with pos := stop })
  | none => .error (.truncated r.pos.toNat)

def skip (n : UInt64) : Step Unit := do
  let _ ← take n

def position : Step UInt64 := fun r => .value (r.pos, r)

def u1 : Step UInt8 := do octet (← take 1) 0

def u2 : Step UInt16 := do word16 (← take 2)

def u4 : Step UInt32 := do word32 (← take 4)

/-- The results of `n` runs, in order. -/
def times {α : Type} (p : Step α) : Nat → Step (List α)
  | 0 => return []
  | n + 1 => do
      let x ← p
      let xs ← times p n
      return x :: xs

/-- Runs a step with a reader of its own, on other octets. -/
def within {α : Type} (body : Bytes) (p : Step α) : Step α := fun r => do
  let (a, _) ← p { bytes := body }
  return (a, r)

end Step

/-! ## Agreement -/

/-- A calculation on words answers as one without words does, and its value is in a relation to the
value of the other. It has no fault. -/
inductive Agrees {α β : Type} (R : α → β → Prop) : Calc α → Except Error β → Prop
  | value {a : α} {b : β} (h : R a b) : Agrees R (.value a) (.ok b)
  | error (e : Error) : Agrees R (.error e) (.error e)

section Agreement

variable {α β γ δ : Type} {R : α → β → Prop} {S : γ → δ → Prop} {words : Calc α}
  {plain : Except Error β}

theorem Agrees.bind {f : α → Calc γ} {g : β → Except Error δ} (h : Agrees R words plain)
    (hnext : ∀ a b, R a b → Agrees S (f a) (g b)) : Agrees S (words >>= f) (plain >>= g) := by
  cases h with
  | value hR => exact hnext _ _ hR
  | error e => exact .error e

theorem Agrees.ite {words' : Calc α} {plain' : Except Error β} {P Q : Prop} [Decidable P]
    [Decidable Q] (hiff : P ↔ Q) (h : P → Agrees R words plain)
    (h' : ¬ P → Agrees R words' plain') :
    Agrees R (if P then words else words') (if Q then plain else plain') := by
  by_cases hP : P
  · rw [if_pos hP, if_pos (hiff.1 hP)]
    exact h hP
  · rw [if_neg hP, if_neg (fun hQ => hP (hiff.2 hQ))]
    exact h' hP

theorem agrees_ofExcept (plain : Except Error α) : Agrees (· = ·) (.ofExcept plain) plain := by
  cases plain with
  | ok a => exact .value rfl
  | error e => exact .error e

theorem Agrees.eq_ofExcept {plain : Except Error α} (h : Agrees (· = ·) words plain) :
    words = .ofExcept plain := by
  cases h with
  | value heq => exact congrArg Calc.value heq
  | error e => rfl

theorem Agrees.ne_fault (h : Agrees R words plain) (f : Fault) : words ≠ .fault f := by
  cases h with
  | value _ => exact nofun
  | error _ => exact nofun

theorem Agrees.of_value {a : α} (h : Agrees R words plain) (ha : words = .value a) :
    ∃ b, R a b := by
  cases h with
  | value hR => exact ⟨_, Calc.value.inj ha ▸ hR⟩
  | error _ => cases ha

end Agreement

namespace Reader

/-- What is left to read. -/
def cursor (r : Reader) : Cursor := ⟨r.bytes.drop r.pos.toNat, r.pos.toNat⟩

/-- The position is not past the end, and no list is longer than a machine can hold. -/
structure Sound (r : Reader) : Prop where
  length_lt : r.bytes.length < 0x8000000000000000
  pos_le : r.pos.toNat ≤ r.bytes.length

theorem sound_start {body : Bytes} (h : body.length < 0x8000000000000000) :
    Sound { bytes := body } :=
  ⟨h, Nat.zero_le _⟩

theorem cursor_start (body : Bytes) : cursor { bytes := body } = ⟨body, 0⟩ := rfl

end Reader

/-- A step follows a parser: from a sound reader it answers as the parser does from what is left to
read, and leaves a sound reader to which the same is left. -/
def Follows {α β : Type} (R : α → β → Prop) (p : Step α) (q : Parser β) : Prop :=
  ∀ r : Reader, r.Sound →
    Agrees (fun a b => R a.1 b.1 ∧ a.2.Sound ∧ b.2 = a.2.cursor) (p r) (q r.cursor)

section Following

variable {α β γ δ : Type} {R : α → β → Prop} {S : γ → δ → Prop} {p : Step α} {q : Parser β}

theorem follows_pure {a : α} {b : β} (h : R a b) : Follows R (pure a) (pure b) :=
  fun _ hr => .value ⟨h, hr, rfl⟩

theorem follows_throw (e : Error) : Follows R (throw e) (throw e) := fun _ _ => .error e

theorem follows_throw_bind (e : Error) {f : γ → Step α} {g : δ → Parser β} :
    Follows R (throw e >>= f) (throw e >>= g) := fun _ _ => .error e

theorem Follows.bind {f : α → Step γ} {g : β → Parser δ} (h : Follows R p q)
    (hnext : ∀ a b, R a b → Follows S (f a) (g b)) : Follows S (p >>= f) (q >>= g) := by
  intro r hr
  refine (h r hr).bind ?_
  rintro ⟨a, r'⟩ ⟨b, c⟩ ⟨hR, hr', rfl⟩
  exact hnext a b hR r' hr'

/-- After the same value, the same goes on. -/
theorem Follows.bind_eq {p : Step α} {q : Parser α} {f : α → Step γ} {g : α → Parser δ}
    (h : Follows (· = ·) p q) (hnext : ∀ a, Follows S (f a) (g a)) :
    Follows S (p >>= f) (q >>= g) :=
  h.bind fun a _ ha => ha ▸ hnext a

/-- After a word, what goes on goes by the number in it. -/
theorem Follows.bind_word {w : Type} {value : w → Nat} {p : Step w} {q : Parser Nat}
    {f : w → Step γ} {g : Nat → Parser δ} (h : Follows (fun a n => value a = n) p q)
    (hnext : ∀ a, Follows S (f a) (g (value a))) : Follows S (p >>= f) (q >>= g) :=
  h.bind fun a _ ha => ha ▸ hnext a

/-- What a parser works out besides, of which the step knows nothing. -/
theorem Follows.map_right {T : α → δ → Prop} {g : β → δ} (h : Follows R p q)
    (hnext : ∀ a b, R a b → T a (g b)) : Follows T p (do return g (← q)) := by
  intro r hr
  have hboth := h r hr
  show Agrees _ (p r) (q r.cursor >>= fun b => pure (g b.1, b.2))
  generalize p r = words at hboth ⊢
  generalize q r.cursor = plain at hboth ⊢
  cases hboth with
  | value hR => exact .value ⟨hnext _ _ hR.1, hR.2⟩
  | error e => exact .error e

theorem Follows.ite {p' : Step α} {q' : Parser β} {P Q : Prop} [Decidable P] [Decidable Q]
    (hiff : P ↔ Q) (h : Follows R p q) (h' : Follows R p' q') :
    Follows R (if P then p else p') (if Q then q else q') := by
  by_cases hP : P
  · rw [if_pos hP, if_pos (hiff.1 hP)]
    exact h
  · rw [if_neg hP, if_neg (fun hQ => hP (hiff.2 hQ))]
    exact h'

/-- A calculation that reads nothing. -/
theorem Agrees.follows {words : Calc α} {plain : Except Error β} (h : Agrees R words plain) :
    Follows R (liftM words) (liftM plain) := by
  intro r hr
  exact h.bind fun a b hR => .value ⟨hR, hr, rfl⟩

theorem follows_lookup (attempt : Except Error α) :
    Follows (· = ·) (liftM attempt) (liftM attempt) :=
  (agrees_ofExcept attempt).follows

theorem Follows.times {p : Step α} {q : Parser α} (h : Follows (· = ·) p q) (n : Nat) :
    Follows (· = ·) (Step.times p n) (Parser.times q n) := by
  induction n with
  | zero => exact follows_pure rfl
  | succ n ih => exact h.bind_eq fun _ => ih.bind_eq fun _ => follows_pure rfl

theorem Follows.within {body : Bytes} (h : Follows R p q)
    (hbody : body.length < 0x8000000000000000) :
    Follows R (Step.within body p) (Parser.within body q) := by
  intro r hr
  have hown := h _ (Reader.sound_start hbody)
  rw [Reader.cursor_start] at hown
  unfold Step.within Parser.within
  generalize p _ = words at hown ⊢
  generalize q _ = plain at hown ⊢
  cases hown with
  | value hR => exact .value ⟨hR.1, hr, rfl⟩
  | error e => exact .error e

end Following

/-! ## The primitive reads -/

/-- The octets that were taken, in both readings. -/
structure Taken (n : Nat) (piece plain : Bytes) : Prop where
  eq : piece = plain
  length_eq : piece.length = n
  length_lt : piece.length < 0x8000000000000000

theorem follows_take (n : UInt64) :
    Follows (Taken n.toNat) (Step.take n) (Parser.take n.toNat) := by
  intro r hr
  have hlength := hr.length_lt
  have hpos := hr.pos_le
  have hleft : r.cursor.rest.length = r.bytes.length - r.pos.toNat := List.length_drop
  unfold Step.take Parser.take
  by_cases hn : r.pos.toNat + n.toNat ≤ r.bytes.length
  · obtain ⟨stop, hstop, hsum⟩ := checkedAdd_of_fits (a := r.pos) (b := n) (by omega)
    have hin : stop ≤ size r.bytes := by
      rw [UInt64.le_iff_toNat_le, toNat_size hlength]
      omega
    have hhas : hasAtLeast n.toNat r.cursor.rest = true := (hasAtLeast_iff ..).2 (by omega)
    rw [hstop, Option.filter_some, if_pos (decide_eq_true hin), if_pos hhas]
    dsimp only
    rw [slice_of_le (by omega) (by omega), Calc.value_bind,
      show stop.toNat - r.pos.toNat = n.toNat by omega]
    have htaken : (r.cursor.rest.take n.toNat).length = n.toNat := List.length_take_of_le (by omega)
    have hsmall : (r.cursor.rest.take n.toNat).length < 0x8000000000000000 := by omega
    refine .value ⟨⟨rfl, htaken, hsmall⟩, ⟨hlength, by dsimp only; omega⟩, ?_⟩
    simp only [Reader.cursor, List.drop_drop, hsum]
  · have hhas : ¬ hasAtLeast n.toNat r.cursor.rest = true := by
      rw [hasAtLeast_iff]
      omega
    have hover : (checkedAdd r.pos n).filter (· ≤ size r.bytes) = none := by
      by_cases hfits : r.pos.toNat + n.toNat < 0x10000000000000000
      · obtain ⟨stop, hstop, hsum⟩ := checkedAdd_of_fits hfits
        have hout : ¬ stop ≤ size r.bytes := by
          rw [UInt64.le_iff_toNat_le, toNat_size hlength]
          omega
        rw [hstop, Option.filter_some, if_neg (by simpa using hout)]
      · rw [checkedAdd, if_neg hfits]
        rfl
    rw [hover, if_neg hhas]
    exact .error _

theorem follows_skip (n : UInt64) : Follows (· = ·) (Step.skip n) (Parser.skip n.toNat) :=
  (follows_take n).bind fun _ _ _ => follows_pure rfl

theorem follows_position :
    Follows (fun a b => a.toNat = b) Step.position Parser.position :=
  fun _ hr => .value ⟨rfl, hr, rfl⟩

/-- A number that is put together from octets that were taken. -/
theorem Follows.number {w : Type} {value : w → Nat} {join : Bytes → Calc w} {n : Nat}
    {p : Step Bytes} {q : Parser Bytes} (h : Follows (Taken n) p q)
    (hjoin : ∀ bs : Bytes, bs.length = n → ∃ a, join bs = .value a ∧ value a = bs.number) :
    Follows (fun a b => value a = b) (do join (← p)) (do return (← q).number) := by
  refine h.bind fun piece plain htaken => ?_
  obtain ⟨a, ha, hvalue⟩ := hjoin piece htaken.length_eq
  rw [ha, ← htaken.eq]
  exact follows_pure hvalue

theorem follows_u1 : Follows (fun a b => a.toNat = b) Step.u1 Parser.u1 :=
  (follows_take 1).number fun _ => exists_word8

theorem follows_u2 : Follows (fun a b => a.toNat = b) Step.u2 Parser.u2 :=
  (follows_take 2).number fun _ => exists_word16

theorem follows_u4 : Follows (fun a b => a.toNat = b) Step.u4 Parser.u4 :=
  (follows_take 4).number fun _ => exists_word32

/-- A number of two octets that counts others. -/
theorem follows_length : Follows (fun a b => a.toUInt64.toNat = b) Step.u2 Parser.u2 := by
  simpa only [UInt16.toNat_toUInt64] using follows_u2

/-- A number of four octets that counts others. -/
theorem follows_size : Follows (fun a b => a.toUInt64.toNat = b) Step.u4 Parser.u4 := by
  simpa only [UInt32.toNat_toUInt64] using follows_u4

end FiberWeave.ClassFile.Machine

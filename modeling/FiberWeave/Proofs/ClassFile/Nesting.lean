import FiberWeave.Proofs.ClassFile.Extent

/-!
# Values within values

`Annotation.skipValue` takes the number of levels that it may go down into a value.  Each level
takes an octet before it goes down to the next, so the number never matters where it is above that
of the octets left, and the attribute that holds the annotations is read as if there were no such
number.

* `Parser.SameBelow` — parsers that do the same where few octets are left.
* `skipLevel` — one level of a value, its parts left to another parser.
* `sameBelow_skipValue` — more levels change nothing.
* **`eq_skipLevel_iff`** — there is one way to pass over values of every depth, `skipDeep`.
* `readTypes_eq` — the types of an attribute's annotations, read with it.
-/

namespace FiberWeave.ClassFile

namespace Parser

/-- Where fewer than `n` octets are left, the two parsers do the same, and leave no more of them. -/
def SameBelow {α : Type} (n : Nat) (p q : Parser α) : Prop :=
  ∀ c, c.rest.length < n →
    p c = q c ∧ ∀ ⦃a d⦄, p c = .ok (a, d) → d.rest.length ≤ c.rest.length

variable {α β : Type} {n : Nat} {p q : Parser α} {f g : α → Parser β}

theorem Exact.sameBelow (hp : Exact p) (n : Nat) : SameBelow n p p := by
  refine fun c _ => ⟨rfl, fun a d h => ?_⟩
  obtain ⟨bytes, hc, _⟩ := hp h
  rw [hc, List.length_append]
  exact Nat.le_add_left ..

theorem sameBelow_position (n : Nat) : SameBelow n position position := by
  refine fun c _ => ⟨rfl, fun a d h => ?_⟩
  obtain ⟨rfl, rfl⟩ := Prod.mk.inj (Except.ok.inj h)
  exact Nat.le_refl _

theorem SameBelow.bind (hp : SameBelow n p q) (hf : ∀ a, SameBelow n (f a) (g a)) :
    SameBelow n (p >>= f) (q >>= g) := by
  intro c hc
  obtain ⟨hsame, hless⟩ := hp c hc
  cases hfirst : p c with
  | error e =>
      have hp' : (p >>= f) c = .error e := bind_of_error hfirst f
      have hq' : (q >>= g) c = .error e := bind_of_error (hsame.symm.trans hfirst) g
      exact ⟨hp'.trans hq'.symm, fun _ _ h => nomatch hp'.symm.trans h⟩
  | ok r =>
      obtain ⟨a, d⟩ := r
      have hp' : (p >>= f) c = f a d := bind_of_ok hfirst f
      have hq' : (q >>= g) c = g a d := bind_of_ok (hsame.symm.trans hfirst) g
      have hd : d.rest.length ≤ c.rest.length := hless hfirst
      obtain ⟨hnext, hlater⟩ := hf a d (Nat.lt_of_le_of_lt hd hc)
      exact ⟨hp'.trans (hnext.trans hq'.symm),
        fun _ _ h => Nat.le_trans (hlater (hp'.symm.trans h)) hd⟩

/-- What comes after an octet has one less to read. -/
theorem sameBelow_u1_bind {f g : Nat → Parser β} (hf : ∀ a, SameBelow n (f a) (g a)) :
    SameBelow (n + 1) (u1 >>= f) (u1 >>= g) := by
  rintro ⟨rest, offset⟩ hc
  cases rest with
  | nil => exact ⟨rfl, fun _ _ h => nomatch h⟩
  | cons octet rest =>
      have hread : u1 ⟨octet :: rest, offset⟩ = .ok (octet.toNat, ⟨rest, offset + 1⟩) :=
        reads_u1 octet rest offset
      obtain ⟨hsame, hless⟩ := hf octet.toNat ⟨rest, offset + 1⟩ (Nat.lt_of_succ_lt_succ hc)
      rw [bind_of_ok hread f, bind_of_ok hread g]
      exact ⟨hsame, fun _ _ h => Nat.le_succ_of_le (hless h)⟩

theorem SameBelow.ite {p' q' : Parser α} {P : Prop} [Decidable P] (hp : SameBelow n p q)
    (hp' : SameBelow n p' q') : SameBelow n (if P then p else p') (if P then q else q') := by
  split
  · exact hp
  · exact hp'

theorem SameBelow.times (hp : SameBelow n p q) (count : Nat) :
    SameBelow n (times p count) (times q count) := by
  induction count with
  | zero => exact (exact_pure []).sameBelow n
  | succ count ih => exact hp.bind fun _ => ih.bind fun _ => (exact_pure _).sameBelow n

/-- Parsers that do the same with few octets left, however many these are. -/
theorem eq_of_sameBelow (h : ∀ n, SameBelow n p q) : p = q :=
  funext fun c => (h (c.rest.length + 1) c (Nat.lt_succ_self _)).1

end Parser

namespace Annotation

open FiberWeave.ClassFile.Parser

variable (pool : Pool)

/-- Passes over a value, and with `value` over the values that it holds. -/
def skipLevel (value : Parser Unit) : Parser Unit := do
  let start ← Parser.position
  let tag ← Parser.u1
  if isSimpleKind tag then Parser.skip 2
  else if tag = 'e'.toNat then Parser.skip 4
  else if tag = '@'.toNat then do
    let _ ← readType pool value
  else if tag = '['.toNat then do
    let count ← Parser.u2
    let _ ← Parser.times value count
  else throw (.truncated start)

theorem skipValue_succ (depth : Nat) :
    skipValue pool (depth + 1) = skipLevel pool (skipValue pool depth) := rfl

/-- Passes over a value of any depth. -/
def skipDeep : Parser Unit := fun c => skipValue pool (c.rest.length + 1) c

variable {pool : Pool} {n depth more : Nat} {p q : Parser Unit}

theorem sameBelow_readType (h : SameBelow n p q) :
    SameBelow n (readType pool p) (readType pool q) := by
  refine (exact_u2.sameBelow n).bind fun index => ?_
  refine ((exact_lift _).sameBelow n).bind fun name => ?_
  refine (exact_u2.sameBelow n).bind fun pairs => ?_
  have hpair : SameBelow n (do skip 2; p) (do skip 2; q) :=
    ((exact_skip 2).sameBelow n).bind fun _ => h
  exact (hpair.times pairs).bind fun _ => (exact_pure _).sameBelow n

/-- The octet that names the kind of a value is gone when the values that it holds are read. -/
theorem sameBelow_skipLevel (h : SameBelow n p q) :
    SameBelow (n + 1) (skipLevel pool p) (skipLevel pool q) := by
  refine (sameBelow_position (n + 1)).bind fun start => sameBelow_u1_bind fun tag => ?_
  refine .ite ((exact_skip 2).sameBelow n) ?_
  refine .ite ((exact_skip 4).sameBelow n) ?_
  refine .ite ((sameBelow_readType h).bind fun _ => (exact_pure ()).sameBelow n) ?_
  refine .ite ?_ ((exact_throw _).sameBelow n)
  exact (exact_u2.sameBelow n).bind fun count =>
    (h.times count).bind fun _ => (exact_pure ()).sameBelow n

/-- Levels beyond the number of octets left are never reached. -/
theorem sameBelow_skipValue (h : depth ≤ more) :
    SameBelow depth (skipValue pool depth) (skipValue pool more) := by
  induction depth generalizing more with
  | zero => exact fun c hc => absurd hc (Nat.not_lt_zero _)
  | succ depth ih =>
      obtain ⟨more, rfl⟩ := Nat.exists_eq_add_of_le' (Nat.zero_lt_of_lt h)
      rw [skipValue_succ, skipValue_succ]
      exact sameBelow_skipLevel (ih (Nat.le_of_succ_le_succ h))

theorem sameBelow_skipDeep (depth : Nat) :
    SameBelow depth (skipValue pool depth) (skipDeep pool) := by
  intro c hc
  obtain ⟨_, hless⟩ := sameBelow_skipValue (Nat.le_refl depth) c hc
  obtain ⟨hsame, _⟩ := sameBelow_skipValue hc c (Nat.lt_succ_self _)
  exact ⟨hsame.symm, hless⟩

/-- **Values are passed over in one way only.** A parser that passes over a value, and over the
values in it by itself, is the one that goes down as many levels as there are octets. -/
theorem eq_skipLevel_iff : p = skipLevel pool p ↔ p = skipDeep pool := by
  have hdeep : skipDeep pool = skipLevel pool (skipDeep pool) := by
    funext c
    exact (sameBelow_skipLevel (sameBelow_skipDeep c.rest.length) c (Nat.lt_succ_self _)).1
  constructor
  · intro hp
    -- Both sides of an equation of this kind go down one level together.
    refine eq_of_sameBelow fun n => ?_
    induction n with
    | zero => exact fun c hc => absurd hc (Nat.not_lt_zero _)
    | succ n ih =>
        rw [hp, hdeep]
        exact sameBelow_skipLevel ih
  · rintro rfl
    exact hdeep

/-- The types of an attribute's annotations, whatever the depth of their values. -/
theorem readTypes_eq (pool : Pool) (body : Bytes) :
    readTypes pool body = within body (do times (readType pool (skipDeep pool)) (← u2)) := by
  have hsame : SameBelow (body.length + 1)
      (do times (readType pool (skipValue pool (body.length + 1))) (← u2))
      (do times (readType pool (skipDeep pool)) (← u2)) :=
    (exact_u2.sameBelow _).bind (sameBelow_readType (sameBelow_skipDeep _)).times
  funext c
  simp only [readTypes, within, (hsame ⟨body, 0⟩ (Nat.lt_succ_self _)).1]

end Annotation

end FiberWeave.ClassFile

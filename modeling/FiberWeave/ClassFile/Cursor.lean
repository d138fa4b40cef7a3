import FiberWeave.ClassFile.Basic

/-!
# Reading a class file front to back

A `Cursor` is what is left of a byte string and how much of it is gone. A `Parser` moves a cursor
forward or fails with the offset at which the bytes ran out.

* `take`, `skip`, `u1`, `u2`, `u4` — the primitive reads.
* `times` — one parser a number of times.
* `within` — a parser on a byte string of its own, whose end is not checked.
* `bind_of_ok`, `bind_of_error` — what comes after a parser.
* `take_ok_iff` — what a read of `n` octets does, in one statement.
-/

namespace FiberWeave.ClassFile

/-- The unread bytes and the number of bytes read. -/
structure Cursor where
  rest : Bytes
  offset : Nat := 0
  deriving DecidableEq, Repr, Inhabited

/-- A step over a cursor that may fail. -/
abbrev Parser := StateT Cursor (Except Error)

namespace Parser

/-- The next `n` octets. If fewer are left, the error names the offset where they would start. -/
def take (n : Nat) : Parser Bytes := fun c =>
  if hasAtLeast n c.rest then .ok (c.rest.take n, ⟨c.rest.drop n, c.offset + n⟩)
  else .error (.truncated c.offset)

/-- Passes over `n` octets. -/
def skip (n : Nat) : Parser Unit := do
  let _ ← take n

/-- The offset of the next octet. -/
def position : Parser Nat := fun c => .ok (c.offset, c)

/-- One octet as a number. -/
def u1 : Parser Nat := return (← take 1).number

/-- Two octets as a number. -/
def u2 : Parser Nat := return (← take 2).number

/-- Four octets as a number. -/
def u4 : Parser Nat := return (← take 4).number

/-- The results of `n` runs, in order. -/
def times {α : Type} (p : Parser α) : Nat → Parser (List α)
  | 0 => return []
  | n + 1 => do
      let x ← p
      let xs ← times p n
      return x :: xs

/-- Runs a parser on a byte string of its own and leaves the cursor where it was. Bytes that the
parser does not reach are ignored. -/
def within {α : Type} (body : Bytes) (p : Parser α) : Parser α := fun c =>
  match p ⟨body, 0⟩ with
  | .ok (x, _) => .ok (x, c)
  | .error e => .error e

/-! ## One parser after another -/

section Bind

variable {α β : Type} {p : Parser α} {c d : Cursor}

theorem bind_of_ok {a : α} (h : p c = .ok (a, d)) (f : α → Parser β) : (p >>= f) c = f a d :=
  congrArg (· >>= fun r : α × Cursor => f r.1 r.2) h

theorem bind_of_error {e : Error} (h : p c = .error e) (f : α → Parser β) :
    (p >>= f) c = .error e :=
  congrArg (· >>= fun r : α × Cursor => f r.1 r.2) h

end Bind

/-! ## What the primitive read does -/

theorem take_ok_iff (n : Nat) (c d : Cursor) (bs : Bytes) :
    take n c = .ok (bs, d) ↔
      n ≤ c.rest.length ∧ bs = c.rest.take n ∧ d = ⟨c.rest.drop n, c.offset + n⟩ := by
  unfold take
  by_cases h : hasAtLeast n c.rest
  · simp only [h, if_true, Except.ok.injEq, Prod.mk.injEq, (hasAtLeast_iff n c.rest).1 h,
      true_and]
    constructor <;> rintro ⟨rfl, rfl⟩ <;> exact ⟨rfl, rfl⟩
  · have : ¬ n ≤ c.rest.length := fun hn => h ((hasAtLeast_iff n c.rest).2 hn)
    simp [h, this]

theorem take_error_iff (n : Nat) (c : Cursor) (e : Error) :
    take n c = .error e ↔ c.rest.length < n ∧ e = .truncated c.offset := by
  unfold take
  by_cases h : hasAtLeast n c.rest
  · have : n ≤ c.rest.length := (hasAtLeast_iff n c.rest).1 h
    simp [h]
    omega
  · have : ¬ n ≤ c.rest.length := fun hn => h ((hasAtLeast_iff n c.rest).2 hn)
    simp only [h, Bool.false_eq_true, if_false, Except.error.injEq]
    constructor
    · rintro rfl
      exact ⟨by omega, rfl⟩
    · rintro ⟨_, rfl⟩
      rfl

end Parser

end FiberWeave.ClassFile

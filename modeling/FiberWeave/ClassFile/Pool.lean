import FiberWeave.ClassFile.Cursor
import FiberWeave.ClassFile.ModifiedUtf8

/-!
# The constant pool

Names, descriptors and call targets stand in a table at the front of the file and are referred to
by index. Indices start at one, and a constant of eight octets takes two of them.

* `Constant` — an entry, as far as later lookups tell entries apart.
* `Pool.read` — the table at the cursor.
* `Pool.text`, `Pool.className`, `Pool.memberRef` — the lookups. A lookup fails at the index whose
  entry is missing or of the wrong kind.
-/

namespace FiberWeave.ClassFile

/-- An entry of the constant pool. -/
inductive Constant where
  /-- Index zero, or the second index of a constant of eight octets. -/
  | unusable
  | utf8 (text : String)
  /-- A text constant that decodes to no text: an error only where the text is needed. -/
  | undecodable
  | classRef (name : Nat)
  | nameAndType (name descriptor : Nat)
  /-- A method reference or an interface method reference. -/
  | methodRef (owner nameAndType : Nat)
  /-- A constant whose value plays no part here. -/
  | other
  /-- A constant of eight octets, which takes two indices. -/
  | wide
  deriving DecidableEq, Repr, Inhabited

/-- Reads the constant that has the given index. -/
def Constant.read (index : Nat) : Parser Constant := do
  let tag ← Parser.u1
  match tag with
  | 1 => do
      let length ← Parser.u2
      let body ← Parser.take length
      match ModifiedUtf8.decode? body with
      | some text => return .utf8 text
      | none => return .undecodable
  | 3 | 4 | 9 | 17 | 18 => do Parser.skip 4; return .other
  | 5 | 6 => do Parser.skip 8; return .wide
  | 7 => return .classRef (← Parser.u2)
  | 8 | 16 | 19 | 20 => do Parser.skip 2; return .other
  | 10 | 11 => return .methodRef (← Parser.u2) (← Parser.u2)
  | 12 => return .nameAndType (← Parser.u2) (← Parser.u2)
  | 15 => do Parser.skip 3; return .other
  | _ => throw (.unknownConstant tag index)

/-- The constants by index; the first index is never usable. -/
structure Pool where
  entries : Array Constant
  deriving DecidableEq, Repr, Inhabited

namespace Pool

/-- Reads constants until `slots` indices up to `count` are filled. A constant of eight octets in
the last index has no room for its second one, and none is added. -/
def readSlots (count : Nat) : (slots : Nat) → Parser (List Constant)
  | 0 => return []
  | 1 => return [← Constant.read (count - 1)]
  | slots + 2 => do
      let constant ← Constant.read (count - (slots + 2))
      match constant with
      | .wide => return .wide :: .unusable :: (← readSlots count slots)
      | constant => return constant :: (← readSlots count (slots + 1))

/-- Reads the table at the cursor: a count one above the last index, then the constants. -/
def read : Parser Pool := do
  let count ← Parser.u2
  let constants ← readSlots count (count - 1)
  return ⟨(Constant.unusable :: constants).toArray⟩

/-! ## Lookups -/

/-- The text at an index. -/
def text (pool : Pool) (index : Nat) : Except Error String :=
  match pool.entries[index]? with
  | some (.utf8 s) => .ok s
  | some .undecodable => .error (.badUtf8 index)
  | _ => .error (.badConstantRef index)

/-- The class name at an index. -/
def className (pool : Pool) (index : Nat) : Except Error String :=
  match pool.entries[index]? with
  | some (.classRef name) => pool.text name
  | _ => .error (.badConstantRef index)

/-- The method named at an index. -/
def memberRef (pool : Pool) (index : Nat) : Except Error MemberRef :=
  match pool.entries[index]? with
  | some (.methodRef owner nameAndType) =>
      match pool.entries[nameAndType]? with
      | some (.nameAndType name descriptor) => do
          return {
            owner := ← pool.className owner
            name := ← pool.text name
            descriptor := ← pool.text descriptor }
      | _ => .error (.badConstantRef nameAndType)
  | _ => .error (.badConstantRef index)

end Pool

end FiberWeave.ClassFile

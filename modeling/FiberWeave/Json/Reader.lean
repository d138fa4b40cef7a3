import FiberWeave.Json.Scalar

/-!
# Reading JSON: records and lists

Readers for the shapes that configuration has: truth values, texts, lists, values that may be
missing, and records with named fields. A record may also be written as the list of its fields.

* `readBool`, `readText`, `readOptional`, `readList` — the simple shapes.
* `Field`, `readRecord` — records.
* `skipValue` — passes over any value.
* `readAll` — a whole text.
-/

namespace FiberWeave.Json

/-! ## What is not expected -/

/-- Takes what stands where something else is expected, as far as it must be read to be named. -/
def foundInstead : Reader Found := do
  match ← Reader.peekSome with
  | 'n' => do Reader.word "null".toList; return .null
  | 't' => do Reader.word "true".toList; return .bool true
  | 'f' => do Reader.word "false".toList; return .bool false
  | '-' => do Reader.skip; readNumber true
  | '"' => do Reader.skip; return .text (← readString)
  | '[' => return .array
  | '{' => return .object
  | c => if c.isDigit then readNumber false else throw .malformed

/-- Fails with what stands where something else is expected. -/
def failWith {α : Type} (expected : String) : Reader α := do
  let found ← foundInstead
  throw (.wrongType found expected)

/-! ## Simple shapes -/

/-- A truth value. -/
def readBool : Reader Bool := do
  match ← Reader.peekSome with
  | 't' => do Reader.word "true".toList; return true
  | 'f' => do Reader.word "false".toList; return false
  | _ => failWith "a boolean"

/-- A text; `expected` says what for. -/
def readText (expected : String) : Reader String := do
  match ← Reader.peekSome with
  | '"' => do Reader.skip; readString
  | _ => failWith expected

/-- A value that may be missing, which the word for nothing says. -/
def readOptional {α : Type} (r : Reader α) : Reader (Option α) := do
  match ← Reader.peek with
  | some 'n' => do Reader.word "null".toList; return none
  | _ => return some (← r)

/-! ## Lists -/

/-- Goes to the next item of a list, if there is one. -/
def nextItem (first : Bool) : Reader Bool := do
  match ← Reader.peekSome with
  | ']' => return false
  | ',' =>
      if first then return true
      else do
        Reader.skip
        match ← Reader.peekSome with
        | ']' => throw .malformed
        | _ => return true
  | _ => if first then return true else throw .malformed

/-- The items of a list, at most `fuel` of them. -/
def readItems {α : Type} (r : Reader α) : (fuel : Nat) → (first : Bool) → Reader (List α)
  | 0, _ => throw .cutOff
  | fuel + 1, first => do
      if ← nextItem first then
        let x ← r
        let xs ← readItems r fuel false
        return x :: xs
      else return []

/-- The end of a list. -/
def closeList : Reader Unit := do
  match ← Reader.peekSome with
  | ']' => Reader.skip
  | _ => throw .malformed

/-- A list. -/
def readList {α : Type} (r : Reader α) : Reader (List α) := do
  match ← Reader.peekSome with
  | '[' => do
      Reader.skip
      let xs ← readItems r ((← get).length + 1) true
      closeList
      return xs
  | _ => failWith "a sequence"

/-! ## Values that nobody looks at -/

/-- Passes over the colon after the name of a field. -/
def skipColon : Reader Unit := do
  match ← Reader.peekSome with
  | ':' => Reader.skip
  | _ => throw .malformed

/-- Passes over the name of a field and its colon. -/
def skipName : Reader Unit := do
  match ← Reader.peekSome with
  | '"' => do Reader.skip; skipString; skipColon
  | _ => throw .malformed

mutual

/-- Passes over a value of at most `fuel` parts. -/
def skipValue : (fuel : Nat) → Reader Unit
  | 0 => throw .cutOff
  | fuel + 1 => do
      match ← Reader.peekSome with
      | 'n' => Reader.word "null".toList
      | 't' => Reader.word "true".toList
      | 'f' => Reader.word "false".toList
      | '-' => do Reader.skip; skipNumber
      | '"' => do Reader.skip; skipString
      | '[' => do Reader.skip; skipParts fuel false true
      | '{' => do Reader.skip; skipParts fuel true true
      | c => if c.isDigit then skipNumber else throw .malformed

/-- Passes over the items of a list or the fields of a record, and its end. -/
def skipParts : (fuel : Nat) → (named first : Bool) → Reader Unit
  | 0, _, _ => throw .cutOff
  | fuel + 1, named, first => do
      let c ← Reader.peekSome
      if c = (if named then '}' else ']') then Reader.skip
      else
        if !first then
          if c = ',' then Reader.skip else throw .malformed
        if named then skipName
        skipValue fuel
        skipParts fuel named false

end

/-! ## Records -/

/-- A field of a record that is read into a value of type `σ`. -/
structure Field (σ : Type) where
  key : String
  read : σ → Reader σ
  /-- Whether a record must have the field. -/
  required : Bool
  /-- Whether a record that is written as a list must have the field. -/
  requiredInList : Bool

/-- What a record is called, its fields in order, and whether it may have others. -/
structure Shape (σ : Type) where
  name : String
  fields : List (Field σ)
  open_ : Bool
  initial : σ

namespace Shape

variable {σ : Type}

/-- The field of a name. -/
def field? (shape : Shape σ) (key : String) : Option (Field σ) :=
  shape.fields.find? fun f => f.key == key

/-- Goes to the next field of a record, if there is one. Its opening quote is still there. -/
def nextField (first : Bool) : Reader Bool := do
  match ← Reader.peekSome with
  | '}' => return false
  | c =>
      if first then
        if c = '"' then return true else throw .malformed
      else if c = ',' then do
        Reader.skip
        match ← Reader.peekSome with
        | '"' => return true
        | _ => throw .malformed
      else throw .malformed

/-- The fields of a record, at most `fuel` of them; `seen` are the names read before. -/
def readFields (shape : Shape σ) : (fuel : Nat) → (first : Bool) → (seen : List String) →
    (value : σ) → Reader (List String × σ)
  | 0, _, _, _ => throw .cutOff
  | fuel + 1, first, seen, value => do
      if ← nextField first then
        Reader.skip
        let key ← readString
        match shape.field? key with
        | some field =>
            if seen.contains key then throw (.duplicateField key)
            skipColon
            let value ← field.read value
            readFields shape fuel false (key :: seen) value
        | none =>
            if !shape.open_ then throw (.unknownField key (shape.fields.map (·.key)))
            skipColon
            skipValue ((← get).length + 1)
            readFields shape fuel false seen value
      else return (seen, value)

/-- A record by its fields, after the opening brace. -/
def readNamed (shape : Shape σ) : Reader σ := do
  let (seen, value) ← shape.readFields ((← get).length + 1) true [] shape.initial
  match shape.fields.find? fun f => f.required && !seen.contains f.key with
  | some missing => throw (.missingField missing.key)
  | none => do
      Reader.skip
      return value

/-- What an error calls the record. -/
def title (shape : Shape σ) : String := "struct " ++ shape.name

/-- The fields of a record that is written as a list. -/
def readInOrder (shape : Shape σ) : (index : Nat) → (fields : List (Field σ)) → (value : σ) →
    Reader σ
  | _, [], value => return value
  | index, field :: fields, value => do
      if ← nextItem (index == 0) then
        let value ← field.read value
        readInOrder shape (index + 1) fields value
      else if field.requiredInList then
        throw (.wrongLength index (shape.title ++ s!" with {shape.fields.length} elements"))
      else readInOrder shape (index + 1) fields value

/-- A record. -/
def read (shape : Shape σ) : Reader σ := do
  match ← Reader.peekSome with
  | '{' => do Reader.skip; shape.readNamed
  | '[' => do
      Reader.skip
      let value ← shape.readInOrder 0 shape.fields shape.initial
      closeList
      return value
  | _ => failWith shape.title

end Shape

/-- Reads a whole text; nothing but blanks may follow. -/
def readAll {α : Type} (r : Reader α) (text : List Char) : Except Error α := do
  let (x, rest) ← r.run text
  if (rest.dropWhile isSpace).isEmpty then return x else throw .malformed

end FiberWeave.Json

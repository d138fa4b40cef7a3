import FiberWeave.ClassFile.Pool

/-!
# Annotations

An annotation is a type and a list of named values; values may hold further annotations and lists
of values. Only the types on the outermost level are kept.

* `skipValue` — passes over one value of any depth.
* `readTypes` — the types in the body of an annotations attribute.
-/

namespace FiberWeave.ClassFile.Annotation

/-- The kinds of value that take one index: numbers, texts and classes. -/
def isSimpleKind (tag : Nat) : Bool :=
  "BCDFIJSZsc".toList.any fun c => c.toNat == tag

/-- Reads the type of an annotation and passes over its named values with `value`. -/
def readType (pool : Pool) (value : Parser Unit) : Parser String := do
  let index ← Parser.u2
  let name ← pool.text index
  let pairs ← Parser.u2
  let _ ← Parser.times (do Parser.skip 2; value) pairs
  return name

/-- Passes over a value with at most `depth` levels of nesting. An unknown kind is reported as
missing bytes at the octet that names it. Each level takes at least one octet, so a depth above
the number of octets left is never used up. -/
def skipValue (pool : Pool) : (depth : Nat) → Parser Unit
  | 0 => do throw (.truncated (← Parser.position))
  | depth + 1 => do
      let start ← Parser.position
      let tag ← Parser.u1
      if isSimpleKind tag then Parser.skip 2
      else if tag = 'e'.toNat then Parser.skip 4
      else if tag = '@'.toNat then do
        let _ ← readType pool (skipValue pool depth)
      else if tag = '['.toNat then do
        let count ← Parser.u2
        let _ ← Parser.times (skipValue pool depth) count
      else throw (.truncated start)

/-- The types of the annotations in the body of an attribute. Bytes after the last annotation are
ignored. -/
def readTypes (pool : Pool) (body : Bytes) : Parser (List String) :=
  Parser.within body do
    let count ← Parser.u2
    Parser.times (readType pool (skipValue pool (body.length + 1))) count

end FiberWeave.ClassFile.Annotation

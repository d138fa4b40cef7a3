import FiberWeave.Bytes

/-!
# Digests

The digest of a byte string by SHA-256. The bytes are padded to blocks of sixteen words; each block
is stretched to sixty-four words, which stir eight words of state one after the other.

* `Digest.sha256` — the digest.
* `Digest.ofBytes` — the digest as hexadecimal text.
-/

namespace FiberWeave.Digest

/-- The eight words that each block stirs. -/
structure State where
  a : UInt32
  b : UInt32
  c : UInt32
  d : UInt32
  e : UInt32
  f : UInt32
  g : UInt32
  h : UInt32

/-- The state before the first block: fractions of the square roots of the first primes. -/
def initial : State :=
  ⟨0x6a09e667, 0xbb67ae85, 0x3c6ef372, 0xa54ff53a, 0x510e527f, 0x9b05688c, 0x1f83d9ab, 0x5be0cd19⟩

/-- The constant of each round: fractions of the cube roots of the first primes. -/
def roundConstants : Array UInt32 := #[
    0x428a2f98, 0x71374491, 0xb5c0fbcf, 0xe9b5dba5, 0x3956c25b, 0x59f111f1, 0x923f82a4, 0xab1c5ed5,
    0xd807aa98, 0x12835b01, 0x243185be, 0x550c7dc3, 0x72be5d74, 0x80deb1fe, 0x9bdc06a7, 0xc19bf174,
    0xe49b69c1, 0xefbe4786, 0x0fc19dc6, 0x240ca1cc, 0x2de92c6f, 0x4a7484aa, 0x5cb0a9dc, 0x76f988da,
    0x983e5152, 0xa831c66d, 0xb00327c8, 0xbf597fc7, 0xc6e00bf3, 0xd5a79147, 0x06ca6351, 0x14292967,
    0x27b70a85, 0x2e1b2138, 0x4d2c6dfc, 0x53380d13, 0x650a7354, 0x766a0abb, 0x81c2c92e, 0x92722c85,
    0xa2bfe8a1, 0xa81a664b, 0xc24b8b70, 0xc76c51a3, 0xd192e819, 0xd6990624, 0xf40e3585, 0x106aa070,
    0x19a4c116, 0x1e376c08, 0x2748774c, 0x34b0bcb5, 0x391c0cb3, 0x4ed8aa4a, 0x5b9cca4f, 0x682e6ff3,
    0x748f82ee, 0x78a5636f, 0x84c87814, 0x8cc70208, 0x90befffa, 0xa4506ceb, 0xbef9a3f7, 0xc67178f2]

/-- A word turned to the right. -/
def rotate (x : UInt32) (n : UInt32) : UInt32 := (x >>> n) ||| (x <<< (32 - n))

/-! ## Blocks -/

/-- The bytes with a mark, zeros up to a whole number of blocks, and their number of bits. -/
def pad (bs : Bytes) : Bytes :=
  let zeros := (119 - bs.length % 64) % 64
  bs ++ 0x80 :: List.replicate zeros 0 ++
    (List.range 8).map fun i => UInt8.ofNat (bs.length * 8 / Nat.pow 256 (7 - i))

/-- Four octets as a word, and so on; fewer than four at the end are left out. -/
def words : Bytes → List UInt32
  | a :: b :: c :: d :: rest =>
      (a.toUInt32 <<< 24 ||| b.toUInt32 <<< 16 ||| c.toUInt32 <<< 8 ||| d.toUInt32) :: words rest
  | _ => []

/-- Adds `count` words to the words of a block. Each depends on four before it. -/
def stretch (block : Array UInt32) : (count : Nat) → Array UInt32
  | 0 => block
  | count + 1 =>
      let n := block.size
      let w15 := block.getD (n - 15) 0
      let w2 := block.getD (n - 2) 0
      let s0 := rotate w15 7 ^^^ rotate w15 18 ^^^ (w15 >>> 3)
      let s1 := rotate w2 17 ^^^ rotate w2 19 ^^^ (w2 >>> 10)
      stretch (block.push (block.getD (n - 16) 0 + s0 + block.getD (n - 7) 0 + s1)) count

/-- Stirs the state with a word and the constant of its round. -/
def stir (s : State) (word : UInt32 × UInt32) : State :=
  let s1 := rotate s.e 6 ^^^ rotate s.e 11 ^^^ rotate s.e 25
  let choice := (s.e &&& s.f) ^^^ (~~~s.e &&& s.g)
  let t1 := s.h + s1 + choice + word.2 + word.1
  let s0 := rotate s.a 2 ^^^ rotate s.a 13 ^^^ rotate s.a 22
  let majority := (s.a &&& s.b) ^^^ (s.a &&& s.c) ^^^ (s.b &&& s.c)
  ⟨t1 + (s0 + majority), s.a, s.b, s.c, s.d + t1, s.e, s.f, s.g⟩

/-- Stirs the state with a whole block and adds the outcome to it. -/
def absorb (s : State) (block : List UInt32) : State :=
  let stretched := stretch block.toArray 48
  let t := (stretched.zip roundConstants).foldl stir s
  ⟨s.a + t.a, s.b + t.b, s.c + t.c, s.d + t.d, s.e + t.e, s.f + t.f, s.g + t.g, s.h + t.h⟩

/-- Stirs the state with `count` blocks. -/
def absorbAll (s : State) (ws : List UInt32) : (count : Nat) → State
  | 0 => s
  | count + 1 => absorbAll (absorb s (ws.take 16)) (ws.drop 16) count

/-- The four octets of a word. -/
def octets (w : UInt32) : Bytes :=
  [(w >>> 24).toUInt8, (w >>> 16).toUInt8, (w >>> 8).toUInt8, w.toUInt8]

/-- The digest of a byte string. -/
def sha256 (bs : Bytes) : Bytes :=
  let ws := words (pad bs)
  let s := absorbAll initial ws (ws.length / 16)
  [s.a, s.b, s.c, s.d, s.e, s.f, s.g, s.h].flatMap octets

/-- The digest of a byte string as hexadecimal text. -/
def ofBytes (bs : Bytes) : String := Bytes.hex (sha256 bs)

end FiberWeave.Digest

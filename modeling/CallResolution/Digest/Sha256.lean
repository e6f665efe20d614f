import CallResolution.Text.Quoted

/-!
# SHA-256

The SHA-256 digest of a byte string, block by block on 32-bit words.
-/

namespace CallResolution.Digest

open Text

/-- The round constants. -/
def roundConstants : List UInt32 :=
  [0x428a2f98, 0x71374491, 0xb5c0fbcf, 0xe9b5dba5, 0x3956c25b, 0x59f111f1, 0x923f82a4, 0xab1c5ed5,
   0xd807aa98, 0x12835b01, 0x243185be, 0x550c7dc3, 0x72be5d74, 0x80deb1fe, 0x9bdc06a7, 0xc19bf174,
   0xe49b69c1, 0xefbe4786, 0x0fc19dc6, 0x240ca1cc, 0x2de92c6f, 0x4a7484aa, 0x5cb0a9dc, 0x76f988da,
   0x983e5152, 0xa831c66d, 0xb00327c8, 0xbf597fc7, 0xc6e00bf3, 0xd5a79147, 0x06ca6351, 0x14292967,
   0x27b70a85, 0x2e1b2138, 0x4d2c6dfc, 0x53380d13, 0x650a7354, 0x766a0abb, 0x81c2c92e, 0x92722c85,
   0xa2bfe8a1, 0xa81a664b, 0xc24b8b70, 0xc76c51a3, 0xd192e819, 0xd6990624, 0xf40e3585, 0x106aa070,
   0x19a4c116, 0x1e376c08, 0x2748774c, 0x34b0bcb5, 0x391c0cb3, 0x4ed8aa4a, 0x5b9cca4f, 0x682e6ff3,
   0x748f82ee, 0x78a5636f, 0x84c87814, 0x8cc70208, 0x90befffa, 0xa4506ceb, 0xbef9a3f7, 0xc67178f2]

/-- The eight working words. -/
structure State where
  a : UInt32
  b : UInt32
  c : UInt32
  d : UInt32
  e : UInt32
  f : UInt32
  g : UInt32
  h : UInt32
  deriving DecidableEq, Repr

/-- The words before the first block. -/
def initial : State :=
  ⟨0x6a09e667, 0xbb67ae85, 0x3c6ef372, 0xa54ff53a, 0x510e527f, 0x9b05688c, 0x1f83d9ab, 0x5be0cd19⟩

/-- Rotates a word to the right. -/
def rotr (x n : UInt32) : UInt32 :=
  (x >>> n) ||| (x <<< (32 - n))

/-- One round, with the sum of its constant and its schedule word. -/
def State.round (s : State) (k : UInt32) : State :=
  let s1 := rotr s.e 6 ^^^ rotr s.e 11 ^^^ rotr s.e 25
  let ch := (s.e &&& s.f) ^^^ ((~~~ s.e) &&& s.g)
  let t1 := s.h + s1 + ch + k
  let s0 := rotr s.a 2 ^^^ rotr s.a 13 ^^^ rotr s.a 22
  let maj := (s.a &&& s.b) ^^^ (s.a &&& s.c) ^^^ (s.b &&& s.c)
  ⟨t1 + s0 + maj, s.a, s.b, s.c, s.d + t1, s.e, s.f, s.g⟩

/-- Wordwise sum. -/
def State.add (s t : State) : State :=
  ⟨s.a + t.a, s.b + t.b, s.c + t.c, s.d + t.d, s.e + t.e, s.f + t.f, s.g + t.g, s.h + t.h⟩

/-- Four bytes as a word, the first one highest. -/
def wordOf (a b c d : UInt8) : UInt32 :=
  (a.toUInt32 <<< 24) ||| (b.toUInt32 <<< 16) ||| (c.toUInt32 <<< 8) ||| d.toUInt32

/-- The words of a byte string whose length is a multiple of four. -/
def wordsOf : Bytes → List UInt32
  | a :: b :: c :: d :: r => wordOf a b c d :: wordsOf r
  | _ => []

/-- The bytes of a word, the highest one first. -/
def bytesOfWord (w : UInt32) : Bytes :=
  [(w >>> 24).toUInt8, (w >>> 16).toUInt8, (w >>> 8).toUInt8, w.toUInt8]

/-- Extends the message schedule by `n` words. -/
def extendSchedule : Nat → Array UInt32 → Array UInt32
  | 0, w => w
  | n + 1, w =>
    let at' (k : Nat) : UInt32 := w.getD (w.size - k) 0
    let x := at' 15
    let y := at' 2
    let s0 := rotr x 7 ^^^ rotr x 18 ^^^ (x >>> 3)
    let s1 := rotr y 17 ^^^ rotr y 19 ^^^ (y >>> 10)
    extendSchedule n (w.push (at' 16 + s0 + at' 7 + s1))

/-- The state after one block of sixteen words. -/
def State.block (s : State) (words : List UInt32) : State :=
  let schedule := (extendSchedule 48 words.toArray).toList
  s.add ((List.zipWith (· + ·) roundConstants schedule).foldl State.round s)

/-- Runs over `n` blocks. -/
def runBlocks : Nat → State → List UInt32 → State
  | 0, s, _ => s
  | n + 1, s, words => runBlocks n (s.block (words.take 16)) (words.drop 16)

/-- The last `n` bytes of a number, highest first. -/
def bigEndian : Nat → Nat → Bytes
  | 0, _ => []
  | n + 1, k => bigEndian n (k / 256) ++ [k.toUInt8]

/-- Fills a message up to whole blocks: a one bit, zeros, and the length in bits. -/
def pad (s : Bytes) : Bytes :=
  let zeros := (119 - s.length % 64) % 64
  s ++ 0x80 :: List.replicate zeros 0 ++ bigEndian 8 (8 * s.length)

/-- The digest of a byte string. -/
def sha256 (s : Bytes) : Bytes :=
  let words := wordsOf (pad s)
  let r := runBlocks (words.length / 16) initial words
  [r.a, r.b, r.c, r.d, r.e, r.f, r.g, r.h].flatMap bytesOfWord

/-- The digest of a byte string in hexadecimal digits. -/
def sha256Hex (s : Bytes) : String :=
  hexOf (sha256 s)

/-- One digest for several, in order. -/
def combine (digests : List Bytes) : Bytes :=
  sha256 digests.flatten

end CallResolution.Digest

import SniffProxy.Bytes

/-!
# SHA-224 and SHA-256

The two members of the SHA-2 family (FIPS 180-4) with words of thirty-two bits. They share padding,
message schedule and compression, and differ in the initial state and in the length of the digest.

* `sha256`, `sha224` — the digests; `length_sha256`, `length_sha224` — 32 and 28 bytes.
-/

namespace SniffProxy.Sha2

/-- The eight chaining words. -/
structure State where
  a : UInt32
  b : UInt32
  c : UInt32
  d : UInt32
  e : UInt32
  f : UInt32
  g : UInt32
  h : UInt32

/-- Rotation to the right. -/
def rotr (x : UInt32) (n : UInt32) : UInt32 :=
  (x >>> n) ||| (x <<< (32 - n))

/-- The round constants. -/
def roundConstants : List UInt32 :=
  [0x428a2f98, 0x71374491, 0xb5c0fbcf, 0xe9b5dba5, 0x3956c25b, 0x59f111f1, 0x923f82a4, 0xab1c5ed5,
   0xd807aa98, 0x12835b01, 0x243185be, 0x550c7dc3, 0x72be5d74, 0x80deb1fe, 0x9bdc06a7, 0xc19bf174,
   0xe49b69c1, 0xefbe4786, 0x0fc19dc6, 0x240ca1cc, 0x2de92c6f, 0x4a7484aa, 0x5cb0a9dc, 0x76f988da,
   0x983e5152, 0xa831c66d, 0xb00327c8, 0xbf597fc7, 0xc6e00bf3, 0xd5a79147, 0x06ca6351, 0x14292967,
   0x27b70a85, 0x2e1b2138, 0x4d2c6dfc, 0x53380d13, 0x650a7354, 0x766a0abb, 0x81c2c92e, 0x92722c85,
   0xa2bfe8a1, 0xa81a664b, 0xc24b8b70, 0xc76c51a3, 0xd192e819, 0xd6990624, 0xf40e3585, 0x106aa070,
   0x19a4c116, 0x1e376c08, 0x2748774c, 0x34b0bcb5, 0x391c0cb3, 0x4ed8aa4a, 0x5b9cca4f, 0x682e6ff3,
   0x748f82ee, 0x78a5636f, 0x84c87814, 0x8cc70208, 0x90befffa, 0xa4506ceb, 0xbef9a3f7, 0xc67178f2]

/-- The schedule word that follows the sixteen latest ones, newest first. -/
def nextWord (recent : List UInt32) : UInt32 :=
  match recent with
  | [_, w2, _, _, _, _, w7, _, _, _, _, _, _, _, w15, w16] =>
    let s0 := rotr w15 7 ^^^ rotr w15 18 ^^^ (w15 >>> 3)
    let s1 := rotr w2 17 ^^^ rotr w2 19 ^^^ (w2 >>> 10)
    w16 + s0 + w7 + s1
  | _ => 0

/-- Extends a reversed schedule by so many words. -/
def extendSchedule : Nat → List UInt32 → List UInt32
  | 0, reversed => reversed
  | n + 1, reversed => extendSchedule n (nextWord (reversed.take 16) :: reversed)

/-- The sixty-four schedule words of a block of sixteen words. -/
def schedule (block : List UInt32) : List UInt32 :=
  (extendSchedule 48 block.reverse).reverse

/-- One round with its constant and schedule word. -/
def round (s : State) (kw : UInt32 × UInt32) : State :=
  let s1 := rotr s.e 6 ^^^ rotr s.e 11 ^^^ rotr s.e 25
  let choice := (s.e &&& s.f) ^^^ ((s.e ^^^ 0xffffffff) &&& s.g)
  let t1 := s.h + s1 + choice + kw.1 + kw.2
  let s0 := rotr s.a 2 ^^^ rotr s.a 13 ^^^ rotr s.a 22
  let majority := (s.a &&& s.b) ^^^ (s.a &&& s.c) ^^^ (s.b &&& s.c)
  ⟨t1 + (s0 + majority), s.a, s.b, s.c, s.d + t1, s.e, s.f, s.g⟩

/-- The compression function. -/
def compress (s : State) (block : List UInt32) : State :=
  let r := (roundConstants.zip (schedule block)).foldl round s
  ⟨s.a + r.a, s.b + r.b, s.c + r.c, s.d + r.d, s.e + r.e, s.f + r.f, s.g + r.g, s.h + r.h⟩

/-- The number of zero bytes between the closing one bit and the length. -/
def paddingZeros (size : Nat) : Nat :=
  (119 - size % 64) % 64

/-- A number as eight bytes, the most significant first. -/
def lengthBytes (n : Nat) : Bytes :=
  [56, 48, 40, 32, 24, 16, 8, 0].map fun shift => UInt8.ofNat (n >>> shift)

/-- What follows a message of this size: a one bit, zeros, and the length in bits. -/
def padding (size : Nat) : Bytes :=
  0x80 :: List.replicate (paddingZeros size) 0 ++ lengthBytes (8 * size)

/-- The big-endian words of a byte string. -/
def words : Bytes → List UInt32
  | a :: b :: c :: d :: rest =>
    UInt32.ofNat (((a.toNat * 256 + b.toNat) * 256 + c.toNat) * 256 + d.toNat) :: words rest
  | _ => []

/-- Feeds words into the compression function, sixteen at a time, for so many blocks. -/
def absorb : (blocks : Nat) → State → List UInt32 → State
  | 0, s, _ => s
  | n + 1, s, ws => absorb n (compress s (ws.take 16)) (ws.drop 16)

/-- A word as four bytes, the most significant first. -/
def wordBytes (w : UInt32) : Bytes :=
  [(w >>> 24).toUInt8, (w >>> 16).toUInt8, (w >>> 8).toUInt8, w.toUInt8]

/-- The bytes of the chaining words. -/
def State.toBytes (s : State) : Bytes :=
  [s.a, s.b, s.c, s.d, s.e, s.f, s.g, s.h].flatMap wordBytes

/-- The final state for a message. -/
def hash (initial : State) (message : Bytes) : State :=
  let padded := message ++ padding message.length
  absorb (padded.length / 64) initial (words padded)

/-- The initial state of SHA-256. -/
def initial256 : State :=
  ⟨0x6a09e667, 0xbb67ae85, 0x3c6ef372, 0xa54ff53a, 0x510e527f, 0x9b05688c, 0x1f83d9ab, 0x5be0cd19⟩

/-- The initial state of SHA-224. -/
def initial224 : State :=
  ⟨0xc1059ed8, 0x367cd507, 0x3070dd17, 0xf70e5939, 0xffc00b31, 0x68581511, 0x64f98fa7, 0xbefa4fa4⟩

/-- The SHA-256 digest, thirty-two bytes. -/
def sha256 (message : Bytes) : Bytes :=
  (hash initial256 message).toBytes

/-- The SHA-224 digest, twenty-eight bytes. -/
def sha224 (message : Bytes) : Bytes :=
  (hash initial224 message).toBytes.take 28

@[simp] theorem State.length_toBytes (s : State) : s.toBytes.length = 32 := rfl

@[simp] theorem length_sha256 (message : Bytes) : (sha256 message).length = 32 := by
  simp [sha256]

@[simp] theorem length_sha224 (message : Bytes) : (sha224 message).length = 28 := by
  simp [sha224]

end SniffProxy.Sha2

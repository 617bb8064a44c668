/-
NetLabs.Lib.SecureHash — the secure hash function SHA-1, in the terms of its
standard (FIPS PUB 180-1).

A block of 64 bytes gives 80 words `W`, which 80 rounds mix into five words
(`compress`). A message is padded to whole blocks by a one bit, zeros and its length in bits
(`padding`), and `digest` processes the blocks one by one.
-/
import NetLabs.Lib.BlockHash
import NetLabs.Lib.Bytes

namespace NetLabs.Lib.SecureHash

open NetLabs.Lib.BlockHash

/-- The five words that are mixed, and their sum with the ones before. -/
structure Words where
  a : UInt32
  b : UInt32
  c : UInt32
  d : UInt32
  e : UInt32
  deriving DecidableEq, Repr

/-- The digest before the first block. -/
def initial : Words := ⟨0x67452301, 0xEFCDAB89, 0x98BADCFE, 0x10325476, 0xC3D2E1F0⟩

/-- The circular left shift. -/
def rotl (n : Nat) (x : UInt32) : UInt32 := UInt32.ofBitVec (x.toBitVec.rotateLeft n)

/-- The function of round `t`. -/
def f (t : Nat) (b c d : UInt32) : UInt32 :=
  if t < 20 then (b &&& c) ||| (~~~b &&& d)
  else if t < 40 then b ^^^ c ^^^ d
  else if t < 60 then (b &&& c) ||| (b &&& d) ||| (c &&& d)
  else b ^^^ c ^^^ d

/-- The constant of round `t`. -/
def K (t : Nat) : UInt32 :=
  if t < 20 then 0x5A827999
  else if t < 40 then 0x6ED9EBA1
  else if t < 60 then 0x8F1BBCDC
  else 0xCA62C1D6

/-- The word of round `t`. -/
def W (block : List UInt8) (t : Nat) : UInt32 :=
  if t < 16 then ofBe32 (slice block (4 * t) 4)
  else rotl 1 (W block (t - 3) ^^^ W block (t - 8) ^^^ W block (t - 14) ^^^ W block (t - 16))
termination_by t

/-- Round `t`. -/
def round (block : List UInt8) (s : Words) (t : Nat) : Words where
  a := rotl 5 s.a + f t s.b s.c s.d + s.e + W block t + K t
  b := s.a
  c := rotl 30 s.b
  d := s.c
  e := s.d

/-- The digest behind one more block. -/
def compress (h : Words) (block : List UInt8) : Words :=
  let s := (List.range 80).foldl (round block) h
  ⟨h.a + s.a, h.b + s.b, h.c + s.c, h.d + s.d, h.e + s.e⟩

/-- The number of zero bytes behind a message of `length` bytes and the byte
with the one bit, so that 8 bytes are left of a block. -/
def zeros (length : Nat) : Nat := (119 - length % 64) % 64

/-- The number of bits, in eight bytes. -/
def lengthField (length : Nat) : List UInt8 :=
  be32 (UInt32.ofNat (8 * length / 4294967296)) ++ be32 (UInt32.ofNat (8 * length))

/-- What is put behind a message of `length` bytes. -/
def padding (length : Nat) : List UInt8 :=
  0x80 :: (List.replicate (zeros length) 0 ++ lengthField length)

/-- The digest of a message. -/
def digest (m : List UInt8) : Words := iterate compress 64 initial (m ++ padding m.length)

/-- The digest as 20 bytes. -/
def Words.bytes (h : Words) : List UInt8 :=
  be32 h.a ++ be32 h.b ++ be32 h.c ++ be32 h.d ++ be32 h.e

@[simp] theorem Words.length_bytes (h : Words) : h.bytes.length = 20 := by
  simp [Words.bytes]

@[simp] theorem length_lengthField (length : Nat) : (lengthField length).length = 8 := rfl

end NetLabs.Lib.SecureHash

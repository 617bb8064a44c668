/-
NetLabs.Router.Sha1 — the hash function of `lab1/router/sha1.c`, with which
the router authenticates itself.

A context takes the message in pieces (`sha1Input`) and gives the digest in
the end (`sha1Result`). It also notes that the digest is computed, or that the
context is corrupted: by input behind the digest, or by a message of 2^64
bits. Every write to `Message_Block` is checked, since its index is an
unchecked variable of the context.

The comments of the file name the standard. Its function (`SecureHash`) has one
formula for all rounds and one for the words of a block; the code has four
loops and an array for them (`processMessageBlock_digest`), and it pads the
message in place (`padMessage_digest`).

For any order of calls a context does what it is there for (`run_answers`):
it keeps to the three states of `Digesting`.
-/
import NetLabs.Lib.Access
import NetLabs.Lib.SecureHash
import Mathlib.Tactic.Common

namespace NetLabs.Router.Sha1

open NetLabs.Lib NetLabs.Lib.BlockHash NetLabs.Lib.SecureHash

/-! ## The context -/

/-- `SHA1Context`. The five words of a digest are `Words`, and so are the word
buffers `A` to `E`. -/
structure Sha1Context where
  messageDigest : Words
  lengthLow : UInt32
  lengthHigh : UInt32
  messageBlock : Vector UInt8 64
  messageBlockIndex : Nat
  computed : Bool
  corrupted : Bool
  deriving DecidableEq, Repr

/-- `SHA1CircularShift(bits, word)` -/
def circularShift (bits word : UInt32) : UInt32 := word <<< bits ||| word >>> (32 - bits)

/-- `SHA1Reset(context)`. The block keeps what it held. -/
def sha1Reset (context : Sha1Context) : Sha1Context :=
  { context with
    lengthLow := 0
    lengthHigh := 0
    messageBlockIndex := 0
    messageDigest := ⟨0x67452301, 0xEFCDAB89, 0x98BADCFE, 0x10325476, 0xC3D2E1F0⟩
    computed := false
    corrupted := false }

/-! ## A block -/

/-- `W[t]` of the first loop. -/
def wordAt (block : Vector UInt8 64) (t : Nat) : UInt32 :=
  let byte (i : Nat) : UInt32 := (block[i]?.getD 0).toUInt32
  byte (t * 4) <<< 24 ||| byte (t * 4 + 1) <<< 16 ||| byte (t * 4 + 2) <<< 8 ||| byte (t * 4 + 3)

/-- The array `W`, as far as it is filled; the elements are written in order. -/
def wordSequence (block : Vector UInt8 64) : List UInt32 :=
  let first := (List.range 16).map (wordAt block)
  (List.range' 16 64).foldl
    (fun W t =>
      let at' (i : Nat) : UInt32 := W[i]?.getD 0
      W ++ [circularShift 1 (at' (t - 3) ^^^ at' (t - 8) ^^^ at' (t - 14) ^^^ at' (t - 16))])
    first

/-- One of the four loops, over the 20 values of `t` from `start` on, with its
function of `B`, `C` and `D` and its constant. -/
def rounds (g : UInt32 → UInt32 → UInt32 → UInt32) (K : UInt32) (W : List UInt32) (start : Nat)
    (buffers : Words) : Words :=
  (List.range' start 20).foldl
    (fun s t =>
      let temp := circularShift 5 s.a + g s.b s.c s.d + s.e + W[t]?.getD 0 + K
      { e := s.d, d := s.c, c := circularShift 30 s.b, b := s.a, a := temp })
    buffers

/-- `SHA1ProcessMessageBlock(context)` -/
def processMessageBlock (context : Sha1Context) : Sha1Context :=
  let W := wordSequence context.messageBlock
  let H := context.messageDigest
  let s := rounds (fun B C D => (B &&& C) ||| (~~~B &&& D)) 0x5A827999 W 0 H
  let s := rounds (fun B C D => B ^^^ C ^^^ D) 0x6ED9EBA1 W 20 s
  let s := rounds (fun B C D => (B &&& C) ||| (B &&& D) ||| (C &&& D)) 0x8F1BBCDC W 40 s
  let s := rounds (fun B C D => B ^^^ C ^^^ D) 0xCA62C1D6 W 60 s
  { context with
    messageDigest := ⟨H.a + s.a, H.b + s.b, H.c + s.c, H.d + s.d, H.e + s.e⟩
    messageBlockIndex := 0 }

@[simp] theorem processMessageBlock_index (context : Sha1Context) :
    (processMessageBlock context).messageBlockIndex = 0 := rfl

@[simp] theorem processMessageBlock_lengthLow (context : Sha1Context) :
    (processMessageBlock context).lengthLow = context.lengthLow := by
  rw [processMessageBlock]

@[simp] theorem processMessageBlock_lengthHigh (context : Sha1Context) :
    (processMessageBlock context).lengthHigh = context.lengthHigh := by
  rw [processMessageBlock]

@[simp] theorem processMessageBlock_computed (context : Sha1Context) :
    (processMessageBlock context).computed = context.computed := by
  rw [processMessageBlock]

@[simp] theorem processMessageBlock_corrupted (context : Sha1Context) :
    (processMessageBlock context).corrupted = context.corrupted := by
  rw [processMessageBlock]

/-! ### The block is processed as the standard says -/

theorem circularShift_one (x : UInt32) : circularShift 1 x = rotl 1 x := rfl

theorem circularShift_five (x : UInt32) : circularShift 5 x = rotl 5 x := rfl

theorem circularShift_thirty (x : UInt32) : circularShift 30 x = rotl 30 x := rfl

/-- Four bytes shifted into a word. -/
theorem shifts_eq_ofBe32 (a b c d : UInt8) :
    a.toUInt32 <<< 24 ||| b.toUInt32 <<< 16 ||| c.toUInt32 <<< 8 ||| d.toUInt32 =
      ofBe32 [a, b, c, d] := by
  apply UInt32.toNat_inj.mp
  have ha := a.toNat_lt
  have hb := b.toNat_lt
  have hc := c.toNat_lt
  have hd := d.toNat_lt
  have low : 256 * c.toNat ||| d.toNat = 256 * c.toNat + d.toNat :=
    (Nat.two_pow_add_eq_or_of_lt (i := 8) hd _).symm
  have mid : 65536 * b.toNat ||| (256 * c.toNat + d.toNat) =
      65536 * b.toNat + (256 * c.toNat + d.toNat) :=
    (Nat.two_pow_add_eq_or_of_lt (i := 16) (by omega) _).symm
  have all : 16777216 * a.toNat ||| (65536 * b.toNat + (256 * c.toNat + d.toNat)) =
      16777216 * a.toNat + (65536 * b.toNat + (256 * c.toNat + d.toNat)) :=
    (Nat.two_pow_add_eq_or_of_lt (i := 24) (by omega) _).symm
  have left : (a.toUInt32 <<< 24 ||| b.toUInt32 <<< 16 ||| c.toUInt32 <<< 8 |||
      d.toUInt32).toNat =
        16777216 * a.toNat ||| (65536 * b.toNat ||| (256 * c.toNat ||| d.toNat)) := by
    simp [Nat.shiftLeft_eq, Nat.or_assoc, Nat.mul_comm _ a.toNat, Nat.mul_comm _ b.toNat,
      Nat.mul_comm _ c.toNat,
      Nat.mod_eq_of_lt (show a.toNat * 16777216 < 4294967296 by omega),
      Nat.mod_eq_of_lt (show b.toNat * 65536 < 4294967296 by omega),
      Nat.mod_eq_of_lt (show c.toNat * 256 < 4294967296 by omega)]
  rw [left, low, mid, all, ofBe32, UInt32.toNat_ofNat']
  omega

/-- The first 16 words. -/
theorem wordAt_eq (block : Vector UInt8 64) {t : Nat} (ht : t < 16) :
    wordAt block t = W block.toList t := by
  have entry (i : Nat) (hi : i < block.toList.length) :
      block[i]?.getD 0 = block.toList[i] := by
    have inside : i < 64 := by simpa using hi
    simp [inside]
  have size : block.toList.length = 64 := by simp
  have first : t * 4 < block.toList.length := by omega
  have second : t * 4 + 1 < block.toList.length := by omega
  have third : t * 4 + 2 < block.toList.length := by omega
  have fourth : t * 4 + 3 < block.toList.length := by omega
  have field : slice block.toList (4 * t) 4 = [block.toList[t * 4], block.toList[t * 4 + 1],
      block.toList[t * 4 + 2], block.toList[t * 4 + 3]] := by
    rw [slice, Nat.mul_comm, List.drop_eq_getElem_cons first, List.drop_eq_getElem_cons second,
      List.drop_eq_getElem_cons third, List.drop_eq_getElem_cons fourth]
    rfl
  rw [W, if_pos ht, field, ← shifts_eq_ofBe32, wordAt]
  simp only [entry _ first, entry _ second, entry _ third, entry _ fourth]

/-- The array holds the words of the standard, and is never read where it is
not filled. -/
theorem wordSequence_eq (block : Vector UInt8 64) :
    wordSequence block = (List.range 80).map (W block.toList) := by
  have filled : ∀ n, (List.range' 16 n).foldl
      (fun W t => W ++ [circularShift 1 (W[t - 3]?.getD 0 ^^^ W[t - 8]?.getD 0 ^^^
        W[t - 14]?.getD 0 ^^^ W[t - 16]?.getD 0)]) ((List.range 16).map (wordAt block)) =
      (List.range (16 + n)).map (W block.toList) := by
    intro n
    induction n with
    | zero =>
      apply List.map_congr_left
      intro t ht
      exact wordAt_eq block (List.mem_range.mp ht)
    | succ n ih =>
      have old (i : Nat) (hi : i < 16 + n) :
          ((List.range (16 + n)).map (W block.toList))[i]?.getD 0 = W block.toList i := by
        simp [hi]
      rw [List.range'_concat, List.foldl_append, ih, ← Nat.add_assoc, List.range_succ,
        List.map_append]
      simp only [List.foldl_cons, List.foldl_nil, List.map_cons, List.map_nil, Nat.one_mul]
      rw [old _ (by omega), old _ (by omega), old _ (by omega), old _ (by omega),
        circularShift_one, W.eq_def _ (16 + n), if_neg (by omega)]
  exact filled 64

/-- One of the loops is 20 rounds of the standard. -/
theorem rounds_eq {g : UInt32 → UInt32 → UInt32 → UInt32} {k : UInt32} {start : Nat}
    (inside : start + 20 ≤ 80) (same : ∀ t, start ≤ t → t < start + 20 → f t = g ∧ K t = k)
    (block : Vector UInt8 64) (s : Words) :
    rounds g k (wordSequence block) start s =
      (List.range' start 20).foldl (SecureHash.round block.toList) s := by
  rw [rounds]
  apply List.foldl_ext
  intro s t ht
  rw [List.mem_range'_1] at ht
  obtain ⟨hf, hk⟩ := same t ht.1 ht.2
  have word : (wordSequence block)[t]?.getD 0 = W block.toList t := by
    rw [wordSequence_eq]
    simp [show t < 80 by omega]
  rw [SecureHash.round, word, hf, hk, circularShift_five, circularShift_thirty]

/-- `SHA1ProcessMessageBlock` mixes the block into the digest. -/
theorem processMessageBlock_digest (context : Sha1Context) :
    (processMessageBlock context).messageDigest =
      compress context.messageDigest context.messageBlock.toList := by
  have first : ∀ t, 0 ≤ t → t < 20 →
      f t = (fun B C D => (B &&& C) ||| (~~~B &&& D)) ∧ K t = 0x5A827999 := by
    intro t _ high
    exact ⟨by funext B C D; rw [f, if_pos high], by rw [K, if_pos high]⟩
  have second : ∀ t, 20 ≤ t → t < 40 → f t = (fun B C D => B ^^^ C ^^^ D) ∧ K t = 0x6ED9EBA1 := by
    intro t low high
    constructor
    · funext B C D
      rw [f, if_neg (by omega), if_pos high]
    · rw [K, if_neg (by omega), if_pos high]
  have third : ∀ t, 40 ≤ t → t < 60 →
      f t = (fun B C D => (B &&& C) ||| (B &&& D) ||| (C &&& D)) ∧ K t = 0x8F1BBCDC := by
    intro t low high
    constructor
    · funext B C D
      rw [f, if_neg (by omega), if_neg (by omega), if_pos high]
    · rw [K, if_neg (by omega), if_neg (by omega), if_pos high]
  have fourth : ∀ t, 60 ≤ t → t < 80 → f t = (fun B C D => B ^^^ C ^^^ D) ∧ K t = 0xCA62C1D6 := by
    intro t low _
    constructor
    · funext B C D
      rw [f, if_neg (by omega), if_neg (by omega), if_neg (by omega)]
    · rw [K, if_neg (by omega), if_neg (by omega), if_neg (by omega)]
  have all : List.range 80 =
      List.range' 0 20 ++ List.range' 20 20 ++ List.range' 40 20 ++ List.range' 60 20 := by
    decide
  rw [compress, all, List.foldl_append, List.foldl_append, List.foldl_append,
    ← rounds_eq (by decide) first, ← rounds_eq (by decide) second, ← rounds_eq (by decide) third,
    ← rounds_eq (by decide) fourth]
  rfl

/-! ## Input -/

/-- `context->Message_Block[context->Message_Block_Index++] = x` -/
def store (context : Sha1Context) (x : UInt8) : Access Sha1Context :=
  if _ : context.messageBlockIndex < 64 then
    .ok { context with
      messageBlock := context.messageBlock.set context.messageBlockIndex x
      messageBlockIndex := context.messageBlockIndex + 1 }
  else .error .outOfBounds

/-- The length grows by the bits of a byte. -/
def count (context : Sha1Context) : Sha1Context :=
  let lengthLow := context.lengthLow + 8
  let lengthHigh := if lengthLow = 0 then context.lengthHigh + 1 else context.lengthHigh
  { context with
    lengthLow, lengthHigh
    corrupted := context.corrupted || (lengthLow = 0 && lengthHigh = 0) }

/-- `while (length-- && !context->Corrupted)` -/
def inputLoop (context : Sha1Context) : List UInt8 → Access Sha1Context
  | [] => .ok context
  | x :: rest =>
      if context.corrupted then .ok context
      else do
        let context := count (← store context x)
        let context :=
          if context.messageBlockIndex = 64 then processMessageBlock context else context
        inputLoop context rest

/-- `SHA1Input(context, message_array, length)`, with the `length` bytes. -/
def sha1Input (context : Sha1Context) (message : List UInt8) : Access Sha1Context :=
  if message.length = 0 then .ok context
  else if context.computed || context.corrupted then .ok { context with corrupted := true }
  else inputLoop context message

/-! ## The digest -/

/-- `while (context->Message_Block_Index < bound) … = 0`, at most `fuel` turns. -/
def fillZeros (bound : Nat) : Nat → Sha1Context → Access Sha1Context
  | 0, context => .ok context
  | fuel + 1, context =>
      if context.messageBlockIndex < bound then do fillZeros bound fuel (← store context 0)
      else .ok context

/-- The eight bytes of the length. -/
def lengthBytes (context : Sha1Context) : List UInt8 :=
  [(context.lengthHigh >>> 24).toUInt8, (context.lengthHigh >>> 16).toUInt8,
   (context.lengthHigh >>> 8).toUInt8, context.lengthHigh.toUInt8,
   (context.lengthLow >>> 24).toUInt8, (context.lengthLow >>> 16).toUInt8,
   (context.lengthLow >>> 8).toUInt8, context.lengthLow.toUInt8]

/-- `Message_Block[56]` to `Message_Block[63]` are written. -/
def storeLength (context : Sha1Context) : Sha1Context :=
  { context with
    messageBlock := (lengthBytes context).zipIdx.foldl
      (fun block x => block.setIfInBounds (56 + x.2) x.1) context.messageBlock }

/-- `SHA1PadMessage(context)`. Each turn of a loop raises the index, so there
are no more than 64. -/
def padMessage (context : Sha1Context) : Access Sha1Context :=
  if context.messageBlockIndex > 55 then do
    let context ← fillZeros 64 64 (← store context 0x80)
    let context ← fillZeros 56 64 (processMessageBlock context)
    return processMessageBlock (storeLength context)
  else do
    let context ← fillZeros 56 64 (← store context 0x80)
    return processMessageBlock (storeLength context)

/-- `SHA1Result(context)`: the value returned, and the context. -/
def sha1Result (context : Sha1Context) : Access (Bool × Sha1Context) :=
  if context.corrupted then .ok (false, context)
  else if context.computed then .ok (true, context)
  else do return (true, { (← padMessage context) with computed := true })

end NetLabs.Router.Sha1

/-
NetLabs.Router.Sha1Digest — what the calls of `lab1/router/sha1.c` on one
context do, in any order.

A user of the context sees only the digests `SHA1Result` gives. `Digesting` is
what decides about them: the message so far, or that it is complete, or that
the context is corrupted. The theorem `run_answers` says that the code gives
the answers of this small machine, whatever the calls are and however the
message is cut into pieces, and that it never writes outside of
`Message_Block`.

The block that is not yet full stands at the start of `Message_Block` (`held`);
what stands behind it, from earlier blocks or before the reset, never gets
into a digest.
-/
import NetLabs.Router.Sha1

namespace NetLabs.Router.Sha1

open NetLabs.Lib NetLabs.Lib.BlockHash NetLabs.Lib.SecureHash

/-! ## The calls and their purpose -/

/-- A call on a context that has been reset. -/
inductive Call where
  | input (message : List UInt8)
  | result
  deriving DecidableEq, Repr

/-- A call of the code: the context behind it, and the digest if it is
`SHA1Result` and gives one. -/
def call (context : Sha1Context) : Call → Access (Sha1Context × Option Words)
  | .input message => do return (← sha1Input context message, none)
  | .result => do
      let (ret, context) ← sha1Result context
      return (context, if ret then some context.messageDigest else none)

/-- The calls one after the other, and what each of them gives. -/
def run (context : Sha1Context) : List Call → Access (Sha1Context × List (Option Words))
  | [] => .ok (context, [])
  | c :: calls => do
      let (context, answer) ← call context c
      let (context, answers) ← run context calls
      return (context, answer :: answers)

/-- A message of 2^64 bits is too long. -/
def maxBytes : Nat := 2305843009213693952

/-- What a context is used for. -/
inductive Digesting where
  /-- The message so far. -/
  | absorbing (m : List UInt8)
  /-- The message, of which the digest has been computed. -/
  | computed (m : List UInt8)
  | corrupted
  deriving DecidableEq, Repr

namespace Digesting

/-- Input goes behind the message, unless it is complete or gets too long. -/
def input (message : List UInt8) : Digesting → Digesting
  | absorbing m =>
      if m.length + message.length < maxBytes then absorbing (m ++ message) else corrupted
  | computed m => if message = [] then computed m else corrupted
  | corrupted => corrupted

/-- The result completes the message. -/
def result : Digesting → Digesting × Option Words
  | absorbing m => (computed m, some (digest m))
  | computed m => (computed m, some (digest m))
  | corrupted => (corrupted, none)

def call (d : Digesting) : Call → Digesting × Option Words
  | .input message => (d.input message, none)
  | .result => d.result

/-- What each of the calls gives. -/
def answers (d : Digesting) : List Call → List (Option Words)
  | [] => []
  | c :: calls => (d.call c).2 :: (d.call c).1.answers calls

end Digesting

/-! ## What a context holds -/

/-- The block that is not yet full. -/
def held (context : Sha1Context) : List UInt8 :=
  context.messageBlock.toList.take context.messageBlockIndex

/-- The number of bits. -/
def bits (context : Sha1Context) : Nat :=
  4294967296 * context.lengthHigh.toNat + context.lengthLow.toNat

/-- The context, of which bytes of the message are in the digest or held. -/
structure Absorbing (m : List UInt8) (context : Sha1Context) : Prop where
  absorbed : Absorbed compress 64 initial m context.messageDigest (held context)
  index : context.messageBlockIndex < 64
  bits : bits context = 8 * m.length
  computed : context.computed = false
  corrupted : context.corrupted = false

/-- The context is in this state. -/
def Represents : Digesting → Sha1Context → Prop
  | .absorbing m, context => Absorbing m context ∧ m.length < maxBytes
  | .computed m, context =>
      context.computed = true ∧ context.corrupted = false ∧ context.messageDigest = digest m
  | .corrupted, context => context.corrupted = true

theorem length_held {context : Sha1Context} (index : context.messageBlockIndex ≤ 64) :
    (held context).length = context.messageBlockIndex := by
  rw [held, List.length_take, Vector.length_toList, Nat.min_eq_left index]

/-! ## Writing to the block -/

/-- `bs` has been put behind what was held, and nothing else has changed. -/
structure Extends (context : Sha1Context) (bs : List UInt8) (context' : Sha1Context) : Prop where
  held : held context' = held context ++ bs
  index : context'.messageBlockIndex = context.messageBlockIndex + bs.length
  digest : context'.messageDigest = context.messageDigest
  low : context'.lengthLow = context.lengthLow
  high : context'.lengthHigh = context.lengthHigh
  computed : context'.computed = context.computed
  corrupted : context'.corrupted = context.corrupted

theorem Extends.refl (context : Sha1Context) : Extends context [] context :=
  ⟨(List.append_nil _).symm, rfl, rfl, rfl, rfl, rfl, rfl⟩

theorem Extends.trans {context context' context'' : Sha1Context} {bs bs' : List UInt8}
    (h : Extends context bs context') (h' : Extends context' bs' context'') :
    Extends context (bs ++ bs') context'' where
  held := by rw [h'.held, h.held, List.append_assoc]
  index := by rw [h'.index, h.index, List.length_append, Nat.add_assoc]
  digest := h'.digest.trans h.digest
  low := h'.low.trans h.low
  high := h'.high.trans h.high
  computed := h'.computed.trans h.computed
  corrupted := h'.corrupted.trans h.corrupted

/-- A byte is put behind what is held. -/
theorem store_extends (context : Sha1Context) (room : context.messageBlockIndex < 64)
    (x : UInt8) : ∃ context', store context x = .ok context' ∧ Extends context [x] context' := by
  refine ⟨_, dif_pos room, ?_, rfl, rfl, rfl, rfl, rfl, rfl⟩
  rw [held, held, Vector.toList_set, List.take_add_one, List.take_set_of_le (Nat.le_refl _)]
  simp [room]

/-- The zeros up to an index. -/
theorem fillZeros_extends (bound fuel : Nat) (inside : bound ≤ 64) (context : Sha1Context)
    (below : context.messageBlockIndex ≤ bound)
    (enough : bound ≤ context.messageBlockIndex + fuel) :
    ∃ context', fillZeros bound fuel context = .ok context' ∧
      Extends context (List.replicate (bound - context.messageBlockIndex) 0) context' := by
  induction fuel generalizing context with
  | zero =>
    have none : bound - context.messageBlockIndex = 0 := by omega
    exact ⟨context, rfl, none ▸ .refl context⟩
  | succ fuel ih =>
    rw [fillZeros]
    by_cases short : context.messageBlockIndex < bound
    · obtain ⟨next, stored, first⟩ := store_extends context (by omega) 0
      have index : next.messageBlockIndex = context.messageBlockIndex + 1 := first.index
      obtain ⟨last, filled, others⟩ := ih next (by omega) (by omega)
      refine ⟨last, ?_, ?_⟩
      · rw [if_pos short, stored]
        exact filled
      · have zeros := first.trans others
        rwa [index, List.singleton_append, ← List.replicate_succ,
          show bound - (context.messageBlockIndex + 1) + 1 =
            bound - context.messageBlockIndex by omega] at zeros
    · have none : bound - context.messageBlockIndex = 0 := by omega
      exact ⟨context, if_neg short, none ▸ .refl context⟩

/-! ## Input -/

/-- The counter of the bits. Its words are multiples of 8 together, so the
lower one becomes 0 when it wraps around. -/
theorem count_spec {context : Sha1Context} {k : Nat} (length : bits context = 8 * k)
    (below : k < maxBytes) :
    if k + 1 < maxBytes then
      bits (count context) = 8 * (k + 1) ∧ (count context).corrupted = context.corrupted
    else (count context).corrupted = true := by
  have lowBound := context.lengthLow.toNat_lt
  have highBound := context.lengthHigh.toNat_lt
  have low : (context.lengthLow + 8).toNat = (context.lengthLow.toNat + 8) % 4294967296 := by
    simp [UInt32.toNat_add]
  have high : (context.lengthHigh + 1).toNat = (context.lengthHigh.toNat + 1) % 4294967296 := by
    simp [UInt32.toNat_add]
  have lowZero : context.lengthLow + 8 = 0 ↔ (context.lengthLow.toNat + 8) % 4294967296 = 0 := by
    rw [← low, ← UInt32.toNat_inj, UInt32.toNat_zero]
  have highZero : context.lengthHigh + 1 = 0 ↔
      (context.lengthHigh.toNat + 1) % 4294967296 = 0 := by
    rw [← high, ← UInt32.toNat_inj, UInt32.toNat_zero]
  unfold bits maxBytes at *
  by_cases zero : context.lengthLow + 8 = 0
  · have wrapped := lowZero.mp zero
    simp only [count, zero, if_true, decide_true, Bool.true_and]
    split
    · have sound : ¬ context.lengthHigh + 1 = 0 := by
        rw [highZero]
        omega
      rw [high, UInt32.toNat_zero, decide_eq_false sound, Bool.or_false]
      exact ⟨by omega, rfl⟩
    · have lost : context.lengthHigh + 1 = 0 := highZero.mpr (by omega)
      rw [decide_eq_true lost, Bool.or_true]
  · have kept := mt lowZero.mpr zero
    simp only [count, if_neg zero, decide_eq_false zero, Bool.false_and, Bool.or_false, low]
    rw [if_pos (by omega)]
    exact ⟨by omega, trivial⟩

/-- A block that is full is processed. -/
def flush (context : Sha1Context) : Sha1Context :=
  if context.messageBlockIndex = 64 then processMessageBlock context else context

@[simp] theorem processMessageBlock_bits (context : Sha1Context) :
    bits (processMessageBlock context) = bits context := by
  simp only [bits, processMessageBlock_lengthLow, processMessageBlock_lengthHigh]

@[simp] theorem held_processMessageBlock (context : Sha1Context) :
    held (processMessageBlock context) = [] := by
  rw [held, processMessageBlock_index, List.take_zero]

@[simp] theorem flush_corrupted (context : Sha1Context) :
    (flush context).corrupted = context.corrupted := by
  rw [flush]
  split
  · exact processMessageBlock_corrupted context
  · rfl

/-- The bytes held of a full block are the block. -/
theorem held_full {context : Sha1Context} (full : context.messageBlockIndex = 64) :
    held context = context.messageBlock.toList :=
  List.take_of_length_le (by simp [full])

/-- One turn of the loop of `sha1Input`. -/
theorem input_byte {m : List UInt8} {context : Sha1Context} (s : Absorbing m context)
    (below : m.length < maxBytes) (x : UInt8) :
    ∃ context', store context x = .ok context' ∧
      if m.length + 1 < maxBytes then Absorbing (m ++ [x]) (flush (count context'))
      else (flush (count context')).corrupted = true := by
  obtain ⟨context', stored, more⟩ := store_extends context s.index x
  refine ⟨context', stored, ?_⟩
  have heldLength := length_held (Nat.le_of_lt s.index)
  have index : context'.messageBlockIndex = context.messageBlockIndex + 1 := more.index
  have length : bits context' = 8 * m.length := by
    rw [bits, more.low, more.high]
    exact s.bits
  have counted := count_spec length below
  split at counted
  case isFalse long => rw [if_neg long, flush_corrupted, counted]
  case isTrue short =>
  obtain ⟨counter, sound⟩ := counted
  have newLength : bits (count context') = 8 * (m ++ [x]).length := by simpa using counter
  have uncorrupted := sound.trans (more.corrupted.trans s.corrupted)
  have uncomputed : (count context').computed = false := more.computed.trans s.computed
  rw [if_pos short, flush]
  by_cases full : context'.messageBlockIndex = 64
  · have block : (count context').messageBlock.toList = held context ++ [x] := by
      rw [← more.held, held_full full]
      rfl
    have processed := s.absorbed.full (x := x) (by omega)
    rw [if_pos (show (count context').messageBlockIndex = 64 from full)]
    refine ⟨?_, by simp, by simpa using newLength, by simpa using uncomputed,
      by simpa using uncorrupted⟩
    rw [processMessageBlock_digest, block, held_processMessageBlock]
    show Absorbed _ _ _ _ (compress context'.messageDigest _) _
    rwa [more.digest]
  · have room : context.messageBlockIndex + 1 < 64 := by
      have := s.index
      omega
    rw [if_neg (show ¬ (count context').messageBlockIndex = 64 from full)]
    refine ⟨?_, ?_, newLength, uncomputed, uncorrupted⟩
    · show Absorbed _ _ _ _ context'.messageDigest (held context')
      rw [more.held, more.digest]
      exact s.absorbed.step (by omega)
    · show context'.messageBlockIndex < 64
      rwa [index]

/-- A corrupted context takes no more input. -/
theorem inputLoop_corrupted {context : Sha1Context} (corrupted : context.corrupted = true)
    (message : List UInt8) : inputLoop context message = .ok context := by
  cases message with
  | nil => rfl
  | cons x rest => rw [inputLoop, if_pos corrupted]

/-- The loop of `sha1Input`. -/
theorem inputLoop_spec (message : List UInt8) {m : List UInt8} {context : Sha1Context}
    (s : Absorbing m context) (below : m.length < maxBytes) :
    ∃ context', inputLoop context message = .ok context' ∧
      Represents ((Digesting.absorbing m).input message) context' := by
  induction message generalizing m context with
  | nil => exact ⟨context, rfl, by simpa [Digesting.input, below, Represents] using s⟩
  | cons x rest ih =>
    obtain ⟨stored, store, next⟩ := input_byte s below x
    have turn : inputLoop context (x :: rest) = inputLoop (flush (count stored)) rest := by
      rw [inputLoop, s.corrupted, if_neg (by decide), store]
      rfl
    rw [turn]
    by_cases short : m.length + 1 < maxBytes
    · rw [if_pos short] at next
      obtain ⟨last, run, represents⟩ := ih next (by simpa using short)
      refine ⟨last, run, ?_⟩
      simpa [Digesting.input, Nat.add_assoc, Nat.add_comm 1] using represents
    · rw [if_neg short] at next
      refine ⟨_, inputLoop_corrupted next rest, ?_⟩
      have long : ¬ m.length + (x :: rest).length < maxBytes := by
        rw [List.length_cons]
        omega
      rw [Digesting.input, if_neg long]
      exact next

/-- `SHA1Input` in any state. -/
theorem sha1Input_spec {d : Digesting} {context : Sha1Context} (s : Represents d context)
    (message : List UInt8) :
    ∃ context', sha1Input context message = .ok context' ∧
      Represents (d.input message) context' := by
  rw [sha1Input]
  by_cases empty : message = []
  · subst empty
    refine ⟨context, rfl, ?_⟩
    cases d with
    | absorbing m => simpa [Digesting.input, s.2] using s
    | computed m => simpa [Digesting.input] using s
    | corrupted => exact s
  · rw [if_neg (by simpa using empty)]
    cases d with
    | absorbing m =>
      rw [s.1.computed, s.1.corrupted, if_neg (by decide)]
      exact inputLoop_spec message s.1 s.2
    | computed m =>
      rw [s.1, Bool.true_or, if_pos rfl, Digesting.input, if_neg empty]
      exact ⟨_, rfl, rfl⟩
    | corrupted =>
      rw [show context.corrupted = true from s, Bool.or_true, if_pos rfl]
      exact ⟨_, rfl, rfl⟩

/-! ## The digest -/

@[simp] theorem storeLength_messageDigest (context : Sha1Context) :
    (storeLength context).messageDigest = context.messageDigest := by
  rw [storeLength]

@[simp] theorem storeLength_corrupted (context : Sha1Context) :
    (storeLength context).corrupted = context.corrupted := by
  rw [storeLength]

/-- Bytes written one by one up to the end of the block. -/
theorem writes_to_end (bs : List UInt8) (off : Nat) (size : 56 + off + bs.length = 64)
    (block : Vector UInt8 64) :
    ((bs.zipIdx off).foldl (fun block x => block.setIfInBounds (56 + x.2) x.1) block).toList =
      block.toList.take (56 + off) ++ bs := by
  induction bs generalizing off block with
  | nil =>
    have whole : 56 + off = 64 := size
    rw [List.append_nil, whole, List.take_of_length_le (by simp)]
    rfl
  | cons b rest ih =>
    rw [List.length_cons] at size
    have room : 56 + off < 64 := by omega
    rw [List.zipIdx_cons, List.foldl_cons, ih _ (by omega), Vector.toList_setIfInBounds,
      ← Nat.add_assoc, List.take_add_one, List.take_set_of_le (Nat.le_refl _)]
    simp [room]

/-- The length is written behind the first 56 bytes. -/
theorem storeLength_block (context : Sha1Context) :
    (storeLength context).messageBlock.toList =
      context.messageBlock.toList.take 56 ++ lengthBytes context := by
  rw [storeLength]
  exact writes_to_end (lengthBytes context) 0 (by simp [lengthBytes])
    context.messageBlock

/-- The bytes of a word, by shifts. -/
theorem shifts_eq_be32 (w : UInt32) :
    [(w >>> 24).toUInt8, (w >>> 16).toUInt8, (w >>> 8).toUInt8, w.toUInt8] = be32 w := by
  have byte (n : UInt32) (k : Nat) (h : n.toNat < 32) (hk : 2 ^ n.toNat = k) :
      (w >>> n).toUInt8 = UInt8.ofNat (w.toNat / k) := by
    apply UInt8.toNat_inj.mp
    simp [Nat.shiftRight_eq_div_pow, Nat.mod_eq_of_lt h, hk]
  rw [byte 24 16777216 (by decide) (by decide), byte 16 65536 (by decide) (by decide),
    byte 8 256 (by decide) (by decide), be32]
  simp

/-- The bytes of the length. -/
theorem lengthBytes_eq {context : Sha1Context} {n : Nat} (length : bits context = 8 * n) :
    lengthBytes context = lengthField n := by
  have low := context.lengthLow.toNat_lt
  have high := context.lengthHigh.toNat_lt
  rw [bits] at length
  have lowWord : UInt32.ofNat (8 * n) = context.lengthLow := by
    apply UInt32.toNat_inj.mp
    rw [UInt32.toNat_ofNat']
    omega
  have highWord : UInt32.ofNat (8 * n / 4294967296) = context.lengthHigh := by
    apply UInt32.toNat_inj.mp
    rw [UInt32.toNat_ofNat']
    omega
  rw [lengthField, lowWord, highWord, ← shifts_eq_be32, ← shifts_eq_be32]
  rfl

/-- The last block: what is held is 56 bytes long, and the length follows. -/
theorem last_block {context : Sha1Context} {n : Nat} (index : context.messageBlockIndex = 56)
    (length : bits context = 8 * n) :
    (processMessageBlock (storeLength context)).messageDigest =
      compress context.messageDigest (held context ++ lengthField n) := by
  rw [processMessageBlock_digest, storeLength_block, lengthBytes_eq length, held, index,
    storeLength_messageDigest]

theorem Extends.bits {context context' : Sha1Context} {bs : List UInt8}
    (h : Extends context bs context') : bits context' = Sha1.bits context := by
  rw [Sha1.bits, h.low, h.high, ← Sha1.bits]

/-- `SHA1PadMessage` computes the digest of the message so far. -/
theorem padMessage_digest {m : List UInt8} {context : Sha1Context} (s : Absorbing m context) :
    ∃ context', padMessage context = .ok context' ∧ context'.messageDigest = digest m ∧
      context'.corrupted = false := by
  have index := s.index
  have heldLength := length_held (Nat.le_of_lt index)
  have place : context.messageBlockIndex = m.length % 64 :=
    heldLength ▸ s.absorbed.length_rest
  have final : digest m = iterate compress 64 context.messageDigest
      (held context ++ padding m.length) := s.absorbed.finish _
  obtain ⟨marked, stored, first⟩ := store_extends context index 0x80
  have markedIndex : marked.messageBlockIndex = context.messageBlockIndex + 1 := first.index
  rw [padMessage]
  by_cases late : context.messageBlockIndex > 55
  · -- the length does not fit: the block is filled, and another one follows
    obtain ⟨full, filled, zeros⟩ := fillZeros_extends 64 64 (by decide) marked (by omega)
      (by omega)
    obtain ⟨last, filled', zeros'⟩ := fillZeros_extends 56 64 (by decide)
      (processMessageBlock full) (by simp) (by simp)
    have toFull := first.trans zeros
    have fullIndex : full.messageBlockIndex = 64 := by
      rw [zeros.index, List.length_replicate]
      omega
    have lastIndex : last.messageBlockIndex = 56 := by
      rw [zeros'.index, List.length_replicate, processMessageBlock_index]
    have lastBits : bits last = 8 * m.length := by
      rw [zeros'.bits, processMessageBlock_bits, toFull.bits, s.bits]
    refine ⟨processMessageBlock (storeLength last), ?_, ?_, ?_⟩
    · rw [if_pos late, stored, Access.ok_bind, filled, Access.ok_bind, filled', Access.ok_bind]
      rfl
    · have lastLength : SecureHash.zeros m.length = (64 - marked.messageBlockIndex) + 56 := by
        rw [SecureHash.zeros]
        omega
      have twoBlocks : held context ++ padding m.length =
          held full ++ (held last ++ lengthField m.length) := by
        rw [toFull.held, zeros'.held, held_processMessageBlock, processMessageBlock_index, padding,
          lastLength, List.replicate_add]
        simp
      have firstBlock : (held full).length = 64 := by rw [length_held (by omega), fullIndex]
      have lastBlock : (held last ++ lengthField m.length).length = 64 := by
        rw [List.length_append, length_held (by omega), lastIndex, length_lengthField]
      rw [final, twoBlocks, iterate_append (by decide) (firstBlock ▸ Nat.dvd_refl _),
        iterate_block (by decide) firstBlock, iterate_block (by decide) lastBlock,
        last_block lastIndex lastBits, zeros'.digest, processMessageBlock_digest, toFull.digest,
        held_full fullIndex]
    · rw [processMessageBlock_corrupted, storeLength_corrupted, zeros'.corrupted,
        processMessageBlock_corrupted, toFull.corrupted, s.corrupted]
  · obtain ⟨last, filled, zeros⟩ := fillZeros_extends 56 64 (by decide) marked (by omega)
      (by omega)
    have toLast := first.trans zeros
    have lastIndex : last.messageBlockIndex = 56 := by
      rw [zeros.index, List.length_replicate]
      omega
    have lastBits : bits last = 8 * m.length := by rw [toLast.bits, s.bits]
    refine ⟨processMessageBlock (storeLength last), ?_, ?_, ?_⟩
    · rw [if_neg late, stored, Access.ok_bind, filled, Access.ok_bind]
      rfl
    · have lastLength : SecureHash.zeros m.length = 56 - marked.messageBlockIndex := by
        rw [SecureHash.zeros]
        omega
      have oneBlock : held context ++ padding m.length = held last ++ lengthField m.length := by
        rw [toLast.held, padding, lastLength]
        simp
      have block : (held last ++ lengthField m.length).length = 64 := by
        rw [List.length_append, length_held (by omega), lastIndex, length_lengthField]
      rw [final, oneBlock, iterate_block (by decide) block, last_block lastIndex lastBits,
        toLast.digest]
    · rw [processMessageBlock_corrupted, storeLength_corrupted, toLast.corrupted, s.corrupted]

/-! ## Runs -/

/-- `SHA1Result` in any state. -/
theorem sha1Result_spec {d : Digesting} {context : Sha1Context} (s : Represents d context) :
    ∃ ret context', sha1Result context = .ok (ret, context') ∧ Represents d.result.1 context' ∧
      (if ret then some context'.messageDigest else none) = d.result.2 := by
  rw [sha1Result]
  cases d with
  | absorbing m =>
    obtain ⟨padded, pad, value, sound⟩ := padMessage_digest s.1
    rw [s.1.corrupted, s.1.computed, if_neg (by decide), if_neg (by decide), pad]
    exact ⟨true, { padded with computed := true }, rfl, ⟨rfl, sound, value⟩, congrArg some value⟩
  | computed m =>
    rw [s.2.1, s.1, if_neg (by decide), if_pos rfl]
    exact ⟨true, context, rfl, s, congrArg some s.2.2⟩
  | corrupted =>
    rw [show context.corrupted = true from s, if_pos rfl]
    exact ⟨false, context, rfl, s, rfl⟩

/-- One call. -/
theorem call_spec {d : Digesting} {context : Sha1Context} (s : Represents d context) (c : Call) :
    ∃ context', call context c = .ok (context', (d.call c).2) ∧
      Represents (d.call c).1 context' := by
  cases c with
  | input message =>
    obtain ⟨context', input, next⟩ := sha1Input_spec s message
    exact ⟨context', by rw [call, input]; rfl, next⟩
  | result =>
    obtain ⟨ret, context', result, next, answer⟩ := sha1Result_spec s
    refine ⟨context', ?_, next⟩
    rw [call, result]
    exact congrArg (fun a => Except.ok (context', a)) answer

/-- The calls on a context that is in this state. -/
theorem run_spec (calls : List Call) {d : Digesting} {context : Sha1Context}
    (s : Represents d context) :
    ∃ context', run context calls = .ok (context', d.answers calls) := by
  induction calls generalizing d context with
  | nil => exact ⟨context, rfl⟩
  | cons c calls ih =>
    obtain ⟨next, first, s'⟩ := call_spec s c
    obtain ⟨last, rest⟩ := ih s'
    refine ⟨last, ?_⟩
    rw [run, first, Access.ok_bind]
    show (run next calls >>= _) = _
    rw [rest]
    rfl

/-- A context that has been reset holds the empty message, whatever it held
before. -/
theorem reset_represents (context : Sha1Context) :
    Represents (.absorbing []) (sha1Reset context) :=
  ⟨⟨Absorbed.nil (by decide), Nat.zero_lt_succ 63, rfl, rfl, rfl⟩, by decide⟩

/-- Whatever a context held before it was reset, and whatever calls follow,
none of them writes outside of the block, and each gives what the message so
far tells. -/
theorem run_answers (context : Sha1Context) (calls : List Call) :
    ∃ context', run (sha1Reset context) calls =
      .ok (context', (Digesting.absorbing []).answers calls) :=
  run_spec calls (reset_represents context)

end NetLabs.Router.Sha1

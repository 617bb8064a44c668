/-
NetLabs.Ctcp.Corruption — the corruption step of `conn_send` in
`lab3/ctcp_sys_internal.c`.

To test the other side `conn_send` may flip one bit of the copy of a segment
that it sends, behind the flags. The position is a random number in a range
computed from the length. It never leaves the segment (`randBit_range`), and
the checksum always shows the flipped bit, wherever it is: in the window and
the data, which count in it (`recomputedCksum_ne`), or in the checksum itself,
which does not (`storedCksum_ne`).
-/
import NetLabs.Ctcp.Segment
import NetLabs.Lib.Access

namespace NetLabs.Ctcp

open NetLabs.Lib Access

/-! ## The step -/

/-- `flipbit(segment, bit)` -/
def flipbit (segment : List UInt8) (bit : Nat) : Access (List UInt8) := do
  let byte ← bytes segment (bit / 8) 1
  write segment (bit / 8) (byte.map (· ^^^ UInt8.ofNat (2 ^ (bit % 8))))

/-- `rand_bit`, for a segment of `len` bytes and a value of `rand()`. -/
def randBit (len rand : Nat) : UInt16 :=
  let dataLength := UInt16.ofNat (len - segmentHdrSize + 4)
  UInt16.ofNat (rand % (dataLength.toNat * 8 - 1) + (segmentHdrSize - 4) * 8)

/-- What the options of the tester say about corruption. -/
structure Unreliability where
  testDebugOn : Bool
  testerDidUnreliable : Bool
  optCorrupt : Int
  deriving DecidableEq, Repr

/-- The segment is to be corrupted; `percent` is `rand_percent(fork_level)`. -/
def Unreliability.Corrupts (u : Unreliability) (percent : Int) : Prop :=
  u.testDebugOn = true ∧ u.testerDidUnreliable = false ∧ u.optCorrupt ≠ 0 ∨
    u.testDebugOn = false ∧ percent < u.optCorrupt

instance (u : Unreliability) (percent : Int) : Decidable (u.Corrupts percent) :=
  inferInstanceAs (Decidable (_ ∨ _))

/-- The corruption step of `conn_send`, on `segment_copy`. -/
def corruptSegment (u : Unreliability) (percent : Int) (rand : Nat) (segmentCopy : List UInt8) :
    Access (List UInt8) :=
  if u.Corrupts percent then flipbit segmentCopy (randBit segmentCopy.length rand).toNat
  else .ok segmentCopy

/-! ## The checksum of a segment in memory -/

/-- The offset of `cksum`. -/
def cksumOff : Nat := 18

/-- `segment->cksum` -/
def storedCksum (e : Endian) (segment : List UInt8) : UInt16 := ofMem16 e (slice segment cksumOff 2)

/-- The checksum of a segment, computed with the checksum field zero. -/
def recomputedCksum (e : Endian) (segment : List UInt8) : UInt16 :=
  NetLabs.cksum e (put segment cksumOff [0, 0])

/-! ## Where the bit is -/

variable {segment : List UInt8}

theorem flipbit_inside {bit : Nat} (inside : bit / 8 < segment.length) :
    flipbit segment bit =
      .ok (put segment (bit / 8) [segment[bit / 8] ^^^ UInt8.ofNat (2 ^ (bit % 8))]) := by
  have byte : bytes segment (bit / 8) 1 = .ok [segment[bit / 8]] := by
    rw [bytes_inside (by omega), slice, List.drop_eq_getElem_cons inside, List.take_succ_cons,
      List.take_zero]
  rw [flipbit, byte, ok_bind]
  exact write_inside (show bit / 8 + 1 ≤ segment.length from inside)

/-- The bit is behind the flags and in the segment. -/
theorem randBit_range {len : Nat} (size : segmentHdrSize ≤ len)
    (small : len ≤ segmentHdrSize + maxSegDataSize) (rand : Nat) :
    16 ≤ (randBit len rand).toNat / 8 ∧ (randBit len rand).toNat / 8 < len := by
  simp only [segmentHdrSize, maxSegDataSize] at size small
  have dataLength : (UInt16.ofNat (len - segmentHdrSize + 4)).toNat = len - 16 := by
    rw [UInt16.toNat_ofNat', segmentHdrSize]
    omega
  have low : rand % ((len - 16) * 8 - 1) < (len - 16) * 8 - 1 := Nat.mod_lt _ (by omega)
  have bit : (randBit len rand).toNat = rand % ((len - 16) * 8 - 1) + 128 := by
    rw [randBit, dataLength, UInt16.toNat_ofNat', segmentHdrSize]
    exact Nat.mod_eq_of_lt (by omega)
  rw [bit]
  omega

/-- A flipped bit changes the byte. -/
theorem flip_ne (b : UInt8) {i : Nat} (small : i < 8) : b ^^^ UInt8.ofNat (2 ^ i) ≠ b := by
  have all : ∀ i : Fin 8, UInt8.ofNat (2 ^ i.val) ≠ 0 := by decide
  intro same
  have none : b ^^^ UInt8.ofNat (2 ^ i) = b ^^^ 0 := by rw [same, UInt8.xor_zero]
  exact all ⟨i, small⟩ ((UInt8.xor_right_inj b).mp none)

/-! ## Detection -/

theorem storedCksum_bytes (e : Endian) (s : CtcpSegment) :
    storedCksum e (s.bytes e) = s.cksum := by
  have before : (be32 s.seqno ++ be32 s.ackno ++ be16 s.len ++ [0, 0] ++ memU32 e s.flags ++
      be16 s.window).length = cksumOff := by simp [cksumOff]
  rw [storedCksum, slice, CtcpSegment.bytes, List.append_assoc _ (memU16 e s.cksum),
    List.drop_left' before, List.take_left' (length_memU16 e s.cksum), ofMem16_memU16]

theorem recomputedCksum_bytes (e : Endian) (s : CtcpSegment) :
    recomputedCksum e (s.bytes e) = s.correctCksum e := by
  have zero : memU16 e 0 = [0, 0] := by cases e <;> decide
  have before : cksumOff = (be32 s.seqno ++ be32 s.ackno ++ be16 s.len ++ [0, 0] ++
      memU32 e s.flags ++ be16 s.window).length := by simp [cksumOff]
  have width : [(0 : UInt8), 0].length = (memU16 e s.cksum).length := by rw [length_memU16]; rfl
  rw [recomputedCksum, CtcpSegment.correctCksum, CtcpSegment.bytes, CtcpSegment.bytes, zero,
    put_middle before width]

/-- A segment that is what it says has its checksum in memory as well. -/
theorem CtcpSegment.Faithful.correct {e : Endian} {s : CtcpSegment} (faithful : s.Faithful e) :
    storedCksum e (s.bytes e) = recomputedCksum e (s.bytes e) := by
  rw [storedCksum_bytes, recomputedCksum_bytes, faithful.cksum_eq]

/-- A changed byte outside the checksum field changes the checksum. -/
theorem recomputedCksum_ne (e : Endian) (size : segmentHdrSize ≤ segment.length)
    (short : segment.length ≤ 131074) {i : Nat} (inside : i < segment.length)
    (apart : i < cksumOff ∨ cksumOff + 2 ≤ i) {b : UInt8} (changed : b ≠ segment[i]) :
    recomputedCksum e (put segment i [b]) ≠ recomputedCksum e segment := by
  have field : cksumOff + 2 ≤ segment.length := size
  have commute : put (put segment i [b]) cksumOff [0, 0] =
      put (put segment cksumOff [0, 0]) i [b] := by
    rcases apart with before | behind
    · exact put_comm before field
    · exact (put_comm behind inside).symm
  have length : (put segment cksumOff [0, 0]).length = segment.length := length_put field
  have inside' : i < (put segment cksumOff [0, 0]).length := by rwa [length]
  have there : (put segment cksumOff [0, 0])[i] = segment[i] := by
    have same : (put segment cksumOff [0, 0])[i]? = segment[i]? := getElem?_put apart field
    rwa [List.getElem?_eq_getElem inside', List.getElem?_eq_getElem inside, Option.some_inj] at same
  rw [recomputedCksum, recomputedCksum, commute]
  generalize put segment cksumOff [0, 0] = zeroed at length inside' there
  have split : zeroed = zeroed.take i ++ segment[i] :: zeroed.drop (i + 1) := by
    rw [← there, List.getElem_cons_drop, List.take_append_drop]
  have total : (zeroed.take i).length + 1 + (zeroed.drop (i + 1)).length ≤ 131074 := by
    rw [List.length_take, List.length_drop]
    omega
  have ne := cksum_ne_of_byte_ne e total changed
  rw [put, List.append_assoc, List.singleton_append, List.length_singleton]
  rwa [← split] at ne

/-- A changed byte of the checksum field changes the field, and not the
checksum. -/
theorem storedCksum_ne (e : Endian) (size : segmentHdrSize ≤ segment.length) {i : Nat}
    (inside : i < segment.length) (low : cksumOff ≤ i) (high : i < cksumOff + 2) {b : UInt8}
    (changed : b ≠ segment[i]) :
    storedCksum e (put segment i [b]) ≠ storedCksum e segment ∧
      recomputedCksum e (put segment i [b]) = recomputedCksum e segment := by
  have field : cksumOff + 2 ≤ segment.length := size
  have length : (put segment i [b]).length = segment.length := length_put inside
  constructor
  · intro same
    have bytes := (ofMem16_inj e (length_slice (by rwa [length])) (length_slice field)).mp same
    have at_i := congrArg (·[i - cksumOff]?) bytes
    simp only [getElem?_slice (show i - cksumOff < 2 by omega), Nat.add_sub_cancel' low] at at_i
    rw [getElem?_put_inside (Nat.le_refl i) (show i < i + [b].length by simp) inside, Nat.sub_self,
      List.getElem?_eq_getElem inside] at at_i
    exact changed (Option.some.inj at_i)
  · have covered : put (put segment i [b]) cksumOff [0, 0] = put segment cksumOff [0, 0] :=
      put_covered low high field
    rw [recomputedCksum, recomputedCksum, covered]

/-- The corrupted copy differs from the segment in one bit, which is inside of
the segment and behind the flags, and its checksum field is not the checksum of
its contents. -/
theorem corruption_detected (e : Endian) (size : segmentHdrSize ≤ segment.length)
    (small : segment.length ≤ segmentHdrSize + maxSegDataSize)
    (correct : storedCksum e segment = recomputedCksum e segment)
    (u : Unreliability) (percent : Int) (corrupts : u.Corrupts percent) (rand : Nat) :
    ∃ i bit, ∃ inside : i < segment.length, 16 ≤ i ∧ bit < 8 ∧
      (randBit segment.length rand).toNat = i * 8 + bit ∧
      corruptSegment u percent rand segment =
        .ok (put segment i [segment[i] ^^^ UInt8.ofNat (2 ^ bit)]) ∧
      storedCksum e (put segment i [segment[i] ^^^ UInt8.ofNat (2 ^ bit)]) ≠
        recomputedCksum e (put segment i [segment[i] ^^^ UInt8.ofNat (2 ^ bit)]) := by
  obtain ⟨behind, inside⟩ := randBit_range size small rand
  generalize place : (randBit segment.length rand).toNat = position at behind inside
  have low : position % 8 < 8 := Nat.mod_lt _ (by decide)
  have changed := flip_ne segment[position / 8] low
  refine ⟨position / 8, position % 8, inside, behind, low, by omega, ?_, ?_⟩
  · rw [corruptSegment, if_pos corrupts, place, flipbit_inside inside]
  · by_cases field : cksumOff ≤ position / 8 ∧ position / 8 < cksumOff + 2
    · obtain ⟨stored, recomputed⟩ := storedCksum_ne e size inside field.1 field.2 changed
      rwa [recomputed, ← correct]
    · have apart : position / 8 < cksumOff ∨ cksumOff + 2 ≤ position / 8 := by omega
      have short : segment.length ≤ 131074 := by
        simp only [segmentHdrSize, maxSegDataSize] at small
        omega
      have kept : storedCksum e (put segment (position / 8)
          [segment[position / 8] ^^^ UInt8.ofNat (2 ^ (position % 8))]) =
          storedCksum e segment := by
        rw [storedCksum, storedCksum, slice_put_apart (by simp; omega) inside]
      rw [kept, correct]
      exact (recomputedCksum_ne e size short inside apart changed).symm

/-- A segment with one byte of data. -/
def letter : List UInt8 :=
  CtcpSegment.bytes .little
    { seqno := 1, ackno := 1, len := 21, flags := thAck, window := 1440, cksum := 0x4889,
      data := [0x61] }

/-- The segment with one byte of data is corrupted in that byte. -/
theorem corruption_detected_letter :
    corruptSegment ⟨true, false, 100⟩ 0 35 letter = .ok (put letter 20 [0x69]) ∧
      storedCksum .little (put letter 20 [0x69]) ≠
        recomputedCksum .little (put letter 20 [0x69]) := by
  obtain ⟨i, bit, inside, behind, low, place, copy, detected⟩ :=
    corruption_detected .little (show segmentHdrSize ≤ letter.length by decide) (by decide)
      (by decide) ⟨true, false, 100⟩ 0 (by decide) 35
  have position : (randBit letter.length 35).toNat = 163 := by decide
  obtain rfl : i = 20 := by omega
  obtain rfl : bit = 3 := by omega
  have byte : ∀ inside : 20 < letter.length, letter[20] ^^^ UInt8.ofNat (2 ^ 3) = 0x69 := by
    decide
  rw [byte inside] at copy detected
  exact ⟨copy, detected⟩

end NetLabs.Ctcp

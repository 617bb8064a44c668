/-
NetLabs.Router.HeaderChecksum — the checksum of an IP header, recomputed and
summed.

A header is valid if the one's-complement sum of its ten words, the checksum
included, is 0xffff. `process_ip_packet` decides by recomputing the checksum
and comparing. Recomputing always gives a valid header (`headerSum_recompute`).
A valid header is its own recomputation unless its checksum field is 0: then
zero is spelled differently from how `cksum` spells it (`passesSum_iff`).
-/
import NetLabs.Router.Rewriting

namespace NetLabs.Router

open NetLabs.Lib

variable {env : Env}

/-! ## The words of a header -/

/-- The one's-complement sum of the words of the IP header. -/
def headerSum (env : Env) (packet : List UInt8) : Nat :=
  onesSum 0xffff (wordsOf (env.get ipHdr packet))

/-- The header passes the comparison `process_ip_packet` makes. -/
def PassesSum (env : Env) (packet : List UInt8) : Prop :=
  env.getSum ipSum (recomputeIpSum env packet) = env.getSum ipSum packet

instance (env : Env) (packet : List UInt8) : Decidable (PassesSum env packet) :=
  inferInstanceAs (Decidable (_ = _))

theorem headerSum_eq (packet : List UInt8) :
    headerSum env packet = endAround 0xffff (wordsOf (env.get ipHdr packet)).sum :=
  onesSum_eq (by decide) (wordsOf_le _)

/-- A header is the ten bytes before its checksum, the checksum and the eight
bytes behind it. -/
theorem get_ipHdr_set {bs packet : List UInt8} (size : bs.length = 2)
    (long : ipHdrSize + etherHdrSize ≤ packet.length) :
    env.get ipHdr (ipSum.set bs packet) = slice packet 14 10 ++ bs ++ slice packet 26 8 := by
  simp only [ipHdrSize, etherHdrSize] at long
  have fits : ipSum.off + bs.length ≤ packet.length := by
    rw [size]
    show 24 + 2 ≤ _
    omega
  rw [Env.get, peek_eq_slice env.beyond (by rw [Field.length_set]; show 14 + 20 ≤ _; omega),
    Field.set, if_pos fits, put, size]
  show slice (packet.take 24 ++ bs ++ packet.drop 26) 14 20 = _
  have front : (packet.take 24).length = 24 := by
    rw [List.length_take]
    omega
  have middle : (slice packet 14 10).length = 10 := length_slice (by omega)
  rw [slice, List.append_assoc, List.drop_append_of_le_length (by omega), List.drop_take]
  show (slice packet 14 10 ++ (bs ++ packet.drop 26)).take 20 = _
  rw [List.take_append, List.take_of_length_le (by omega), middle, List.take_append,
    List.take_of_length_le (by omega), size, List.append_assoc]
  rfl

/-- The total of the words without the checksum. -/
def restTotal (packet : List UInt8) : Nat :=
  (wordsOf (slice packet 14 10)).sum + (wordsOf (slice packet 26 8)).sum

theorem sum_words_set (env : Env) {bs packet : List UInt8} (size : bs.length = 2)
    (long : ipHdrSize + etherHdrSize ≤ packet.length) :
    (wordsOf (env.get ipHdr (ipSum.set bs packet))).sum =
      restTotal packet + (ofBe16 bs).toNat := by
  simp only [ipHdrSize, etherHdrSize] at long
  have first : (slice packet 14 10).length = 10 := length_slice (by omega)
  rw [get_ipHdr_set size long, wordsOf_append (by rw [List.length_append, first, size]),
    wordsOf_append (by rw [first]), wordsOf_two size, restTotal]
  simp only [List.sum_append, List.sum_singleton]
  omega

/-- The words of a header add up to the rest and the checksum. -/
theorem sum_words {packet : List UInt8} (long : ipHdrSize + etherHdrSize ≤ packet.length) :
    (wordsOf (env.get ipHdr packet)).sum =
      restTotal packet + (env.getU16 ipSum packet).toNat := by
  have held : ipSum.set (env.get ipSum packet) packet = packet :=
    Field.set_get env (le_trans (by decide) long)
  rw [Env.getU16, ← sum_words_set env (Env.length_get env ipSum packet) long, held]

/-! ## Recomputing -/

/-- The recomputed checksum is the check word for the rest of the header. -/
theorem get_recompute (env : Env) {packet : List UInt8}
    (long : ipHdrSize + etherHdrSize ≤ packet.length) :
    env.get ipSum (recomputeIpSum env packet) =
      be16 (UInt16.ofNat (checkWord 0xffff (restTotal packet))) := by
  have zero : ofBe16 (memU16 env.endian 0) = 0 := by cases env.endian <;> decide
  have total : (wordsOf (env.get ipHdr (ipSum.set (memU16 env.endian 0) packet))).sum =
      restTotal packet := by
    rw [sum_words_set env (length_memU16 _ _) long, zero]
    rfl
  rw [recomputeIpSum_eq, Env.get_set ⟨length_memU16 _ _, le_trans (by decide) long⟩,
    memU16_cksum env.endian (by rw [Env.length_get]; decide), checkValue, total]

/-- A header with the recomputed checksum is valid. -/
theorem headerSum_recompute {packet : List UInt8}
    (long : ipHdrSize + etherHdrSize ≤ packet.length) :
    headerSum env (recomputeIpSum env packet) = 0xffff := by
  have small : checkWord 0xffff (restTotal packet) ≤ 0xffff := checkWord_le
  have value : (UInt16.ofNat (checkWord 0xffff (restTotal packet))).toNat =
      checkWord 0xffff (restTotal packet) := by
    rw [UInt16.toNat_ofNat']
    omega
  have written : recomputeIpSum env packet =
      ipSum.set (be16 (UInt16.ofNat (checkWord 0xffff (restTotal packet)))) packet := by
    have set := recomputeIpSum_eq env packet
    have get := get_recompute env long
    rw [set, Env.get_set ⟨length_memU16 _ _, le_trans (by decide) long⟩] at get
    rw [set, get]
  rw [headerSum_eq, written, sum_words_set env (length_be16 _) long, ofBe16_be16, value]
  exact (endAround_add_eq_iff (by decide) (checkWord_pos (by decide)) small).mpr rfl

/-- The comparison accepts a header with the check word in its checksum
field. -/
theorem passesSum_iff_checkWord {packet : List UInt8}
    (long : ipHdrSize + etherHdrSize ≤ packet.length) :
    PassesSum env packet ↔
      (env.getU16 ipSum packet).toNat = checkWord 0xffff (restTotal packet) := by
  have small : checkWord 0xffff (restTotal packet) ≤ 0xffff := checkWord_le
  have size : (env.get ipSum packet).length = 2 := Env.length_get env ipSum packet
  rw [PassesSum, Env.getSum, Env.getSum, get_recompute env long,
    ofMem16_inj env.endian (length_be16 _) size]
  constructor
  · intro same
    rw [Env.getU16, ← same, ofBe16_be16, UInt16.toNat_ofNat']
    omega
  · intro value
    rw [← value, UInt16.ofNat_toNat, Env.getU16, be16_ofBe16 size]

/-- The comparison accepts a valid header whose checksum field is not 0, and no
other. -/
theorem passesSum_iff {packet : List UInt8} (long : ipHdrSize + etherHdrSize ≤ packet.length) :
    PassesSum env packet ↔ headerSum env packet = 0xffff ∧ env.getU16 ipSum packet ≠ 0 := by
  have low : (env.getU16 ipSum packet).toNat ≤ 0xffff := Nat.le_of_lt_succ (UInt16.toNat_lt _)
  rw [passesSum_iff_checkWord long, headerSum_eq, sum_words long]
  constructor
  · intro value
    have pos : 0 < (env.getU16 ipSum packet).toNat := value ▸ checkWord_pos (by decide)
    refine ⟨(endAround_add_eq_iff (by decide) pos low).mpr value, fun zero => ?_⟩
    rw [zero] at pos
    exact Nat.lt_irrefl 0 pos
  · rintro ⟨valid, nonzero⟩
    have pos : 0 < (env.getU16 ipSum packet).toNat := by
      rcases Nat.eq_zero_or_pos (env.getU16 ipSum packet).toNat with zero | pos
      · exact absurd (UInt16.toNat_inj.mp zero) nonzero
      · exact pos
    exact (endAround_add_eq_iff (by decide) pos low).mp valid

end NetLabs.Router

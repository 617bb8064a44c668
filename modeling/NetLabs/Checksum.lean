/-
NetLabs.Checksum — `cksum`, the Internet checksum of both programs.

`lab3/ctcp_utils.c` and `lab1/router/sr_utils.c` each have a copy; the two
differ only in the C type of `len`. The data is the list of the bytes in
`[_data, _data + len)`. The result is the value of the C function, so it is
in network order: written to memory it is big-endian (`memU16_htons`).

The result stands for the check word of one's-complement arithmetic: the
complement of the sum of the 16-bit words of the data, with zero spelled
0xffff (`memU16_cksum`). With it in its field a message adds up to 0xffff; no
other value but 0 does that, and 0 only if the rest does alone
(`onesSum_field_iff`).
-/
import NetLabs.Lib.Bytes
import NetLabs.Lib.OnesComplement
import Mathlib.Tactic.NormNum.Basic

namespace NetLabs

open NetLabs.Lib

/-- The summation loop over 16-bit words, with the odd last byte. -/
def cksumSum : UInt32 → List UInt8 → UInt32
  | sum, a :: b :: rest => cksumSum (sum + (a.toUInt32 <<< 8 ||| b.toUInt32)) rest
  | sum, [a] => sum + a.toUInt32 <<< 8
  | sum, [] => sum

/-- At most `fuel` turns of the carry loop `while (sum > 0xffff)`. -/
def cksumFold : Nat → UInt32 → UInt32
  | 0, sum => sum
  | fuel + 1, sum =>
      if sum > 0xffff then cksumFold fuel ((sum >>> 16) + (sum &&& 0xffff)) else sum

/-- `cksum(_data, len)`. -/
def cksum (e : Endian) (data : List UInt8) : UInt16 :=
  let sum := htons e (~~~ (cksumFold 2 (cksumSum 0 data))).toUInt16
  if sum = 0 then 0xffff else sum

/-- One turn of the carry loop adds the two halves of the sum. -/
theorem toNat_fold_turn (sum : UInt32) :
    ((sum >>> 16) + (sum &&& 0xffff)).toNat = sum.toNat / 65536 + sum.toNat % 65536 := by
  have hs := sum.toNat_lt
  have hhi : (sum >>> 16).toNat = sum.toNat / 65536 := by
    simp [UInt32.toNat_shiftRight, Nat.shiftRight_eq_div_pow]
  have hlo : (sum &&& 0xffff).toNat = sum.toNat % 65536 := by
    rw [UInt32.toNat_and]
    exact Nat.and_two_pow_sub_one_eq_mod sum.toNat 16
  rw [UInt32.toNat_add, hhi, hlo]
  omega

/-- Two turns of the carry loop are always enough: the loop has ended. -/
theorem cksumFold_le (sum : UInt32) : (cksumFold 2 sum).toNat ≤ 0xffff := by
  have hs := sum.toNat_lt
  have h1 := toNat_fold_turn sum
  have h2 := toNat_fold_turn ((sum >>> 16) + (sum &&& 0xffff))
  simp only [cksumFold, gt_iff_lt, UInt32.lt_iff_toNat_lt]
  split
  · split
    · rw [h2, h1]; omega
    · rename_i h; simpa using h
  · rename_i h; simpa using h

/-! ## The check word -/

/-- The 16-bit words of the data, most significant byte first; an odd last
byte is the upper half of a word. -/
def wordsOf : List UInt8 → List Nat
  | a :: b :: rest => (a.toNat * 256 + b.toNat) :: wordsOf rest
  | [a] => [a.toNat * 256]
  | [] => []

theorem wordsOf_le (data : List UInt8) : ∀ w ∈ wordsOf data, w ≤ 0xffff := by
  fun_induction wordsOf data with
  | case1 a b rest ih =>
    intro w hw
    have ha := a.toNat_lt
    have hb := b.toNat_lt
    rcases List.mem_cons.mp hw with rfl | later
    · omega
    · exact ih w later
  | case2 a =>
    intro w hw
    have ha := a.toNat_lt
    rw [List.mem_singleton.mp hw]
    omega
  | case3 =>
    intro w hw
    simp at hw

theorem wordsOf_append {data : List UInt8} (even : data.length % 2 = 0) (rest : List UInt8) :
    wordsOf (data ++ rest) = wordsOf data ++ wordsOf rest := by
  fun_induction wordsOf data with
  | case1 a b data ih =>
    have shorter : data.length % 2 = 0 := by
      simp only [List.length_cons] at even
      omega
    rw [List.cons_append, List.cons_append, wordsOf, ih shorter, List.cons_append]
  | case2 a => simp at even
  | case3 => rfl

theorem length_wordsOf (data : List UInt8) : (wordsOf data).length = (data.length + 1) / 2 := by
  fun_induction wordsOf data with
  | case1 a b rest ih =>
    simp only [List.length_cons, ih]
    omega
  | case2 a => simp
  | case3 => rfl

/-- The sum of the words fits in 32 bits for up to 131074 bytes. -/
theorem sum_wordsOf_lt {data : List UInt8} (short : data.length ≤ 131074) :
    (wordsOf data).sum < 2 ^ 32 := by
  have each : (wordsOf data).sum ≤ (wordsOf data).length * 0xffff := by
    have small := wordsOf_le data
    generalize wordsOf data = words at small
    induction words with
    | nil => simp
    | cons w words ih =>
      have hw := small w (by simp)
      have rest := ih fun v hv => small v (by simp [hv])
      simp only [List.sum_cons, List.length_cons, Nat.add_mul, Nat.one_mul]
      omega
  rw [length_wordsOf] at each
  omega

theorem toNat_word (a b : UInt8) :
    (a.toUInt32 <<< 8 ||| b.toUInt32).toNat = a.toNat * 256 + b.toNat := by
  have ha := a.toNat_lt
  have hb := b.toNat_lt
  have shifted : (a.toUInt32 <<< 8).toNat = 2 ^ 8 * a.toNat := by
    rw [UInt32.toNat_shiftLeft, Nat.shiftLeft_eq, UInt8.toNat_toUInt32]
    show a.toNat * 2 ^ 8 % 2 ^ 32 = _
    omega
  rw [UInt32.toNat_or, shifted, UInt8.toNat_toUInt32, ← Nat.two_pow_add_eq_or_of_lt hb]
  omega

/-- The summation loop adds up the words, modulo 2^32. -/
theorem toNat_cksumSum (sum : UInt32) (data : List UInt8) :
    (cksumSum sum data).toNat = (sum.toNat + (wordsOf data).sum) % 2 ^ 32 := by
  fun_induction cksumSum sum data with
  | case1 sum a b rest ih =>
    rw [ih, UInt32.toNat_add, toNat_word, wordsOf, List.sum_cons]
    omega
  | case2 sum a =>
    have word : a.toUInt32 <<< 8 = a.toUInt32 <<< 8 ||| (0 : UInt8).toUInt32 := by simp
    rw [word, UInt32.toNat_add, toNat_word]
    simp [wordsOf]
  | case3 sum =>
    have hs := sum.toNat_lt
    simp only [wordsOf, List.sum_nil, Nat.add_zero]
    omega

/-- The carry loop leaves what the sum comes out as. -/
theorem toNat_cksumFold (sum : UInt32) :
    (cksumFold 2 sum).toNat = endAround 0xffff sum.toNat := by
  have keeps : ∀ (fuel : Nat) (sum : UInt32),
      endAround 0xffff (cksumFold fuel sum).toNat = endAround 0xffff sum.toNat := by
    intro fuel
    induction fuel with
    | zero =>
      intro sum
      rfl
    | succ fuel ih =>
      intro sum
      rw [cksumFold]
      split
      · rw [ih, toNat_fold_turn]
        exact endAround_div_add_mod
      · rfl
  rw [← keeps 2 sum, endAround_of_le (cksumFold_le sum)]

/-- The value of the two bytes `cksum` stands for. -/
def checkValue (data : List UInt8) : UInt16 :=
  UInt16.ofNat (checkWord 0xffff (wordsOf data).sum)

theorem toNat_checkValue (data : List UInt8) :
    (checkValue data).toNat = checkWord 0xffff (wordsOf data).sum := by
  have small : checkWord 0xffff (wordsOf data).sum ≤ 0xffff := checkWord_le
  rw [checkValue, UInt16.toNat_ofNat']
  omega

theorem htons_eq_zero_iff (e : Endian) (x : UInt16) : htons e x = 0 ↔ x = 0 := by
  have zero : be16 (0 : UInt16) = memU16 e 0 := by cases e <;> decide
  constructor
  · intro h
    have bytes : be16 x = be16 0 := by rw [← memU16_htons e, h, zero]
    rw [← ofBe16_be16 x, bytes, ofBe16_be16]
  · rintro rfl
    cases e <;> decide

/-- `cksum` in memory: the check word, most significant byte first. -/
theorem memU16_cksum (e : Endian) {data : List UInt8} (short : data.length ≤ 131074) :
    memU16 e (cksum e data) = be16 (checkValue data) := by
  have hsum := sum_wordsOf_lt short
  have total : (cksumSum 0 data).toNat = (wordsOf data).sum := by
    rw [toNat_cksumSum, show (0 : UInt32).toNat = 0 from rfl, Nat.zero_add]
    exact Nat.mod_eq_of_lt hsum
  have low : endAround 0xffff (wordsOf data).sum ≤ 0xffff := endAround_le (by decide)
  have complement : (~~~ (cksumFold 2 (cksumSum 0 data))).toUInt16.toNat =
      0xffff - endAround 0xffff (wordsOf data).sum := by
    rw [UInt32.toNat_toUInt16, UInt32.toNat_not, toNat_cksumFold, total]
    show (4294967296 - 1 - _) % 65536 = _
    omega
  have spelled := toNat_checkValue data
  rw [checkWord, ← complement] at spelled
  unfold cksum
  generalize (~~~ (cksumFold 2 (cksumSum 0 data))).toUInt16 = value at *
  by_cases zero : value = 0
  · have full : checkValue data = 0xffff := by
      rw [zero, UInt16.toNat_zero, if_pos rfl] at spelled
      exact UInt16.toNat_inj.mp spelled
    rw [full, if_pos ((htons_eq_zero_iff e value).mpr zero)]
    cases e <;> decide
  · have same : checkValue data = value := by
      have nonzero : value.toNat ≠ 0 := fun h => zero (UInt16.toNat_inj.mp h)
      rw [if_neg nonzero] at spelled
      exact UInt16.toNat_inj.mp spelled
    rw [same, if_neg (fun h => zero ((htons_eq_zero_iff e value).mp h)), memU16_htons]

/-! ## Checking a sum -/

theorem wordsOf_two {bs : List UInt8} (size : bs.length = 2) :
    wordsOf bs = [(ofBe16 bs).toNat] := by
  obtain ⟨a, b, rfl⟩ := List.length_eq_two.mp size
  have ha := a.toNat_lt
  have hb := b.toNat_lt
  simp only [wordsOf, ofBe16, UInt16.toNat_ofNat', List.cons.injEq, and_true]
  omega

/-- `cksum` never gives 0. -/
theorem cksum_ne_zero (e : Endian) (data : List UInt8) : cksum e data ≠ 0 := by
  rw [cksum]
  split
  · decide
  · assumption

/-- The checksum of a message that adds up to 0xffff as it is. -/
theorem cksum_of_sum (e : Endian) {data : List UInt8} (short : data.length ≤ 131074)
    (sum : onesSum 0xffff (wordsOf data) = 0xffff) : cksum e data = 0xffff := by
  have full : checkValue data = 0xffff := by
    rw [onesSum_eq (by decide) (wordsOf_le data)] at sum
    rw [checkValue, checkWord, sum]
    rfl
  have bytes := memU16_cksum e short
  rw [full] at bytes
  rw [← ofMem16_memU16 e (cksum e data), bytes]
  cases e <;> decide

section Field

variable (e : Endian) {before after : List UInt8}

/-- The words of a message with a checksum field add up to the rest and the
field. -/
theorem sum_words_field (even : before.length % 2 = 0) (s : UInt16) :
    (wordsOf (before ++ memU16 e s ++ after)).sum =
      (wordsOf before).sum + (wordsOf after).sum + (ofBe16 (memU16 e s)).toNat := by
  have size := length_memU16 e s
  rw [wordsOf_append (by rw [List.length_append, size]; omega), wordsOf_append even,
    wordsOf_two size, List.sum_append, List.sum_append, List.sum_singleton]
  omega

/-- The sum of a message comes out as 0xffff if the checksum field holds the
checksum, and no other value but 0 does as well. -/
theorem onesSum_field_iff (even : before.length % 2 = 0)
    (short : before.length + 2 + after.length ≤ 131074) (s : UInt16) :
    onesSum 0xffff (wordsOf (before ++ memU16 e s ++ after)) = 0xffff ↔
      s = cksum e (before ++ memU16 e 0 ++ after) ∨
        s = 0 ∧ onesSum 0xffff (wordsOf (before ++ memU16 e 0 ++ after)) = 0xffff := by
  have none : ofBe16 (memU16 e 0) = 0 := by cases e <;> decide
  have rest : (wordsOf (before ++ memU16 e 0 ++ after)).sum =
      (wordsOf before).sum + (wordsOf after).sum := by
    rw [sum_words_field e even 0, none, UInt16.toNat_zero, Nat.add_zero]
  by_cases zero : s = 0
  · rw [zero]
    exact ⟨fun h => .inr ⟨rfl, h⟩, fun h => h.elim (fun h => absurd h.symm (cksum_ne_zero e _))
      And.right⟩
  · have pos : 0 < (ofBe16 (memU16 e s)).toNat := by
      by_contra empty
      have : ofBe16 (memU16 e s) = 0 := UInt16.toNat_inj.mp (Nat.eq_zero_of_not_pos empty)
      have bytes : memU16 e s = memU16 e 0 := by
        rw [← be16_ofBe16 (length_memU16 e s), ← be16_ofBe16 (length_memU16 e 0), this, none]
      exact zero (by rw [← ofMem16_memU16 e s, bytes, ofMem16_memU16])
    have low : (ofBe16 (memU16 e s)).toNat ≤ 0xffff := Nat.le_of_lt_succ (UInt16.toNat_lt _)
    have computed : memU16 e (cksum e (before ++ memU16 e 0 ++ after)) =
        be16 (checkValue (before ++ memU16 e 0 ++ after)) := by
      refine memU16_cksum e ?_
      rw [List.length_append, List.length_append, length_memU16]
      exact short
    rw [onesSum_eq (by decide) (wordsOf_le _), sum_words_field e even s,
      endAround_add_eq_iff (by decide) pos low, ← rest, ← toNat_checkValue, UInt16.toNat_inj]
    constructor
    · intro same
      refine .inl ?_
      rw [← ofMem16_memU16 e s, ← be16_ofBe16 (length_memU16 e s), same, ← computed,
        ofMem16_memU16]
    · intro held
      have same := held.resolve_right fun h => zero h.1
      rw [same, computed, ofBe16_be16]

end Field

/-! ## Changing a byte -/

/-- What a byte counts in the sum of the words. -/
theorem sum_words_byte (before after : List UInt8) (b : UInt8) :
    (wordsOf (before ++ b :: after)).sum =
      (wordsOf (before ++ 0 :: after)).sum +
        b.toNat * if before.length % 2 = 0 then 256 else 1 := by
  fun_induction wordsOf before with
  | case1 x y before ih =>
    have parity : (before.length + 1 + 1) % 2 = before.length % 2 := by omega
    simp only [List.cons_append, wordsOf, List.sum_cons, ih, List.length_cons, parity,
      Nat.add_assoc]
  | case2 x =>
    simp only [List.singleton_append, wordsOf, List.sum_cons, List.length_singleton,
      UInt8.toNat_zero]
    rw [if_neg (by decide)]
    omega
  | case3 =>
    rw [List.nil_append, List.nil_append, List.length_nil, if_pos rfl]
    cases after with
    | nil => simp [wordsOf]
    | cons x after =>
      simp only [wordsOf, List.sum_cons, UInt8.toNat_zero]
      omega

/-- A checksum shows every change of one byte. -/
theorem cksum_ne_of_byte_ne (e : Endian) {before after : List UInt8} {b b' : UInt8}
    (short : before.length + 1 + after.length ≤ 131074) (differ : b ≠ b') :
    cksum e (before ++ b :: after) ≠ cksum e (before ++ b' :: after) := by
  have size : ∀ c : UInt8, (before ++ c :: after).length ≤ 131074 := by
    intro c
    rw [List.length_append, List.length_cons]
    omega
  have apart : ∀ c c' : UInt8, c.toNat < c'.toNat →
      checkValue (before ++ c :: after) ≠ checkValue (before ++ c' :: after) := by
    intro c c' less same
    rw [← UInt16.toNat_inj, toNat_checkValue, toNat_checkValue, sum_words_byte before after c,
      sum_words_byte before after c'] at same
    have high := c'.toNat_lt
    revert same
    split
    · exact checkWord_ne (by omega) (by omega)
    · exact checkWord_ne (by omega) (by omega)
  intro same
  have values : checkValue (before ++ b :: after) = checkValue (before ++ b' :: after) := by
    rw [← ofBe16_be16 (checkValue (before ++ b :: after)), ← memU16_cksum e (size b), same,
      memU16_cksum e (size b'), ofBe16_be16]
  rcases Nat.lt_or_gt_of_ne (mt UInt8.toNat_inj.mp differ) with less | greater
  · exact apart b b' less values
  · exact apart b' b greater values.symm

end NetLabs

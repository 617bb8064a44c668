/-
NetLabs.ChecksumLoops — `cksum` as its two loops.

`lab3/ctcp_utils.c` counts `len` down in a `uint16_t`, `lab1/router/sr_utils.c`
in an `int`; `Counts` is what the loop needs of such a type. Both loops end,
and the value they leave is that of `cksum` in `Checksum` (`cksumLoops_eq`). So
the result is the complement of the one's-complement sum of the data, and
stored in a field that was zero it makes the sum come out as 0xffff
(`cksum_correct`).
-/
import NetLabs.Checksum
import NetLabs.Lib.Access
import NetLabs.Lib.While

namespace NetLabs

open NetLabs.Lib

/-! ## The loops -/

/-- The variables of the summation loop; `data` is a pointer into the data. -/
structure Summing (L : Type) where
  data : List UInt8
  len : L
  sum : UInt32

section

variable {L : Type} [LE L] [DecidableLE L] [LT L] [DecidableLT L] [Sub L] [OfNat L 0] [OfNat L 2]

/-- `sum += (data[0] << 8) | data[1]`, `data += 2, len -= 2` -/
def addWord (s : Summing L) : Fueled Stop (Summing L) :=
  match s.data with
  | a :: b :: rest => some (.ok ⟨rest, s.len - 2, s.sum + (a.toUInt32 <<< 8 ||| b.toUInt32)⟩)
  | _ => some (.error .outOfBounds)

/-- `if (len > 0) sum += data[0] << 8` -/
def addLast (s : Summing L) : Fueled Stop UInt32 :=
  if 0 < s.len then
    match s.data with
    | a :: _ => some (.ok (s.sum + a.toUInt32 <<< 8))
    | [] => some (.error .outOfBounds)
  else some (.ok s.sum)

/-- `while (sum > 0xffff) sum = (sum >> 16) + (sum & 0xffff)` -/
def carryLoop (fuel : Nat) : UInt32 → Fueled Stop UInt32 :=
  whileLoop (· > 0xffff) (fun sum => some (.ok ((sum >>> 16) + (sum &&& 0xffff)))) fuel

/-- `cksum(data, len)`, for either type of `len`. -/
def cksumLoops (e : Endian) (data : List UInt8) (len : L) (fuel : Nat) : Fueled Stop UInt16 :=
  Fueled.bind (whileLoop (2 ≤ ·.len) addWord fuel ⟨data, len, 0⟩) fun s =>
    Fueled.bind (addLast s) fun sum =>
      Fueled.bind (carryLoop fuel sum) fun sum =>
        let sum := htons e (~~~ sum).toUInt16
        some (.ok (if sum = 0 then 0xffff else sum))

end

/-- `uint16_t cksum(const void *_data, uint16_t len)` -/
def Lab3.cksum (e : Endian) (data : List UInt8) (len : UInt16) (fuel : Nat) : Fueled Stop UInt16 :=
  cksumLoops e data len fuel

/-- `uint16_t cksum(const void *_data, int len)` -/
def Lab1.cksum (e : Endian) (data : List UInt8) (len : Int32) (fuel : Nat) : Fueled Stop UInt16 :=
  cksumLoops e data len fuel

/-! ## Counting down -/

/-- Lengths up to `bound` are counted down in `L` as they should be. -/
structure Counts {L : Type} [LE L] [LT L] [Sub L] [OfNat L 0] [OfNat L 2] (value : Nat → L)
    (bound : Nat) : Prop where
  two_le : ∀ n ≤ bound, 2 ≤ value n ↔ 2 ≤ n
  pos : ∀ n ≤ bound, 0 < value n ↔ 0 < n
  sub_two : ∀ n ≤ bound, 2 ≤ n → value n - 2 = value (n - 2)

theorem counts_uint16 : Counts UInt16.ofNat 65535 where
  two_le n small := by
    rw [UInt16.le_iff_toNat_le, UInt16.toNat_ofNat']
    simp only [UInt16.reduceToNat]
    omega
  pos n small := by
    rw [UInt16.lt_iff_toNat_lt, UInt16.toNat_ofNat']
    simp only [UInt16.reduceToNat]
    omega
  sub_two n small two := by
    rw [← UInt16.toNat_inj, UInt16.toNat_sub, UInt16.toNat_ofNat', UInt16.toNat_ofNat']
    simp only [UInt16.reduceToNat]
    omega

theorem counts_int32 : Counts Int32.ofNat 2147483647 where
  two_le n small := by
    have two : (2 : Int32).toInt = 2 := by decide
    rw [Int32.le_iff_toInt_le, Int32.toInt_ofNat_of_lt (by omega), two]
    omega
  pos n small := by
    have zero : (0 : Int32).toInt = 0 := by decide
    rw [Int32.lt_iff_toInt_lt, Int32.toInt_ofNat_of_lt (by omega), zero]
    omega
  sub_two n small two := by
    have minus : (2 : Int32).toInt = 2 := by decide
    rw [← Int32.toInt_inj, Int32.toInt_sub, Int32.toInt_ofNat_of_lt (by omega),
      Int32.toInt_ofNat_of_lt (by omega), minus, Int.bmod_def]
    omega

/-! ## The value -/

section

variable {L : Type} [LE L] [DecidableLE L] [LT L] [DecidableLT L] [Sub L] [OfNat L 0] [OfNat L 2]
  {value : Nat → L} {bound : Nat}

/-- The summation loop ends, and has added up the words. -/
theorem sumLoop_eq (counts : Counts value bound) {data : List UInt8} (short : data.length ≤ bound)
    (fuel : Nat) (enough : data.length < fuel) :
    Fueled.bind (whileLoop (2 ≤ ·.len) addWord fuel ⟨data, value data.length, 0⟩) addLast =
      some (.ok (cksumSum 0 data)) := by
  let Inv (s : Summing L) : Prop := ∃ rest sum, s = ⟨rest, value rest.length, sum⟩ ∧
    rest.length ≤ bound ∧ cksumSum sum rest = cksumSum 0 data
  have loop : ∃ r, whileLoop (2 ≤ ·.len) addWord fuel ⟨data, value data.length, 0⟩ = some r ∧
      Ends (fun _ => False) (fun s => Inv s ∧ s.data.length < 2) r := by
    refine whileLoop_total Inv (fun s => s.data.length) ?_ ?_ ⟨data, 0, rfl, short, rfl⟩ enough
    · rintro _ ⟨rest, sum, rfl, small, same⟩ more
      have two : 2 ≤ rest.length := (counts.two_le _ small).mp more
      match rest, two with
      | a :: b :: rest, two =>
        have shorter : rest.length < (a :: b :: rest).length :=
          Nat.lt_add_of_pos_right (k := 2) (by decide)
        have next : value (a :: b :: rest).length - 2 = value rest.length :=
          counts.sub_two _ small two
        refine ⟨_, rfl, ⟨rest, _, ?_, Nat.le_trans (Nat.le_of_lt shorter) small, same⟩, shorter⟩
        exact congrArg (Summing.mk rest · _) next
    · rintro _ ⟨rest, sum, rfl, small, same⟩ less
      exact ⟨⟨rest, sum, rfl, small, same⟩,
        Nat.lt_of_not_le (mt (counts.two_le _ small).mpr less)⟩
  obtain ⟨r, run, ended⟩ := loop
  rw [run]
  cases r with
  | error e => exact ended.elim
  | ok s =>
    obtain ⟨⟨rest, sum, rfl, small, same⟩, few⟩ := ended
    show addLast _ = _
    rw [addLast, ← same]
    match rest, few with
    | [], _ => exact if_neg (mt (counts.pos 0 (Nat.zero_le _)).mp (Nat.lt_irrefl 0))
    | [a], _ => exact if_pos ((counts.pos 1 small).mpr Nat.one_pos)

/-- The carry loop ends, and two turns are enough. -/
theorem carryLoop_eq (sum : UInt32) {fuel : Nat} (enough : 2 < fuel) :
    carryLoop fuel sum = some (.ok (cksumFold 2 sum)) := by
  obtain ⟨fuel, rfl⟩ := Nat.exists_eq_add_of_lt enough
  have last := cksumFold_le sum
  have done : ∀ s : UInt32, s.toNat ≤ 0xffff → ¬ s > 0xffff := by
    intro s small
    rw [gt_iff_lt, UInt32.lt_iff_toNat_lt]
    simpa using small
  have turn : ∀ (fuel : Nat) (s : UInt32), s > 0xffff →
      carryLoop (fuel + 1) s = carryLoop fuel ((s >>> 16) + (s &&& 0xffff)) :=
    fun _ _ test => whileLoop_turn test rfl
  have stays : ∀ (fuel : Nat) (s : UInt32), ¬ s > 0xffff →
      carryLoop (fuel + 1) s = some (.ok s) := fun _ _ test => whileLoop_exit test
  rw [show 2 + fuel + 1 = fuel + 1 + 1 + 1 by omega]
  rw [cksumFold, cksumFold, cksumFold] at last ⊢
  by_cases first : sum > 0xffff
  · rw [if_pos first] at last ⊢
    rw [turn _ _ first]
    by_cases second : (sum >>> 16) + (sum &&& 0xffff) > 0xffff
    · rw [if_pos second] at last ⊢
      rw [turn _ _ second, stays _ _ (done _ last)]
    · rw [if_neg second, stays _ _ second]
  · rw [if_neg first, stays _ _ first]

/-- The loops end, and return what `cksum` of `Checksum` is. -/
theorem cksumLoops_eq (e : Endian) (counts : Counts value bound) {data : List UInt8}
    (short : data.length ≤ bound) {fuel : Nat} (enough : data.length + 2 < fuel) :
    cksumLoops e data (value data.length) fuel = some (.ok (cksum e data)) := by
  have sum := sumLoop_eq counts short fuel (by omega)
  rw [cksumLoops, ← Fueled.bind_bind, sum]
  show Fueled.bind (carryLoop fuel (cksumSum 0 data)) _ = _
  rw [carryLoop_eq _ (by omega)]
  rfl

end

/-! ## What the value is for -/

/-- The complement of a sum, with 0 replaced by 0xffff. -/
def complement (sum : Nat) : Nat := if 0xffff - sum = 0 then 0xffff else 0xffff - sum

/-- No addition of the loops overflows: `sum` is the total of the words so far,
and what a carry turn adds up fits. -/
structure Exact32 (data : List UInt8) : Prop where
  words : ∀ n, (cksumSum 0 (data.take n)).toNat = (wordsOf (data.take n)).sum
  carry : ∀ sum : UInt32, ((sum >>> 16) + (sum &&& 0xffff)).toNat =
    (sum >>> 16).toNat + (sum &&& 0xffff).toNat

theorem exact32 {data : List UInt8} (short : data.length ≤ 131074) : Exact32 data where
  words n := by
    have few : (data.take n).length ≤ 131074 := Nat.le_trans (List.length_take_le' n data) short
    rw [toNat_cksumSum, UInt32.toNat_zero, Nat.zero_add]
    exact Nat.mod_eq_of_lt (sum_wordsOf_lt few)
  carry sum := by
    have high : (sum >>> 16).toNat = sum.toNat / 65536 := by
      simp [UInt32.toNat_shiftRight, Nat.shiftRight_eq_div_pow]
    have low : (sum &&& 0xffff).toNat = sum.toNat % 65536 := by
      rw [UInt32.toNat_and]
      exact Nat.and_two_pow_sub_one_eq_mod sum.toNat 16
    rw [toNat_fold_turn, high, low]

theorem checkValue_eq (data : List UInt8) :
    checkValue data = UInt16.ofNat (complement (onesSum 0xffff (wordsOf data))) := by
  rw [checkValue, checkWord, onesSum_eq (by decide) (wordsOf_le data), complement]

/-- Both implementations of `cksum` return the complement of the
one's-complement sum of the data, in network order. Stored in a field that is
zero it makes the sum of the data 0xffff. -/
theorem cksum_correct (e : Endian) {data : List UInt8} (short : data.length ≤ 65535) :
    ∃ r : UInt16,
      (∃ n, ∀ fuel ≥ n, Lab3.cksum e data (.ofNat data.length) fuel = some (.ok r) ∧
        Lab1.cksum e data (.ofNat data.length) fuel = some (.ok r)) ∧
      memU16 e r = be16 (.ofNat (complement (onesSum 0xffff (wordsOf data)))) ∧
      Exact32 data ∧
      ∀ before after, data = before ++ [0, 0] ++ after → before.length % 2 = 0 →
        onesSum 0xffff (wordsOf (before ++ memU16 e r ++ after)) = 0xffff := by
  refine ⟨cksum e data, ⟨data.length + 3, fun fuel enough => ⟨?_, ?_⟩⟩, ?_,
    exact32 (by omega), ?_⟩
  · exact cksumLoops_eq e counts_uint16 short enough
  · exact cksumLoops_eq e counts_int32 (by omega) enough
  · rw [memU16_cksum e (by omega), checkValue_eq]
  · rintro before after rfl even
    have zero : memU16 e 0 = [0, 0] := by cases e <;> decide
    have size : before.length + 2 + after.length ≤ 131074 := by
      simp only [List.length_append, List.length_cons, List.length_nil] at short
      omega
    refine (onesSum_field_iff e even size _).mpr (.inl ?_)
    rw [zero]

theorem cksum_correct_three :
    ∃ r : UInt16,
      (∃ n, ∀ fuel ≥ n, Lab3.cksum .little [0, 0, 7] 3 fuel = some (.ok r) ∧
        Lab1.cksum .little [0, 0, 7] 3 fuel = some (.ok r)) ∧
      memU16 .little r = be16 (.ofNat (complement (onesSum 0xffff (wordsOf [0, 0, 7])))) ∧
      Exact32 [0, 0, 7] ∧
      ∀ before after, [0, 0, 7] = before ++ [0, 0] ++ after → before.length % 2 = 0 →
        onesSum 0xffff (wordsOf (before ++ memU16 .little r ++ after)) = 0xffff :=
  have short : [0, 0, (7 : UInt8)].length ≤ 65535 := by decide
  cksum_correct .little short

end NetLabs

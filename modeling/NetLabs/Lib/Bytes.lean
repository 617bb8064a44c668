/-
NetLabs.Lib.Bytes — byte order and byte buffers.

Two things every wire format in C needs. `Endian` is the byte order of the
host: `memU16` and `memU32` are the bytes an integer variable occupies in
memory there, `ofMem16` reads a variable back, and `htons` is the conversion to
network order.

`slice` and `put` read and overwrite a field of a buffer, as `memcpy` from or
into the middle of it does. A `put` inside the buffer leaves its length and
every disjoint field alone (`length_put`, `getElem?_put`, `put_comm`). `peek`
is a read that may run over the end of the buffer, into bytes it is given.

The integer codecs are written with `/` and `*` rather than with shifts, so
that their round trips are linear arithmetic.
-/
import Mathlib.Data.List.Basic

namespace NetLabs.Lib

/-! ## Big-endian integers -/

/-- The bytes of a 16-bit integer, most significant first. -/
def be16 (x : UInt16) : List UInt8 :=
  [UInt8.ofNat (x.toNat / 256), UInt8.ofNat x.toNat]

/-- The bytes of a 32-bit integer, most significant first. -/
def be32 (x : UInt32) : List UInt8 :=
  [UInt8.ofNat (x.toNat / 16777216), UInt8.ofNat (x.toNat / 65536),
   UInt8.ofNat (x.toNat / 256), UInt8.ofNat x.toNat]

/-- The 16-bit integer stored most significant byte first; 0 for a field of
another size. -/
def ofBe16 : List UInt8 → UInt16
  | [a, b] => UInt16.ofNat (a.toNat * 256 + b.toNat)
  | _ => 0

/-- The 32-bit integer stored most significant byte first; 0 for a field of
another size. -/
def ofBe32 : List UInt8 → UInt32
  | [a, b, c, d] =>
      UInt32.ofNat (((a.toNat * 256 + b.toNat) * 256 + c.toNat) * 256 + d.toNat)
  | _ => 0

@[simp] theorem length_be16 (x : UInt16) : (be16 x).length = 2 := rfl

@[simp] theorem length_be32 (x : UInt32) : (be32 x).length = 4 := rfl

@[simp] theorem ofBe16_be16 (x : UInt16) : ofBe16 (be16 x) = x := by
  apply UInt16.toNat_inj.mp
  have hx := x.toNat_lt
  simp only [be16, ofBe16, UInt16.toNat_ofNat', UInt8.toNat_ofNat']
  omega

@[simp] theorem ofBe32_be32 (x : UInt32) : ofBe32 (be32 x) = x := by
  apply UInt32.toNat_inj.mp
  have hx := x.toNat_lt
  simp only [be32, ofBe32, UInt32.toNat_ofNat', UInt8.toNat_ofNat']
  omega

/-- A two-byte field is the big-endian form of what it reads as. -/
theorem be16_ofBe16 {bs : List UInt8} (size : bs.length = 2) : be16 (ofBe16 bs) = bs := by
  obtain ⟨a, b, rfl⟩ := List.length_eq_two.mp size
  have ha := a.toNat_lt
  have hb := b.toNat_lt
  have value : (ofBe16 [a, b]).toNat = a.toNat * 256 + b.toNat := by
    simp only [ofBe16, UInt16.toNat_ofNat']
    omega
  simp only [be16, value, List.cons.injEq, and_true, ← UInt8.toNat_inj, UInt8.toNat_ofNat']
  omega

/-- A four-byte field is the big-endian form of what it reads as. -/
theorem be32_ofBe32 {bs : List UInt8} (size : bs.length = 4) : be32 (ofBe32 bs) = bs := by
  match bs, size with
  | [a, b, c, d], _ =>
    have ha := a.toNat_lt
    have hb := b.toNat_lt
    have hc := c.toNat_lt
    have hd := d.toNat_lt
    have value : (ofBe32 [a, b, c, d]).toNat =
        ((a.toNat * 256 + b.toNat) * 256 + c.toNat) * 256 + d.toNat := by
      simp only [ofBe32, UInt32.toNat_ofNat']
      omega
    simp only [be32, value, List.cons.injEq, and_true, ← UInt8.toNat_inj, UInt8.toNat_ofNat']
    omega

/-! ## Host byte order -/

/-- The byte order of the host. -/
inductive Endian where
  | little
  | big
  deriving DecidableEq, Repr

/-- The two bytes of a 16-bit integer exchanged. -/
def swap16 (x : UInt16) : UInt16 :=
  UInt16.ofNat (x.toNat % 256 * 256 + x.toNat / 256)

/-- `htons` and `ntohs`, which are one function. -/
def htons : Endian → UInt16 → UInt16
  | .little, x => swap16 x
  | .big, x => x

/-- The bytes a 16-bit integer variable occupies in memory. -/
def memU16 : Endian → UInt16 → List UInt8
  | .little, x => (be16 x).reverse
  | .big, x => be16 x

/-- The bytes a 32-bit integer variable occupies in memory. -/
def memU32 : Endian → UInt32 → List UInt8
  | .little, x => (be32 x).reverse
  | .big, x => be32 x

/-- The 16-bit integer a two-byte memory cell holds. -/
def ofMem16 : Endian → List UInt8 → UInt16
  | .little, bs => ofBe16 bs.reverse
  | .big, bs => ofBe16 bs

theorem memU16_ofMem16 (e : Endian) {bs : List UInt8} (size : bs.length = 2) :
    memU16 e (ofMem16 e bs) = bs := by
  cases e with
  | big => exact be16_ofBe16 size
  | little =>
    rw [memU16, ofMem16, be16_ofBe16 (by rw [List.length_reverse, size]), List.reverse_reverse]

@[simp] theorem length_memU16 (e : Endian) (x : UInt16) : (memU16 e x).length = 2 := by
  cases e <;> simp [memU16]

@[simp] theorem length_memU32 (e : Endian) (x : UInt32) : (memU32 e x).length = 4 := by
  cases e <;> simp [memU32]

@[simp] theorem ofMem16_memU16 (e : Endian) (x : UInt16) : ofMem16 e (memU16 e x) = x := by
  cases e <;> simp [ofMem16, memU16]

/-- A variable in network order is stored most significant byte first. -/
theorem memU16_htons (e : Endian) (x : UInt16) : memU16 e (htons e x) = be16 x := by
  cases e with
  | big => rfl
  | little =>
    have high : x.toNat / 256 < 256 := by
      have hx := x.toNat_lt
      omega
    have low : x.toNat % 256 < 256 := Nat.mod_lt _ (by decide)
    have value : (swap16 x).toNat = x.toNat % 256 * 256 + x.toNat / 256 := by
      rw [swap16, UInt16.toNat_ofNat']
      omega
    have upper : (x.toNat % 256 * 256 + x.toNat / 256) / 256 = x.toNat % 256 := by omega
    simp only [htons, memU16, be16, value, upper, List.reverse_cons, List.reverse_nil,
      List.nil_append, List.singleton_append, List.cons.injEq, and_true, ← UInt8.toNat_inj,
      UInt8.toNat_ofNat']
    omega

theorem ofMem16_inj (e : Endian) {bs bs' : List UInt8} (size : bs.length = 2)
    (size' : bs'.length = 2) : ofMem16 e bs = ofMem16 e bs' ↔ bs = bs' := by
  constructor
  · intro same
    rw [← memU16_ofMem16 e size, ← memU16_ofMem16 e size', same]
  · rintro rfl
    rfl

/-! ## Fields of a buffer -/

/-- The `n` bytes at offset `off`. -/
def slice (buf : List UInt8) (off n : Nat) : List UInt8 :=
  (buf.drop off).take n

/-- The buffer with the bytes at offset `off` overwritten. -/
def put (buf : List UInt8) (off : Nat) (bs : List UInt8) : List UInt8 :=
  buf.take off ++ bs ++ buf.drop (off + bs.length)

theorem length_slice {buf : List UInt8} {off n : Nat} (h : off + n ≤ buf.length) :
    (slice buf off n).length = n := by
  simp only [slice, List.length_take, List.length_drop]
  omega

theorem length_put {buf bs : List UInt8} {off : Nat} (h : off + bs.length ≤ buf.length) :
    (put buf off bs).length = buf.length := by
  simp only [put, List.length_append, List.length_take, List.length_drop]
  omega

/-- The overwritten field holds what was written. -/
theorem slice_put {buf bs : List UInt8} {off : Nat} (h : off ≤ buf.length) :
    slice (put buf off bs) off bs.length = bs := by
  have hlen : (buf.take off).length = off := by simp [h]
  rw [slice, put, List.append_assoc, List.drop_left' hlen, List.take_left' rfl]

/-- Overwriting the middle one of three parts. -/
theorem put_middle {as bs cs new : List UInt8} {off : Nat} (hoff : off = as.length)
    (hlen : new.length = bs.length) : put (as ++ bs ++ cs) off new = as ++ new ++ cs := by
  subst hoff
  rw [put, hlen, ← List.length_append, List.drop_left, List.append_assoc as bs cs, List.take_left]

/-- Overwriting the last of two parts. -/
theorem put_end {as bs new : List UInt8} {off : Nat} (hoff : off = as.length)
    (hlen : new.length = bs.length) : put (as ++ bs) off new = as ++ new := by
  rw [← List.append_nil (as ++ bs), put_middle hoff hlen, List.append_nil]

/-- Writing back what was there changes nothing. -/
theorem put_slice {buf : List UInt8} {off n : Nat} (h : off + n ≤ buf.length) :
    put buf off (slice buf off n) = buf := by
  rw [put, length_slice h, slice, List.append_assoc, ← List.drop_drop, List.take_append_drop,
    List.take_append_drop]

/-- The `n` bytes at offset `off`, where `beyond` is what stands behind the
end of the buffer. -/
def peek (beyond : Nat → UInt8) (buf : List UInt8) (off n : Nat) : List UInt8 :=
  (List.range n).map fun i => buf.getD (off + i) (beyond (off + i))

@[simp] theorem length_peek (beyond : Nat → UInt8) (buf : List UInt8) (off n : Nat) :
    (peek beyond buf off n).length = n := by
  simp [peek]

/-- The bytes outside the overwritten field are the old ones. -/
theorem getElem?_put {buf bs : List UInt8} {off i : Nat} (apart : i < off ∨ off + bs.length ≤ i)
    (h : off + bs.length ≤ buf.length) : (put buf off bs)[i]? = buf[i]? := by
  have hlen : (buf.take off).length = off := by simp only [List.length_take]; omega
  rw [put, List.append_assoc]
  rcases apart with before | after
  · rw [List.getElem?_append_left (by omega), List.getElem?_take_of_lt before]
  · rw [List.getElem?_append_right (by omega), List.getElem?_append_right (by omega), hlen,
      List.getElem?_drop]
    congr 1
    omega

/-- The bytes of the overwritten field are the new ones. -/
theorem getElem?_put_inside {buf bs : List UInt8} {off i : Nat} (low : off ≤ i)
    (high : i < off + bs.length) (h : off + bs.length ≤ buf.length) :
    (put buf off bs)[i]? = bs[i - off]? := by
  have hlen : (buf.take off).length = off := by simp only [List.length_take]; omega
  rw [put, List.append_assoc, List.getElem?_append_right (by omega), hlen,
    List.getElem?_append_left (by omega)]

/-- The last of two writes to a field counts. -/
theorem put_put {buf bs bs' : List UInt8} {off : Nat} (size : bs'.length = bs.length)
    (h : off + bs.length ≤ buf.length) : put (put buf off bs) off bs' = put buf off bs' := by
  apply List.ext_getElem?
  intro i
  have h' : off + bs'.length ≤ (put buf off bs).length := by rw [length_put h]; omega
  by_cases inside : off ≤ i ∧ i < off + bs'.length
  · rw [getElem?_put_inside inside.1 inside.2 h', getElem?_put_inside inside.1 inside.2 (by omega)]
  · rw [getElem?_put (by omega) h', getElem?_put (by omega) h, getElem?_put (by omega) (by omega)]

/-- A write inside of the field that is overwritten next is lost. -/
theorem put_covered {buf bs bs' : List UInt8} {off off' : Nat} (low : off' ≤ off)
    (high : off + bs.length ≤ off' + bs'.length) (h : off' + bs'.length ≤ buf.length) :
    put (put buf off bs) off' bs' = put buf off' bs' := by
  apply List.ext_getElem?
  intro i
  have h' : off + bs.length ≤ buf.length := Nat.le_trans high h
  have h'' : off' + bs'.length ≤ (put buf off bs).length := by rwa [length_put h']
  by_cases inside : off' ≤ i ∧ i < off' + bs'.length
  · rw [getElem?_put_inside inside.1 inside.2 h'', getElem?_put_inside inside.1 inside.2 h]
  · rw [getElem?_put (by omega) h'', getElem?_put (by omega) h', getElem?_put (by omega) h]

theorem getElem?_slice {buf : List UInt8} {off n i : Nat} (h : i < n) :
    (slice buf off n)[i]? = buf[off + i]? := by
  rw [slice, List.getElem?_take_of_lt h, List.getElem?_drop]

/-- A field that a write misses. -/
theorem slice_put_apart {buf bs : List UInt8} {off off' n : Nat}
    (apart : off' + n ≤ off ∨ off + bs.length ≤ off') (h : off + bs.length ≤ buf.length) :
    slice (put buf off bs) off' n = slice buf off' n := by
  apply List.ext_getElem?
  intro i
  by_cases inside : i < n
  · rw [getElem?_slice inside, getElem?_slice inside, getElem?_put (by omega) h]
  · rw [List.getElem?_eq_none (by rw [slice, List.length_take]; omega),
      List.getElem?_eq_none (by rw [slice, List.length_take]; omega)]

/-- Writes to disjoint fields commute. -/
theorem put_comm {buf bs bs' : List UInt8} {off off' : Nat} (apart : off + bs.length ≤ off')
    (h : off' + bs'.length ≤ buf.length) :
    put (put buf off bs) off' bs' = put (put buf off' bs') off bs := by
  apply List.ext_getElem?
  intro i
  have h1 : off + bs.length ≤ buf.length := by omega
  have h2 : off + bs.length ≤ (put buf off' bs').length := by rw [length_put h]; omega
  have h3 : off' + bs'.length ≤ (put buf off bs).length := by rw [length_put h1]; omega
  by_cases first : off ≤ i ∧ i < off + bs.length
  · rw [getElem?_put (by omega) h3, getElem?_put_inside first.1 first.2 h1,
      getElem?_put_inside first.1 first.2 h2]
  · rw [getElem?_put (by omega) h2]
    by_cases second : off' ≤ i ∧ i < off' + bs'.length
    · rw [getElem?_put_inside second.1 second.2 h3, getElem?_put_inside second.1 second.2 h]
    · rw [getElem?_put (by omega) h3, getElem?_put (by omega) h1, getElem?_put (by omega) h]

/-- A write behind the first `n` bytes is a write into the rest. -/
theorem drop_put {buf bs : List UInt8} {off n : Nat} (behind : n ≤ off) (h : off ≤ buf.length) :
    (put buf off bs).drop n = put (buf.drop n) (off - n) bs := by
  rw [put, put, List.append_assoc, List.drop_append_of_le_length (by simp; omega), List.drop_take,
    List.drop_drop, List.append_assoc]
  congr 3
  omega

/-- A read that misses the overwritten field finds what was there. -/
theorem peek_put {buf bs : List UInt8} {off off' n : Nat} (beyond : Nat → UInt8)
    (apart : off' + n ≤ off ∨ off + bs.length ≤ off') (h : off + bs.length ≤ buf.length) :
    peek beyond (put buf off bs) off' n = peek beyond buf off' n := by
  rw [peek, peek, List.map_inj_left]
  intro i hi
  have hi' := List.mem_range.mp hi
  rw [List.getD_eq_getElem?_getD, List.getD_eq_getElem?_getD, getElem?_put (by omega) h]

/-- Inside the buffer a read finds the field. -/
theorem peek_eq_slice {buf : List UInt8} {off n : Nat} (beyond : Nat → UInt8)
    (h : off + n ≤ buf.length) : peek beyond buf off n = slice buf off n := by
  apply List.ext_getElem
  · rw [length_peek, length_slice h]
  · intro i hi hi'
    rw [length_peek] at hi
    simp [peek, slice, List.getD_eq_getElem?_getD,
      List.getElem?_eq_getElem (show off + i < buf.length by omega)]

end NetLabs.Lib

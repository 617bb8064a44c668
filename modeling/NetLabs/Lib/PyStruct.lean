/-
NetLabs.Lib.PyStruct — fixed layouts of binary data, as Python's `struct`
module packs and unpacks them with the prefix `>`: big-endian, standard
sizes, nothing between two fields.

A format is a list of `Code`s. `pack` and `unpack` are partial as in Python:
a number must fit its width, a value must have the type of its code, and the
bytes to unpack must be exactly as many as the format has. A string is cut or
filled with NULs, so what `unpack` gives back for it is `pad`.

Three facts carry a format. Values that fit it can be packed
(`exists_pack`), a pack has the size of the format (`length_pack`), and
`unpack` gives back what was packed (`unpack_pack`).
-/
import NetLabs.Lib.Bytes
import Mathlib.Algebra.GroupWithZero.Nat
import Mathlib.Data.List.Forall2

namespace NetLabs.Lib.PyStruct

/-! ## Formats -/

/-- A format character. -/
inductive Code where
  /-- `B` -/
  | uint8
  /-- `H` -/
  | uint16
  /-- `I` -/
  | uint32
  /-- `ns` -/
  | chars (n : Nat)
  deriving DecidableEq, Repr

/-- What is packed: an integer or a string. -/
inductive Value where
  | num (i : Int)
  | str (s : List UInt8)
  deriving DecidableEq, Repr

def Code.size : Code → Nat
  | .uint8 => 1
  | .uint16 => 2
  | .uint32 => 4
  | .chars n => n

/-- `struct.calcsize(fmt)`. -/
def calcsize (fmt : List Code) : Nat := (fmt.map Code.size).sum

/-- A string in a field of `n` bytes. -/
def pad (n : Nat) (s : List UInt8) : List UInt8 := s.take n ++ List.replicate (n - s.length) 0

/-! ## Packing -/

def Code.pack : Code → Value → Option (List UInt8)
  | .uint8, .num i => if 0 ≤ i ∧ i < 256 then some [UInt8.ofNat i.toNat] else none
  | .uint16, .num i => if 0 ≤ i ∧ i < 65536 then some (be16 (UInt16.ofNat i.toNat)) else none
  | .uint32, .num i => if 0 ≤ i ∧ i < 4294967296 then some (be32 (UInt32.ofNat i.toNat)) else none
  | .chars n, .str s => some (pad n s)
  | _, _ => none

/-- `struct.pack(fmt, *values)`. -/
def pack : List Code → List Value → Option (List UInt8)
  | [], [] => some []
  | c :: fmt, v :: values => do
      let bs ← c.pack v
      let rest ← pack fmt values
      some (bs ++ rest)
  | _, _ => none

def Code.unpack : Code → List UInt8 → Value
  | .uint8, bs => .num (bs.headD 0).toNat
  | .uint16, bs => .num (ofBe16 bs).toNat
  | .uint32, bs => .num (ofBe32 bs).toNat
  | .chars _, bs => .str bs

/-- `struct.unpack(fmt, bs)`. -/
def unpack : List Code → List UInt8 → Option (List Value)
  | [], [] => some []
  | [], _ :: _ => none
  | c :: fmt, bs =>
      if bs.length < c.size then none
      else (unpack fmt (bs.drop c.size)).map (c.unpack (bs.take c.size) :: ·)

/-- The string at an index of what `unpack` returns. -/
def textAt (t : List Value) (i : Nat) : List UInt8 :=
  match t[i]? with
  | some (.str s) => s
  | _ => []

/-- The number at an index. -/
def numberAt (t : List Value) (i : Nat) : Int :=
  match t[i]? with
  | some (.num n) => n
  | _ => 0

/-! ## What can be packed -/

/-- The value has the type of the code, and a number fits. -/
def Code.Accepts : Code → Value → Prop
  | .uint8, .num i => 0 ≤ i ∧ i < 256
  | .uint16, .num i => 0 ≤ i ∧ i < 65536
  | .uint32, .num i => 0 ≤ i ∧ i < 4294967296
  | .chars _, .str _ => True
  | _, _ => False

theorem Code.exists_pack {c : Code} {v : Value} (h : c.Accepts v) : ∃ bs, c.pack v = some bs := by
  cases c <;> cases v <;> simp only [Code.Accepts] at h
  case chars.str n s => exact ⟨_, rfl⟩
  all_goals exact ⟨_, if_pos h⟩

/-- A list of values that fit a format can be packed. -/
theorem exists_pack {fmt : List Code} {values : List Value}
    (h : List.Forall₂ Code.Accepts fmt values) : ∃ bs, pack fmt values = some bs := by
  induction h with
  | nil => exact ⟨[], rfl⟩
  | cons accepts _ ih =>
    obtain ⟨first, hfirst⟩ := Code.exists_pack accepts
    obtain ⟨rest, hrest⟩ := ih
    refine ⟨first ++ rest, ?_⟩
    rw [pack, hfirst, hrest]
    rfl

/-! ## What is packed comes back -/

theorem length_pad (n : Nat) (s : List UInt8) : (pad n s).length = n := by
  simp only [pad, List.length_append, List.length_take, List.length_replicate]
  omega

/-- A string that fits is followed by NULs. -/
theorem pad_of_le {n : Nat} {s : List UInt8} (fits : s.length ≤ n) :
    pad n s = s ++ List.replicate (n - s.length) 0 := by
  rw [pad, List.take_of_length_le fits]

theorem pad_of_eq {n : Nat} {s : List UInt8} (fits : s.length = n) : pad n s = s := by
  rw [pad_of_le (Nat.le_of_eq fits), fits, Nat.sub_self, List.replicate_zero, List.append_nil]

theorem zero_mem_pad {n : Nat} {s : List UInt8} (room : s.length < n) : 0 ∈ pad n s := by
  rw [pad]
  apply List.mem_append_right
  rw [List.mem_replicate]
  exact ⟨by omega, rfl⟩

/-- A string without NUL is what stands before the first NUL of its field. -/
theorem takeWhile_pad {n : Nat} {s : List UInt8} (fits : s.length ≤ n) (noNul : 0 ∉ s) :
    (pad n s).takeWhile (· ≠ 0) = s := by
  have all : ∀ b ∈ s, decide (b ≠ 0) = true := by
    intro b hb
    rw [decide_eq_true_iff]
    rintro rfl
    exact noNul hb
  rw [pad_of_le fits, List.takeWhile_append_of_pos all, List.takeWhile_replicate_eq_filter,
    List.filter_replicate, if_neg (by simp), List.append_nil]

/-- A string without NUL is what its field holds besides NULs. -/
theorem filter_pad {n : Nat} {s : List UInt8} (fits : s.length ≤ n) (noNul : 0 ∉ s) :
    (pad n s).filter (· ≠ 0) = s := by
  have all : ∀ b ∈ s, decide (b ≠ 0) = true := by
    intro b hb
    rw [decide_eq_true_iff]
    rintro rfl
    exact noNul hb
  rw [pad_of_le fits, List.filter_append, List.filter_eq_self.mpr all, List.filter_replicate,
    if_neg (by simp), List.append_nil]

/-- A value as it comes back. -/
def Code.stored : Code → Value → Value
  | .chars n, .str s => .str (pad n s)
  | _, v => v

theorem Code.length_pack {c : Code} {v : Value} {bs : List UInt8} (h : c.pack v = some bs) :
    bs.length = c.size := by
  cases c <;> cases v <;> simp only [Code.pack, Option.ite_none_right_eq_some,
    Option.some.injEq, reduceCtorEq] at h
  case uint8.num => rw [← h.2]; rfl
  case uint16.num => rw [← h.2]; rfl
  case uint32.num => rw [← h.2]; rfl
  case chars.str n s => rw [← h, length_pad]; rfl

theorem Code.unpack_pack {c : Code} {v : Value} {bs : List UInt8} (h : c.pack v = some bs) :
    c.unpack bs = c.stored v := by
  cases c <;> cases v <;> simp only [Code.pack, Option.ite_none_right_eq_some,
    Option.some.injEq, reduceCtorEq] at h
  case uint8.num i =>
    obtain ⟨range, rfl⟩ := h
    simp only [Code.unpack, Code.stored, List.headD_cons, UInt8.toNat_ofNat', Value.num.injEq]
    omega
  case uint16.num i =>
    obtain ⟨range, rfl⟩ := h
    simp only [Code.unpack, Code.stored, ofBe16_be16, UInt16.toNat_ofNat', Value.num.injEq]
    omega
  case uint32.num i =>
    obtain ⟨range, rfl⟩ := h
    simp only [Code.unpack, Code.stored, ofBe32_be32, UInt32.toNat_ofNat', Value.num.injEq]
    omega
  case chars.str n s => rw [← h, Code.unpack, Code.stored]

theorem pack_cons {c : Code} {fmt : List Code} {v : Value} {values : List Value}
    {bs : List UInt8} (h : pack (c :: fmt) (v :: values) = some bs) :
    ∃ first rest, c.pack v = some first ∧ pack fmt values = some rest ∧ bs = first ++ rest := by
  simp only [pack, Option.bind_eq_bind, Option.bind_eq_some_iff, Option.some.injEq] at h
  obtain ⟨first, hfirst, rest, hrest, rfl⟩ := h
  exact ⟨first, rest, hfirst, hrest, rfl⟩

/-- A pack has the size of its format. -/
theorem length_pack {fmt : List Code} {values : List Value} {bs : List UInt8}
    (h : pack fmt values = some bs) : bs.length = calcsize fmt := by
  induction fmt generalizing values bs with
  | nil =>
    cases values with
    | nil =>
      obtain rfl := Option.some.inj h
      rfl
    | cons => cases h
  | cons c fmt ih =>
    cases values with
    | nil => cases h
    | cons v values =>
      obtain ⟨first, rest, hfirst, hrest, rfl⟩ := pack_cons h
      rw [List.length_append, Code.length_pack hfirst, ih hrest]
      rfl

/-- What was packed comes back, the strings as they were stored. -/
theorem unpack_pack {fmt : List Code} {values : List Value} {bs : List UInt8}
    (h : pack fmt values = some bs) :
    unpack fmt bs = some (List.zipWith Code.stored fmt values) := by
  induction fmt generalizing values bs with
  | nil =>
    cases values with
    | nil =>
      obtain rfl := Option.some.inj h
      rfl
    | cons => cases h
  | cons c fmt ih =>
    cases values with
    | nil => cases h
    | cons v values =>
      obtain ⟨first, rest, hfirst, hrest, rfl⟩ := pack_cons h
      have size := Code.length_pack hfirst
      rw [unpack, if_neg (by rw [List.length_append, size]; omega), List.take_left' size,
        List.drop_left' size, ih hrest, Code.unpack_pack hfirst]
      rfl

end NetLabs.Lib.PyStruct

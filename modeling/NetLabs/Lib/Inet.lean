/-
NetLabs.Lib.Inet — IPv4 addresses as text, as `inet_ntoa` writes and
`inet_aton` reads them.

`inet_aton` takes one to four numbers with dots between them; the last one
fills the bytes that are left. A number is hexadecimal after `0x`, octal
after another `0`, and else decimal. `inet_ntoa` writes four decimal numbers
without leading zeros, so `inet_aton` reads its output back
(`inetAton_inetNtoa`).
-/
import NetLabs.Lib.Bytes

namespace NetLabs.Lib

/-! ## Text -/

def dot : UInt8 := 46

/-- `isspace(c)`, in the locale a program starts with. -/
def isSpace (c : UInt8) : Bool := c = 32 ∨ 9 ≤ c ∧ c ≤ 13

def digit (n : Nat) : UInt8 := UInt8.ofNat (48 + n)

/-- `%u` of a byte. -/
def decimal (b : UInt8) : List UInt8 :=
  let n := b.toNat
  if n < 10 then [digit n]
  else if n < 100 then [digit (n / 10), digit (n % 10)]
  else [digit (n / 100), digit (n / 10 % 10), digit (n % 10)]

/-- `inet_ntoa(address)`; an address has four bytes. -/
def inetNtoa (address : List UInt8) : Option (List UInt8) :=
  if address.length = 4 then some (List.intercalate [dot] (address.map decimal)) else none

/-- The value of a digit, below the base. -/
def digitValue (base : Nat) (c : UInt8) : Option Nat :=
  let value :=
    if 48 ≤ c ∧ c ≤ 57 then c.toNat - 48
    else if 97 ≤ c ∧ c ≤ 102 then c.toNat - 87
    else if 65 ≤ c ∧ c ≤ 70 then c.toNat - 55
    else base
  if value < base then some value else none

/-- One digit or more. -/
def readDigits (base : Nat) (s : List UInt8) : Option Nat :=
  if s = [] then none
  else s.foldlM (fun n c => (digitValue base c).map (n * base + ·)) 0

/-- A number of an address. -/
def readNumber : List UInt8 → Option Nat
  | 48 :: 120 :: s => readDigits 16 s
  | 48 :: 88 :: s => readDigits 16 s
  | 48 :: c :: s => readDigits 8 (c :: s)
  | s => readDigits 10 s

/-- `inet_aton(text)`. -/
def inetAton (text : List UInt8) : Option (List UInt8) :=
  match (text.splitOn dot).mapM readNumber with
  | some [a] => if a < 4294967296 then some (be32 (UInt32.ofNat a)) else none
  | some [a, b] =>
      if a < 256 ∧ b < 16777216 then some (be32 (UInt32.ofNat (a * 16777216 + b))) else none
  | some [a, b, c] =>
      if a < 256 ∧ b < 256 ∧ c < 65536 then
        some (be32 (UInt32.ofNat ((a * 256 + b) * 65536 + c)))
      else none
  | some [a, b, c, d] =>
      if a < 256 ∧ b < 256 ∧ c < 256 ∧ d < 256 then
        some [UInt8.ofNat a, UInt8.ofNat b, UInt8.ofNat c, UInt8.ofNat d]
      else none
  | _ => none

/-! ## Round trip -/

theorem readNumber_decimal (b : UInt8) : readNumber (decimal b) = some b.toNat := by
  have all : ∀ n : Fin 256, readNumber (decimal (UInt8.ofNat n)) = some n.val := by
    decide +kernel
  have h := all ⟨b.toNat, b.toNat_lt⟩
  rwa [UInt8.ofNat_toNat] at h

theorem dot_notMem_decimal (b : UInt8) : dot ∉ decimal b := by
  have all : ∀ n : Fin 256, dot ∉ decimal (UInt8.ofNat n) := by
    decide +kernel
  have h := all ⟨b.toNat, b.toNat_lt⟩
  rwa [UInt8.ofNat_toNat] at h

/-- What is read is an address. -/
theorem length_inetAton {text address : List UInt8} (h : inetAton text = some address) :
    address.length = 4 := by
  unfold inetAton at h
  split at h
  case h_5 => cases h
  all_goals
    obtain ⟨-, h⟩ := Option.ite_none_right_eq_some.mp h
    rw [← Option.some.inj h]
    rfl

/-- An address written as text is read back. -/
theorem inetAton_inetNtoa {address text : List UInt8} (h : inetNtoa address = some text) :
    inetAton text = some address := by
  obtain ⟨size, h⟩ := Option.ite_none_right_eq_some.mp h
  rw [← Option.some.inj h]
  obtain ⟨a, b, c, d, rfl⟩ := List.length_eq_four.mp size
  have split : (List.intercalate [dot] ([a, b, c, d].map decimal)).splitOn dot =
      [a, b, c, d].map decimal := by
    apply List.splitOn_intercalate
    · intro text htext
      obtain ⟨b, -, rfl⟩ := List.mem_map.mp htext
      exact dot_notMem_decimal b
    · simp
  rw [inetAton, split]
  simp [readNumber_decimal, UInt8.toNat_lt a, UInt8.toNat_lt b, UInt8.toNat_lt c, UInt8.toNat_lt d]

example : inetAton [49, 48, 46, 49] = some [10, 0, 0, 1] := by decide

end NetLabs.Lib

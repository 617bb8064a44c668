/-
NetLabs.Lib.Access — code that reads and writes buffers, with every access
checked.

An `Access` is a computation that may stop: because it reads or writes a byte
the buffer does not have, or because an assertion fails. A pointer into the
buffer is the list of the bytes from there to the end of the buffer.

`x.Within P` says that `x` stays in its buffers, and that its result, if it
comes to one, satisfies `P`. It is a weakest precondition: there is one rule
for each way to build an `Access`, an equivalence tagged `@[simp]`, so that
the exact condition under which a parser stays in bounds is computed from its
text.

`Exact safe x o` compares `x` with a function `o` that checks nothing: under
`safe` the two agree, and otherwise `x` leaves a buffer. It has a rule for
running on as well (`Exact.bind`), and one for a block that is written field
by field (`exact_writes`).
-/
import NetLabs.Lib.Bytes

namespace NetLabs.Lib

universe u

/-- Why a computation stops. -/
inductive Stop where
  /-- A read ran over the end of a buffer. -/
  | outOfBounds
  /-- An assertion failed, and the process ends. -/
  | abort
  deriving DecidableEq, Repr

/-- A computation that reads buffers. -/
abbrev Access (α : Type u) : Type u := Except Stop α

namespace Access

variable {α β : Type u}

/-! ## Reads -/

/-- The `n` bytes at `off`. To read no bytes is to read nothing. -/
def bytes (buf : List UInt8) (off n : Nat) : Access (List UInt8) :=
  if n = 0 ∨ off + n ≤ buf.length then .ok (slice buf off n) else .error .outOfBounds

/-- The string a pointer denotes: the bytes up to the first NUL. -/
def cstr : List UInt8 → Access (List UInt8)
  | [] => .error .outOfBounds
  | b :: rest => if b = 0 then .ok [] else (cstr rest).map (b :: ·)

/-- `strncmp(name, s, n) == 0`, for a string `name` without its NUL. -/
def strncmpEq : List UInt8 → List UInt8 → Nat → Access Bool
  | _, _, 0 => .ok true
  | _, [], _ + 1 => .error .outOfBounds
  | [], b :: _, _ + 1 => .ok (b = 0)
  | c :: name, b :: rest, n + 1 => if b = c then strncmpEq name rest n else .ok false

/-! ## Running on -/

theorem ok_bind (a : α) (f : α → Access β) : (.ok a : Access α) >>= f = f a := rfl

/-- Reading what stands at an offset. -/
theorem bytes_eq {buf field : List UInt8} (rest : List UInt8) {off n : Nat}
    (h : buf.drop off = field ++ rest) (size : field.length = n)
    (inside : off ≤ buf.length) : bytes buf off n = .ok field := by
  have length := congrArg List.length h
  rw [List.length_drop, List.length_append, size] at length
  rw [bytes, if_pos (.inr (by omega)), slice, h, List.take_left' size]

/-- A read inside the buffer. -/
theorem bytes_inside {buf : List UInt8} {off n : Nat} (inside : off + n ≤ buf.length) :
    bytes buf off n = .ok (slice buf off n) :=
  if_pos (.inr inside)

/-- A comparison asserts nothing. -/
theorem strncmpEq_ne_abort (name s : List UInt8) (n : Nat) :
    strncmpEq name s n ≠ .error .abort := by
  fun_induction strncmpEq name s n with
  | case4 name n c rest ih => exact ih
  | _ => nofun

/-- Whether a computation leaves its buffers. -/
def decidableLeaves : (x : Access α) → Decidable (x = .error .outOfBounds)
  | .error .outOfBounds => isTrue rfl
  | .error .abort => isFalse (by simp)
  | .ok _ => isFalse (by simp)

/-! ## Staying in bounds -/

/-- The computation reads what it may, and what it returns satisfies `P`. -/
def Within (P : α → Prop) : Access α → Prop
  | .error .outOfBounds => False
  | .error .abort => True
  | .ok a => P a

variable {P : α → Prop}

@[simp] theorem within_ok (a : α) : Within P (.ok a) ↔ P a := Iff.rfl

@[simp] theorem within_pure (a : α) : Within P (pure a) ↔ P a := Iff.rfl

@[simp] theorem within_outOfBounds : ¬ Within P (.error .outOfBounds) := id

@[simp] theorem within_abort : Within P (.error .abort) := trivial

@[simp] theorem within_bind {x : Access α} {f : α → Access β} {Q : β → Prop} :
    Within Q (x >>= f) ↔ Within (fun a => Within Q (f a)) x := by
  cases x with
  | error stop => cases stop <;> exact Iff.rfl
  | ok a => exact Iff.rfl

@[simp] theorem within_map {x : Access α} {f : α → β} {Q : β → Prop} :
    Within Q (x.map f) ↔ Within (fun a => Q (f a)) x := by
  cases x with
  | error stop => cases stop <;> exact Iff.rfl
  | ok a => exact Iff.rfl

@[simp] theorem within_ite {c : Prop} [Decidable c] {x y : Access α} :
    Within P (if c then x else y) ↔ (c → Within P x) ∧ (¬ c → Within P y) := by
  split <;> simp [*]

@[simp] theorem within_bytes {buf : List UInt8} {off n : Nat} {P : List UInt8 → Prop} :
    Within P (bytes buf off n) ↔ (n = 0 ∨ off + n ≤ buf.length) ∧ P (slice buf off n) := by
  rw [bytes]
  split <;> simp [*]

/-- A string is read in bounds if its NUL is in the buffer. -/
@[simp] theorem within_cstr {s : List UInt8} {P : List UInt8 → Prop} :
    Within P (cstr s) ↔ 0 ∈ s ∧ P (s.takeWhile (· ≠ 0)) := by
  induction s generalizing P with
  | nil => simp [cstr]
  | cons b rest ih =>
    rw [cstr]
    split
    · rename_i hb
      simp [hb]
    · rename_i hb
      simp [ih, hb, Ne.symm hb]

/-- A comparison with a name is in bounds unless the buffer ends while it is
a prefix of the name. -/
@[simp] theorem within_strncmpEq {name s : List UInt8} {n : Nat} {P : Bool → Prop}
    (noNul : 0 ∉ name) (fits : name.length ≤ n) :
    Within P (strncmpEq name s n) ↔
      ¬ (s.length < n ∧ s <+: name) ∧ P (name = (s.take n).takeWhile (· ≠ 0)) := by
  induction n generalizing name s with
  | zero =>
    obtain rfl := List.length_eq_zero_iff.mp (Nat.le_zero.mp fits)
    simp [strncmpEq]
  | succ n ih =>
    cases s with
    | nil => simp [strncmpEq]
    | cons b rest =>
      cases name with
      | nil =>
        by_cases hb : b = 0
        · simp [strncmpEq, hb]
        · simp [strncmpEq, hb]
      | cons c name =>
        rw [List.mem_cons, not_or] at noNul
        rw [strncmpEq]
        by_cases hb : b = c
        · subst hb
          rw [if_pos rfl, ih noNul.2 (Nat.le_of_succ_le_succ fits)]
          simp [Ne.symm noNul.1]
        · rw [if_neg hb]
          by_cases hnul : b = 0
          · simp [hnul, noNul.1]
          · simp [hb, hnul, Ne.symm hb]

/-! ## Checks and pointers -/

/-- The `n` bytes at `off` are in the buffer. -/
def inside (buf : List UInt8) (off n : Nat) : Access Unit :=
  if n = 0 ∨ off + n ≤ buf.length then .ok () else .error .outOfBounds

/-- The buffer with the bytes at `off` overwritten. -/
def write (buf : List UInt8) (off : Nat) (bs : List UInt8) : Access (List UInt8) := do
  inside buf off bs.length
  return put buf off bs

theorem inside_ok {buf : List UInt8} {off n : Nat} (h : off + n ≤ buf.length) :
    inside buf off n = .ok () :=
  if_pos (.inr h)

/-- A write inside the buffer. -/
theorem write_inside {buf bs : List UInt8} {off : Nat} (fits : off + bs.length ≤ buf.length) :
    write buf off bs = .ok (put buf off bs) := by
  rw [write, inside_ok fits, ok_bind]
  rfl

/-- A write leaves the size of the buffer alone. -/
theorem length_of_write {buf bs buf' : List UInt8} {off : Nat}
    (h : write buf off bs = .ok buf') : buf'.length = buf.length := by
  by_cases none : bs = []
  · subst none
    rw [write, inside, if_pos (.inl rfl), ok_bind] at h
    obtain rfl := Except.ok.inj h
    simp [put]
  · by_cases fits : off + bs.length ≤ buf.length
    · rw [write_inside fits] at h
      obtain rfl := Except.ok.inj h
      exact length_put fits
    · rw [write, inside, if_neg (by simp [none, fits])] at h
      cases h

/-- What a pointer that may be NULL points to. -/
def deref : Option α → Access α
  | some a => .ok a
  | none => .error .abort

theorem deref_some (a : α) : deref (some a) = .ok a := rfl

/-! ## The condition for staying in bounds -/

/-- `safe` decides: under it `x` is `o`, a function that checks no access, and
otherwise `x` leaves a buffer. -/
structure Exact (safe : Prop) (x : Access α) (o : Option α) : Prop where
  ends : safe → x = deref o
  stops : ¬ safe → x = .error .outOfBounds

section

variable {p q : Prop} {x : Access α} {o : Option α}

theorem exact_ok (a : α) : Exact True (.ok a) (some a) :=
  ⟨fun _ => rfl, fun h => absurd trivial h⟩

theorem exact_inside {buf : List UInt8} {off n : Nat} (some : n ≠ 0) :
    Exact (off + n ≤ buf.length) (inside buf off n) (.some ()) := by
  constructor
  · exact inside_ok
  · intro out
    exact if_neg fun h => h.elim some out

theorem exact_bytes {buf : List UInt8} {off n : Nat} :
    Exact (n = 0 ∨ off + n ≤ buf.length) (bytes buf off n) (some (slice buf off n)) :=
  ⟨fun fits => if_pos fits, fun out => if_neg out⟩

theorem exact_write {buf bs : List UInt8} {off : Nat} (some : bs.length ≠ 0) :
    Exact (off + bs.length ≤ buf.length) (write buf off bs) (.some (put buf off bs)) := by
  refine ⟨write_inside, fun out => ?_⟩
  rw [write, (exact_inside some).stops out]
  rfl

theorem exact_abort : Exact True (.error .abort) (none : Option α) :=
  ⟨fun _ => rfl, fun h => absurd trivial h⟩

theorem Exact.congr (h : Exact p x o) (same : q ↔ p) : Exact q x o :=
  ⟨fun hq => h.ends (same.mp hq), fun hq => h.stops fun hp => hq (same.mpr hp)⟩

/-- What `x` returns matters where it stays in its buffers. -/
theorem Exact.value {o' : Option α} (h : Exact p x o) (same : p → o = o') : Exact p x o' :=
  ⟨fun hp => same hp ▸ h.ends hp, h.stops⟩

/-- One after the other: the second counts if the first ends. -/
theorem Exact.bind {f : α → Access β} {g : α → Option β} {q : α → Prop} (h : Exact p x o)
    (next : ∀ a, o = some a → Exact (q a) (f a) (g a)) :
    Exact (p ∧ ∀ a, o = some a → q a) (x >>= f) (o.bind g) := by
  constructor
  · rintro ⟨hp, hq⟩
    rw [h.ends hp]
    cases o with
    | none => rfl
    | some a => exact (next a rfl).ends (hq a rfl)
  · intro fails
    by_cases hp : p
    · rw [h.ends hp]
      cases o with
      | none => exact absurd ⟨hp, nofun⟩ fails
      | some a =>
        refine (next a rfl).stops fun hq => fails ⟨hp, ?_⟩
        intro b hb
        exact Option.some.inj hb ▸ hq
    · rw [h.stops hp]
      rfl

/-- Two computations one after the other, where it is known what the first
returns. -/
theorem Exact.bind_some {f : α → Access β} {a : α} {o : Option β} (h : Exact p x (some a))
    (next : Exact q (f a) o) : Exact (p ∧ q) (x >>= f) o := by
  have both : Exact (p ∧ ∀ b, some a = some b → q) (x >>= f) ((some a).bind fun _ => o) :=
    h.bind fun b eq => Option.some.inj eq ▸ next
  exact both.congr ⟨fun ⟨hp, hq⟩ => ⟨hp, fun _ _ => hq⟩, fun ⟨hp, hq⟩ => ⟨hp, hq a rfl⟩⟩

/-- A block written field by field. -/
theorem exact_writes {writes : List (Nat × List UInt8)} (some : ∀ w ∈ writes, w.2.length ≠ 0)
    (buf : List UInt8) :
    Exact (∀ w ∈ writes, w.1 + w.2.length ≤ buf.length)
      (writes.foldlM (fun buf w => write buf w.1 w.2) buf)
      (.some (writes.foldl (fun buf w => put buf w.1 w.2) buf)) := by
  induction writes generalizing buf with
  | nil => exact (exact_ok buf).congr (by simp)
  | cons w writes ih =>
    obtain ⟨first, others⟩ := List.forall_mem_cons.mp some
    rw [List.foldlM_cons, List.foldl_cons]
    by_cases fits : w.1 + w.2.length ≤ buf.length
    · refine ((exact_write first).bind_some (ih others _)).congr ?_
      rw [List.forall_mem_cons, length_put fits]
    · refine ⟨fun all => absurd (all w (.head _)) fits, fun _ => ?_⟩
      rw [(exact_write first).stops fits]
      rfl

theorem length_puts {writes : List (Nat × List UInt8)} {buf : List UInt8}
    (fit : ∀ w ∈ writes, w.1 + w.2.length ≤ buf.length) :
    (writes.foldl (fun buf w => put buf w.1 w.2) buf).length = buf.length := by
  induction writes generalizing buf with
  | nil => rfl
  | cons w writes ih =>
    obtain ⟨first, others⟩ := List.forall_mem_cons.mp fit
    rw [List.foldl_cons, ih (by rwa [length_put first]), length_put first]

/-- Nothing follows where the first meets a NULL pointer. -/
theorem Exact.bind_none {f : α → Access β} (h : Exact p x none) :
    Exact p (x >>= f) (none : Option β) := by
  constructor
  · intro hp
    rw [h.ends hp]
    rfl
  · intro hp
    rw [h.stops hp]
    rfl

/-- Nothing is left to check after `x`. -/
theorem Exact.bind_ok {f : α → Access β} {a : α} {b : β} (h : Exact p x (some a))
    (rest : f a = .ok b) : Exact p (x >>= f) (some b) := by
  constructor
  · intro hp
    rw [h.ends hp]
    exact rest
  · intro hp
    rw [h.stops hp]
    rfl

/-- A property of what `x` returns is one of what `o` returns. -/
theorem Exact.within_iff {a : α} {P : α → Prop} (h : Exact p x (some a)) :
    Within P x ↔ p ∧ P a := by
  by_cases safe : p
  · rw [h.ends safe]
    exact (and_iff_right safe).symm
  · rw [h.stops safe]
    exact iff_of_false id fun both => safe both.1

theorem Exact.inBounds_iff (h : Exact p x o) : x ≠ .error .outOfBounds ↔ p := by
  constructor
  · intro inside
    exact not_not.mp fun hp => inside (h.stops hp)
  · intro hp
    rw [h.ends hp]
    cases o <;> nofun

end

/-- What ends, and stays in its buffers, returns a value in `P`. -/
theorem ok_of_within {x : Access α} (h : Within P x) (run : x ≠ .error .abort) :
    ∃ a, x = .ok a ∧ P a := by
  match x with
  | .ok a => exact ⟨a, rfl, h⟩
  | .error .abort => exact absurd rfl run
  | .error .outOfBounds => exact h.elim

end Access

end NetLabs.Lib

/-
NetLabs.Lib.Stream — pieces of a stream, output that is a prefix of it, and
how far a set of pieces reaches.

A protocol cuts a stream into pieces, each tagged with its position. A piece
stays a piece while the stream grows (`IsPiece.append`), and output that is a
prefix of the stream stays one exactly when what is added is the piece at its
own length (`prefix_append_iff`). Nothing here knows how a receiver decides
what to add.

A receiver may also hold pieces with gaps between them. `contiguous` is how
far they reach from the start without a gap, the number a cumulative
acknowledgement promises; `contiguous_append` says how one more piece moves
it where there is no gap yet.
-/
import Mathlib.Data.List.Infix
import Mathlib.Order.Lattice.Nat

namespace NetLabs.Lib

variable {α : Type*}

/-- `data` stands in the stream at `position`. -/
def IsPiece (stream : List α) (position : Nat) (data : List α) : Prop :=
  data <+: stream.drop position

namespace IsPiece

variable {stream data : List α} {position : Nat}

theorem nil (stream : List α) (position : Nat) : IsPiece stream position [] :=
  List.nil_prefix

/-- The newest piece. -/
theorem last (stream data : List α) : IsPiece (stream ++ data) stream.length data := by
  rw [IsPiece, List.drop_left]

/-- A piece of the stream is a piece of every longer stream. -/
theorem append (h : IsPiece stream position data) (more : List α) :
    IsPiece (stream ++ more) position data := by
  rw [IsPiece, List.drop_append]
  exact h.trans (List.prefix_append _ _)

end IsPiece

/-- A prefix of the stream extends to a longer prefix exactly by the piece at
its own length. -/
theorem prefix_append_iff {stream out data : List α} (h : out <+: stream) :
    out ++ data <+: stream ↔ IsPiece stream out.length data := by
  obtain ⟨rest, rfl⟩ := h
  rw [IsPiece, List.drop_left, List.prefix_append_right_inj]

/-! ## How far a set of intervals reaches -/

/-- `k` lies in one of the intervals, each given by its start and length. -/
def Covered (intervals : List (Nat × Nat)) (k : Nat) : Prop :=
  ∃ x ∈ intervals, x.1 ≤ k ∧ k < x.1 + x.2

instance (intervals : List (Nat × Nat)) : DecidablePred (Covered intervals) := fun k =>
  inferInstanceAs (Decidable (∃ x ∈ intervals, x.1 ≤ k ∧ k < x.1 + x.2))

/-- No interval reaches beyond it. -/
def reach (intervals : List (Nat × Nat)) : Nat :=
  intervals.foldr (fun x bound => max (x.1 + x.2) bound) 0

/-- The first position from `k` on that is not covered, within `fuel` steps. -/
def firstGap (intervals : List (Nat × Nat)) : Nat → Nat → Nat
  | 0, k => k
  | fuel + 1, k => if Covered intervals k then firstGap intervals fuel (k + 1) else k

/-- The length of the part from 0 on that is covered without a gap. -/
def contiguous (intervals : List (Nat × Nat)) : Nat :=
  firstGap intervals (reach intervals) 0

theorem Covered.lt_reach {intervals : List (Nat × Nat)} {k : Nat} (h : Covered intervals k) :
    k < reach intervals := by
  obtain ⟨x, hx, -, hk⟩ := h
  induction intervals with
  | nil => cases hx
  | cons y rest ih =>
    rw [reach, List.foldr_cons, lt_max_iff]
    rcases List.mem_cons.mp hx with rfl | hx
    · exact .inl hk
    · exact .inr (ih hx)

theorem firstGap_eq {intervals : List (Nat × Nat)} {c : Nat} (gap : ¬ Covered intervals c)
    (fuel k : Nat) (hk : k ≤ c) (hc : c ≤ k + fuel)
    (below : ∀ j, k ≤ j → j < c → Covered intervals j) : firstGap intervals fuel k = c := by
  induction fuel generalizing k with
  | zero =>
    rw [firstGap]
    omega
  | succ fuel ih =>
    rw [firstGap]
    rcases hk.eq_or_lt with rfl | hlt
    · rw [if_neg gap]
    · rw [if_pos (below k le_rfl hlt)]
      exact ih (k + 1) (by omega) (by omega) fun j hj => below j (by omega)

/-- `contiguous` is the first gap. -/
theorem contiguous_eq {intervals : List (Nat × Nat)} {c : Nat}
    (below : ∀ k < c, Covered intervals k) (gap : ¬ Covered intervals c) :
    contiguous intervals = c := by
  have bound : c ≤ reach intervals := by
    rcases Nat.eq_zero_or_pos c with rfl | hpos
    · exact Nat.zero_le _
    · have := (below (c - 1) (by omega)).lt_reach
      omega
  exact firstGap_eq gap _ 0 (Nat.zero_le c) (by omega) fun j _ hj => below j hj

theorem covered_append (intervals : List (Nat × Nat)) (start len k : Nat) :
    Covered (intervals ++ [(start, len)]) k ↔
      Covered intervals k ∨ start ≤ k ∧ k < start + len := by
  simp only [Covered, List.mem_append, List.mem_singleton, or_and_right, exists_or,
    exists_eq_left]

/-- One more interval, where the others cover exactly what is below `c`: if it
leaves no gap and ends beyond `c` its end is reached, and else nothing
changes. -/
theorem contiguous_append {intervals : List (Nat × Nat)} {c : Nat}
    (exact : ∀ k, Covered intervals k ↔ k < c) (start len : Nat) :
    contiguous (intervals ++ [(start, len)]) =
      if start ≤ c ∧ c < start + len then start + len else c := by
  refine contiguous_eq (fun k hk => ?_) ?_
  · rw [covered_append, exact]
    split at hk <;> omega
  · rw [covered_append, exact]
    split <;> omega

end NetLabs.Lib

/-
NetLabs.Lib.TextLines — a text by lines, and as a reader with a short buffer
gets it.

`lines` cuts a text behind every newline; the last line may lack it. A reader
that takes at most `limit` characters at a time (`fgets`) gets the lines only
if they are short enough: a longer one comes in several reads. So there are at
least as many reads as lines, and as many only if the reads are the lines
(`reads_eq_lines`), which is when every line fits (`reads_eq_lines_iff`).
-/
import Mathlib.Data.List.Basic

namespace NetLabs.Lib

universe u

variable {α : Type u} [DecidableEq α] (newline : α)

/-! ## Lines and reads -/

/-- The lines of a text, each with its newline. -/
def lines : List α → List (List α)
  | [] => []
  | a :: rest =>
      if a = newline then [a] :: lines rest
      else match lines rest with
        | [] => [[a]]
        | line :: others => (a :: line) :: others

/-- One read: at most `limit` characters, up to a newline. With it comes what
is left of the text. -/
def fgets : Nat → List α → List α × List α
  | 0, text => ([], text)
  | _ + 1, [] => ([], [])
  | limit + 1, a :: rest =>
      if a = newline then ([a], rest)
      else (a :: (fgets limit rest).1, (fgets limit rest).2)

/-- At most `fuel` reads, until the text ends. -/
def readsUpTo (limit : Nat) : Nat → List α → List (List α)
  | 0, _ => []
  | fuel + 1, text =>
      if text = [] then []
      else (fgets newline limit text).1 :: readsUpTo limit fuel (fgets newline limit text).2

/-- What one read after the other gives, until the text ends. -/
def reads (limit : Nat) (text : List α) : List (List α) := readsUpTo newline limit text.length text

variable {newline} {limit : Nat} {text : List α}

/-! ## One line -/

theorem lines_eq_nil_iff : lines newline text = [] ↔ text = [] := by
  cases text with
  | nil => exact iff_of_true rfl rfl
  | cons a rest =>
    apply iff_of_false _ (List.cons_ne_nil a rest)
    rw [lines]
    split
    · exact List.cons_ne_nil _ _
    · split <;> exact List.cons_ne_nil _ _

theorem ne_nil_of_mem_lines {line : List α} (mem : line ∈ lines newline text) : line ≠ [] := by
  induction text generalizing line with
  | nil => cases mem
  | cons a rest ih =>
    rw [lines] at mem
    split at mem
    · rcases List.mem_cons.mp mem with rfl | later
      · exact List.cons_ne_nil _ _
      · exact ih later
    · split at mem
      · rw [List.mem_singleton.mp mem]
        exact List.cons_ne_nil _ _
      · rename_i cut
        rcases List.mem_cons.mp mem with rfl | later
        · exact List.cons_ne_nil _ _
        · exact ih (cut ▸ List.mem_cons_of_mem _ later)

/-- A text that begins with a whole line. -/
theorem lines_line {line : List α} (plain : newline ∉ line) (rest : List α) :
    lines newline (line ++ newline :: rest) = (line ++ [newline]) :: lines newline rest := by
  induction line with
  | nil => rw [List.nil_append, lines, if_pos rfl, List.nil_append]
  | cons a line ih =>
    obtain ⟨differ, plain⟩ := List.ne_and_not_mem_of_not_mem_cons plain
    rw [List.cons_append, lines, if_neg differ.symm, ih plain, List.cons_append]

/-- The beginning of a line belongs to the line. -/
theorem lines_beginning {piece : List α} (plain : newline ∉ piece) {rest line : List α}
    {others : List (List α)} (cut : lines newline rest = line :: others) :
    lines newline (piece ++ rest) = (piece ++ line) :: others := by
  induction piece with
  | nil => rw [List.nil_append, List.nil_append, cut]
  | cons a piece ih =>
    obtain ⟨differ, plain⟩ := List.ne_and_not_mem_of_not_mem_cons plain
    rw [List.cons_append, lines, if_neg differ.symm, ih plain, List.cons_append]

/-- A text without a newline is one line. -/
theorem lines_last (plain : newline ∉ text) (some : text ≠ []) : lines newline text = [text] := by
  induction text with
  | nil => exact absurd rfl some
  | cons a rest ih =>
    obtain ⟨differ, plain⟩ := List.ne_and_not_mem_of_not_mem_cons plain
    rw [lines, if_neg differ.symm]
    cases rest with
    | nil => rfl
    | cons b rest => rw [ih plain (List.cons_ne_nil b rest)]

/-! ## One read -/

/-- What a read gives: a line, the rest of the text, or as much as fits. -/
theorem fgets_cases (newline : α) (limit : Nat) (text : List α) :
    (∃ line rest, text = line ++ newline :: rest ∧ newline ∉ line ∧ line.length < limit ∧
      fgets newline limit text = (line ++ [newline], rest)) ∨
    (newline ∉ text ∧ text.length ≤ limit ∧ fgets newline limit text = (text, [])) ∨
    ∃ piece rest, text = piece ++ rest ∧ rest ≠ [] ∧ newline ∉ piece ∧ piece.length = limit ∧
      fgets newline limit text = (piece, rest) := by
  induction limit generalizing text with
  | zero =>
    cases text with
    | nil => exact .inr (.inl ⟨List.not_mem_nil, Nat.le_refl _, rfl⟩)
    | cons a rest =>
      exact .inr (.inr ⟨[], a :: rest, rfl, List.cons_ne_nil a rest, List.not_mem_nil, rfl, rfl⟩)
  | succ limit ih =>
    cases text with
    | nil => exact .inr (.inl ⟨List.not_mem_nil, Nat.zero_le _, rfl⟩)
    | cons a text =>
      by_cases same : a = newline
      · subst same
        exact .inl ⟨[], text, rfl, List.not_mem_nil, Nat.succ_pos _, if_pos rfl⟩
      · have step : fgets newline (limit + 1) (a :: text) =
            (a :: (fgets newline limit text).1, (fgets newline limit text).2) := if_neg same
        have plain : ∀ {l : List α}, newline ∉ l → newline ∉ a :: l := fun h =>
          List.not_mem_cons_of_ne_of_not_mem (Ne.symm same) h
        rcases ih text with ⟨line, rest, rfl, hline, short, read⟩ | ⟨hall, short, read⟩ |
          ⟨piece, rest, rfl, more, hpiece, full, read⟩
        · exact .inl ⟨a :: line, rest, rfl, plain hline, Nat.succ_lt_succ short, by
            rw [step, read, List.cons_append]⟩
        · exact .inr (.inl ⟨plain hall, Nat.succ_le_succ short, by rw [step, read]⟩)
        · exact .inr (.inr ⟨a :: piece, rest, rfl, more, plain hpiece, congrArg Nat.succ full, by
            rw [step, read]⟩)

theorem fgets_append (newline : α) (limit : Nat) (text : List α) :
    (fgets newline limit text).1 ++ (fgets newline limit text).2 = text := by
  rcases fgets_cases newline limit text with ⟨line, rest, rfl, -, -, read⟩ | ⟨-, -, read⟩ |
    ⟨piece, rest, rfl, -, -, -, read⟩
  · rw [read, List.append_assoc, List.singleton_append]
  · rw [read, List.append_nil]
  · rw [read]

/-- A read makes the text shorter. -/
theorem length_fgets_lt (newline : α) (positive : 0 < limit) (some : text ≠ []) :
    (fgets newline limit text).2.length < text.length := by
  have whole := congrArg List.length (fgets_append newline limit text)
  rw [List.length_append] at whole
  have got : (fgets newline limit text).1 ≠ [] := by
    rcases fgets_cases newline limit text with ⟨line, rest, -, -, -, read⟩ | ⟨-, -, read⟩ |
      ⟨piece, rest, -, -, -, full, read⟩
    · rw [read]
      exact List.append_ne_nil_of_right_ne_nil line (List.cons_ne_nil _ _)
    · rwa [read]
    · rw [read]
      exact List.ne_nil_of_length_pos (full ▸ positive)
  have := List.length_pos_iff.mpr got
  omega

/-! ## All reads -/

/-- Fuel for every character is enough. -/
theorem readsUpTo_eq (positive : 0 < limit) {fuel : Nat} (enough : text.length ≤ fuel) :
    readsUpTo newline limit fuel text = reads newline limit text := by
  have any : ∀ (n : Nat) (text : List α), text.length ≤ n → ∀ fuel, n ≤ fuel →
      readsUpTo newline limit fuel text = readsUpTo newline limit n text := by
    intro n
    induction n with
    | zero =>
      intro text short fuel _
      obtain rfl := List.length_eq_zero_iff.mp (Nat.le_zero.mp short)
      cases fuel <;> rfl
    | succ n ih =>
      intro text short fuel more
      obtain ⟨fuel, rfl⟩ := Nat.exists_eq_add_of_le' (Nat.one_le_of_lt more)
      by_cases none : text = []
      · rw [readsUpTo, readsUpTo, if_pos none, if_pos none]
      · have shorter := length_fgets_lt newline positive none
        rw [readsUpTo, readsUpTo, if_neg none, if_neg none,
          ih _ (by omega) fuel (Nat.le_of_succ_le_succ more)]
  exact any text.length text (Nat.le_refl _) fuel enough

theorem reads_eq (positive : 0 < limit) (some : text ≠ []) :
    reads newline limit text =
      (fgets newline limit text).1 :: reads newline limit (fgets newline limit text).2 := by
  have shorter := length_fgets_lt newline positive some
  obtain ⟨n, size⟩ := Nat.exists_eq_add_of_le' (List.length_pos_iff.mpr some)
  rw [reads, size, readsUpTo, if_neg some, readsUpTo_eq positive (by omega)]

/-- The first read gives the first line or, if that is too long, a part of
it. -/
theorem reads_spec (positive : 0 < limit) (text : List α) :
    (lines newline text).length ≤ (reads newline limit text).length ∧
    ((reads newline limit text).length ≤ (lines newline text).length →
      reads newline limit text = lines newline text) ∧
    (reads newline limit text = lines newline text ↔
      ∀ line ∈ lines newline text, line.length ≤ limit) := by
  induction size : text.length using Nat.strongRecOn generalizing text with
  | ind n ih =>
    subst size
    by_cases none : text = []
    · subst none
      exact ⟨Nat.le_refl _, fun _ => rfl, iff_of_true rfl (List.forall_mem_nil _)⟩
    · have shorter := length_fgets_lt newline positive none
      obtain ⟨fewer, exact', fit⟩ := ih _ shorter (fgets newline limit text).2 rfl
      rw [reads_eq positive none]
      rcases fgets_cases newline limit text with ⟨line, rest, rfl, plain, short, read⟩ |
        ⟨plain, short, read⟩ | ⟨piece, rest, rfl, more, plain, full, read⟩
      · rw [read] at fewer exact' fit ⊢
        rw [lines_line plain]
        refine ⟨Nat.succ_le_succ fewer, fun h => ?_, ?_⟩
        · rw [exact' (Nat.le_of_succ_le_succ h)]
        · rw [List.cons_inj_right, fit, List.forall_mem_cons]
          refine (and_iff_right ?_).symm
          rw [List.length_append, List.length_singleton]
          exact short
      · rw [read, lines_last plain none]
        exact ⟨Nat.le_refl _, fun _ => rfl, iff_of_true rfl (List.forall_mem_singleton.mpr short)⟩
      · rw [read] at fewer exact' fit ⊢
        obtain ⟨line, others, cut⟩ := List.exists_cons_of_ne_nil (mt lines_eq_nil_iff.mp more)
        rw [lines_beginning plain cut]
        rw [cut] at fewer
        refine ⟨Nat.le_succ_of_le fewer, fun h => ?_, ?_⟩
        · simp only [List.length_cons] at fewer h
          omega
        · apply iff_of_false
          · intro same
            have := congrArg List.length same
            simp only [List.length_cons] at fewer this
            omega
          · intro short
            have long := short _ List.mem_cons_self
            have some : line ≠ [] := ne_nil_of_mem_lines (cut ▸ List.mem_cons_self)
            have := List.length_pos_iff.mpr some
            rw [List.length_append] at long
            omega

/-- There are at least as many reads as lines. -/
theorem length_lines_le (positive : 0 < limit) (text : List α) :
    (lines newline text).length ≤ (reads newline limit text).length :=
  (reads_spec positive text).1

/-- Where there are not more, the reads are the lines. -/
theorem reads_eq_lines (positive : 0 < limit)
    (few : (reads newline limit text).length ≤ (lines newline text).length) :
    reads newline limit text = lines newline text :=
  (reads_spec positive text).2.1 few

theorem reads_eq_lines_iff (positive : 0 < limit) :
    reads newline limit text = lines newline text ↔
      ∀ line ∈ lines newline text, line.length ≤ limit :=
  (reads_spec positive text).2.2

end NetLabs.Lib

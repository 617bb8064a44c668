/-
NetLabs.Router.LongestPrefix — the route of a packet is a longest match.

`process_ip_packet` never computes the length of a prefix. It compares masks
as integers that hold their bytes in network order, so the order depends on
the byte order of the host. For masks that are prefix masks it is the order
of their lengths on every host (`maskValue_lt_iff`), and then the loop over
the table keeps the first of the longest matches (`longest_prefix_match`).
-/
import NetLabs.Lib.FirstMax
import NetLabs.Router.Forwarding

namespace NetLabs.Router

open NetLabs.Lib

variable {env : Env} {ip : UInt32}

/-! ## Prefix masks -/

/-- The mask with `n` leading one bits. -/
def prefixMask (n : Nat) : UInt32 := UInt32.ofNat (2 ^ 32 - 2 ^ (32 - n))

/-- The number of one bits of a mask. -/
def prefixLength (mask : UInt32) : Nat := (List.range 32).countP mask.toNat.testBit

/-- A contiguous mask. -/
def IsPrefixMask (mask : UInt32) : Prop := ∃ n ≤ 32, mask = prefixMask n

theorem prefixLength_prefixMask {n : Nat} (h : n ≤ 32) : prefixLength (prefixMask n) = n := by
  have all : ∀ n : Fin 33, prefixLength (prefixMask n) = n := by decide +kernel
  exact all ⟨n, by omega⟩

/-- One more bit makes the integer greater, also where the bytes are swapped. -/
theorem maskValue_lt_succ (env : Env) {n : Nat} (h : n < 32) :
    env.maskValue (prefixMask n) < env.maskValue (prefixMask (n + 1)) := by
  unfold Env.maskValue
  cases env.endian with
  | little =>
    have all : ∀ n : Fin 32, ofBe32 (be32 (prefixMask n)).reverse <
        ofBe32 (be32 (prefixMask (n + 1))).reverse := by decide +kernel
    exact all ⟨n, h⟩
  | big =>
    have all : ∀ n : Fin 32, prefixMask n < prefixMask (n + 1) := by decide +kernel
    exact all ⟨n, h⟩

theorem maskValue_lt (env : Env) {n k : Nat} (less : n < k) (h : k ≤ 32) :
    env.maskValue (prefixMask n) < env.maskValue (prefixMask k) := by
  induction k, less using Nat.le_induction with
  | base => exact maskValue_lt_succ env h
  | succ k _ ih => exact UInt32.lt_trans (ih (by omega)) (maskValue_lt_succ env h)

/-- The integers are ordered like the lengths. -/
theorem maskValue_lt_iff (env : Env) {mask mask' : UInt32} (h : IsPrefixMask mask)
    (h' : IsPrefixMask mask') :
    env.maskValue mask < env.maskValue mask' ↔ prefixLength mask < prefixLength mask' := by
  obtain ⟨n, hn, rfl⟩ := h
  obtain ⟨k, hk, rfl⟩ := h'
  rw [prefixLength_prefixMask hn, prefixLength_prefixMask hk]
  rcases Nat.lt_trichotomy n k with less | rfl | greater
  · exact iff_of_true (maskValue_lt env less hk) less
  · exact iff_of_false (UInt32.lt_irrefl _) (Nat.lt_irrefl _)
  · exact iff_of_false (UInt32.lt_asymm (maskValue_lt env greater hn)) (Nat.lt_asymm greater)

/-! ## Matches -/

/-- The test of the loop. -/
def SrRt.Matches (ip : UInt32) (node : SrRt) : Prop := node.dest &&& node.mask = ip &&& node.mask

instance : DecidablePred (SrRt.Matches ip) := fun _ => inferInstanceAs (Decidable (_ = _))

theorem toNat_and_prefixMask {n : Nat} (h : n ≤ 32) (x : UInt32) :
    (x &&& prefixMask n).toNat = x.toNat / 2 ^ (32 - n) * 2 ^ (32 - n) := by
  have mask : (prefixMask n).toNat = 2 ^ (32 - n) * (2 ^ n - 1) := by
    have all : ∀ n : Fin 33, (prefixMask n).toNat = 2 ^ (32 - n.val) * (2 ^ n.val - 1) := by
      decide +kernel
    exact all ⟨n, by omega⟩
  rw [UInt32.toNat_and, mask]
  apply Nat.eq_of_testBit_eq
  intro i
  rw [Nat.testBit_and, Nat.mul_comm (x.toNat / _), Nat.testBit_two_pow_mul, Nat.testBit_two_pow_mul,
    Nat.testBit_two_pow_sub_one, Nat.testBit_div_two_pow]
  by_cases low : 32 - n ≤ i
  · rw [Nat.sub_add_cancel low]
    by_cases high : i < 32
    · simp [low, show i - (32 - n) < n by omega]
    · have zero : x.toNat.testBit i = false :=
        Nat.testBit_lt_two_pow (x.toNat_lt.trans_le (Nat.pow_le_pow_right (by decide) (by omega)))
      simp [zero]
  · simp [low]

/-- An entry matches when its destination agrees with the address in the bits
of the prefix; the others need not be masked. -/
theorem matches_iff {node : SrRt} {n : Nat} (h : n ≤ 32) (mask : node.mask = prefixMask n) :
    node.Matches ip ↔ node.dest.toNat / 2 ^ (32 - n) = ip.toNat / 2 ^ (32 - n) := by
  rw [SrRt.Matches, mask, ← UInt32.toNat_inj, toNat_and_prefixMask h, toNat_and_prefixMask h]
  exact Nat.mul_left_inj (Nat.two_pow_pos _).ne'

/-! ## The loop -/

/-- The loop keeps the first entry with the greatest mask. -/
theorem bestMatchLoop_eq (env : Env) (ip : UInt32) (table : List SrRt) :
    bestMatchLoop env ip none table =
      (table.filter (SrRt.Matches ip)).argmax fun node => (env.maskValue node.mask).toNat := by
  rw [List.argmax]
  generalize (none : Option SrRt) = best
  induction table generalizing best with
  | nil => rfl
  | cons node rest ih =>
    rw [bestMatchLoop, ih]
    by_cases hit : node.Matches ip
    · rw [List.filter_cons_of_pos (by simpa using hit), List.foldl_cons]
      have same : node.dest &&& node.mask = ip &&& node.mask := hit
      congr 1
      cases best with
      | none => simp [isBetter, same, List.argAux]
      | some best => simp [isBetter, same, List.argAux, UInt32.lt_iff_toNat_lt]
    · rw [List.filter_cons_of_neg (by simpa using hit), if_neg fun h => hit h.1]

/-- The entry selected is the first of the longest matches, and there is none
only if nothing matches. -/
theorem longest_prefix_match (env : Env) (ip : UInt32) (table : List SrRt)
    (contiguous : ∀ node ∈ table, IsPrefixMask node.mask) :
    (∀ node, bestMatchLoop env ip none table = some node →
      node.Matches ip ∧ ∃ before after, table = before ++ node :: after ∧
        (∀ other ∈ before, other.Matches ip → prefixLength other.mask < prefixLength node.mask) ∧
        ∀ other ∈ after, other.Matches ip → prefixLength other.mask ≤ prefixLength node.mask) ∧
    (bestMatchLoop env ip none table = none ↔ ∀ node ∈ table, ¬ node.Matches ip) := by
  rw [bestMatchLoop_eq]
  constructor
  · intro node selected
    obtain ⟨hit, before, after, rfl, less, notGreater⟩ := split_of_argmax_filter selected
    have mask : IsPrefixMask node.mask :=
      contiguous node (List.mem_append_right _ List.mem_cons_self)
    refine ⟨of_decide_eq_true hit, before, after, rfl, fun other mem found => ?_,
      fun other mem found => ?_⟩
    · have mask' := contiguous other (List.mem_append_left _ mem)
      rw [← maskValue_lt_iff env mask' mask, UInt32.lt_iff_toNat_lt]
      exact less other mem (decide_eq_true found)
    · have mask' := contiguous other (List.mem_append_right _ (List.mem_cons_of_mem _ mem))
      rw [← not_lt, ← maskValue_lt_iff env mask mask', UInt32.lt_iff_toNat_lt, not_lt]
      exact notGreater other mem (decide_eq_true found)
  · rw [List.argmax_eq_none, List.filter_eq_nil_iff]
    simp only [decide_eq_true_eq]

/-- A default route and a route to 10.1.0.0/16. -/
def twoRoutes : List SrRt :=
  [⟨0, 1, prefixMask 0, ⟨[101], by decide, by decide⟩⟩,
   ⟨167837697, 2, prefixMask 16, ⟨[102], by decide, by decide⟩⟩]

theorem longest_prefix_match_twoRoutes :
    (∀ node, bestMatchLoop ⟨.little, fun _ => 0, fun _ => 0⟩ 167837953 none twoRoutes = some node →
      node.Matches 167837953 ∧ ∃ before after, twoRoutes = before ++ node :: after ∧
        (∀ other ∈ before, other.Matches 167837953 →
          prefixLength other.mask < prefixLength node.mask) ∧
        ∀ other ∈ after, other.Matches 167837953 →
          prefixLength other.mask ≤ prefixLength node.mask) ∧
    (bestMatchLoop ⟨.little, fun _ => 0, fun _ => 0⟩ 167837953 none twoRoutes = none ↔
      ∀ node ∈ twoRoutes, ¬ node.Matches 167837953) := by
  refine longest_prefix_match ⟨.little, fun _ => 0, fun _ => 0⟩ 167837953 twoRoutes ?_
  rintro node (_ | ⟨_, _ | ⟨_, _ | _⟩⟩)
  · exact ⟨0, by decide, rfl⟩
  · exact ⟨16, by decide, rfl⟩

end NetLabs.Router

/-
NetLabs.Router.CacheMap — when the ARP cache is a map to the latest binding.

`sr_arpcache_insert` takes the first free slot and does not look for an entry
with the same IP; `sr_arpcache_lookup` returns the last slot that matches. So
a second insert for an IP leaves two valid entries, and which of them is found
depends on where the free slot was: a slot freed in front of the older entry
makes the older MAC win (`reinsert_returns_stale_mac`). And a full table
takes no entry at all. Where neither happens the table is the map its users
take it for (`cache_is_latest_map`).

The inserts and expiry passes of a run come with the readings of `time(NULL)`
they make, which do not decrease.
-/
import NetLabs.Lib.Lts
import NetLabs.Router.Arpcache
import Mathlib.Data.List.Nodup
import Mathlib.Data.List.Perm.Basic

namespace NetLabs.Router

open NetLabs.Lib ArpCache

/-! ## Lookup and store -/

/-- The entry binds this IP. -/
def ArpEntry.Binds (ip : UInt32) (e : ArpEntry) : Prop := e.valid = true ∧ e.ip = ip

instance (ip : UInt32) : DecidablePred (ArpEntry.Binds ip) := fun _ =>
  inferInstanceAs (Decidable (_ ∧ _))

/-- The valid entries for an IP. -/
def bindings (entries : List ArpEntry) (ip : UInt32) : List ArpEntry :=
  entries.filter (ArpEntry.Binds ip)

theorem lookupLoop_eq (ip : UInt32) (entry : Option ArpEntry) (entries : List ArpEntry) :
    lookupLoop ip entry entries = (bindings entries ip).getLast?.or entry := by
  induction entries generalizing entry with
  | nil => rfl
  | cons e rest ih =>
    rw [lookupLoop, ih, bindings, bindings, List.filter_cons]
    by_cases h : e.valid = true ∧ e.ip = ip
    · have hb : decide (e.Binds ip) = true := decide_eq_true h
      rw [if_pos h, if_pos hb, List.getLast?_cons]
      cases (rest.filter fun x => decide (x.Binds ip)).getLast? <;> rfl
    · have hb : ¬ decide (e.Binds ip) = true := fun hd => h (of_decide_eq_true hd)
      rw [if_neg h, if_neg hb]

/-- `sr_arpcache_lookup` finds the last valid entry for the IP. -/
theorem srArpcacheLookup_eq (cache : ArpCache) (ip : UInt32) :
    cache.srArpcacheLookup ip = (bindings cache.entries ip).getLast? := by
  rw [srArpcacheLookup, lookupLoop_eq, Option.or_none]

/-- With a free slot the new entry joins the valid ones, before or after any
of them. -/
theorem bindings_store {entry : ArpEntry} {entries : List ArpEntry} (ip : UInt32)
    (valid : entry.valid = true) (free : ∃ e ∈ entries, e.valid = false) :
    (bindings (store entry entries) ip).Perm
      (if entry.ip = ip then entry :: bindings entries ip else bindings entries ip) := by
  induction entries with
  | nil =>
    obtain ⟨e, he, _⟩ := free
    cases he
  | cons e rest ih =>
    rw [store]
    cases hv : e.valid with
    | false =>
      have gone : bindings (e :: rest) ip = bindings rest ip := by
        rw [bindings, List.filter_cons, if_neg (by simp [ArpEntry.Binds, hv])]
        rfl
      rw [gone, bindings, if_neg (by simp), List.filter_cons]
      by_cases h : entry.ip = ip
      · rw [if_pos (by simp [ArpEntry.Binds, valid, h]), if_pos h]
        exact .refl _
      · rw [if_neg (by simp [ArpEntry.Binds, h]), if_neg h]
        exact .refl _
    | true =>
      have free' : ∃ e ∈ rest, e.valid = false := by
        obtain ⟨x, hx, hxv⟩ := free
        rcases List.mem_cons.mp hx with rfl | hx
        · rw [hv] at hxv
          cases hxv
        · exact ⟨x, hx, hxv⟩
      have ih' := ih free'
      rw [if_pos rfl, bindings, bindings, List.filter_cons, List.filter_cons]
      by_cases hb : decide (e.Binds ip) = true
      · rw [if_pos hb, if_pos hb]
        refine (ih'.cons e).trans ?_
        split
        · exact .swap _ _ _
        · exact .refl _
      · rw [if_neg hb, if_neg hb]
        exact ih'

theorem store_full {entry : ArpEntry} {entries : List ArpEntry}
    (full : ∀ e ∈ entries, e.valid = true) : store entry entries = entries := by
  induction entries with
  | nil => rfl
  | cons e rest ih =>
    rw [store, if_pos (full e List.mem_cons_self),
      ih fun x hx => full x (List.mem_cons_of_mem e hx)]

/-- An expiry pass keeps the valid entries that are young enough. -/
theorem bindings_expire (entries : List ArpEntry) (curtime : Int) (ip : UInt32) :
    bindings (entries.map (expireOne curtime)) ip =
      (bindings entries ip).filter fun e => curtime - e.added ≤ srArpcacheTo := by
  induction entries with
  | nil => rfl
  | cons e rest ih =>
    have hrest : (rest.map (expireOne curtime)).filter (fun x => decide (x.Binds ip)) =
        (rest.filter fun x => decide (x.Binds ip)).filter
          fun e => curtime - e.added ≤ srArpcacheTo := ih
    rw [bindings, bindings, List.map_cons, List.filter_cons, List.filter_cons, hrest]
    by_cases binds : e.Binds ip
    · rw [if_pos (decide_eq_true binds)]
      by_cases old : curtime - e.added > srArpcacheTo
      · have expired : ¬ (expireOne curtime e).Binds ip := by
          rw [expireOne, if_pos ⟨binds.1, old⟩]
          exact fun h => Bool.false_ne_true h.1
        have late : ¬ curtime - e.added ≤ srArpcacheTo := Int.not_le.mpr old
        rw [if_neg (by rwa [decide_eq_true_iff]), List.filter_cons,
          if_neg fun h => late (of_decide_eq_true h)]
      · have kept : expireOne curtime e = e := if_neg fun h => old h.2
        have young : curtime - e.added ≤ srArpcacheTo := Int.not_lt.mp old
        rw [kept, if_pos (decide_eq_true binds), List.filter_cons, if_pos (decide_eq_true young)]
    · have unbound : ¬ (expireOne curtime e).Binds ip := by
        unfold expireOne
        split
        · exact fun h => Bool.false_ne_true h.1
        · exact binds
      rw [if_neg (by rwa [decide_eq_true_iff]), if_neg (by rwa [decide_eq_true_iff])]

/-! ## Runs of the table -/

/-- An insert or an expiry pass, with the reading of `time(NULL)` it makes. -/
inductive CacheOp where
  /-- `sr_arpcache_insert(cache, mac, ip)` -/
  | insert (mac : Mac) (ip : UInt32) (now : Int)
  /-- the expiry pass of `sr_arpcache_timeout` -/
  | timeout (now : Int)
  deriving DecidableEq, Repr

def CacheOp.now : CacheOp → Int
  | .insert _ _ now => now
  | .timeout now => now

/-- A cache and the last reading. -/
structure Clocked where
  cache : ArpCache
  now : Int
  deriving DecidableEq, Repr

def Clocked.apply (c : Clocked) : CacheOp → Clocked
  | .insert mac ip now => ⟨(c.cache.srArpcacheInsert mac ip now).1, now⟩
  | .timeout now => ⟨c.cache.expire now, now⟩

/-- A step; the clock does not run backwards. -/
def CacheStep (c : Clocked) (op : CacheOp) (c' : Clocked) : Prop :=
  c.now ≤ op.now ∧ c' = c.apply op

/-- The MAC and the time of the most recent insert for an IP. -/
def latest (ops : List CacheOp) (ip : UInt32) : Option (Mac × Int) :=
  ops.foldl (fun found op => match op with
    | .insert mac ip' now => if ip' = ip then some (mac, now) else found
    | .timeout _ => found) none

/-- The cache is a map to the latest binding: lookup finds it while it is at
most `SR_ARPCACHE_TO` seconds old, and no IP has two valid entries. -/
structure IsLatestMap (ops : List CacheOp) (c : Clocked) : Prop where
  found : ∀ ip mac added now, latest ops ip = some (mac, added) → c.now ≤ now →
    now - added ≤ srArpcacheTo → ∃ e, c.cache.srArpcacheLookup ip = some e ∧ e.mac = mac
  unique : ∀ ip, (bindings c.cache.entries ip).length ≤ 1

/-- An insert finds a free slot and no valid entry for its IP. -/
def Fits (c : Clocked) : CacheOp → Prop
  | .insert _ ip _ => (∃ e ∈ c.cache.entries, e.valid = false) ∧ bindings c.cache.entries ip = []
  | .timeout _ => True

instance (c : Clocked) : (op : CacheOp) → Decidable (Fits c op)
  | .insert _ _ _ => inferInstanceAs (Decidable (_ ∧ _))
  | .timeout _ => inferInstanceAs (Decidable True)

/-- While a binding is young enough its entry is the only one for its IP. -/
structure CacheInv (ops : List CacheOp) (c : Clocked) : Prop where
  kept : ∀ ip mac added, latest ops ip = some (mac, added) → c.now - added ≤ srArpcacheTo →
    ∃ e, bindings c.cache.entries ip = [e] ∧ e.mac = mac ∧ e.added = added
  unique : ∀ ip, (bindings c.cache.entries ip).length ≤ 1

theorem latest_insert (ops : List CacheOp) (mac : Mac) (ip ip' : UInt32) (now : Int) :
    latest (ops ++ [.insert mac ip now]) ip' =
      if ip = ip' then some (mac, now) else latest ops ip' := by
  rw [latest, List.foldl_append]
  rfl

theorem latest_timeout (ops : List CacheOp) (ip : UInt32) (now : Int) :
    latest (ops ++ [.timeout now]) ip = latest ops ip := by
  rw [latest, List.foldl_append]
  rfl

/-- The entries for an IP after an insert that fits. -/
theorem bindings_insert {c : Clocked} {mac : Mac} {ip : UInt32} {now : Int}
    (fits : Fits c (.insert mac ip now)) (ip' : UInt32) :
    (bindings (c.apply (.insert mac ip now)).cache.entries ip').Perm
      (if ip = ip' then [{ mac, ip, added := now, valid := true }]
        else bindings c.cache.entries ip') := by
  refine (bindings_store ip' rfl fits.1).trans ?_
  split
  · rename_i h
    rw [← h, fits.2]
  · exact .refl _

theorem cacheInv_step {ops : List CacheOp} {c c' : Clocked} {op : CacheOp} (h : CacheInv ops c)
    (hstep : CacheStep c op c') (fits : Fits c op) : CacheInv (ops ++ [op]) c' := by
  obtain ⟨clock, rfl⟩ := hstep
  cases op with
  | insert mac ip now =>
    have perm := bindings_insert fits
    constructor
    · intro ip' mac' added hlatest hyoung
      rw [latest_insert] at hlatest
      have hp := perm ip'
      split at hlatest
      · rename_i heq
        obtain ⟨rfl, rfl⟩ : mac = mac' ∧ now = added := by simpa using hlatest
        rw [if_pos heq] at hp
        exact ⟨_, List.perm_singleton.mp hp, rfl, rfl⟩
      · rename_i hne
        rw [if_neg hne] at hp
        have hclock : c.now ≤ now := clock
        have hnow : now - added ≤ srArpcacheTo := hyoung
        obtain ⟨e, he, hm, ha⟩ := h.kept ip' mac' added hlatest (by omega)
        rw [he] at hp
        exact ⟨e, List.perm_singleton.mp hp, hm, ha⟩
    · intro ip'
      rw [(perm ip').length_eq]
      split
      · exact le_rfl
      · exact h.unique ip'
  | timeout now =>
    have same : ∀ ip, bindings (c.apply (.timeout now)).cache.entries ip =
        (bindings c.cache.entries ip).filter fun e => now - e.added ≤ srArpcacheTo :=
      fun ip => bindings_expire c.cache.entries now ip
    constructor
    · intro ip mac added hlatest hyoung
      rw [latest_timeout] at hlatest
      have hclock : c.now ≤ now := clock
      have hnow : now - added ≤ srArpcacheTo := hyoung
      obtain ⟨e, he, hm, ha⟩ := h.kept ip mac added hlatest (by omega)
      refine ⟨e, ?_, hm, ha⟩
      rw [same, he, List.filter_singleton, ha, decide_eq_true hnow]
      rfl
    · intro ip
      rw [same]
      exact Nat.le_trans (List.length_filter_le _ _) (h.unique ip)

/-- **The cache is a map to the latest binding** in every state of every run
whose inserts all fit. -/
theorem cache_is_latest_map {start : Int} {ops : List CacheOp} {c : Clocked}
    (h : Run (Guarded CacheStep Fits) ⟨srArpcacheInit, start⟩ ops c) : IsLatestMap ops c := by
  have empty : ∀ ip, bindings srArpcacheInit.entries ip = [] := by
    intro ip
    rw [bindings, List.filter_eq_nil_iff]
    intro e he
    rw [List.eq_of_mem_replicate he]
    simp [ArpEntry.Binds]
  have init : CacheInv [] ⟨srArpcacheInit, start⟩ := by
    constructor
    · intro ip mac added hlatest
      cases hlatest
    · intro ip
      show (bindings srArpcacheInit.entries ip).length ≤ 1
      rw [empty]
      exact Nat.zero_le 1
  have inv : CacheInv ops c :=
    Run.history CacheInv init (fun _ ht hs => cacheInv_step ht hs.1 hs.2) h
  refine ⟨fun ip mac added now hlatest hnow hyoung => ?_, inv.unique⟩
  obtain ⟨e, he, hm, -⟩ := inv.kept ip mac added hlatest (by omega)
  exact ⟨e, by rw [srArpcacheLookup_eq, he]; rfl, hm⟩

/-- A binding is made, runs out after sixteen seconds, and is made anew. -/
theorem cache_is_latest_map_after_expiry :
    IsLatestMap [.insert ⟨[2, 0, 0, 0, 0, 1], rfl⟩ 1 10, .timeout 26,
        .insert ⟨[2, 0, 0, 0, 0, 2], rfl⟩ 1 26]
      (List.foldl Clocked.apply ⟨srArpcacheInit, 10⟩
        [.insert ⟨[2, 0, 0, 0, 0, 1], rfl⟩ 1 10, .timeout 26,
          .insert ⟨[2, 0, 0, 0, 0, 2], rfl⟩ 1 26]) :=
  cache_is_latest_map
    (run_foldl (fun c op => decide (c.now ≤ op.now ∧ Fits c op))
      (fun _ _ h => ⟨⟨(of_decide_eq_true h).1, rfl⟩, (of_decide_eq_true h).2⟩)
      (by decide +kernel))

/-- The slot of a binding for another IP runs out in front of the binding for
IP 1; the new binding for IP 1 goes there, and lookup still finds the old
MAC. -/
theorem reinsert_returns_stale_mac :
    ¬ ∀ (start : Int) (ops : List CacheOp) (c : Clocked),
      Run CacheStep ⟨srArpcacheInit, start⟩ ops c → IsLatestMap ops c := by
  intro general
  have h := general 1
    [.insert ⟨[2, 0, 0, 0, 0, 9], rfl⟩ 9 1, .insert ⟨[2, 0, 0, 0, 0, 1], rfl⟩ 1 10, .timeout 17,
      .insert ⟨[2, 0, 0, 0, 0, 2], rfl⟩ 1 17] _
    (run_foldl (fun c op => decide (c.now ≤ op.now))
      (fun _ _ h => ⟨of_decide_eq_true h, rfl⟩) (by decide +kernel))
  obtain ⟨e, found, mac⟩ := h.found 1 ⟨[2, 0, 0, 0, 0, 2], rfl⟩ 17 17 (by decide) (by decide)
    (by decide)
  revert found mac
  have stale : (List.foldl Clocked.apply ⟨srArpcacheInit, 1⟩
      [.insert ⟨[2, 0, 0, 0, 0, 9], rfl⟩ 9 1, .insert ⟨[2, 0, 0, 0, 0, 1], rfl⟩ 1 10,
        .timeout 17, .insert ⟨[2, 0, 0, 0, 0, 2], rfl⟩ 1 17]).cache.srArpcacheLookup 1 =
      some ⟨⟨[2, 0, 0, 0, 0, 1], rfl⟩, 1, 10, true⟩ := by decide +kernel
  rw [stale]
  rintro ⟨⟩ mac
  cases mac

/-- The condition is exact but for one case: an insert that does not fit leaves
the table wrong at once, unless the table is full and binds the IP to this
very MAC. -/
theorem unfit_insert_breaks {ops : List CacheOp} {c c' : Clocked} {mac : Mac} {ip : UInt32}
    {now : Int} (hstep : CacheStep c (.insert mac ip now) c')
    (unfit : ¬ Fits c (.insert mac ip now))
    (correct : IsLatestMap (ops ++ [.insert mac ip now]) c') :
    (∀ e ∈ c.cache.entries, e.valid = true) ∧
      ∃ e, bindings c.cache.entries ip = [e] ∧ e.mac = mac := by
  obtain ⟨-, rfl⟩ := hstep
  have unique := correct.unique ip
  by_cases free : ∃ e ∈ c.cache.entries, e.valid = false
  · -- the new entry joins one that is there already
    have bound : bindings c.cache.entries ip ≠ [] := fun none => unfit ⟨free, none⟩
    have perm : (bindings (store ⟨mac, ip, now, true⟩ c.cache.entries) ip).Perm
        (⟨mac, ip, now, true⟩ :: bindings c.cache.entries ip) := by
      simpa using @bindings_store ⟨mac, ip, now, true⟩ _ ip rfl free
    have two := perm.length_eq
    rw [List.length_cons] at two
    have one := List.length_pos_iff.mpr bound
    have atMost : (bindings (store ⟨mac, ip, now, true⟩ c.cache.entries) ip).length ≤ 1 := unique
    omega
  · have full : ∀ e ∈ c.cache.entries, e.valid = true := by
      intro e he
      by_contra hv
      exact free ⟨e, he, Bool.eq_false_iff.mpr hv⟩
    have same : (c.apply (.insert mac ip now)).cache.entries = c.cache.entries := store_full full
    refine ⟨full, ?_⟩
    obtain ⟨e, found, hmac⟩ := correct.found ip mac now now
      (by rw [latest_insert, if_pos rfl]) (Int.le_refl now) (by rw [sub_self]; decide)
    rw [srArpcacheLookup_eq, same] at found
    rw [same] at unique
    refine ⟨e, ?_, hmac⟩
    cases hb : bindings c.cache.entries ip with
    | nil =>
      rw [hb] at found
      cases found
    | cons x rest =>
      rw [hb, List.length_cons] at unique
      obtain rfl : rest = [] := List.length_eq_zero_iff.mp (by omega)
      rw [hb] at found
      obtain rfl : x = e := by simpa using found
      rfl

end NetLabs.Router

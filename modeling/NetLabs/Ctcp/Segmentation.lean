/-
NetLabs.Ctcp.Segmentation — is input segmented exactly once?

`ctcp_read` sends a block longer than `send_window` in pieces, and then the
block again. `blockReads` are the parts of `stdin_data` a turn copies into
segments, and `readBlock_copies` says that the turn queues them and nothing
else. They are the block, once and inside what `conn_input` stored, exactly if
the block fits the window (`segmentedOnce_iff`).
-/
import NetLabs.Ctcp.Read
import NetLabs.Ctcp.SendQueue

namespace NetLabs.Ctcp

open NetLabs.Lib

variable {env : Env}

/-! ## Reads with their windows -/

/-- A result of `conn_input`, and `send_window` as it is then. -/
structure WindowedRead where
  window : UInt16
  block : Block

namespace CtcpState

/-- A turn of `ctcp_read` on a read, with its window. -/
def readAt (env : Env) (s : CtcpState) (r : WindowedRead) : Option CtcpState :=
  { s with sendWindow := r.window }.readBlock env r.block

/-- The turns of `ctcp_read` on these reads, and the one on -1 or 0. -/
def readAll (env : Env) (s : CtcpState) (reads : List WindowedRead) (eof : Bool) :
    Option CtcpState := do
  let s ← reads.foldlM (readAt env) s
  some (if eof then s.readEof env else s)

end CtcpState

/-! ## What a turn copies -/

/-- A part of `stdin_data`. -/
structure Part where
  off : Nat
  size : Nat
  deriving DecidableEq, Repr

/-- The bytes of a part, of which those behind the block were not read. -/
def Block.part (b : Block) (p : Part) : List UInt8 := peek b.behind b.bytes p.off p.size

/-- The parts that `for(i=0;i<stdin_read_size;i += state->send_window)` copies,
for at most `fuel` turns. -/
def chunkReads (size window : Nat) : Nat → Nat → List Part
  | 0, _ => []
  | fuel + 1, i =>
      if i < size then ⟨i, window⟩ :: chunkReads size window fuel (i + window) else []

/-- The parts of `stdin_data` that a turn of `ctcp_read` copies into
segments. -/
def blockReads (window : UInt16) (b : Block) : List Part :=
  (if b.bytes.length > window.toNat then
    chunkReads b.bytes.length window.toNat (b.bytes.length + 1) 0
  else []) ++ [⟨0, b.bytes.length⟩]

theorem admitFlush_queuedPayloads (env : Env) (s : CtcpState) :
    (s.admitPending.flush env).1.queuedPayloads = s.queuedPayloads := by
  apply admitFlush_relation (fun s t => t.queuedPayloads = s.queuedPayloads) (fun _ => rfl)
    (fun h h' => h'.trans h)
  case admits =>
    intro s b rest
    simp [CtcpState.queuedPayloads, CtcpState.admitOne, CtcpState.log, Event.queuedPayload?]
  case transmit =>
    intro s visited b rest
    simp [CtcpState.queuedPayloads, CtcpState.transmitOne, CtcpState.log, Event.queuedPayload?]
  case limit => exact fun _ => rfl

/-- A call of `send_segment` for data queues the data. -/
theorem sendSegment_queues (env : Env) (s : CtcpState) (data : List UInt8) (flags : Int) :
    (s.sendSegment env data flags true).queuedPayloads = s.queuedPayloads ++ [data] := by
  rw [CtcpState.sendSegment, if_pos rfl, admitFlush_queuedPayloads]
  exact (enqueue_queue env s data flags).2.2.1

theorem sendControl_queuedPayloads (s : CtcpState) (data : List UInt8) (flags : Int) :
    (s.sendControl env data flags).queuedPayloads = s.queuedPayloads := by
  simp [CtcpState.queuedPayloads, CtcpState.sendControl, CtcpState.log, Event.queuedPayload?]

/-- The loop over the pieces copies its parts. -/
theorem chunkLoop_copies (env : Env) (b : Block) {s : CtcpState} (window : 0 < s.sendWindow.toNat)
    {fuel i : Nat} (enough : b.bytes.length - i < fuel) :
    ∃ t, CtcpState.chunkLoop env b fuel i s = some t ∧
      t.queuedPayloads = s.queuedPayloads ++
        (chunkReads b.bytes.length s.sendWindow.toNat fuel i).map b.part := by
  induction fuel generalizing i s with
  | zero => exact absurd enough (Nat.not_lt_zero _)
  | succ fuel ih =>
    rw [CtcpState.chunkLoop, chunkReads]
    by_cases more : i < b.bytes.length
    · have same := sendSegment_sameWindow env s (peek b.behind b.bytes i s.sendWindow.toNat)
        thAck.toNat true
      obtain ⟨t, loop, queued⟩ := ih (same.window ▸ window)
        (i := i + s.sendWindow.toNat) (by omega)
      rw [same.window, sendSegment_queues] at queued
      refine ⟨t, (if_pos more).trans loop, ?_⟩
      rw [queued, if_pos more, List.map_cons, List.append_assoc, List.singleton_append]
      rfl
    · exact ⟨s, if_neg more, by rw [if_neg more, List.map_nil, List.append_nil]⟩

theorem Block.part_whole (b : Block) : b.part ⟨0, b.bytes.length⟩ = b.bytes := by
  rw [Block.part, peek_eq_slice _ (le_of_eq (Nat.zero_add _)), slice, List.drop_zero,
    List.take_length]

/-- A turn of `ctcp_read` queues the parts it copies, and nothing else. -/
theorem readBlock_copies {s t : CtcpState} {b : Block} (h : s.readBlock env b = some t) :
    t.queuedPayloads = s.queuedPayloads ++ (blockReads s.sendWindow b).map b.part := by
  rw [CtcpState.readBlock] at h
  rw [blockReads, List.map_append, List.map_singleton, b.part_whole]
  by_cases long : b.bytes.length > s.sendWindow.toNat
  · have more : 0 < b.bytes.length := List.length_pos_iff.mpr b.nonempty
    rw [if_pos long] at h
    rcases Nat.eq_zero_or_pos s.sendWindow.toNat with zero | positive
    · rw [chunkLoop_zero zero more] at h
      cases h
    · obtain ⟨u, loop, queued⟩ := chunkLoop_copies env b positive
        (show b.bytes.length - 0 < b.bytes.length + 1 by omega)
      rw [loop] at h
      obtain rfl := Option.some.inj h
      rw [sendSegment_queues, queued, if_pos long, List.append_assoc]
  · rw [if_neg long] at h
    obtain rfl := Option.some.inj h
    rw [sendSegment_queues, if_neg long, List.map_nil, List.nil_append]

/-- Where the window is 0 no piece gets anywhere. -/
theorem readBlock_window {s t : CtcpState} {b : Block} (h : s.readBlock env b = some t) :
    0 < s.sendWindow.toNat := by
  have more : 0 < b.bytes.length := List.length_pos_iff.mpr b.nonempty
  refine Nat.pos_of_ne_zero fun zero => ?_
  rw [CtcpState.readBlock, if_pos (by omega), chunkLoop_zero zero more] at h
  cases h

theorem readBlock_short {s : CtcpState} {b : Block}
    (fits : b.bytes.length ≤ s.sendWindow.toNat) :
    s.readBlock env b = some (s.sendSegment env b.bytes thAck.toNat true) := by
  rw [CtcpState.readBlock, if_neg (Nat.not_lt.mpr fits)]
  rfl

theorem chunkLoop_sameWindow {b : Block} {fuel i : Nat} {s t : CtcpState}
    (h : CtcpState.chunkLoop env b fuel i s = some t) : t.sendWindow = s.sendWindow := by
  induction fuel generalizing i s with
  | zero => cases h
  | succ fuel ih =>
    rw [CtcpState.chunkLoop] at h
    split at h
    · have same := sendSegment_sameWindow env s (peek b.behind b.bytes i s.sendWindow.toNat)
        thAck.toNat true
      exact (ih h).trans same.window
    · obtain rfl := Option.some.inj h
      rfl

/-- A turn of `ctcp_read` does not change the window. -/
theorem readBlock_sameWindow {s t : CtcpState} {b : Block} (h : s.readBlock env b = some t) :
    t.sendWindow = s.sendWindow := by
  have last := fun u => (sendSegment_sameWindow env u b.bytes thAck.toNat true).window
  rw [CtcpState.readBlock] at h
  split at h
  · obtain ⟨u, loop, rest⟩ := Option.bind_eq_some_iff.mp h
    obtain rfl := Option.some.inj rest
    exact (last u).trans (chunkLoop_sameWindow loop)
  · obtain rfl := Option.some.inj h
    exact last s

/-! ## All reads -/

namespace WindowedRead

/-- The read fits the window. -/
def Fits (r : WindowedRead) : Prop := r.block.bytes.length ≤ r.window.toNat

/-- What its turn passes to `send_segment`. -/
def copies (r : WindowedRead) : List (List UInt8) := (blockReads r.window r.block).map r.block.part

theorem blockReads_of_fits {r : WindowedRead} (fits : r.Fits) :
    blockReads r.window r.block = [⟨0, r.block.bytes.length⟩] := by
  rw [blockReads, if_neg (Nat.not_lt.mpr fits), List.nil_append]

theorem copies_of_fits {r : WindowedRead} (fits : r.Fits) : r.copies = [r.block.bytes] := by
  rw [copies, blockReads_of_fits fits, List.map_singleton, r.block.part_whole]

/-- A turn passes the block, and the pieces before it. -/
theorem length_copies (r : WindowedRead) :
    r.block.bytes.length ≤ r.copies.flatten.length := by
  rw [copies, blockReads, List.map_append, List.flatten_append, List.map_singleton,
    r.block.part_whole, List.flatten_singleton, List.length_append]
  exact Nat.le_add_left _ _

/-- The first piece of a block that does not fit is not empty. -/
theorem length_copies_lt {r : WindowedRead} (window : 0 < r.window.toNat) (long : ¬ r.Fits) :
    r.block.bytes.length < r.copies.flatten.length := by
  have more : 0 < r.block.bytes.length := List.length_pos_iff.mpr r.block.nonempty
  rw [copies, blockReads, if_pos (Nat.not_le.mp long), chunkReads, if_pos more, List.map_append,
    List.flatten_append, List.map_singleton, r.block.part_whole, List.flatten_singleton,
    List.length_append, List.map_cons, List.flatten_cons, List.length_append, Block.part,
    length_peek]
  dsimp only
  omega

end WindowedRead

/-- The turns queue what they copy; none of them has a window of 0. -/
theorem readAt_run {s t : CtcpState} {reads : List WindowedRead}
    (h : reads.foldlM (CtcpState.readAt env) s = some t) :
    t.queuedPayloads = s.queuedPayloads ++ reads.flatMap WindowedRead.copies ∧
      ∀ r ∈ reads, 0 < r.window.toNat := by
  induction reads generalizing s with
  | nil =>
    obtain rfl := Option.some.inj h
    exact ⟨(List.append_nil _).symm, nofun⟩
  | cons r rest ih =>
    rw [List.foldlM_cons] at h
    obtain ⟨u, first, others⟩ := Option.bind_eq_some_iff.mp h
    obtain ⟨queued, windows⟩ := ih others
    constructor
    · rw [queued, readBlock_copies first, List.flatMap_cons, List.append_assoc]
      rfl
    · rw [List.forall_mem_cons]
      exact ⟨readBlock_window first, windows⟩

/-- Where a read does not fit its window, more is passed than was read. -/
theorem length_read_lt {reads : List WindowedRead} (windows : ∀ r ∈ reads, 0 < r.window.toNat)
    {r : WindowedRead} (hr : r ∈ reads) (long : ¬ r.Fits) :
    (reads.flatMap (·.block.bytes)).length <
      (reads.flatMap WindowedRead.copies).flatten.length := by
  have atLeast : ∀ reads : List WindowedRead, (reads.flatMap (·.block.bytes)).length ≤
      (reads.flatMap WindowedRead.copies).flatten.length := by
    intro reads
    induction reads with
    | nil => exact le_rfl
    | cons r rest ih =>
      rw [List.flatMap_cons, List.flatMap_cons, List.flatten_append, List.length_append,
        List.length_append]
      exact Nat.add_le_add r.length_copies ih
  obtain ⟨before, after, rfl⟩ := List.append_of_mem hr
  have more := WindowedRead.length_copies_lt (windows r hr) long
  have first := atLeast before
  have rest := atLeast after
  simp only [List.flatMap_append, List.flatMap_cons, List.flatten_append, List.length_append]
  omega

/-- Where all fit, what is passed is what was read. -/
theorem copies_flatten {reads : List WindowedRead} (fits : ∀ r ∈ reads, r.Fits) :
    (reads.flatMap WindowedRead.copies).flatten = reads.flatMap (·.block.bytes) := by
  induction reads with
  | nil => rfl
  | cons r rest ih =>
    obtain ⟨first, others⟩ := List.forall_mem_cons.mp fits
    rw [List.flatMap_cons, List.flatMap_cons, List.flatten_append, ih others,
      WindowedRead.copies_of_fits first, List.flatten_singleton]

theorem readEof_queuedPayloads (env : Env) (s : CtcpState) :
    (s.readEof env).queuedPayloads = s.queuedPayloads := by
  rw [CtcpState.readEof]
  split
  · rfl
  · split
    · exact sendControl_queuedPayloads s [] _
    · exact sendControl_queuedPayloads s [] _

theorem last_queuedPayloads (env : Env) (s : CtcpState) (eof : Bool) :
    (if eof then s.readEof env else s).queuedPayloads = s.queuedPayloads := by
  cases eof with
  | false => rfl
  | true => exact readEof_queuedPayloads env s

/-! ## Segmentation -/

/-- The calls end, read only what `conn_input` stored, and pass to
`send_segment` the bytes that were read. -/
structure SegmentedOnce (env : Env) (s : CtcpState) (reads : List WindowedRead) (eof : Bool) :
    Prop where
  ends : ∃ t, s.readAll env reads eof = some t ∧
    ∃ passed, t.queuedPayloads = s.queuedPayloads ++ passed ∧
      passed.flatten = reads.flatMap (·.block.bytes)
  inside : ∀ r ∈ reads, ∀ p ∈ blockReads r.window r.block, p.off + p.size ≤ r.block.bytes.length

/-- In one call of `ctcp_read` all reads meet the same window. -/
theorem read_eq_readAll (env : Env) (s : CtcpState) (blocks : List Block) (eof : Bool) :
    s.read env blocks eof = s.readAll env (blocks.map (⟨s.sendWindow, ·⟩)) eof := by
  have turns : ∀ (blocks : List Block) (t : CtcpState), t.sendWindow = s.sendWindow →
      blocks.foldlM (CtcpState.readBlock env) t =
        (blocks.map (WindowedRead.mk s.sendWindow)).foldlM (CtcpState.readAt env) t := by
    intro blocks
    induction blocks with
    | nil => exact fun _ _ => rfl
    | cons b rest ih =>
      intro t window
      have first : CtcpState.readAt env t ⟨s.sendWindow, b⟩ = t.readBlock env b := by
        rw [CtcpState.readAt, ← window]
      rw [List.map_cons, List.foldlM_cons, List.foldlM_cons, first]
      cases turn : t.readBlock env b with
      | none => rfl
      | some u => exact ih u ((readBlock_sameWindow turn).trans window)
  rw [CtcpState.read, CtcpState.readAll, turns blocks s rfl]

theorem readAll_of_fits (env : Env) {reads : List WindowedRead} (s : CtcpState)
    (fits : ∀ r ∈ reads, r.Fits) : ∃ t, reads.foldlM (CtcpState.readAt env) s = some t := by
  induction reads generalizing s with
  | nil => exact ⟨s, rfl⟩
  | cons r rest ih =>
    obtain ⟨first, others⟩ := List.forall_mem_cons.mp fits
    have turn : CtcpState.readAt env s r = _ :=
      readBlock_short (s := { s with sendWindow := r.window }) first
    rw [List.foldlM_cons, turn]
    exact ih _ others

/-- What is segmented once fits its windows. -/
theorem SegmentedOnce.fits {s : CtcpState} {reads : List WindowedRead} {eof : Bool}
    (h : SegmentedOnce env s reads eof) : ∀ r ∈ reads, r.Fits := by
  obtain ⟨t, returns, passed, queued, same⟩ := h.ends
  obtain ⟨u, turns, rest⟩ := Option.bind_eq_some_iff.mp returns
  obtain rfl := Option.some.inj rest
  obtain ⟨copied, windows⟩ := readAt_run turns
  rw [last_queuedPayloads, copied, List.append_cancel_left_eq] at queued
  intro r hr
  by_contra long
  have more := length_read_lt windows hr long
  rw [queued, same] at more
  exact Nat.lt_irrefl _ more

/-- **Input is segmented once** exactly if every read fits the window it
meets. -/
theorem segmentedOnce_iff (env : Env) (s : CtcpState) (reads : List WindowedRead) (eof : Bool) :
    SegmentedOnce env s reads eof ↔ ∀ r ∈ reads, r.block.bytes.length ≤ r.window.toNat := by
  constructor
  · exact SegmentedOnce.fits
  · intro fits
    obtain ⟨u, turns⟩ := readAll_of_fits env s fits
    constructor
    · refine ⟨if eof then u.readEof env else u, ?_, _, ?_, copies_flatten fits⟩
      · rw [CtcpState.readAll, turns]
        rfl
      · rw [last_queuedPayloads, (readAt_run turns).1]
    · intro r hr p hp
      rw [WindowedRead.blockReads_of_fits (fits r hr), List.mem_singleton] at hp
      subst hp
      exact le_of_eq (Nat.zero_add _)

/-- Three bytes are read while the window is 2. -/
def narrowRead : WindowedRead where
  window := 2
  block :=
    { bytes := [97, 98, 10]
      nonempty := List.cons_ne_nil _ _
      fits := Nat.le_of_ble_eq_true rfl
      behind := fun _ => 0 }

/-- Three bytes read while the window is 2 are sent as two pieces, the second of
which ends behind them, and then again. -/
theorem narrow_read_is_repeated :
    ¬ ∀ (s : CtcpState) (reads : List WindowedRead) (eof : Bool),
      SegmentedOnce (.plain .little) s reads eof := by
  intro general
  have fits := (general (.fresh (.plain .little)) [narrowRead] false).fits narrowRead
    (List.mem_singleton.mpr rfl)
  revert fits
  rw [WindowedRead.Fits]
  decide

end NetLabs.Ctcp

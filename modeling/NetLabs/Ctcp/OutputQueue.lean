/-
NetLabs.Ctcp.OutputQueue — the output of a connection, `conn_output`,
`conn_drain` and `conn_bufspace` of `lab3/ctcp_sys_internal.c`.

A buffer is written at once as far as the descriptor takes it, and the rest
waits in a chunk behind the chunks that wait already. The results of `write`
are a sequence nobody controls. `written` and `calls` are not in the source:
the bytes the descriptor took, and the calls of `conn_output` with what they
returned. The bits `POLLOUT` in `events` and the messages on `stderr` are
left out.

Nothing is lost, repeated or reordered: what was written and what still waits
is the concatenation of the buffers whose call returned their length
(`output_lossless`).
-/
import NetLabs.Lib.Lts
import NetLabs.Lib.TailQueue
import NetLabs.Lib.CNumber
import Mathlib.Algebra.GroupWithZero.Nat

namespace NetLabs.Ctcp

open NetLabs.Lib

/-! ## The state -/

/-- `MAX_BUF_SPACE`. -/
def maxBufSpace : Nat := 8192

/-- What `write(fd, buf, len)` returns: the number of bytes it took, of which
it never takes more than `len`, or an error. -/
inductive WriteResult where
  | wrote (n : Nat)
  /-- `-1`, with `errno == EAGAIN` -/
  | again
  /-- `-1`, with any other `errno` -/
  | error
  deriving DecidableEq, Repr

/-- `struct chunk`. -/
structure Chunk where
  size : Nat
  used : Nat
  buf : List UInt8
  deriving DecidableEq, Repr

/-- The fields of `conn_t` that output uses. `out_queue` and `out_queue_tail`
are the linked queue `outQueue`. -/
structure OutputConn where
  outQueue : TailQueue Chunk
  wroteEof : Bool
  wroteErr : Bool
  deleteMe : Bool
  /-- The chunks allocated so far, so that addresses differ. -/
  allocations : Nat
  /-- The calls of `write` so far. -/
  writes : Nat
  written : List UInt8
  calls : List (List UInt8 × Int)
  deriving DecidableEq, Repr

/-- A connection that was cleared by `calloc`, and whose tail pointer `conn_add`
has set. -/
def OutputConn.new : OutputConn where
  outQueue := .empty
  wroteEof := false
  wroteErr := false
  deleteMe := false
  allocations := 0
  writes := 0
  written := []
  calls := []

variable (results : Nat → WriteResult)

namespace OutputConn

/-! ## The functions -/

/-- `conn_bufspace(conn)`. -/
def connBufspace (c : OutputConn) : Nat :=
  let used := (c.outQueue.nodes.map fun n => n.2.size - n.2.used).sum
  if used > maxBufSpace then 0 else maxBufSpace - used

/-- `write` takes these bytes. -/
def take (c : OutputConn) (data : List UInt8) : OutputConn :=
  { c with written := c.written ++ data, writes := c.writes + 1 }

/-- "Put the rest in an output queue": `left` bytes of `buf`. -/
def putRest (c : OutputConn) (buf : List UInt8) (left : Int) : Option OutputConn :=
  if left > 0 then
    let chunk : Chunk := { size := left.toNat, used := 0, buf := buf.take left.toNat }
    (c.outQueue.append c.allocations chunk).map fun q =>
      { c with outQueue := q, allocations := c.allocations + 1 }
  else some c

/-- `conn_output(conn, buf, len)`, with `len` the length of the buffer, and
what it returns. -/
def connOutput (c : OutputConn) (buf : List UInt8) : Option (OutputConn × Int) :=
  let len : Int := wrapInt buf.length
  if c.wroteEof then some (c, 0)
  else if buf.length = 0 then some ({ c with wroteEof := true }, 0)
  else if c.wroteErr then some (c, -1)
  else if c.connBufspace = 0 then some (c, 0)
  else if c.outQueue.nodes = [] then
    match results c.writes with
    | .error => some ({ c with wroteErr := true, writes := c.writes + 1 }, -1)
    | .again => ({ c with writes := c.writes + 1 }.putRest buf len).map (·, len)
    | .wrote n =>
        let w := min n buf.length
        ((c.take (buf.take w)).putRest (buf.drop w) (len - w)).map (·, len)
  else (c.putRest buf len).map (·, len)

/-- `while ((chunk = conn->out_queue))`, and whether a `write` succeeded. -/
def drainLoop : List (Nat × Chunk) → OutputConn → Bool → OutputConn × Bool
  | [], c, outputted => (c, outputted)
  | n :: rest, c, outputted =>
      match results c.writes with
      | .error => ({ c with writes := c.writes + 1, wroteErr := true }, outputted)
      | .again => ({ c with writes := c.writes + 1 }, outputted)
      | .wrote k =>
          let chunk := n.2
          let w := min k (chunk.size - chunk.used)
          let c := c.take ((chunk.buf.drop chunk.used).take w)
          if chunk.used + w < chunk.size then
            ({ c with outQueue := c.outQueue.setFront { chunk with used := chunk.used + w } }, true)
          else drainLoop rest { c with outQueue := c.outQueue.advance } true

/-- `conn_drain(conn)`, and whether it calls `ctcp_output`. -/
def connDrain (c : OutputConn) : OutputConn × Bool :=
  if c.wroteErr then (c, false)
  else
    let (c, outputted) := drainLoop results c.outQueue.nodes c false
    let c := if c.wroteEof ∧ ¬ c.wroteErr ∧ c.outQueue.nodes = [] then
        { c with wroteErr := true } else c
    (c, outputted && !c.deleteMe)

end OutputConn

/-! ## What was written and what waits -/

/-- The bytes of a chunk that wait to be written. -/
def Chunk.rest (chunk : Chunk) : List UInt8 := chunk.buf.drop chunk.used

namespace OutputConn

/-- The bytes that wait to be written. -/
def unwritten (c : OutputConn) : List UInt8 := c.outQueue.nodes.flatMap fun n => n.2.rest

/-- The buffers for which `conn_output` returned their length, in call
order. -/
def accepted (c : OutputConn) : List UInt8 :=
  (c.calls.filter fun call => call.2 = call.1.length).flatMap Prod.fst

/-- The queue is linked as it should be, and every chunk has bytes left. -/
structure Sound (c : OutputConn) : Prop where
  linked : c.outQueue.WellFormed
  fresh : ∀ n ∈ c.outQueue.nodes, n.1 < c.allocations
  sized : ∀ n ∈ c.outQueue.nodes, n.2.size = n.2.buf.length ∧ n.2.used < n.2.size

theorem sound_new : Sound new :=
  ⟨TailQueue.wellFormed_empty, fun _ h => absurd h List.not_mem_nil,
    fun _ h => absurd h List.not_mem_nil⟩

/-- The space is what the waiting bytes leave of 8192. -/
theorem connBufspace_eq {c : OutputConn} (h : c.Sound) :
    c.connBufspace = maxBufSpace - c.unwritten.length := by
  have used : (c.outQueue.nodes.map fun n => n.2.size - n.2.used) =
      c.outQueue.nodes.map fun n => n.2.rest.length := by
    refine List.map_congr_left fun n hn => ?_
    rw [Chunk.rest, List.length_drop, (h.sized n hn).1]
  rw [connBufspace, used, unwritten, List.length_flatMap]
  split <;> omega

/-- The rest of a buffer goes behind what waits. -/
theorem putRest_spec {c : OutputConn} (h : c.Sound) (buf : List UInt8) {left : Int}
    (hleft : left = buf.length) :
    ∃ c', c.putRest buf left = some c' ∧ c'.Sound ∧ c'.written = c.written ∧
      c'.unwritten = c.unwritten ++ buf ∧ c'.calls = c.calls := by
  subst hleft
  rw [putRest]
  split
  · rename_i pos
    have unused : c.allocations ∉ c.outQueue.addrs := by
      intro hmem
      obtain ⟨n, hn, heq⟩ := List.mem_map.mp hmem
      exact absurd (h.fresh n hn) (heq ▸ Nat.lt_irrefl _)
    obtain ⟨q, hq, nodes, linked⟩ := TailQueue.append_spec h.linked
      ({ size := buf.length, used := 0, buf := buf } : Chunk) unused
    refine ⟨{ c with outQueue := q, allocations := c.allocations + 1 }, ?_, ⟨linked, ?_, ?_⟩,
      rfl, ?_, rfl⟩
    · simp [hq]
    · intro n hn
      rw [nodes, List.mem_append, List.mem_singleton] at hn
      rcases hn with hn | rfl
      · exact Nat.lt_succ_of_lt (h.fresh n hn)
      · exact Nat.lt_succ_self _
    · intro n hn
      rw [nodes, List.mem_append, List.mem_singleton] at hn
      rcases hn with hn | rfl
      · exact h.sized n hn
      · exact ⟨rfl, by simpa using pos⟩
    · simp [unwritten, nodes, Chunk.rest]
  · rename_i none
    obtain rfl : buf = [] := by
      rw [← List.length_eq_zero_iff]
      omega
    exact ⟨c, rfl, h, rfl, (List.append_nil _).symm, rfl⟩

/-! ## `conn_output` -/

/-- Nothing but the queue and the addresses matters to `Sound`. -/
theorem Sound.of_queue {c c' : OutputConn} (h : c.Sound) (queue : c'.outQueue = c.outQueue)
    (allocations : c'.allocations = c.allocations) : c'.Sound :=
  ⟨queue ▸ h.linked, queue ▸ allocations ▸ h.fresh, queue ▸ h.sized⟩

/-- What a call of `conn_output` did: it took all of the buffer or nothing,
and what it returned tells which. -/
structure Outputs (c : OutputConn) (buf : List UInt8) (c' : OutputConn) (r : Int) : Prop where
  sound : c'.Sound
  calls : c'.calls = c.calls
  waits : c'.unwritten.length ≤ c.unwritten.length + buf.length
  bytes : (r = buf.length ∧ c'.written ++ c'.unwritten = c.written ++ c.unwritten ++ buf) ∨
    (r ≠ buf.length ∧ c'.written ++ c'.unwritten = c.written ++ c.unwritten)

/-- The call returned without touching the queue. -/
theorem outputs_refused {c c' : OutputConn} (h : c.Sound) {buf : List UInt8} {r : Int}
    (queue : c'.outQueue = c.outQueue) (allocations : c'.allocations = c.allocations)
    (written : c'.written = c.written) (calls : c'.calls = c.calls)
    (refused : r ≠ buf.length ∨ r = buf.length ∧ buf = []) : Outputs c buf c' r := by
  have same : c'.unwritten = c.unwritten := by rw [unwritten, queue, unwritten]
  refine ⟨h.of_queue queue allocations, calls, same ▸ Nat.le_add_right _ _, ?_⟩
  rw [written, same]
  rcases refused with hr | ⟨hr, rfl⟩
  · exact .inr ⟨hr, rfl⟩
  · exact .inl ⟨hr, (List.append_nil _).symm⟩

/-- The call wrote a piece of the buffer, possibly none of it, and queued the
rest. -/
theorem outputs_queued {c : OutputConn} (h : c.Sound) (d : OutputConn) {buf : List UInt8}
    (piece rest : List UInt8) {left : Int} (queue : d.outQueue = c.outQueue)
    (allocations : d.allocations = c.allocations)
    (written : d.written ++ c.unwritten = c.written ++ c.unwritten ++ piece)
    (calls : d.calls = c.calls) (split : piece ++ rest = buf) (hleft : left = rest.length) :
    ∃ c', d.putRest rest left = some c' ∧ Outputs c buf c' buf.length := by
  have same : d.unwritten = c.unwritten := by rw [unwritten, queue, unwritten]
  obtain ⟨c', hput, sound, hwritten, hwaits, hcalls⟩ :=
    putRest_spec (h.of_queue queue allocations) rest hleft
  refine ⟨c', hput, sound, hcalls.trans calls, ?_, .inl ⟨rfl, ?_⟩⟩
  · rw [hwaits, same, List.length_append, ← split, List.length_append]
    omega
  · rw [hwritten, hwaits, same, ← List.append_assoc, written, ← split]
    simp only [List.append_assoc]

theorem connOutput_spec {c : OutputConn} (h : c.Sound) {buf : List UInt8}
    (short : buf.length < 2147483648) :
    ∃ c' r, c.connOutput results buf = some (c', r) ∧ Outputs c buf c' r := by
  have len : wrapInt buf.length = buf.length := by
    rw [wrapInt, Int.bmod_eq_of_le] <;> omega
  rw [connOutput]
  dsimp only
  rw [len]
  by_cases heof : c.wroteEof
  · rw [if_pos heof]
    refine ⟨c, 0, rfl, outputs_refused h rfl rfl rfl rfl ?_⟩
    rcases buf with - | ⟨x, xs⟩
    · exact .inr ⟨rfl, rfl⟩
    · exact .inl (by simp; omega)
  rw [if_neg heof]
  by_cases hempty : buf.length = 0
  · rw [if_pos hempty]
    refine ⟨_, 0, rfl, outputs_refused h rfl rfl rfl rfl (.inr ⟨?_, ?_⟩)⟩
    · rw [hempty]
      rfl
    · exact List.length_eq_zero_iff.mp hempty
  rw [if_neg hempty]
  by_cases herr : c.wroteErr
  · rw [if_pos herr]
    exact ⟨c, -1, rfl, outputs_refused h rfl rfl rfl rfl (.inl (by omega))⟩
  rw [if_neg herr]
  by_cases hfull : c.connBufspace = 0
  · rw [if_pos hfull]
    exact ⟨c, 0, rfl, outputs_refused h rfl rfl rfl rfl (.inl (by omega))⟩
  rw [if_neg hfull]
  by_cases hqueue : c.outQueue.nodes = []
  · have idle : c.unwritten = [] := by rw [unwritten, hqueue]; rfl
    rw [if_pos hqueue]
    split
    · exact ⟨_, -1, rfl, outputs_refused h rfl rfl rfl rfl (.inl (by omega))⟩
    · obtain ⟨c', hput, hout⟩ := outputs_queued h { c with writes := c.writes + 1 } [] buf
        rfl rfl (List.append_nil _).symm rfl rfl rfl
      exact ⟨c', _, by rw [hput]; rfl, hout⟩
    · rename_i n _
      have left : (buf.length : Int) - (min n buf.length : Nat) =
          (buf.drop (min n buf.length)).length := by
        rw [List.length_drop]
        omega
      obtain ⟨c', hput, hout⟩ := outputs_queued h (c.take (buf.take (min n buf.length)))
        (buf.take (min n buf.length)) (buf.drop (min n buf.length)) rfl rfl
        (by simp [take, idle]) rfl (List.take_append_drop _ _) left
      exact ⟨c', _, by rw [hput]; rfl, hout⟩
  · rw [if_neg hqueue]
    obtain ⟨c', hput, hout⟩ := outputs_queued h c [] buf rfl rfl (List.append_nil _).symm
      rfl rfl rfl
    exact ⟨c', _, by rw [hput]; rfl, hout⟩

/-! ## `conn_drain` -/

/-- What a loop that writes from the queue did to the bytes: they are the
same, more of them written. -/
structure Drains (c c' : OutputConn) : Prop where
  sound : c'.Sound
  calls : c'.calls = c.calls
  bytes : c'.written ++ c'.unwritten = c.written ++ c.unwritten

theorem unwritten_cons {c : OutputConn} {n : Nat × Chunk} {ns : List (Nat × Chunk)}
    (queue : c.outQueue.nodes = n :: ns) :
    c.unwritten = n.2.rest ++ ns.flatMap fun m => m.2.rest := by
  rw [unwritten, queue, List.flatMap_cons]

/-- A part of the first chunk is written; the chunk stays, with less of it
left. -/
theorem drains_part {c : OutputConn} (h : c.Sound) {n : Nat × Chunk} {ns : List (Nat × Chunk)}
    (queue : c.outQueue.nodes = n :: ns) {w : Nat} (part : n.2.used + w < n.2.size) :
    Drains c { c.take (n.2.rest.take w) with
      outQueue := c.outQueue.setFront { n.2 with used := n.2.used + w } } := by
  have nodes := TailQueue.nodes_setFront queue { n.2 with used := n.2.used + w }
  have fresh := h.fresh
  have sized := h.sized
  rw [queue, List.forall_mem_cons] at fresh sized
  refine ⟨⟨h.linked.setFront _, ?_, ?_⟩, rfl, ?_⟩
  · rw [nodes, List.forall_mem_cons]
    exact fresh
  · rw [nodes, List.forall_mem_cons]
    exact ⟨⟨sized.1.1, part⟩, sized.2⟩
  · have left : n.2.rest.take w ++ n.2.buf.drop (n.2.used + w) = n.2.rest := by
      rw [Chunk.rest, ← List.drop_drop, List.take_append_drop]
    rw [unwritten_cons nodes, unwritten_cons queue]
    show c.written ++ n.2.rest.take w ++ (n.2.buf.drop (n.2.used + w) ++ _) = _
    rw [List.append_assoc, ← List.append_assoc (n.2.rest.take w), left]

/-- All that is left of the first chunk is written, and the chunk leaves. -/
theorem drains_whole {c : OutputConn} (h : c.Sound) {n : Nat × Chunk} {ns : List (Nat × Chunk)}
    (queue : c.outQueue.nodes = n :: ns) :
    Drains c { c.take n.2.rest with outQueue := c.outQueue.advance } := by
  have nodes : c.outQueue.advance.nodes = ns := by
    rw [TailQueue.nodes_advance, queue, List.tail_cons]
  have fresh := h.fresh
  have sized := h.sized
  rw [queue, List.forall_mem_cons] at fresh sized
  refine ⟨⟨h.linked.advance, ?_, ?_⟩, rfl, ?_⟩
  · rw [nodes]
    exact fresh.2
  · rw [nodes]
    exact sized.2
  · rw [unwritten_cons queue, unwritten, nodes, ← List.append_assoc]
    rfl

/-- The loop writes from the front. A `write` that fails changes no byte. -/
theorem drainLoop_spec (ns : List (Nat × Chunk)) {c : OutputConn} (outputted : Bool) (h : c.Sound)
    (queue : c.outQueue.nodes = ns) : Drains c (drainLoop results ns c outputted).1 := by
  induction ns generalizing c outputted with
  | nil => exact ⟨h, rfl, rfl⟩
  | cons n rest ih =>
    rw [drainLoop]
    split
    · exact ⟨h.of_queue rfl rfl, rfl, rfl⟩
    · exact ⟨h.of_queue rfl rfl, rfl, rfl⟩
    · rename_i k _
      dsimp only
      split
      · rename_i part
        exact drains_part h queue part
      · rename_i whole
        have all : (n.2.buf.drop n.2.used).take (min k (n.2.size - n.2.used)) = n.2.rest := by
          refine List.take_of_length_le ?_
          rw [List.length_drop, ← (h.sized n (queue ▸ List.mem_cons_self)).1]
          omega
        have nodes : c.outQueue.advance.nodes = rest := by
          rw [TailQueue.nodes_advance, queue, List.tail_cons]
        rw [all]
        obtain ⟨sound, calls, bytes⟩ := drains_whole h queue
        have later := ih true sound nodes
        exact ⟨later.sound, later.calls.trans calls, later.bytes.trans bytes⟩

theorem connDrain_spec {c : OutputConn} (h : c.Sound) : Drains c (c.connDrain results).1 := by
  have loop := drainLoop_spec results c.outQueue.nodes false h rfl
  rw [connDrain]
  split
  · exact ⟨h, rfl, rfl⟩
  · dsimp only
    split
    · exact ⟨loop.sound.of_queue rfl rfl, loop.calls, loop.bytes⟩
    · exact loop

/-! ## Runs -/

end OutputConn

/-- What happens to the output of a connection. -/
inductive OutputOp where
  /-- `conn_output(conn, buf, len)` -/
  | output (buf : List UInt8)
  /-- `conn_drain(conn)` -/
  | drain
  /-- `conn_remove(conn)` -/
  | remove
  deriving DecidableEq, Repr

/-- The length of the buffer fits the `int` that `conn_output` keeps it in.
The callers take it from a 16-bit field. -/
def OutputOp.Short : OutputOp → Prop
  | .output buf => buf.length < 2147483648
  | _ => True

instance : DecidablePred OutputOp.Short
  | .output _ => inferInstanceAs (Decidable (_ < _))
  | .drain | .remove => inferInstanceAs (Decidable True)

namespace OutputConn

def apply (c : OutputConn) : OutputOp → Option OutputConn
  | .output buf => (c.connOutput results buf).map fun r =>
      { r.1 with calls := r.1.calls ++ [(buf, r.2)] }
  | .drain => some (c.connDrain results).1
  | .remove => some { c with deleteMe := true }

/-- The queue is sound and no byte of an accepted buffer is missing. -/
structure Lossless (c : OutputConn) : Prop where
  sound : c.Sound
  bytes : c.written ++ c.unwritten = c.accepted

theorem accepted_concat (c : OutputConn) (call : List UInt8 × Int) :
    { c with calls := c.calls ++ [call] }.accepted =
      c.accepted ++ if call.2 = call.1.length then call.1 else [] := by
  rw [accepted, List.filter_append, List.flatMap_append]
  by_cases h : call.2 = call.1.length
  · simp [accepted, h]
  · simp [accepted, h]

theorem lossless_apply {c : OutputConn} {op : OutputOp} (h : c.Lossless) (short : op.Short) :
    ∃ c', c.apply results op = some c' ∧ c'.Lossless := by
  cases op with
  | output buf =>
    obtain ⟨c', r, hout, spec⟩ := connOutput_spec results h.sound short
    refine ⟨{ c' with calls := c'.calls ++ [(buf, r)] }, by rw [apply, hout]; rfl,
      spec.sound.of_queue rfl rfl, ?_⟩
    have before : c'.accepted = c.accepted := by rw [accepted, spec.calls, accepted]
    rw [accepted_concat, before, ← h.bytes]
    rcases spec.bytes with ⟨hr, bytes⟩ | ⟨hr, bytes⟩
    · rw [if_pos hr]
      exact bytes
    · rw [if_neg hr, List.append_nil]
      exact bytes
  | drain =>
    obtain ⟨sound, calls, bytes⟩ := connDrain_spec results h.sound
    refine ⟨_, rfl, sound, ?_⟩
    rw [bytes, h.bytes, accepted, accepted, calls]
  | remove => exact ⟨_, rfl, h.sound.of_queue rfl rfl, h.bytes⟩

end OutputConn

/-- **The output queue is a lossless FIFO.** Every series of calls goes
through, whatever `write` returns. Then the bytes written, followed by those
that wait, are the buffers whose call returned their length; the tail pointer
addresses the last link; the space is what the waiting bytes leave of 8192,
and a buffer shorter than it leaves some of it. -/
theorem output_lossless {ops : List OutputOp} (short : ∀ op ∈ ops, op.Short) :
    ∃ c, ops.foldlM (OutputConn.apply results) .new = some c ∧
      c.written ++ c.unwritten = c.accepted ∧
      c.outQueue.tail = TailQueue.lastLink c.outQueue.nodes ∧
      c.connBufspace = maxBufSpace - c.unwritten.length ∧
      ∀ buf : List UInt8, buf.length < c.connBufspace →
        ∃ c' r, c.connOutput results buf = some (c', r) ∧ c'.connBufspace ≠ 0 := by
  obtain ⟨c, hc, h⟩ := foldlM_total OutputConn.Lossless OutputOp.Short
    (fun hc hshort => OutputConn.lossless_apply results hc hshort)
    ⟨OutputConn.sound_new, rfl⟩ short
  have space := OutputConn.connBufspace_eq h.sound
  refine ⟨c, hc, h.bytes, h.sound.linked.tail_eq, space, fun buf hbuf => ?_⟩
  have small : buf.length < 2147483648 := by
    have : c.connBufspace ≤ 8192 := by rw [space]; exact Nat.sub_le _ _
    omega
  obtain ⟨c', r, hout, spec⟩ := OutputConn.connOutput_spec results h.sound small
  refine ⟨c', r, hout, ?_⟩
  rw [OutputConn.connBufspace_eq spec.sound]
  have := spec.waits
  omega

/-- A buffer of three bytes is written in part, the next waits behind the
rest, and after a retry both are drained. -/
theorem output_lossless_retry :
    let results : Nat → WriteResult := fun k => if k = 0 then .wrote 1 else
      if k = 1 then .again else .wrote 9
    let ops : List OutputOp := [.output [97, 98, 99], .output [100], .drain, .drain]
    ∃ c, ops.foldlM (OutputConn.apply results) .new = some c ∧
      c.written ++ c.unwritten = c.accepted ∧
      c.outQueue.tail = TailQueue.lastLink c.outQueue.nodes ∧
      c.connBufspace = maxBufSpace - c.unwritten.length ∧
      ∀ buf : List UInt8, buf.length < c.connBufspace →
        ∃ c' r, c.connOutput results buf = some (c', r) ∧ c'.connBufspace ≠ 0 :=
  output_lossless _ (by decide)

end NetLabs.Ctcp

/-
NetLabs.Ctcp.Read — `ctcp_read` of `lab3/ctcp.c`, and runs of the callbacks.

`ctcp_read` calls `conn_input` until there is no more input. A block longer
than `send_window` is first sent in pieces of that size, the last of which may
run over its end, and then once more as a whole. With a window of 0 the loop
over the pieces does not end (`readBlock_isSome_iff`).

A `Call` is what one result of `conn_input` leads to, or one of the other
callbacks, so a call of `ctcp_read` is several of them (`read_eq_calls`). Each
is a run of the calls of `send_segment`, `ctcp_receive` and `ctcp_timer` in
`Steps.lean`, at most followed by `ctcp_destroy` (`call_run`). What holds of
those runs therefore holds here.
-/
import NetLabs.Ctcp.Receiver

namespace NetLabs.Ctcp

open NetLabs.Lib

variable {env : Env}

/-! ## `ctcp_read` -/

/-- What a call of `conn_input` stored in `stdin_data`. -/
structure Block where
  bytes : List UInt8
  nonempty : bytes ≠ []
  fits : bytes.length ≤ maxSegDataSize
  /-- what is in memory behind the bytes, in `stdin_data` and past its end -/
  behind : Nat → UInt8

namespace CtcpState

/-- `for(i=0;i<stdin_read_size;i += state->send_window) send_segment(..);`,
for at most `fuel` turns. -/
def chunkLoop (env : Env) (b : Block) : Nat → Nat → CtcpState → Option CtcpState
  | 0, _, _ => none
  | fuel + 1, i, s =>
      if i < b.bytes.length then
        chunkLoop env b fuel (i + s.sendWindow.toNat)
          (s.sendSegment env (peek b.behind b.bytes i s.sendWindow.toNat) thAck.toNat true)
      else some s

/-- The loop of `ctcp_read` on a positive result of `conn_input`. -/
def readBlock (env : Env) (s : CtcpState) (b : Block) : Option CtcpState := do
  let s ←
    if b.bytes.length > s.sendWindow.toNat then chunkLoop env b (b.bytes.length + 1) 0 s
    else some s
  some (s.sendSegment env b.bytes thAck.toNat true)

/-- The loop of `ctcp_read` on the result -1 of `conn_input`. -/
def readEof (env : Env) (s : CtcpState) : CtcpState :=
  if s.outputPendingSegments ≠ [] then s
  else if s.connectionState = 0 then s.sendSegment env [] thFin.toNat false
  else (s.sendSegment env [] thFin.toNat false).destroy

/-- `ctcp_read(state)`, when `conn_input` returns these blocks and then -1 or
0. -/
def read (env : Env) (s : CtcpState) (blocks : List Block) (eof : Bool) : Option CtcpState := do
  let s ← blocks.foldlM (readBlock env) s
  some (if eof then s.readEof env else s)

end CtcpState

/-! ## Callbacks -/

/-- A call the connection receives. -/
inductive Call where
  /-- a turn of `ctcp_read` -/
  | block (b : Block)
  /-- the last turn of `ctcp_read`, at the end of input -/
  | eof
  /-- `ctcp_receive(state, segment, len)` -/
  | receive (seg : CtcpSegment)
  /-- `ctcp_output(state)` -/
  | output
  /-- the visit of `ctcp_timer()` -/
  | timer

/-- The state after a call, if it returns. -/
def CtcpState.call (env : Env) (s : CtcpState) : Call → Option CtcpState
  | .block b => s.readBlock env b
  | .eof => some (s.readEof env)
  | .receive seg => some (s.receive env seg)
  | .output => some (s.sendSegment env [] thAck.toNat false)
  | .timer => some (s.timer env)

/-- A call of `ctcp_read` is a list of calls. -/
theorem read_eq_calls (s : CtcpState) (blocks : List Block) (eof : Bool) :
    s.read env blocks eof =
      (blocks.map Call.block ++ if eof then [Call.eof] else []).foldlM (CtcpState.call env) s := by
  rw [CtcpState.read, List.foldlM_append, List.foldlM_map]
  refine congrArg _ (funext fun t => ?_)
  cases eof <;> rfl

/-! ## What `send_segment` leaves alone -/

/-- The window and whether the connection is alive are as they were. -/
structure SameWindow (s t : CtcpState) : Prop where
  alive : t.alive = s.alive
  window : t.sendWindow = s.sendWindow

theorem SameWindow.refl (s : CtcpState) : SameWindow s s := ⟨rfl, rfl⟩

theorem SameWindow.trans {s t u : CtcpState} (h : SameWindow s t) (h' : SameWindow t u) :
    SameWindow s u :=
  ⟨h'.alive.trans h.alive, h'.window.trans h.window⟩

theorem admitFlush_sameWindow (env : Env) (s : CtcpState) :
    SameWindow s (s.admitPending.flush env).1 := by
  apply admitFlush_relation SameWindow .refl .trans
  case admits => exact fun _ _ _ => ⟨rfl, rfl⟩
  case transmit => exact fun _ _ _ _ => ⟨rfl, rfl⟩
  case limit => exact fun _ => ⟨rfl, rfl⟩

theorem sendSegment_sameWindow (env : Env) (s : CtcpState) (data : List UInt8) (flags : Int)
    (reqAck : Bool) : SameWindow s (s.sendSegment env data flags reqAck) := by
  rw [CtcpState.sendSegment]
  split
  · have queued : SameWindow s (s.enqueue env data flags) := ⟨rfl, rfl⟩
    exact queued.trans (admitFlush_sameWindow env _)
  · exact ⟨rfl, rfl⟩

/-! ## Runs -/

/-- A call on a live connection that returns. -/
def CallStep (env : Env) (s : CtcpState) (c : Call) (t : CtcpState) : Prop :=
  s.alive = true ∧ s.call env c = some t

/-- The calls that send these payloads. -/
def sendAll (payloads : List Payload) : List Op := payloads.map fun data => .send data thAck.toNat

/-- The pieces of a block are sent one by one, if the window is not 0. -/
theorem chunkLoop_run {b : Block} {s : CtcpState} (alive : s.alive = true)
    (window : 0 < s.sendWindow.toNat) (short : s.sendWindow.toNat < b.bytes.length) {fuel i : Nat}
    (enough : b.bytes.length - i < fuel) :
    ∃ pieces t, CtcpState.chunkLoop env b fuel i s = some t ∧
      Run (Step env) s (sendAll pieces) t ∧ SameWindow s t := by
  induction fuel generalizing i s with
  | zero => exact absurd enough (Nat.not_lt_zero _)
  | succ fuel ih =>
    rw [CtcpState.chunkLoop]
    by_cases more : i < b.bytes.length
    · have fits := b.fits
      let piece : Payload := ⟨peek b.behind b.bytes i s.sendWindow.toNat, by
        rw [length_peek]
        omega⟩
      have same := sendSegment_sameWindow env s piece.1 thAck.toNat true
      obtain ⟨pieces, t, loop, run, rest⟩ := ih (same.alive.trans alive) (same.window ▸ window)
        (same.window ▸ short) (i := i + s.sendWindow.toNat) (by omega)
      have first : Run (Step env) s (sendAll [piece]) _ := .single ⟨alive, rfl⟩
      exact ⟨piece :: pieces, t, by rw [if_pos more, loop], first.trans run, same.trans rest⟩
    · exact ⟨[], s, if_neg more, .nil, .refl s⟩

/-- With a window of 0 the loop over the pieces does not end. -/
theorem chunkLoop_zero {b : Block} {s : CtcpState} (window : s.sendWindow.toNat = 0) {i : Nat}
    (more : i < b.bytes.length) (fuel : Nat) : CtcpState.chunkLoop env b fuel i s = none := by
  induction fuel generalizing s with
  | zero => rfl
  | succ fuel ih =>
    have same := sendSegment_sameWindow env s (peek b.behind b.bytes i s.sendWindow.toNat)
      thAck.toNat true
    rw [CtcpState.chunkLoop, if_pos more, window, Nat.add_zero]
    exact ih (by rw [← window, same.window])

/-- A block is data for one segment. -/
def Block.payload (b : Block) : Payload := ⟨b.bytes, b.fits⟩

/-- A turn of `ctcp_read` sends the pieces of a block that is longer than the
window, and then the block. -/
theorem readBlock_run (env : Env) {s : CtcpState} (b : Block) (alive : s.alive = true)
    (window : s.sendWindow ≠ 0) :
    ∃ pieces t, s.readBlock env b = some t ∧ Run (Step env) s (sendAll (pieces ++ [b.payload])) t ∧
      SameWindow s t ∧ (b.bytes.length ≤ s.sendWindow.toNat → pieces = []) := by
  have last {s t : CtcpState} (same : SameWindow s t) (alive : s.alive = true) :
      Run (Step env) t (sendAll [b.payload]) (t.sendSegment env b.bytes thAck.toNat true) :=
    .single ⟨same.alive.trans alive, rfl⟩
  rw [CtcpState.readBlock]
  by_cases long : b.bytes.length > s.sendWindow.toNat
  · have positive : 0 < s.sendWindow.toNat := by
      rw [Nat.pos_iff_ne_zero]
      exact fun zero => window (UInt16.toNat_inj.mp zero)
    obtain ⟨pieces, t, loop, run, same⟩ := chunkLoop_run alive positive long
      (show b.bytes.length - 0 < b.bytes.length + 1 by omega)
    refine ⟨pieces, _, by rw [if_pos long, loop]; rfl, ?_, ?_, fun short => absurd long (by omega)⟩
    · rw [sendAll, List.map_append]
      exact run.trans (last same alive)
    · exact same.trans (sendSegment_sameWindow env t b.bytes thAck.toNat true)
  · refine ⟨[], _, by rw [if_neg long]; rfl, last (.refl s) alive, ?_, fun _ => rfl⟩
    exact sendSegment_sameWindow env s b.bytes thAck.toNat true

/-- A turn of `ctcp_read` returns unless the window is 0. -/
theorem readBlock_isSome_iff (env : Env) {s : CtcpState} (b : Block) (alive : s.alive = true) :
    (s.readBlock env b).isSome ↔ s.sendWindow ≠ 0 := by
  constructor
  · intro returns window
    have zero : s.sendWindow.toNat = 0 := by rw [window]; rfl
    have more := List.length_pos_iff.mpr b.nonempty
    rw [CtcpState.readBlock, if_pos (by omega), chunkLoop_zero zero more] at returns
    cases returns
  · intro window
    obtain ⟨_, t, read, -⟩ := readBlock_run env b alive window
    rw [read]
    rfl

/-- A turn of `ctcp_read` on a block. -/
theorem call_block {s t : CtcpState} {b : Block} (h : CallStep env s (.block b) t) :
    ∃ pieces, Run (Step env) s (sendAll (pieces ++ [b.payload])) t ∧ SameWindow s t ∧
      (b.bytes.length ≤ s.sendWindow.toNat → pieces = []) := by
  obtain ⟨alive, h⟩ := h
  have window := (readBlock_isSome_iff env b alive).mp (Option.isSome_of_mem h)
  obtain ⟨pieces, u, read, run⟩ := readBlock_run env b alive window
  obtain rfl : t = u := Option.some_inj.mp (h.symm.trans read)
  exact ⟨pieces, run⟩

/-- The call is one of `ctcp_receive`. -/
def Call.receives : Call → Bool
  | .receive _ => true
  | _ => false

/-- The call reads the end of input. -/
def Call.ends : Call → Bool
  | .eof => true
  | _ => false

/-- What a call can do: send data and ACKs with `TH_ACK`, send a FIN at the
end of input, receive its segment, visit the timer. -/
def Call.Makes (c : Call) : Op → Prop
  | .send _ flags => flags = thAck.toNat
  | .control flags => flags = thAck.toNat ∨ c.ends = true ∧ flags = thFin.toNat
  | .receive seg => c = .receive seg
  | .timer => True

/-- A call is a run of calls of the other kind, after which the connection may
be destroyed. -/
theorem call_run {s t : CtcpState} {c : Call} (h : CallStep env s c t) :
    ∃ ops u, Run (Step env) s ops u ∧ (∀ op ∈ ops, c.Makes op) ∧ (t = u ∨ t = u.destroy) := by
  obtain ⟨alive, h⟩ := h
  have single (op : Op) (made : c.Makes op) :
      Run (Step env) s [op] (s.apply env op) ∧ ∀ o ∈ [op], c.Makes o :=
    ⟨.single ⟨alive, rfl⟩, fun _ ho => List.mem_singleton.mp ho ▸ made⟩
  cases c with
  | block b =>
    obtain ⟨pieces, run, -⟩ := call_block ⟨alive, h⟩
    refine ⟨_, t, run, fun op mem => ?_, .inl rfl⟩
    obtain ⟨data, -, rfl⟩ := List.mem_map.mp mem
    rfl
  | eof =>
    obtain rfl := Option.some_inj.mp h
    obtain ⟨run, made⟩ := single (.control thFin.toNat) (.inr ⟨rfl, rfl⟩)
    rw [CtcpState.readEof]
    split
    · exact ⟨[], s, .nil, nofun, .inl rfl⟩
    · split
      · exact ⟨_, _, run, made, .inl rfl⟩
      · exact ⟨_, _, run, made, .inr rfl⟩
  | receive seg =>
    obtain rfl := Option.some_inj.mp h
    obtain ⟨run, made⟩ := single (.receive seg) rfl
    exact ⟨_, _, run, made, .inl rfl⟩
  | output =>
    obtain rfl := Option.some_inj.mp h
    obtain ⟨run, made⟩ := single (.control thAck.toNat) (.inl rfl)
    exact ⟨_, _, run, made, .inl rfl⟩
  | timer =>
    obtain rfl := Option.some_inj.mp h
    obtain ⟨run, made⟩ := single .timer trivial
    exact ⟨_, _, run, made, .inl rfl⟩

/-- A relation that holds along everything a call makes, and along the
destruction of a connection, holds along the call. -/
theorem call_relation (R : CtcpState → CtcpState → Prop) (refl : ∀ s, R s s)
    (trans : ∀ {s t u}, R s t → R t u → R s u) {s t : CtcpState} {c : Call}
    (op : ∀ s op, c.Makes op → R s (s.apply env op)) (destroy : ∀ s, R s s.destroy)
    (h : CallStep env s c t) : R s t := by
  obtain ⟨ops, u, run, made, last⟩ := call_run h
  have reached : R s u := by
    refine Run.history (fun ops u => (∀ op ∈ ops, c.Makes op) → R s u) (fun _ => refl s)
      (fun {ops t o u} _ ih hstep made => ?_) run made
    rw [hstep.2]
    exact trans (ih fun p mem => made p (List.mem_append_left _ mem))
      (op t o (made o (List.mem_append_right _ List.mem_cons_self)))
  rcases last with rfl | rfl
  · exact reached
  · exact trans reached (destroy u)

/-- What queueing a segment with `TH_ACK` and every elementary step keep, a
call keeps. -/
theorem call_invariant (P : CtcpState → Prop)
    (enqueue : ∀ s (data : Payload), P s → P (s.enqueue env data.1 thAck.toNat))
    (micro : ∀ {half s t}, P s → Micro env half s t → P t) {s t : CtcpState} {c : Call}
    (start : P s) (h : CallStep env s c t) : P t := by
  refine call_relation (fun s t => P s → P t) (fun _ hs => hs) (fun h h' hs => h' (h hs))
    (fun s op made hs => ?_) (fun s hs => micro hs (.destroy s)) h start
  obtain ⟨data, flags, rfl, chain⟩ | ⟨-, chain⟩ := apply_micro env s op
  · obtain rfl : flags = thAck.toNat := made
    exact chain_invariant P (fun hv ⟨_, hm⟩ => micro hv hm) chain (enqueue s data hs)
  · exact chain_invariant P (fun hv ⟨_, hm⟩ => micro hv hm) chain hs

/-- A call is one of `ctcp_receive` or makes none. -/
theorem Call.Makes.receives {c : Call} {op : Op} (h : c.Makes op) (other : c.receives = false) :
    op.receives = false := by
  cases op with
  | receive seg =>
    obtain rfl : c = .receive seg := h
    cases other
  | _ => rfl

/-- A call is one of `ctcp_receive` or leaves the receiving half alone. -/
theorem call_sameReceiver {s t : CtcpState} {c : Call} (h : CallStep env s c t)
    (other : c.receives = false) : SameReceiver s t :=
  call_relation SameReceiver .refl .trans
    (fun s _ made => apply_sameReceiver env s (made.receives other))
    (fun _ => ⟨rfl, rfl, rfl, rfl⟩) h

end NetLabs.Ctcp

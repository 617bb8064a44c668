/-
NetLabs.Ctcp.Delivery — in-order delivery between two cTCP endpoints.

A `Link` is a sender and its peer with a network between them that may lose,
delay, duplicate and reorder: it hands the peer any segment the sender ever
gave to `conn_send`, at any time and any number of times. FIN segments stay
out. Either endpoint may do anything else in between, and the sender may
receive anything.

The peer accepts every segment that is not below its watermark, so a segment
that overtakes another is accepted in its place and the one overtaken is
dropped (`overtaking_breaks_delivery`). A second defect is the copy with
`strncpy`, which clears what follows a NUL byte. `InOrder` is the condition
on a delivery that avoids both: what is not a duplicate starts where the
output ends. Then the output is a prefix of the stream, in every state and
for streams of any length, past the wrap-around of sequence numbers
(`delivery_prefix`). Where sequence numbers do not wrap around, a network
that lets nothing overtake satisfies it, however much it loses, delays and
repeats (`inOrder_of_no_overtaking`).
-/
import NetLabs.Ctcp.Stream
import NetLabs.Ctcp.Receiver

namespace NetLabs.Ctcp

open NetLabs.Lib

/-! ## Two endpoints and a network -/

/-- The sender of a stream and its peer. -/
structure Link where
  sender : CtcpState
  peer : CtcpState
  deriving DecidableEq, Repr

/-- What can happen on a link. -/
inductive LinkOp where
  /-- a call on the sender -/
  | sender (op : Op)
  /-- a call on the peer other than `ctcp_receive` -/
  | peer (op : Op)
  /-- `ctcp_receive` on the peer, for a segment the sender built at this position -/
  | deliver (position : Nat) (seg : CtcpSegment)
  deriving DecidableEq, Repr

/-- The stream data a step gives to the sender. -/
def LinkOp.payload? : LinkOp → Option (List UInt8)
  | .sender op => op.payload?
  | _ => none

variable {env peerEnv : Env}

/-- The state after a step. The endpoints run in environments of their own. -/
def Link.apply (env peerEnv : Env) (l : Link) : LinkOp → Link
  | .sender op => { l with sender := l.sender.apply env op }
  | .peer op => { l with peer := l.peer.apply peerEnv op }
  | .deliver _ seg => { l with peer := l.peer.receive peerEnv seg }

/-- A step is a call on a live endpoint; only what the sender sent arrives. -/
def Link.Enabled (l : Link) : LinkOp → Prop
  | .sender _ => l.sender.alive = true
  | .peer op => l.peer.alive = true ∧ op.receives = false
  | .deliver position seg =>
      l.peer.alive = true ∧ (position, seg) ∈ l.sender.sentSegments ∧ ¬ seg.hasFlag thFin

instance (l : Link) : (op : LinkOp) → Decidable (l.Enabled op)
  | .sender _ => inferInstanceAs (Decidable (_ = _))
  | .peer _ | .deliver _ _ => inferInstanceAs (Decidable (_ ∧ _))

/-- One step of a link. -/
def LinkStep (env peerEnv : Env) (l : Link) (op : LinkOp) (l' : Link) : Prop :=
  l.Enabled op ∧ l' = l.apply env peerEnv op

/-- A segment whose data `ctcp_receive` gets to and that is not below the
watermark starts where the output ends, and `strncpy` copies all of it. -/
def InOrder (peerEnv : Env) (l : Link) : LinkOp → Prop
  | .deliver position seg =>
      (l.peer.processAck peerEnv seg).2 = false →
        l.peer.isDuplicate seg ∨ position = l.peer.delivered.length ∧ NulTail seg.data
  | _ => True

instance (peerEnv : Env) (l : Link) : (op : LinkOp) → Decidable (InOrder peerEnv l op)
  | .deliver _ _ => inferInstanceAs (Decidable (_ → _))
  | .sender _ | .peer _ => inferInstanceAs (Decidable True)

/-! ## The invariant -/

/-- The peer's output is a prefix of the stream, and its watermark is the
sequence number behind it. -/
structure LinkInv (l : Link) : Prop where
  sender : StreamInv l.sender
  opened : l.peer.connectionState = 0
  output : l.peer.delivered <+: l.sender.stream
  watermark : l.peer.secondMostRecentAcknowledgement =
    UInt32.ofNat (1 + l.peer.delivered.length)

theorem linkInv_init (block peerBlock : Bbr) (config peerConfig : CtcpConfig) :
    LinkInv ⟨ctcpInit env block config, ctcpInit peerEnv peerBlock peerConfig⟩ :=
  ⟨streamInv_init block config, rfl, List.nil_prefix, rfl⟩

/-- A call on the sender keeps the numbering and only extends the stream. -/
theorem streamInv_apply (env : Env) {s : CtcpState} (h : StreamInv s) (op : Op) :
    StreamInv (s.apply env op) ∧
      (s.apply env op).stream = s.stream ++ (op.payload?.getD []) := by
  refine ⟨apply_invariant StreamInv streamInv_enqueue streamInv_micro s op h, ?_⟩
  have hrun := queuedPayloads_apply env s op
  rw [CtcpState.stream, CtcpState.stream, hrun, List.flatten_append]
  cases op <;> simp [Op.payload?]

theorem linkInv_step {l l' : Link} {op : LinkOp} (h : LinkInv l)
    (hstep : LinkStep env peerEnv l op l') (order : InOrder peerEnv l op) : LinkInv l' := by
  obtain ⟨enabled, rfl⟩ := hstep
  cases op with
  | sender op =>
    obtain ⟨inv, grown⟩ := streamInv_apply env h.sender op
    refine ⟨inv, h.opened, ?_, h.watermark⟩
    rw [Link.apply, grown]
    exact h.output.trans (List.prefix_append _ _)
  | peer op =>
    obtain ⟨hd, hw, -, hc⟩ := apply_sameReceiver peerEnv l.peer enabled.2
    exact ⟨h.sender, hc.trans h.opened, hd ▸ h.output, hw.trans (hd ▸ h.watermark)⟩
  | deliver position seg =>
    obtain ⟨-, sent, nofin⟩ := enabled
    have cut := h.sender.sent _ sent
    obtain ⟨hc, early, late⟩ := receive_spec peerEnv l.peer h.opened nofin cut.len
    cases hr : (l.peer.processAck peerEnv seg).2 with
    | true =>
      obtain ⟨hd, hw, -, -⟩ := early hr
      exact ⟨h.sender, hc, hd ▸ h.output, hw.trans (hd ▸ h.watermark)⟩
    | false =>
      obtain ⟨hd, hw, -⟩ := late hr
      by_cases dup : l.peer.isDuplicate seg
      · -- a duplicate adds nothing and leaves the watermark
        rw [CtcpState.acceptedData, if_pos dup, List.append_nil] at hd
        rw [if_pos dup] at hw
        exact ⟨h.sender, hc, hd ▸ h.output, hw.trans (hd ▸ h.watermark)⟩
      · obtain ⟨hp, nul⟩ := (order hr).resolve_left dup
        rw [CtcpState.acceptedData, if_neg dup, (strncpy_eq_iff _).mpr nul] at hd
        rw [if_neg dup, cut.seqno, hp, ← UInt32.ofNat_add] at hw
        refine ⟨h.sender, hc, ?_, ?_⟩
        · rw [Link.apply, hd, prefix_append_iff h.output, ← hp]
          exact cut.piece
        · rw [Link.apply, hw, hd, List.length_append, Nat.add_assoc]

/-! ## Runs of the link -/

/-- The sender's stream is what was given to it. -/
theorem stream_run {l l' : Link} {ops : List LinkOp} (start : StreamInv l.sender)
    (h : Run (LinkStep env peerEnv) l ops l') :
    StreamInv l'.sender ∧
      l'.sender.stream = l.sender.stream ++ (ops.filterMap LinkOp.payload?).flatten := by
  refine Run.history (fun ops l' => StreamInv l'.sender ∧
    l'.sender.stream = l.sender.stream ++ (ops.filterMap LinkOp.payload?).flatten)
    ⟨start, by simp⟩ (fun {ops t op u} _ ht hstep => ?_) h
  obtain ⟨inv, ht⟩ := ht
  obtain ⟨-, rfl⟩ := hstep
  rw [List.filterMap_append, List.flatten_append, ← List.append_assoc, ← ht]
  cases op with
  | sender op =>
    obtain ⟨inv', grown⟩ := streamInv_apply env inv op
    refine ⟨inv', grown.trans ?_⟩
    cases op <;> simp [LinkOp.payload?, Op.payload?]
  | peer | deliver => exact ⟨inv, by simp [LinkOp.payload?, Link.apply]⟩

/-- **In-order delivery.** In every run of a link whose deliveries are all
`InOrder`, what the peer has handed to `conn_output` is a prefix of the
sender's stream. -/
theorem delivery_prefix {block peerBlock : Bbr} {config peerConfig : CtcpConfig}
    {ops : List LinkOp} {l : Link}
    (h : Run (Guarded (LinkStep env peerEnv) (InOrder peerEnv))
      ⟨ctcpInit env block config, ctcpInit peerEnv peerBlock peerConfig⟩ ops l) :
    l.peer.delivered <+: (ops.filterMap LinkOp.payload?).flatten := by
  have inv : LinkInv l :=
    Run.invariant LinkInv (linkInv_init block peerBlock config peerConfig)
      (fun ht hs => linkInv_step ht hs.1 hs.2) h
  have stream := (stream_run (streamInv_init block config) h.unguarded).2
  have empty : (ctcpInit env block config).stream = [] := rfl
  rw [empty, List.nil_append] at stream
  exact stream ▸ inv.output

/-- Two segments are delivered in order, the first of them twice. -/
theorem delivery_prefix_duplicate :
    let ops : List LinkOp := [.sender (.send ⟨[97], by decide⟩ 16),
      .sender (.send ⟨[98], by decide⟩ 16),
      .deliver 0 ⟨1, 1, 21, thAck, 1440, 18569, [97]⟩,
      .deliver 0 ⟨1, 1, 21, thAck, 1440, 18569, [97]⟩,
      .deliver 1 ⟨2, 1, 21, thAck, 1440, 18312, [98]⟩]
    let start : Link := ⟨.fresh (.plain .little), .fresh (.plain .little)⟩
    (ops.foldl (Link.apply (.plain .little) (.plain .little)) start).peer.delivered <+:
      (ops.filterMap LinkOp.payload?).flatten :=
  delivery_prefix
    (run_foldl (fun l op => decide (l.Enabled op ∧ InOrder (.plain .little) l op))
      (fun _ _ h => ⟨⟨(of_decide_eq_true h).1, rfl⟩, (of_decide_eq_true h).2⟩)
      (by decide +kernel))

/-- The sender sends "a" and "b", and "b" overtakes "a": the peer puts out
"b". -/
theorem overtaking_breaks_delivery :
    ¬ ∀ (ops : List LinkOp) (l : Link),
      Run (LinkStep (.plain .little) (.plain .little))
        ⟨.fresh (.plain .little), .fresh (.plain .little)⟩ ops l →
      l.peer.delivered <+: (ops.filterMap LinkOp.payload?).flatten := by
  intro general
  have h := general [.sender (.send ⟨[97], by decide⟩ 16), .sender (.send ⟨[98], by decide⟩ 16),
      .deliver 1 ⟨2, 1, 21, thAck, 1440, 18312, [98]⟩] _
    (run_foldl (fun l op => decide (l.Enabled op))
      (fun _ _ h => ⟨of_decide_eq_true h, rfl⟩) (by decide +kernel))
  revert h
  decide +kernel

/-! ## The condition -/

/-- An accepted segment keeps the output a prefix exactly if what `strncpy`
makes of its data is the next piece of the stream. -/
theorem accepted_prefix_iff {l : Link} {position : Nat} {seg : CtcpSegment} (h : LinkInv l)
    (enabled : l.Enabled (.deliver position seg))
    (late : (l.peer.processAck peerEnv seg).2 = false) (accepted : ¬ l.peer.isDuplicate seg) :
    (l.apply env peerEnv (.deliver position seg)).peer.delivered <+: l.sender.stream ↔
      IsPiece l.sender.stream l.peer.delivered.length (CtcpState.strncpy seg.data) := by
  obtain ⟨-, sent, nofin⟩ := enabled
  obtain ⟨-, -, spec⟩ :=
    receive_spec peerEnv l.peer h.opened nofin (h.sender.sent _ sent).len
  rw [Link.apply, (spec late).1, CtcpState.acceptedData, if_neg accepted,
    prefix_append_iff h.output]

/-- Before sequence numbers wrap around, a segment that overtakes nothing is
delivered `InOrder`: it is a duplicate or the next one. -/
theorem inOrder_of_no_overtaking {l : Link} {position : Nat} {seg : CtcpSegment} (h : LinkInv l)
    (sent : (position, seg) ∈ l.sender.sentSegments)
    (behind : position ≤ l.peer.delivered.length)
    (small : l.peer.delivered.length < 4294967295) (nul : NulTail seg.data) :
    InOrder peerEnv l (.deliver position seg) := by
  intro _
  rcases behind.eq_or_lt with heq | hlt
  · exact .inr ⟨heq, nul⟩
  · left
    rw [CtcpState.isDuplicate, (h.sender.sent _ sent).seqno, h.watermark, UInt32.lt_iff_toNat_lt,
      UInt32.toNat_ofNat', UInt32.toNat_ofNat', Nat.mod_eq_of_lt (by omega),
      Nat.mod_eq_of_lt (by omega)]
    omega

end NetLabs.Ctcp

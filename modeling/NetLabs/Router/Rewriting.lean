/-
NetLabs.Router.Rewriting — what forwarding does to a frame.

A forwarded frame has its TTL and IP checksum rewritten (`rewritten`), and then
the two MAC addresses in front. The rewriting looks only at the bytes behind
the MAC addresses (`SameAfterMacs`) and can be undone, because a correct
checksum is determined by the rest of the header (`afterMacs_rewritten_inj`).
-/
import NetLabs.Router.Steps

namespace NetLabs.Router

open NetLabs.Lib

variable {env : Env}

/-! ## Fields that are written several times -/

theorem Field.set_set (f : Field) {bs bs' : List UInt8} (buf : List UInt8)
    (size : bs'.length = bs.length) : f.set bs' (f.set bs buf) = f.set bs' buf := by
  unfold Field.set
  rw [size]
  split
  · rename_i fits
    rw [if_pos (by rw [length_put fits]; exact fits), put_put size fits]
  · rfl

theorem Field.set_comm {f g : Field} {bs bs' buf : List UInt8}
    (apart : f.off + bs.length ≤ g.off) (fits : g.off + bs'.length ≤ buf.length) :
    g.set bs' (f.set bs buf) = f.set bs (g.set bs' buf) := by
  have fits' : f.off + bs.length ≤ buf.length := by omega
  rw [Field.set, Field.set, Field.set, Field.set, if_pos fits', if_pos fits,
    if_pos (by rw [length_put fits']; exact fits), if_pos (by rw [length_put fits]; exact fits'),
    put_comm apart fits]

/-- Writing back what a field holds changes nothing. -/
theorem Field.set_get (env : Env) {f : Field} {buf : List UInt8}
    (fits : f.off + f.size ≤ buf.length) : f.set (env.get f buf) buf = buf := by
  rw [Field.set, Env.length_get, if_pos fits, Env.get, peek_eq_slice env.beyond fits,
    put_slice fits]

/-- A field behind the first `n` bytes is a field of the rest. -/
theorem Env.get_of_drop {p q : List UInt8} {n : Nat} (same : p.drop n = q.drop n) {f : Field}
    (behind : n ≤ f.off) : env.get f p = env.get f q := by
  rw [Env.get, Env.get, peek, peek, List.map_inj_left]
  intro i _
  have same := congrArg (fun l => l[f.off + i - n]?) same
  simp only [List.getElem?_drop] at same
  rw [Nat.add_sub_cancel' (by omega)] at same
  rw [List.getD_eq_getElem?_getD, List.getD_eq_getElem?_getD, same]

theorem Env.get_eq_getU8 {f : Field} (buf : List UInt8) (size : f.size = 1) :
    env.get f buf = [env.getU8 f buf] := by
  simp [Env.get, peek, size, Env.getU8]

/-! ## The bytes behind the MAC addresses -/

/-- The length of the two MAC addresses. -/
def macsSize : Nat := 12

/-- A frame without its MAC addresses. -/
def afterMacs (frame : List UInt8) : List UInt8 := frame.drop macsSize

/-- Two frames long enough to forward that differ in the MAC addresses at
most. -/
structure SameAfterMacs (p q : List UInt8) : Prop where
  long : ipHdrSize + etherHdrSize ≤ p.length
  length : p.length = q.length
  same : afterMacs p = afterMacs q

theorem sameAfterMacs_of_eq {p q : List UInt8} (hp : ipHdrSize + etherHdrSize ≤ p.length)
    (hq : ipHdrSize + etherHdrSize ≤ q.length) (same : afterMacs p = afterMacs q) :
    SameAfterMacs p q := by
  have lengths := congrArg List.length same
  simp only [afterMacs, List.length_drop, macsSize] at lengths
  simp only [ipHdrSize, etherHdrSize] at hp hq
  exact ⟨hp, by omega, same⟩

theorem SameAfterMacs.get {p q : List UInt8} (h : SameAfterMacs p q) {f : Field}
    (behind : macsSize ≤ f.off) : env.get f p = env.get f q :=
  Env.get_of_drop h.same behind

theorem SameAfterMacs.set {p q : List UInt8} (h : SameAfterMacs p q) {f : Field} (bs : List UInt8)
    (behind : macsSize ≤ f.off) : SameAfterMacs (f.set bs p) (f.set bs q) := by
  constructor
  · rw [Field.length_set]
    exact h.long
  · rw [Field.length_set, Field.length_set]
    exact h.length
  · unfold Field.set
    rw [← h.length]
    split
    · rename_i fits
      have fits' := h.length ▸ fits
      have same : p.drop macsSize = q.drop macsSize := h.same
      rw [afterMacs, afterMacs, drop_put behind (by omega), drop_put behind (by omega), same]
    · exact h.same

/-! ## Rewriting -/

/-- A frame with the IP checksum its header calls for. -/
theorem recomputeIpSum_eq (env : Env) (packet : List UInt8) :
    recomputeIpSum env packet = ipSum.set (memU16 env.endian (cksum env.endian
      (env.get ipHdr (ipSum.set (memU16 env.endian 0) packet)))) packet := by
  rw [recomputeIpSum]
  exact Field.set_set ipSum packet (by rw [length_memU16, length_memU16])

/-- The checksum a frame has does not matter. -/
theorem recomputeIpSum_set {sum : List UInt8} (size : sum.length = 2) (packet : List UInt8) :
    recomputeIpSum env (ipSum.set sum packet) = recomputeIpSum env packet := by
  rw [recomputeIpSum, recomputeIpSum,
    Field.set_set ipSum packet (by rw [length_memU16, size])]

/-- A frame whose checksum passes the check is its own recomputation. -/
theorem recomputeIpSum_of_valid {packet : List UInt8}
    (long : ipHdrSize + etherHdrSize ≤ packet.length)
    (valid : env.getSum ipSum (recomputeIpSum env packet) = env.getSum ipSum packet) :
    recomputeIpSum env packet = packet := by
  have fits : ipSum.off + ipSum.size ≤ packet.length := le_trans (by decide) long
  rw [recomputeIpSum_eq, Env.getSum, Env.getSum,
    Env.get_set ⟨by rw [length_memU16], fits⟩] at valid
  rw [recomputeIpSum_eq, ← ofMem16_memU16 env.endian (cksum _ _), valid,
    memU16_ofMem16 env.endian (Env.length_get env ipSum packet), Field.set_get env fits]

theorem SameAfterMacs.recomputeIpSum {p q : List UInt8} (h : SameAfterMacs p q) :
    SameAfterMacs (recomputeIpSum env p) (recomputeIpSum env q) := by
  rw [recomputeIpSum_eq, recomputeIpSum_eq,
    (h.set (memU16 env.endian 0) (by decide)).get (by decide : macsSize ≤ ipHdr.off)]
  exact h.set _ (by decide)

/-- The frame with another TTL, and the checksum for it. -/
def withTtl (env : Env) (change : UInt8 → UInt8) (packet : List UInt8) : List UInt8 :=
  recomputeIpSum env (ipTtl.set [change (env.getU8 ipTtl packet)] packet)

/-- The frame as `process_ip_packet` forwards it, before the MAC addresses are
written. -/
def rewritten (env : Env) (packet : List UInt8) : List UInt8 := withTtl env (· - 1) packet

@[simp] theorem length_rewritten (packet : List UInt8) :
    (rewritten env packet).length = packet.length := by
  simp only [rewritten, withTtl, length_recomputeIpSum, Field.length_set]

theorem SameAfterMacs.withTtl {p q : List UInt8} (h : SameAfterMacs p q)
    (change : UInt8 → UInt8) : SameAfterMacs (withTtl env change p) (withTtl env change q) := by
  have ttl : env.getU8 ipTtl p = env.getU8 ipTtl q := by
    have same : env.get ipTtl p = env.get ipTtl q := h.get (by decide)
    rw [Env.get_eq_getU8 p rfl, Env.get_eq_getU8 q rfl] at same
    exact List.singleton_inj.mp same
  rw [NetLabs.Router.withTtl, NetLabs.Router.withTtl, ttl]
  exact (h.set _ (by decide)).recomputeIpSum

/-- Counting the TTL up again gives back a frame whose checksum was correct. -/
theorem withTtl_rewritten {packet : List UInt8}
    (long : ipHdrSize + etherHdrSize ≤ packet.length)
    (valid : recomputeIpSum env packet = packet) :
    withTtl env (· + 1) (rewritten env packet) = packet := by
  have fits : ipTtl.off + ipTtl.size ≤ packet.length := le_trans (by decide) long
  have fitsSum : ipSum.off + ipSum.size ≤ packet.length := le_trans (by decide) long
  set ttl := env.getU8 ipTtl packet with def_ttl
  obtain ⟨sum, size, eq⟩ : ∃ sum : List UInt8, sum.length = 2 ∧
      rewritten env packet = ipSum.set sum (ipTtl.set [ttl - 1] packet) :=
    ⟨_, length_memU16 _ _, recomputeIpSum_eq _ _⟩
  have lowered : env.getU8 ipTtl (rewritten env packet) = ttl - 1 := by
    have held : env.get ipTtl (rewritten env packet) = [ttl - 1] := by
      rw [eq, Env.get_set_apart (.inl (by decide)), Env.get_set ⟨rfl, fits⟩]
    rw [Env.get_eq_getU8 _ rfl] at held
    exact List.singleton_inj.mp held
  rw [withTtl, lowered, UInt8.sub_add_cancel, eq,
    ← Field.set_comm (by simp) (by rw [size, Field.length_set]; exact fitsSum),
    recomputeIpSum_set size,
    Field.set_set ipTtl packet (show [ttl].length = [ttl - 1].length from rfl), def_ttl,
    ← Env.get_eq_getU8 packet rfl, Field.set_get env fits, valid]

/-- Rewriting keeps frames with correct checksums apart. -/
theorem afterMacs_rewritten_inj {p q : List UInt8} (hp : ipHdrSize + etherHdrSize ≤ p.length)
    (hq : ipHdrSize + etherHdrSize ≤ q.length) (validP : recomputeIpSum env p = p)
    (validQ : recomputeIpSum env q = q) :
    afterMacs (rewritten env p) = afterMacs (rewritten env q) ↔ afterMacs p = afterMacs q := by
  constructor
  · intro same
    have h : SameAfterMacs (rewritten env p) (rewritten env q) :=
      sameAfterMacs_of_eq (by rw [length_rewritten]; exact hp) (by rw [length_rewritten]; exact hq)
        same
    have back : afterMacs (withTtl env (· + 1) (rewritten env p)) =
        afterMacs (withTtl env (· + 1) (rewritten env q)) := (h.withTtl (· + 1)).same
    rwa [withTtl_rewritten hp validP, withTtl_rewritten hq validQ] at back
  · intro same
    exact ((sameAfterMacs_of_eq hp hq same).withTtl _).same

/-! ## The MAC addresses -/

/-- The frame that leaves for `mac` on `intf`. -/
def outFrame (mac : Mac) (intf : SrIf) (frame : List UInt8) : List UInt8 :=
  mac.bytes ++ intf.addr.bytes ++ afterMacs frame

/-- The MAC addresses are what stands before `afterMacs`. -/
theorem set_macs {frame src dst : List UInt8} (hsrc : src.length = etherAddrLen)
    (hdst : dst.length = etherAddrLen) (long : etherHdrSize ≤ frame.length) :
    etherDhost.set dst (etherShost.set src frame) = dst ++ src ++ afterMacs frame := by
  have fits : etherShost.off + src.length ≤ frame.length := by
    rw [hsrc]
    exact le_trans (by decide) long
  have fits' : etherDhost.off + dst.length ≤ (etherShost.set src frame).length := by
    rw [hdst, Field.length_set]
    exact le_trans (by decide) long
  have first : (frame.take etherShost.off).length = etherDhost.off + dst.length := by
    rw [List.length_take, hdst]
    exact Nat.min_eq_left (le_trans (by decide) long)
  rw [Field.set, if_pos fits', Field.set, if_pos fits, put, put, List.append_assoc _ src,
    List.drop_left' first, hsrc, List.append_assoc dst]
  rfl

/-- Where the reply's packets are sent, the MAC addresses are written in this
order. -/
theorem replayFrame_eq {frame : List UInt8} (mac : Mac) (intf : SrIf)
    (long : etherHdrSize ≤ frame.length) : replayFrame mac intf frame = outFrame mac intf frame :=
  set_macs intf.addr.size mac.size long

/-- The fast path writes them in the other order. -/
theorem forwardFrame_eq {frame : List UInt8} (mac : Mac) (intf : SrIf)
    (long : etherHdrSize ≤ frame.length) :
    etherShost.set intf.addr.bytes (etherDhost.set mac.bytes frame) = outFrame mac intf frame := by
  have fits : etherShost.off + intf.addr.bytes.length ≤ frame.length := by
    rw [Mac.length_bytes]
    exact le_trans (by decide) long
  rw [Field.set_comm (by simp [etherAddrLen]) fits]
  exact set_macs intf.addr.size mac.size long

theorem length_outFrame {frame : List UInt8} (mac : Mac) (intf : SrIf)
    (long : etherHdrSize ≤ frame.length) : (outFrame mac intf frame).length = frame.length := by
  rw [← replayFrame_eq mac intf long, length_replayFrame]

end NetLabs.Router

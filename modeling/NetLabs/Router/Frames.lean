/-
NetLabs.Router.Frames — what the frames the router builds say.

`sr_send_packet` refuses a frame that is too short or does not carry the MAC
of its interface. The frames the router builds about queued packets and for
its ARP requests always pass (`srSendPacket_sent`).
-/
import NetLabs.Router.Forwarding

namespace NetLabs.Router

open NetLabs.Lib

variable {env : Env}

/-! ## Reading back what was written -/

@[simp] theorem Field.length_set (f : Field) (bs buf : List UInt8) :
    (f.set bs buf).length = buf.length := by
  unfold Field.set
  split
  · rename_i fits
    exact length_put fits
  · rfl

/-- A field holds what was written to it. -/
theorem Env.get_set {f : Field} {bs buf : List UInt8}
    (fits : bs.length = f.size ∧ f.off + f.size ≤ buf.length) : env.get f (f.set bs buf) = bs := by
  obtain ⟨size, fits⟩ := fits
  rw [Field.set, if_pos (by omega), Env.get,
    peek_eq_slice env.beyond (by rw [length_put (by omega)]; exact fits), ← size,
    slice_put (by omega)]

/-- A field that shares no byte with what is written is unchanged. -/
theorem Env.get_set_apart {f g : Field} {bs buf : List UInt8}
    (apart : f.off + f.size ≤ g.off ∨ g.off + bs.length ≤ f.off) :
    env.get f (g.set bs buf) = env.get f buf := by
  unfold Field.set
  split
  · rename_i fits
    exact peek_put env.beyond apart fits
  · rfl

@[simp] theorem Mac.length_bytes (mac : Mac) : mac.bytes.length = etherAddrLen := mac.size

/-! ## Sending -/

/-- A frame that carries the MAC of its interface is sent. -/
theorem Sr.srSendPacket_sent (env : Env) {sr : Sr} {buf : List UInt8} {iface : IfName} {intf : SrIf}
    (cause : Cause) (found : sr.srGetInterface iface = some intf)
    (long : etherHdrSize ≤ buf.length) (source : env.get etherShost buf = intf.addr.bytes) :
    sr.srSendPacket cause buf iface = sr.log (.sent cause iface buf) := by
  have fits : etherShost.off + etherShost.size ≤ buf.length := le_trans (by decide) long
  rw [Env.get, peek_eq_slice env.beyond fits] at source
  have hmatch : sr.srEtherAddrsMatchInterface buf iface = true := by
    rw [Sr.srEtherAddrsMatchInterface, found]
    exact decide_eq_true source
  rw [Sr.srSendPacket, if_neg (by omega), hmatch, if_neg (by simp)]

/-! ## The frames -/

@[simp] theorem length_arpRequestFrame (intf : SrIf) (ip : UInt32) :
    (arpRequestFrame intf ip).length = etherHdrSize + arpHdrSize := by
  simp only [arpRequestFrame, Field.length_set, List.length_replicate]

theorem arpRequestFrame_source (intf : SrIf) (ip : UInt32) :
    env.get etherShost (arpRequestFrame intf ip) = intf.addr.bytes := by
  unfold arpRequestFrame
  exact Env.get_set ⟨intf.addr.size, by simp [etherHdrSize, arpHdrSize, etherAddrLen]⟩

@[simp] theorem length_replayFrame (mac : Mac) (intf : SrIf) (buf : List UInt8) :
    (replayFrame mac intf buf).length = buf.length := by
  simp only [replayFrame, Field.length_set]

theorem replayFrame_source {buf : List UInt8} (mac : Mac) (intf : SrIf)
    (long : etherHdrSize ≤ buf.length) :
    env.get etherShost (replayFrame mac intf buf) = intf.addr.bytes := by
  unfold replayFrame
  rw [Env.get_set_apart (by simp [etherAddrLen]),
    Env.get_set ⟨intf.addr.size, le_trans (by decide) long⟩]

theorem replayFrame_destination {buf : List UInt8} (mac : Mac) (intf : SrIf)
    (long : etherHdrSize ≤ buf.length) :
    env.get etherDhost (replayFrame mac intf buf) = mac.bytes := by
  unfold replayFrame
  exact Env.get_set ⟨mac.size, by rw [Field.length_set]; exact le_trans (by decide) long⟩

/-- The frame is an ICMP host unreachable about `packet`, to its IP source. -/
structure IsHostUnreachable (env : Env) (packet frame : List UInt8) : Prop where
  type : env.get etherType frame = be16 ethertypeIp
  protocol : env.get ipP frame = [ipProtocolIcmp]
  dst : env.get ipDst frame = env.get ipSrc packet
  icmpType : env.get icmpType frame = [3]
  icmpCode : env.get icmpCode frame = [1]
  quoted : env.get icmpData frame = peek env.beyond packet ipHdr.off icmpDataSize

theorem length_hostUnreachable (packet : List UInt8) (intf : SrIf) :
    (fabricatedIcmp env packet 3 1 intf none).length = icmpHdrSize + etherHdrSize + ipHdrSize := by
  simp [fabricatedIcmp]

theorem hostUnreachable_source (packet : List UInt8) (intf : SrIf) :
    env.get etherShost (fabricatedIcmp env packet 3 1 intf none) = intf.addr.bytes := by
  unfold fabricatedIcmp
  rw [Env.get_set_apart (by decide), Env.get_set]
  simp [etherAddrLen, icmpHdrSize, etherHdrSize, ipHdrSize]

theorem isHostUnreachable (packet : List UInt8) (intf : SrIf) :
    IsHostUnreachable env packet (fabricatedIcmp env packet 3 1 intf none) := by
  unfold fabricatedIcmp
  constructor <;>
    simp [Env.get_set, Env.get_set_apart, etherAddrLen, icmpHdrSize, etherHdrSize, ipHdrSize,
      icmpDataSize]

end NetLabs.Router

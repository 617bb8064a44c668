/-
NetLabs.Vns.PacketFraming — the frames the router and the server exchange.

Both directions have one layout, which two programs write down separately: an
eight-byte header, sixteen bytes of interface name and the Ethernet frame.
`sr_send_packet` fills in a `c_packet_header`, and the server unpacks what is
behind the framing layer's header; the server packs, and
`sr_read_from_server_expect` works with the offsets 8 and 24 and computes the
length of the frame as `len - 38 + 14`.

Only the filter for ARP requests stands between a frame and
`sr_handlepacket`; `arpReqNotForUs_eq` says what it filters.
-/
import NetLabs.Router.ServerCommand
import NetLabs.Vns.Decoding

namespace NetLabs.Vns

open NetLabs.Lib NetLabs.Lib.PyStruct NetLabs.Lib.Access NetLabs.Router

/-! ## `sr_send_packet` -/

/-- What `sr_send_packet(sr, buf, len, iface)` writes, if it rejects nothing. -/
def written (sr : Sr) (buf : List UInt8) (iface : IfName) : Option (List UInt8) :=
  if buf.length < etherHdrSize then none
  else if ¬ sr.srEtherAddrsMatchInterface buf iface then none
  else some (be32 (UInt32.ofNat (buf.length + packetHeaderSize)) ++ be32 vnsPacket ++
    pad 16 iface.chars ++ buf)

/-- `sr_send_packet` writes exactly when the frame counts as sent. -/
theorem srSendPacket_written (sr : Sr) (cause : Cause) (buf : List UInt8) (iface : IfName) :
    sr.srSendPacket cause buf iface =
      sr.log (if (written sr buf iface).isSome then .sent cause iface buf
        else .refused cause iface buf) := by
  unfold Sr.srSendPacket written
  by_cases short : buf.length < etherHdrSize
  · simp [short]
  · by_cases source : sr.srEtherAddrsMatchInterface buf iface = true
    · simp [short, source]
    · simp [short, source]

theorem pack_packet (name ethernetFrame : List UInt8) :
    (VnsPacket.mk name ethernetFrame).pack = .ok (pad 16 name ++ ethernetFrame) := by
  have header : structPack VnsPacket.headerFormat [.str name] = .ok (pad 16 name) := by
    simp [VnsPacket.headerFormat, structPack, PyStruct.pack, Code.pack, Raised.of]
  rw [VnsPacket.pack, header]
  rfl

theorem unpack_packet {name : List UInt8} (text : Text 16 name) (ethernetFrame : List UInt8) :
    VnsPacket.unpack (pad 16 name ++ ethernetFrame) = .ok ⟨name, ethernetFrame⟩ := by
  obtain ⟨body, packed, unpacked⟩ := packet_roundTrip (m := ⟨name, ethernetFrame⟩) text
  rw [pack_packet] at packed
  obtain rfl := Except.ok.inj packed
  exact unpacked

/-- The server finds the name and the frame. -/
theorem unpack_written {sr : Sr} {buf message : List UInt8} {iface : IfName}
    (h : written sr buf iface = some message) (fits : iface.chars.length ≤ 15) :
    VnsPacket.unpack (message.drop 8) = .ok ⟨iface.chars, buf⟩ := by
  unfold written at h
  split_ifs at h
  obtain rfl := Option.some.inj h
  rw [List.append_assoc, List.drop_left' (by rfl)]
  exact unpack_packet ⟨by omega, iface.noNul⟩ buf

/-! ## The bytes of a command -/

/-- The command a server sends with these bytes. -/
def commandOf (sent : List UInt8) : Option Command :=
  let len := wrapInt (ofBe32 (sent.take 4)).toNat
  if size : (sent.drop 4).length = len.toNat - 4 then some ⟨len, sent.drop 4, size⟩ else none

theorem commandOf_eq {sent body : List UInt8} {len : Int}
    (word : wrapInt (ofBe32 (sent.take 4)).toNat = len) (rest : sent.drop 4 = body)
    (size : body.length = len.toNat - 4) : commandOf sent = some ⟨len, body, size⟩ := by
  subst word rest
  exact dif_pos size

/-- The framing layer and the router agree on what a command is. -/
theorem commandOf_framed (lt : LtProtocol) (type : Nat) (body : List UInt8)
    (small : 8 + body.length ≤ 10000) (typed : type < 4294967296) :
    ∃ c : Command, commandOf (lt.header body.length type ++ body) = some c ∧
      c.len = (8 + body.length : Nat) ∧
      c.body = be32 (UInt32.ofNat type) ++ body := by
  have word : wrapInt (UInt32.ofNat (8 + body.length)).toNat = (8 + body.length : Nat) := by
    rw [UInt32.toNat_ofNat', wrapInt, Int.bmod_eq_of_le] <;> omega
  have size : (be32 (UInt32.ofNat type) ++ body).length =
      ((8 + body.length : Nat) : Int).toNat - 4 := by
    rw [List.length_append, length_be32]
    omega
  refine ⟨_, commandOf_eq ?_ ?_ size, rfl, rfl⟩
  · rw [lt.header_eq body.length type (by omega) typed, List.append_assoc,
      List.take_left' (length_be32 _), ofBe32_be32, word]
  · rw [lt.header_eq body.length type (by omega) typed, List.append_assoc,
      List.drop_left' (length_be32 _)]

/-! ## `sr_arp_req_not_for_us` -/

theorem getInterface_ne_abort (name : List UInt8) (ifList : List SrIf) :
    getInterface name ifList ≠ .error .abort := by
  intro h
  induction ifList with
  | nil => cases h
  | cons walker rest ih =>
    rw [getInterface] at h
    cases compared : strncmpEq walker.name.chars name srIfaceNamelen with
    | error stop =>
      rw [compared] at h
      obtain rfl := Except.error.inj h
      exact strncmpEq_ne_abort _ _ _ compared
    | ok equal =>
      rw [compared, ok_bind] at h
      split at h
      · cases h
      · exact ih h

/-- Behind a field with a NUL in it the comparisons do not run. -/
theorem getInterface_eq {name : List UInt8} (nul : 0 ∈ name) (ifList : List SrIf) :
    getInterface name ifList = .ok (ifList.find? (·.name = .ofField name)) := by
  have within : Within (· = ifList.find? (·.name = .ofField name)) (getInterface name ifList) := by
    rw [within_getInterface]
    refine ⟨.inr fun intf _ starts => ?_, rfl⟩
    exact intf.name.noNul (starts.subset nul)
  obtain ⟨found, h, rfl⟩ := ok_of_within within (getInterface_ne_abort name ifList)
  exact h

/-- An ARP request for another address. -/
def ArpRequestNotFor (ip : UInt32) (ethernetFrame : List UInt8) : Prop :=
  42 ≤ ethernetFrame.length ∧
  ofBe16 (slice ethernetFrame etherType.off 2) = ethertypeArp ∧
  ofBe16 (slice ethernetFrame arOp.off 2) = arpOpRequest ∧
  ofBe32 (slice ethernetFrame arTip.off 4) ≠ ip

instance (ip : UInt32) (ethernetFrame : List UInt8) :
    Decidable (ArpRequestNotFor ip ethernetFrame) :=
  inferInstanceAs (Decidable (_ ∧ _ ∧ _ ∧ _))

/-- A field of the frame in the buffer. -/
theorem bytes_frame {buf header ethernetFrame : List UInt8} (h : buf = header ++ ethernetFrame)
    (size : header.length = packetHeaderSize) {off n : Nat}
    (inside : off + n ≤ ethernetFrame.length) :
    bytes buf (packetHeaderSize + off) n = .ok (slice ethernetFrame off n) := by
  rw [bytes_inside (by rw [h, List.length_append, size]; omega), slice, h, ← List.drop_drop,
    List.drop_left' size, slice]

/-- What is filtered. -/
theorem arpReqNotForUs_eq {ifList : List SrIf} {receiver : SrIf}
    {buf header ethernetFrame : List UInt8} (h : buf = header ++ ethernetFrame)
    (size : header.length = packetHeaderSize) (small : ethernetFrame.length ≤ 9976)
    (found : getInterface (buf.drop cBaseSize) ifList = .ok (some receiver)) :
    arpReqNotForUs ifList buf (UInt32.ofNat ethernetFrame.length) =
      .ok (decide (ArpRequestNotFor receiver.ip ethernetFrame)) := by
  have least : UInt32.ofNat ethernetFrame.length < UInt32.ofNat (etherHdrSize + arpHdrSize) ↔
      ethernetFrame.length < 42 := by
    rw [UInt32.lt_iff_toNat_lt, UInt32.toNat_ofNat', UInt32.toNat_ofNat']
    simp only [etherHdrSize, arpHdrSize]
    omega
  rw [arpReqNotForUs, found, ok_bind]
  by_cases short : ethernetFrame.length < 42
  · rw [if_pos (least.mpr short), decide_eq_false fun filtered => by have := filtered.1; omega]
  · rw [if_neg fun below => short (least.mp below)]
    simp only [bytes_frame h size (show etherType.off + 2 ≤ ethernetFrame.length by simp; omega),
      bytes_frame h size (show arOp.off + 2 ≤ ethernetFrame.length by simp; omega),
      bytes_frame h size (show arTip.off + 4 ≤ ethernetFrame.length by simp; omega), ok_bind]
    split_ifs with other reply
    · rw [decide_eq_false fun filtered => other filtered.2.1]
    · rw [decide_eq_false fun filtered => reply filtered.2.2.1]
    · congr 1
      rw [decide_eq_decide]
      constructor
      · intro target
        exact ⟨by omega, not_not.mp other, not_not.mp reply, target⟩
      · intro filtered
        exact filtered.2.2.2

/-! ## `sr_read_from_server_expect` -/

/-- A name in its field is read up to the first NUL behind it. -/
theorem ofField_pad {name : IfName} (fits : name.chars.length ≤ 15) (rest : List UInt8) :
    IfName.ofField (pad 16 name.chars ++ rest) = name := by
  symm
  rw [IfName.eq_ofField_iff]
  have noNul : ∀ b ∈ name.chars, decide (b ≠ 0) = true := by
    intro b hb
    rw [decide_eq_true_iff]
    rintro rfl
    exact name.noNul hb
  obtain ⟨n, hn⟩ : ∃ n, 16 - name.chars.length = n + 1 := ⟨15 - name.chars.length, by omega⟩
  have field : pad 16 name.chars ++ rest = name.chars ++ 0 :: (List.replicate n 0 ++ rest) := by
    rw [pad_of_le (by omega), hn, List.replicate_succ, List.append_assoc, List.cons_append]
  obtain ⟨k, hk⟩ : ∃ k, srIfaceNamelen - name.chars.length = k + 1 :=
    ⟨31 - name.chars.length, by simp only [srIfaceNamelen]; omega⟩
  rw [field, List.take_append, List.take_of_length_le name.fits, hk, List.take_succ_cons,
    List.takeWhile_append_of_pos noNul, List.takeWhile_cons_of_neg (by simp), List.append_nil]

theorem logPacket_ok (host : Host) {buf : List UInt8} {n : Nat} (size : buf.length = n)
    (small : n ≤ 10000) (header : packetHeaderSize ≤ n) :
    logPacket host buf (UInt32.ofNat n - UInt32.ofNat packetHeaderSize) = .ok () := by
  have within := within_logPacket host (P := fun _ => True) size small header trivial
  have run : logPacket host buf (UInt32.ofNat n - UInt32.ofNat packetHeaderSize) ≠
      .error .abort := by
    unfold logPacket bytes
    split
    · dsimp only
      split <;> nofun
    · nofun
  obtain ⟨_, h, -⟩ := ok_of_within within run
  exact h

/-- The case `VNSPACKET` for a buffer that holds a header, a name and a frame. -/
theorem servePacket_eq (host : Host) (sr : Sr) {buf header ethernetFrame : List UInt8}
    {name : IfName} {receiver : SrIf} (fits : name.chars.length ≤ 15)
    (h : buf = header ++ pad 16 name.chars ++ ethernetFrame) (eight : header.length = cBaseSize)
    (small : ethernetFrame.length ≤ 9976) (found : sr.srGetInterface name = some receiver) :
    servePacket host sr buf (UInt32.ofNat (packetHeaderSize + ethernetFrame.length)) =
      .ok ⟨1, sr.ifList,
        if ArpRequestNotFor receiver.ip ethernetFrame then none
        else some ⟨ethernetFrame, UInt32.ofNat ethernetFrame.length, name.chars⟩⟩ := by
  have size : (header ++ pad 16 name.chars).length = packetHeaderSize := by
    rw [List.length_append, eight, length_pad]
    rfl
  have behind : buf.drop cBaseSize = pad 16 name.chars ++ ethernetFrame := by
    rw [h, List.append_assoc, List.drop_left' eight]
  have field : IfName.ofField (buf.drop cBaseSize) = name := by
    rw [behind]
    exact ofField_pad fits ethernetFrame
  have looked : getInterface (buf.drop cBaseSize) sr.ifList = .ok (some receiver) := by
    have nul : 0 ∈ buf.drop cBaseSize := by
      rw [behind]
      exact List.mem_append_left _ (zero_mem_pad (by omega))
    rw [getInterface_eq nul, field]
    exact congrArg Except.ok found
  have len :
      UInt32.ofNat (packetHeaderSize + ethernetFrame.length) - 38 + UInt32.ofNat etherHdrSize =
        UInt32.ofNat ethernetFrame.length := by
    apply UInt32.toNat_inj.mp
    have enough : 24 ≤ packetHeaderSize + ethernetFrame.length := Nat.le_add_right 24 _
    rw [frameLen_toNat (by simp only [packetHeaderSize]; omega), if_pos enough,
      UInt32.toNat_ofNat', packetHeaderSize]
    omega
  have whole : buf.length = packetHeaderSize + ethernetFrame.length := by
    rw [h, List.length_append, size]
  rw [servePacket, len, arpReqNotForUs_eq h size small looked, ok_bind]
  by_cases filtered : ArpRequestNotFor receiver.ip ethernetFrame
  · rw [decide_eq_true filtered, if_pos rfl, if_pos filtered]
  · have rest : buf.drop packetHeaderSize = ethernetFrame := by rw [h, List.drop_left' size]
    rw [decide_eq_false filtered, if_neg (by simp), if_neg filtered, logPacket_ok host whole
      (by simp only [packetHeaderSize]; omega) (Nat.le_add_right _ _), ok_bind, rest, field]

/-- Router and server agree on a frame in both directions. -/
theorem packet_framing_agreement (lt : LtProtocol) (sr : Sr) {intf : SrIf}
    (listed : intf ∈ sr.ifList) (name : 1 ≤ intf.name.chars.length ∧ intf.name.chars.length ≤ 15)
    (ethernetFrame : List UInt8)
    (size : 14 ≤ ethernetFrame.length ∧ ethernetFrame.length ≤ 9976) :
    (∀ message, written sr ethernetFrame intf.name = some message →
      VnsPacket.unpack (message.drop 8) = .ok ⟨intf.name.chars, ethernetFrame⟩) ∧
    ∃ body c receiver, (VnsPacket.mk intf.name.chars ethernetFrame).pack = .ok body ∧
      commandOf (lt.header body.length VnsPacket.getType ++ body) = some c ∧
      sr.srGetInterface intf.name = some receiver ∧
      ∀ (host : Host) (expectedCmd : UInt32), host.mallocOk → ¬ unexpected expectedCmd vnsPacket →
        srReadFromServerExpect host sr expectedCmd c =
          .ok ⟨1, sr.ifList,
            if ArpRequestNotFor receiver.ip ethernetFrame then none
            else some ⟨ethernetFrame, UInt32.ofNat ethernetFrame.length, intf.name.chars⟩⟩ := by
  refine ⟨fun message h => unpack_written h name.2, ?_⟩
  have length : (pad 16 intf.name.chars ++ ethernetFrame).length = 16 + ethernetFrame.length := by
    rw [List.length_append, length_pad]
  obtain ⟨c, received, len, body⟩ := commandOf_framed lt VnsPacket.getType
    (pad 16 intf.name.chars ++ ethernetFrame) (by omega) (by decide)
  obtain ⟨receiver, found⟩ : ∃ receiver, sr.srGetInterface intf.name = some receiver := by
    rw [← Option.isSome_iff_exists, Sr.srGetInterface, List.find?_isSome]
    exact ⟨intf, listed, by simp⟩
  refine ⟨_, c, receiver, pack_packet _ _, received, found, ?_⟩
  intro host expectedCmd malloc expected
  have count : c.len.toNat = packetHeaderSize + ethernetFrame.length := by
    rw [len, length, packetHeaderSize]
    omega
  have buf : c.buf = be32 (UInt32.ofNat c.len.toNat) ++ be32 vnsPacket ++
      pad 16 intf.name.chars ++ ethernetFrame := by
    rw [Command.buf, body, List.append_assoc, List.append_assoc]
    rfl
  have command : bytes c.buf 4 4 = .ok (be32 vnsPacket) := by
    apply bytes_eq (pad 16 intf.name.chars ++ ethernetFrame)
    · rw [buf, List.append_assoc, List.append_assoc, List.drop_left' (length_be32 _)]
    · rfl
    · rw [Command.length_buf (by omega)]
      omega
  rw [srReadFromServerExpect, if_neg (by omega), if_neg (by simp [malloc]), if_neg (by omega),
    command, ok_bind, ofBe32_be32, if_neg expected, serve, if_pos rfl, count]
  exact servePacket_eq host sr name.2 buf rfl size.2 found

/-- A router with the interface `eth0`. -/
def sampleIf : SrIf := ⟨.ofField [101, 116, 104, 48], .zero, 167772161⟩

theorem packet_framing_agreement_eth0 :
    (∀ message, written (srInit [sampleIf] []) (List.replicate 60 0) sampleIf.name = some message →
      VnsPacket.unpack (message.drop 8) = .ok ⟨sampleIf.name.chars, List.replicate 60 0⟩) ∧
    ∃ body c receiver, (VnsPacket.mk sampleIf.name.chars (List.replicate 60 0)).pack = .ok body ∧
      commandOf (LtProtocol.plain.header body.length VnsPacket.getType ++ body) = some c ∧
      (srInit [sampleIf] []).srGetInterface sampleIf.name = some receiver ∧
      ∀ (host : Host) (expectedCmd : UInt32), host.mallocOk → ¬ unexpected expectedCmd vnsPacket →
        srReadFromServerExpect host (srInit [sampleIf] []) expectedCmd c =
          .ok ⟨1, [sampleIf], if ArpRequestNotFor receiver.ip (List.replicate 60 0) then none
            else some ⟨List.replicate 60 0, UInt32.ofNat 60, sampleIf.name.chars⟩⟩ :=
  packet_framing_agreement .plain (srInit [sampleIf] []) List.mem_cons_self (by decide)
    (List.replicate 60 0) (by rw [List.length_replicate]; omega)

end NetLabs.Vns

/-
NetLabs.Vns.Exchange — what each message of a session is at the end that reads
it.

The listener sends four kinds of messages. Here is what
`sr_read_from_server_expect` does with each, when nothing goes wrong in the
host; `read_wire` is what they have in common. The router sends three kinds,
and here is what the listener finds in them.
-/
import NetLabs.Vns.Startup

namespace NetLabs.Vns

open NetLabs.Lib NetLabs.Lib.PyStruct NetLabs.Lib.Access NetLabs.Router

/-! ## At the router -/

/-- A message that announces its true length is read as a command, and served
if it is expected. -/
theorem read_wire (lt : LtProtocol) {m : VnsMessage} {body : List UInt8}
    (packed : m.pack = .ok body) (announced : m.length = body.length)
    (small : 8 + body.length ≤ 10000) :
    ∃ command, commandOf (wire lt m) = some command ∧
      command.kind = UInt32.ofNat m.getType ∧
      command.len.toNat = 8 + body.length ∧
      command.buf = be32 (UInt32.ofNat (8 + body.length)) ++ be32 (UInt32.ofNat m.getType) ++ body ∧
      ∀ (host : Host) (sr : Sr) (expectedCmd : UInt32), host.mallocOk = true →
        expectedCmd = 0 ∨ expectedCmd = UInt32.ofNat m.getType →
        srReadFromServerExpect host sr expectedCmd command =
          Router.serve host sr command (UInt32.ofNat m.getType) := by
  obtain ⟨command, cut, len, rest⟩ := commandOf_framed lt m.getType body small (getType_lt m)
  have count : command.len.toNat = 8 + body.length := by omega
  have kind : command.kind = UInt32.ofNat m.getType := by
    rw [Command.kind, rest, List.take_left' (length_be32 _), ofBe32_be32]
  have buf : command.buf =
      be32 (UInt32.ofNat (8 + body.length)) ++ be32 (UInt32.ofNat m.getType) ++ body := by
    rw [Command.buf, count, rest, List.append_assoc]
  refine ⟨command, ?_, kind, count, buf, ?_⟩
  · rw [wire_eq lt packed, frame, announced]
    exact cut
  · intro host sr expectedCmd malloc expected
    have word : bytes command.buf 4 4 = .ok (be32 (UInt32.ofNat m.getType)) := by
      apply bytes_eq body
      · rw [buf, List.append_assoc, List.drop_left' (length_be32 _)]
      · rfl
      · rw [Command.length_buf (by omega)]
        omega
    have wanted : ¬ unexpected expectedCmd (UInt32.ofNat m.getType) := by
      rintro ⟨some, other, -⟩
      rcases expected with rfl | rfl
      · exact some rfl
      · exact other rfl
    rw [srReadFromServerExpect, if_neg (by omega), if_neg (by simp [malloc]), if_neg (by omega),
      word, ok_bind, ofBe32_be32, if_neg wanted]

/-- The authentication request is answered. -/
theorem serve_authRequest {setup : Setup} {salt : List UInt8} {command : Command} (sr : Sr)
    (replies : setup.login.replies salt = true) (small : 8 + salt.length ≤ 10000)
    (count : command.len.toNat = 8 + salt.length)
    (buf : command.buf = be32 (UInt32.ofNat (8 + salt.length)) ++ be32 vnsAuthRequest ++ salt) :
    Router.serve setup.meets sr command vnsAuthRequest = .ok ⟨1, sr.ifList, none⟩ := by
  have length : command.buf.length = 8 + salt.length := by
    rw [buf, List.length_append, List.length_append, length_be32, length_be32]
  have read : bytes command.buf cBaseSize salt.length = .ok salt := by
    rw [bytes_inside (by rw [length, cBaseSize]), slice, buf, cBaseSize,
      List.drop_left' (by rfl), List.take_length]
  have known : setup.login.keyBytes.isSome = true := by
    rw [Login.replies] at replies
    split at replies
    · cases replies
    · rename_i key found
      rw [found]
      rfl
  rw [Router.serve, if_neg (by decide), if_neg (by decide), if_neg (by decide),
    if_neg (by decide), if_neg (by decide), if_pos rfl, serveAuthRequest, Setup.meets,
    if_pos known, count, toNat_sub_header small (by rw [cBaseSize]; omega), cBaseSize,
    Nat.add_sub_cancel_left]
  show (bytes command.buf cBaseSize salt.length >>= _) = _
  rw [read, ok_bind, if_pos replies]

/-- The status says that the router is authenticated. -/
theorem serve_authStatus {command : Command} {text : List UInt8} (host : Host) (sr : Sr)
    (buf : command.buf = be32 (UInt32.ofNat (8 + (1 + text.length))) ++ be32 vnsAuthStatus ++
      (1 :: text)) :
    Router.serve host sr command vnsAuthStatus = .ok ⟨1, sr.ifList, none⟩ := by
  have read : bytes command.buf cBaseSize 1 = .ok [1] := by
    apply bytes_eq text
    · rw [buf, cBaseSize, List.drop_left' (by rfl)]
      rfl
    · rfl
    · rw [buf, List.length_append, cBaseSize]
      exact Nat.le_add_right _ _
  rw [Router.serve, if_neg (by decide), if_neg (by decide), if_neg (by decide),
    if_neg (by decide), if_neg (by decide), if_neg (by decide), if_pos rfl, serveAuthStatus, read,
    ok_bind, if_pos (by decide)]

/-- The interfaces are added to those the router knows. -/
theorem serve_hwinfo {command : Command} {interfaces : List VnsInterface} (host : Host) (sr : Sr)
    (few : interfaces.length ≤ 46) {body : List UInt8}
    (packed : (VnsHardwareInfo.mk interfaces).pack = .ok body)
    (count : command.len.toNat = 8 + body.length)
    (buf : command.buf = be32 (UInt32.ofNat (8 + body.length)) ++ be32 vnsHwinfo ++ body)
    (verified : { sr with ifList := sr.ifList ++ interfaces.map recorded }.srVerifyRoutingTable =
      0) :
    Router.serve host sr command vnsHwinfo =
      .ok ⟨1, sr.ifList ++ interfaces.map recorded, none⟩ := by
  rw [pack_hardwareInfo] at packed
  obtain rfl := Except.ok.inj packed
  set entries := interfaces.flatMap interfaceEntries with hentries
  have number : entries.length ≤ 276 := by
    rw [hentries, length_interfaceEntries]
    omega
  have size := length_records entries
  have word : bytes command.buf 0 4 =
      .ok (be32 (UInt32.ofNat (8 + (entries.flatMap Entry.bytes).length))) := by
    apply bytes_eq (be32 vnsHwinfo ++ entries.flatMap Entry.bytes)
    · rw [buf, List.drop_zero, List.append_assoc]
    · rfl
    · exact Nat.zero_le _
  rw [Router.serve, if_neg (by decide), if_neg (by decide), if_neg (by decide), if_pos rfl, count,
    serveHwinfo_eq host sr (by omega) (by omega) word, buf,
    srHandleHwinfo_records host sr.ifList rfl number, hentries, interfaces_fold]
  simp only [Except.map, verified, ne_eq, not_true_eq_false, if_false]

/-- A packet is handed over, unless it is an ARP request for somebody else. -/
theorem serve_packet {command : Command} {ethernetFrame : List UInt8} {name : IfName}
    {receiver : SrIf} (host : Host) (sr : Sr) (fits : name.chars.length ≤ 15)
    (small : ethernetFrame.length ≤ 9976) (found : sr.srGetInterface name = some receiver)
    (count : command.len.toNat = packetHeaderSize + ethernetFrame.length)
    (buf : command.buf = be32 (UInt32.ofNat (packetHeaderSize + ethernetFrame.length)) ++
      be32 vnsPacket ++ (pad 16 name.chars ++ ethernetFrame)) :
    Router.serve host sr command vnsPacket =
      .ok ⟨1, sr.ifList,
        if ArpRequestNotFor receiver.ip ethernetFrame then none
        else some ⟨ethernetFrame, UInt32.ofNat ethernetFrame.length, name.chars⟩⟩ := by
  rw [Router.serve, if_pos rfl, count]
  exact servePacket_eq host sr fits (by rw [buf, List.append_assoc _ _ ethernetFrame]) rfl small
    found

/-- What the router sends when it is asked to authenticate itself. -/
theorem replyTo_authRequest {c : Client} {salt : List UInt8} {command : Command}
    (replies : c.setup.login.replies salt = true) (small : 8 + salt.length ≤ 10000)
    (kind : command.kind = vnsAuthRequest)
    (buf : command.buf = be32 (UInt32.ofNat (8 + salt.length)) ++ be32 vnsAuthRequest ++ salt) :
    ∃ digest, c.replyTo command = [replyBytes c.setup.login.user digest] := by
  have length : command.buf.length = 8 + salt.length := by
    rw [buf, List.length_append, List.length_append, length_be32, length_be32]
  rw [Login.replies] at replies
  split at replies
  · cases replies
  · rename_i key found
    rw [Bool.and_eq_true] at replies
    have handled := srHandleAuthRequest_eq c.setup.login command.buf salt
      (by rw [length, buf, List.append_assoc, List.take_left' (length_be32 _)])
      (by rw [buf, List.drop_left' (by rfl)]) length (by omega)
    simp only [found, replies.1, if_true] at handled
    refine ⟨SecureHash.digest (salt ++ key), ?_⟩
    rw [Client.replyTo, if_pos kind, handled]

/-! ## At the listener -/

/-- The reply is read as one. -/
theorem received_reply {user : List UInt8} (small : user.length < 4294967264)
    (digest : SecureHash.Words) :
    received (replyBytes user digest) = some (.authReply ⟨user, digest.bytes⟩) := by
  rw [received, (unpack_replyBytes small digest).2]

/-- A frame the router has sent is read with the name of its interface. -/
theorem received_packet {iface : IfName} (fits : iface.chars.length ≤ 15) (frame : List UInt8) :
    received (packetBytes iface frame) = some (.packet ⟨iface.chars, frame⟩) := by
  have type : slice (packetBytes iface frame) 4 4 = be32 vnsPacket := by
    rw [packetBytes, List.append_assoc, List.append_assoc, slice,
      List.drop_left' (length_be32 _), List.take_left' (length_be32 _)]
  have body : (packetBytes iface frame).drop 8 = pad 16 iface.chars ++ frame := by
    rw [packetBytes, List.append_assoc, List.drop_left' (by rfl)]
  have unpacked : VnsMessage.unpack vnsPacket.toNat (pad 16 iface.chars ++ frame) =
      some (.ok (.packet ⟨iface.chars, frame⟩)) := by
    show some (VnsMessage.packet <$> VnsPacket.unpack _) = _
    rw [unpack_packet ⟨by omega, iface.noNul⟩]
    rfl
  rw [received, type, body, ofBe32_be32, unpacked]

/-- The fields of a format one after the other. -/
theorem unpack_cons_append {c : Code} {fmt : List Code} {first : List UInt8}
    (size : first.length = c.size) (rest : List UInt8) :
    PyStruct.unpack (c :: fmt) (first ++ rest) =
      (PyStruct.unpack fmt rest).map (c.unpack first :: ·) := by
  rw [PyStruct.unpack, if_neg (by rw [List.length_append, size]; omega), List.take_left' size,
    List.drop_left' size]

/-- The message that opens a session without a template is read as one. -/
theorem received_open (setup : Setup) (plain : setup.template = []) :
    ∃ m, received setup.openBytes = some (.open m) := by
  set fields := be16 setup.topoId ++ (be16 0 ++ (pad Router.idSize setup.vhost ++
    (pad Router.idSize setup.login.user ++ (List.replicate Router.idSize 0 ++ [])))) with hfields
  have split : setup.openBytes = be32 108 ++ (be32 1 ++ fields) := by
    rw [Setup.openBytes, if_pos plain, hfields, List.append_nil]
    simp only [List.append_assoc]
  have type : slice setup.openBytes 4 4 = be32 1 := by
    rw [slice, split, List.drop_left' (length_be32 _), List.take_left' (length_be32 _)]
  have body : setup.openBytes.drop 8 = fields := by
    rw [split, ← List.append_assoc, List.drop_left' (by rfl)]
  obtain ⟨t, read⟩ : ∃ t, PyStruct.unpack VnsOpen.format fields = some t := by
    have field (s : List UInt8) : (pad Router.idSize s).length = (Code.chars idSize).size :=
      length_pad _ _
    have zeros : (List.replicate Router.idSize (0 : UInt8)).length = (Code.chars idSize).size := rfl
    rw [hfields, VnsOpen.format, unpack_cons_append rfl, unpack_cons_append rfl,
      unpack_cons_append (field _), unpack_cons_append (field _), unpack_cons_append zeros]
    exact ⟨_, rfl⟩
  have unpacked : structUnpack VnsOpen.format fields = .ok t := by
    rw [structUnpack, read]
    rfl
  have whole : VnsMessage.unpack (1 : UInt32).toNat fields =
      some (.open <$> VnsOpen.unpack fields) := rfl
  rw [received, type, body, ofBe32_be32, whole, VnsOpen.unpack, unpacked]
  exact ⟨_, rfl⟩

end NetLabs.Vns

/-
NetLabs.Router.ServerCommand — the commands of the VNS server, as
`sr_read_from_server_expect` of `lab1/router/sr_vns_comm.c` reads them.

A command is a length word and the bytes that follow; they stand in a buffer
of that length. Every read of the buffer is checked, and an assertion that
fails ends the process. The only check the code makes itself is the upper
bound of the length, so a command can be too short for the fields of its kind
or lack the NUL of a string in it (`banner_without_nul`). `Parseable` is
exactly the condition under which a command is read inside its buffer; then
the length passed to `sr_handlepacket` is true (`parses_within_iff`).

What `sr_handlepacket` does with the frame it is given is another matter. The
text of messages, the reply to an authentication request and the files
written are left out; what is read to produce them is not.
-/
import NetLabs.Lib.Access
import NetLabs.Lib.CNumber
import NetLabs.Router.Emission
import Mathlib.Data.List.TakeWhile

namespace NetLabs.Router

open NetLabs.Lib Access

/-! ## Commands -/

def vnsClose : UInt32 := 2
def vnsPacket : UInt32 := 4
def vnsBanner : UInt32 := 8
def vnsHwinfo : UInt32 := 16
def vnsRtable : UInt32 := 32
def vnsAuthRequest : UInt32 := 128
def vnsAuthStatus : UInt32 := 512

def hwInterface : UInt32 := 1
def hwEther : UInt32 := 32
def hwEthip : UInt32 := 64

/-- `sizeof(c_base)`, `sizeof(c_packet_header)`, `sizeof(c_hw_entry)`. -/
def cBaseSize : Nat := 8
def packetHeaderSize : Nat := 24
def hwEntrySize : Nat := 36
def idSize : Nat := 32
def packetDumpSize : Int := 1024

/-- The length word the server sends and the bytes it sends behind it. -/
structure Command where
  len : Int
  body : List UInt8
  size : body.length = len.toNat - 4
  deriving DecidableEq, Repr

/-- The buffer, once all of the command is read. -/
def Command.buf (c : Command) : List UInt8 := be32 (UInt32.ofNat c.len.toNat) ++ c.body

/-- What the handlers meet and do not control. -/
structure Host where
  /-- `malloc(len)` returns a buffer. -/
  mallocOk : Bool
  /-- `sr->logfile` is open. -/
  logfile : Bool
  /-- The file for the routing table can be opened. -/
  rtableOpens : Bool
  /-- The file `auth_key` can be read. -/
  authKeyReads : Bool
  /-- The reply to this salt was computed and sent. -/
  authReplies : List UInt8 → Bool
  /-- What `malloc(sizeof(struct sr_if))` finds in the fields not set. -/
  freshAddr : Mac
  freshIp : UInt32

/-- What is passed to `sr_handlepacket`: the bytes from `packet` on, the
length and the name. -/
structure Handover where
  packet : List UInt8
  len : UInt32
  interface : List UInt8
  deriving DecidableEq, Repr

/-- The result of serving a command. -/
structure Served where
  ret : Int
  ifList : List SrIf
  handed : Option Handover
  deriving DecidableEq, Repr

/-! ## Interfaces -/

/-- The name in a field of `sr_IFACE_NAMELEN` bytes. -/
def IfName.ofField (field : List UInt8) : IfName where
  chars := (field.take srIfaceNamelen).takeWhile (· ≠ 0)
  fits := ((List.takeWhile_sublist _).length_le).trans (List.length_take_le _ _)
  noNul := fun h => by simpa using List.mem_takeWhile_imp h

/-- The address in the first bytes of a field. -/
def Mac.ofField (field : List UInt8) : Mac :=
  ⟨peek (fun _ => 0) field 0 etherAddrLen, length_peek _ _ _ _⟩

/-- `sr_get_interface(sr, name)`, with `name` a pointer into the buffer. -/
def getInterface (name : List UInt8) : List SrIf → Access (Option SrIf)
  | [] => .ok none
  | walker :: rest => do
      if ← strncmpEq walker.name.chars name srIfaceNamelen then .ok (some walker)
      else getInterface name rest

/-- The last element changes; there must be one. -/
def updateLast (f : SrIf → SrIf) (ifList : List SrIf) : Access (List SrIf) :=
  match ifList.getLast? with
  | none => .error .abort
  | some last => .ok (ifList.dropLast ++ [f last])

/-! ## Handlers -/

/-- `sr_arp_req_not_for_us(sr, packet, len, interface)`. -/
def arpReqNotForUs (ifList : List SrIf) (buf : List UInt8) (len : UInt32) : Access Bool := do
  let iface ← getInterface (buf.drop cBaseSize) ifList
  if len < UInt32.ofNat (etherHdrSize + arpHdrSize) then .ok false
  else match iface with
    | none => .error .abort
    | some iface => do
        let etherType ← bytes buf (packetHeaderSize + etherType.off) 2
        if ofBe16 etherType ≠ ethertypeArp then .ok false
        else do
          let arOp ← bytes buf (packetHeaderSize + arOp.off) 2
          if ofBe16 arOp ≠ arpOpRequest then .ok false
          else do
            let arTip ← bytes buf (packetHeaderSize + arTip.off) 4
            .ok (ofBe32 arTip ≠ iface.ip)

/-- `sr_log_packet(sr, buf + sizeof(c_packet_header), len)`. -/
def logPacket (host : Host) (buf : List UInt8) (len : UInt32) : Access Unit :=
  if host.logfile then do
    let size := min packetDumpSize (wrapInt len.toNat)
    let _ ← bytes buf packetHeaderSize (size % 4294967296).toNat
    .ok ()
  else .ok ()

/-- The case `VNSPACKET`. The subtractions are unsigned. -/
def servePacket (host : Host) (sr : Sr) (buf : List UInt8) (len : UInt32) : Access Served := do
  let frameLen := len - 38 + UInt32.ofNat etherHdrSize
  if ← arpReqNotForUs sr.ifList buf frameLen then .ok ⟨1, sr.ifList, none⟩
  else do
    logPacket host buf (len - UInt32.ofNat packetHeaderSize)
    .ok ⟨1, sr.ifList, some ⟨buf.drop packetHeaderSize, frameLen,
      (IfName.ofField (buf.drop cBaseSize)).chars⟩⟩

/-- The loop of `sr_handle_hwinfo`, over `n` entries from the `i`-th. -/
def hwinfoLoop (host : Host) (buf : List UInt8) : Nat → Nat → List SrIf → Access (List SrIf)
  | 0, _, ifList => .ok ifList
  | n + 1, i, ifList => do
      let key ← bytes buf (cBaseSize + hwEntrySize * i) 4
      let value ← bytes buf (cBaseSize + hwEntrySize * i + 4) 32
      let ifList ←
        if ofBe32 key = hwInterface then
          .ok (ifList ++ [⟨.ofField value, host.freshAddr, host.freshIp⟩])
        else if ofBe32 key = hwEthip then
          updateLast (fun last => { last with ip := ofBe32 (value.take 4) }) ifList
        else if ofBe32 key = hwEther then
          updateLast (fun last => { last with addr := .ofField value }) ifList
        else .ok ifList
      hwinfoLoop host buf n (i + 1) ifList

/-- The case `VNSHWINFO`. -/
def serveHwinfo (host : Host) (sr : Sr) (buf : List UInt8) (len : Nat) : Access Served := do
  let ifList ← hwinfoLoop host buf ((len - cBaseSize) / hwEntrySize) 0 sr.ifList
  if { sr with ifList }.srVerifyRoutingTable ≠ 0 then .ok ⟨-1, ifList, none⟩
  else .ok ⟨1, ifList, none⟩

/-- The case `VNS_RTABLE`. The length of the table is unsigned. -/
def serveRtable (host : Host) (sr : Sr) (buf : List UInt8) (len : UInt32) : Access Served := do
  let _ ← cstr (buf.drop cBaseSize)
  if host.rtableOpens then do
    let _ ← bytes buf (cBaseSize + idSize) (len - 8 - UInt32.ofNat idSize).toNat
    .ok ⟨1, sr.ifList, none⟩
  else .ok ⟨-1, sr.ifList, none⟩

/-- The case `VNS_AUTH_REQUEST`. -/
def serveAuthRequest (host : Host) (sr : Sr) (buf : List UInt8) (len : UInt32) :
    Access Served :=
  if host.authKeyReads then do
    let salt ← bytes buf cBaseSize (len - UInt32.ofNat cBaseSize).toNat
    .ok ⟨if host.authReplies salt then 1 else -1, sr.ifList, none⟩
  else .ok ⟨-1, sr.ifList, none⟩

/-- The case `VNS_AUTH_STATUS`. -/
def serveAuthStatus (sr : Sr) (buf : List UInt8) : Access Served := do
  let authOk ← bytes buf cBaseSize 1
  if authOk ≠ [0] then .ok ⟨1, sr.ifList, none⟩
  else do
    let _ ← cstr (buf.drop (cBaseSize + 1))
    .ok ⟨-1, sr.ifList, none⟩

/-- `switch (command)`. `mLen` of every kind is the length word. -/
def serve (host : Host) (sr : Sr) (c : Command) (command : UInt32) : Access Served :=
  let len := UInt32.ofNat c.len.toNat
  if command = vnsPacket then servePacket host sr c.buf len
  else if command = vnsClose then do
    let _ ← cstr (c.buf.drop cBaseSize)
    .ok ⟨0, sr.ifList, none⟩
  else if command = vnsBanner then do
    let _ ← cstr (c.buf.drop cBaseSize)
    .ok ⟨1, sr.ifList, none⟩
  else if command = vnsHwinfo then serveHwinfo host sr c.buf c.len.toNat
  else if command = vnsRtable then serveRtable host sr c.buf len
  else if command = vnsAuthRequest then serveAuthRequest host sr c.buf len
  else if command = vnsAuthStatus then serveAuthStatus sr c.buf
  else .ok ⟨1, sr.ifList, none⟩

/-- `expected_cmd && command != expected_cmd`, and no `VNSCLOSE`. -/
def unexpected (expectedCmd command : UInt32) : Prop :=
  expectedCmd ≠ 0 ∧ command ≠ expectedCmd ∧ command ≠ vnsClose

instance (expectedCmd command : UInt32) : Decidable (unexpected expectedCmd command) :=
  inferInstanceAs (Decidable (_ ∧ _ ∧ _))

/-- `sr_read_from_server_expect(sr, expected_cmd)`, when the server sends
`c`. The length word is stored in the buffer before the rest is read. -/
def srReadFromServerExpect (host : Host) (sr : Sr) (expectedCmd : UInt32) (c : Command) :
    Access Served :=
  if c.len > 10000 ∨ c.len < 0 then .ok ⟨-1, sr.ifList, none⟩
  else if ¬ host.mallocOk then .ok ⟨-1, sr.ifList, none⟩
  else if c.len < 4 then .error .outOfBounds
  else do
    let command := ofBe32 (← bytes c.buf 4 4)
    if unexpected expectedCmd command then .ok ⟨-1, sr.ifList, none⟩
    else serve host sr c command

/-! ## The condition -/

/-- The bytes of the buffer from `off` on. -/
def Command.from (c : Command) (off : Nat) : List UInt8 := c.body.drop (off - 4)

/-- `command`, in a command that has one. -/
def Command.kind (c : Command) : UInt32 := ofBe32 (c.body.take 4)

/-- No comparison of the name of a packet with an interface runs over the
end: the buffer does not end in a piece of an interface name. -/
def Command.NameEnds (c : Command) (ifList : List SrIf) : Prop :=
  srIfaceNamelen ≤ (c.from 8).length ∨ ∀ intf ∈ ifList, ¬ c.from 8 <+: intf.name.chars

/-- The command is long enough for what is read of its kind, and the strings
in it have a NUL. -/
def Command.Complete (c : Command) (host : Host) (ifList : List SrIf) : Prop :=
  if c.kind = vnsPacket then
    c.NameEnds ifList ∧
      (24 ≤ c.len ∨ ∀ intf ∈ ifList, intf.name ≠ .ofField (c.from 8))
  else if c.kind = vnsClose ∨ c.kind = vnsBanner then 0 ∈ c.from 8
  else if c.kind = vnsRtable then 0 ∈ c.from 8 ∧ (host.rtableOpens → 40 ≤ c.len)
  else if c.kind = vnsAuthStatus then 9 ≤ c.len ∧ (c.body[4]? = some 0 → 0 ∈ c.from 9)
  else True

/-- The command is read inside its buffer, if there is one. -/
def Command.Parseable (c : Command) (host : Host) (ifList : List SrIf) (expectedCmd : UInt32) :
    Prop :=
  host.mallocOk → 8 ≤ c.len ∧ (unexpected expectedCmd c.kind ∨ c.Complete host ifList)

/-! ## The interface of a packet -/

theorem IfName.eq_ofField_iff {name : IfName} {field : List UInt8} :
    name = .ofField field ↔ name.chars = (field.take srIfaceNamelen).takeWhile (· ≠ 0) := by
  constructor
  · rintro rfl
    rfl
  · intro h
    cases name
    simp_all [IfName.ofField]

/-- A buffer that ends in a piece of one interface name holds no other name. -/
theorem ends_of_match {name : IfName} {field : List UInt8} (names : List SrIf)
    (ends : srIfaceNamelen ≤ field.length ∨ ¬ field <+: name.chars)
    (found : name = .ofField field) :
    srIfaceNamelen ≤ field.length ∨ ∀ intf ∈ names, ¬ field <+: intf.name.chars := by
  rcases ends with long | ends
  · exact .inl long
  · by_cases long : srIfaceNamelen ≤ field.length
    · exact .inl long
    · refine .inr fun intf _ hpre => ends ?_
      have noNul : ∀ b ∈ field, b ≠ 0 := fun b hb heq => intf.name.noNul (heq ▸ hpre.subset hb)
      have whole : name.chars = field := by
        rw [IfName.eq_ofField_iff.mp found, List.take_of_length_le (by omega),
          List.takeWhile_eq_self_iff.mpr (by simpa using noNul)]
      exact whole ▸ List.prefix_rfl

/-- Looking up the name of a packet. -/
theorem within_getInterface {name : List UInt8} {ifList : List SrIf} {P : Option SrIf → Prop} :
    Within P (getInterface name ifList) ↔
      (srIfaceNamelen ≤ name.length ∨ ∀ intf ∈ ifList, ¬ name <+: intf.name.chars) ∧
        P (ifList.find? (·.name = .ofField name)) := by
  induction ifList with
  | nil => simp [getInterface]
  | cons walker rest ih =>
    have ends : ¬ (name.length < srIfaceNamelen ∧ name <+: walker.name.chars) ↔
        srIfaceNamelen ≤ name.length ∨ ¬ name <+: walker.name.chars := by
      rw [not_and_or, not_lt]
    rw [getInterface, within_bind, within_strncmpEq walker.name.noNul walker.name.fits, ends]
    by_cases found : walker.name = .ofField name
    · have same := IfName.eq_ofField_iff.mp found
      rw [decide_eq_true same, if_pos rfl, within_ok, List.find?_cons_of_pos (by simpa using found)]
      apply and_congr_left
      intro _
      constructor
      · intro h
        rcases ends_of_match rest h found with long | others
        · exact .inl long
        · rcases h with long | mine
          · exact .inl long
          · exact .inr (List.forall_mem_cons.mpr ⟨mine, others⟩)
      · intro h
        exact h.imp_right fun all => all walker List.mem_cons_self
    · have differ : ¬ walker.name.chars = (name.take srIfaceNamelen).takeWhile (· ≠ 0) :=
        fun h => found (IfName.eq_ofField_iff.mpr h)
      rw [decide_eq_false differ, if_neg (by simp), ih,
        List.find?_cons_of_neg (by simpa using found), List.forall_mem_cons, or_and_left, and_assoc]

/-! ## The kinds -/

/-- The length passed to `sr_handlepacket` is that of the frame in a command
of `n` bytes. -/
def Served.Exact (n : Nat) (served : Served) : Prop :=
  ∀ h ∈ served.handed, (h.len.toNat : Int) = n - 24

@[simp] theorem exact_none (n : Nat) (ret : Int) (ifList : List SrIf) :
    Served.Exact n ⟨ret, ifList, none⟩ := nofun

/-- The unsigned length of the frame. -/
theorem frameLen_toNat {n : Nat} (small : n ≤ 10000) :
    (UInt32.ofNat n - 38 + UInt32.ofNat etherHdrSize).toNat =
      if 24 ≤ n then n - 24 else 4294967272 + n := by
  have word : (UInt32.ofNat n).toNat = n := by
    rw [UInt32.toNat_ofNat']
    omega
  have header : (UInt32.ofNat etherHdrSize).toNat = 14 := rfl
  rw [UInt32.toNat_add, UInt32.toNat_sub, word, header, UInt32.toNat_ofNat]
  split <;> omega

theorem within_logPacket (host : Host) {buf : List UInt8} {n : Nat} {P : Unit → Prop}
    (size : buf.length = n) (small : n ≤ 10000) (header : packetHeaderSize ≤ n) (h : P ()) :
    Within P (logPacket host buf (UInt32.ofNat n - UInt32.ofNat packetHeaderSize)) := by
  have frame : (UInt32.ofNat n - UInt32.ofNat packetHeaderSize).toNat = n - packetHeaderSize := by
    have word : (UInt32.ofNat n).toNat = n := by
      rw [UInt32.toNat_ofNat']
      omega
    have offset : (UInt32.ofNat packetHeaderSize).toNat = packetHeaderSize := rfl
    rw [UInt32.toNat_sub, word, offset]
    simp only [packetHeaderSize] at *
    omega
  rw [logPacket, frame]
  split
  · have positive : wrapInt ((n - packetHeaderSize : Nat) : Int) = n - packetHeaderSize := by
      rw [wrapInt, Int.bmod_def]
      omega
    rw [positive, within_bind, within_bytes]
    refine ⟨.inr ?_, h⟩
    simp only [packetDumpSize, packetHeaderSize] at *
    omega
  · exact h

/-- The length of a frame that is not there passes the check of
`sr_arp_req_not_for_us`. -/
theorem within_arpReqNotForUs {ifList : List SrIf} {buf : List UInt8} {n : Nat} {P : Bool → Prop}
    (size : buf.length = n) (small : n ≤ 10000) (rest : 24 ≤ n → ∀ drop, P drop) :
    Within P (arpReqNotForUs ifList buf (UInt32.ofNat n - 38 + UInt32.ofNat etherHdrSize)) ↔
      (srIfaceNamelen ≤ (buf.drop cBaseSize).length ∨
        ∀ intf ∈ ifList, ¬ buf.drop cBaseSize <+: intf.name.chars) ∧
      (24 ≤ n ∨ ∀ intf ∈ ifList, intf.name ≠ .ofField (buf.drop cBaseSize)) := by
  have frame := frameLen_toNat small
  rw [arpReqNotForUs, within_bind, within_getInterface]
  refine and_congr_right fun _ => ?_
  have least : (UInt32.ofNat (etherHdrSize + arpHdrSize)).toNat = 42 := rfl
  rw [within_ite, UInt32.lt_iff_toNat_lt, least, frame]
  by_cases long : 24 ≤ n
  · rw [if_pos long]
    refine iff_of_true ⟨fun _ => rest long _, fun enough => ?_⟩ (.inl long)
    cases ifList.find? (·.name = .ofField (buf.drop cBaseSize)) with
    | none => trivial
    | some iface =>
      simp only [within_bind, within_bytes, within_ite, within_ok, size, packetHeaderSize]
      exact ⟨.inr (by omega), fun _ => rest long _, fun _ => ⟨.inr (by omega),
        fun _ => rest long _, fun _ => ⟨.inr (by omega), rest long _⟩⟩⟩
  · have enough : ¬ 4294967272 + n < 42 := by omega
    rw [if_neg long]
    simp only [enough, long, false_or, IsEmpty.forall_iff, true_and, not_false_eq_true,
      true_implies]
    cases found : ifList.find? (·.name = .ofField (buf.drop cBaseSize)) with
    | none =>
      refine iff_of_true trivial fun intf mem => ?_
      simpa using List.find?_eq_none.mp found intf mem
    | some iface =>
      apply iff_of_false
      · intro h
        rw [within_bind, within_bytes, size] at h
        simp only [packetHeaderSize] at h
        omega
      · intro h
        exact h iface (List.mem_of_find?_eq_some found) (by simpa using List.find?_some found)

theorem within_servePacket (host : Host) (sr : Sr) {buf : List UInt8} {n : Nat}
    (size : buf.length = n) (small : n ≤ 10000) :
    Within (Served.Exact n) (servePacket host sr buf (UInt32.ofNat n)) ↔
      (srIfaceNamelen ≤ (buf.drop cBaseSize).length ∨
        ∀ intf ∈ sr.ifList, ¬ buf.drop cBaseSize <+: intf.name.chars) ∧
      (24 ≤ n ∨ ∀ intf ∈ sr.ifList, intf.name ≠ .ofField (buf.drop cBaseSize)) := by
  rw [servePacket, within_bind]
  refine within_arpReqNotForUs size small fun long drop => ?_
  rw [within_ite, within_bind]
  refine ⟨fun _ => exact_none n 1 sr.ifList, fun _ => ?_⟩
  refine within_logPacket host size small long fun h hh => ?_
  obtain rfl := Option.mem_some_iff.mp hh
  rw [frameLen_toNat small, if_pos long]
  omega

/-- The entries fill the command. -/
theorem within_hwinfoLoop (host : Host) {buf : List UInt8} {entries i : Nat} {P : List SrIf → Prop}
    {ifList : List SrIf} (fits : cBaseSize + hwEntrySize * (i + entries) ≤ buf.length)
    (h : ∀ ifList, P ifList) : Within P (hwinfoLoop host buf entries i ifList) := by
  induction entries generalizing i ifList with
  | zero => exact h ifList
  | succ entries ih =>
    have next : ∀ ifList, Within P (hwinfoLoop host buf entries (i + 1) ifList) := fun ifList =>
      ih (by rw [Nat.add_assoc, Nat.add_comm 1]; exact fits)
    have last (f : SrIf → SrIf) :
        Within (fun ifList => Within P (hwinfoLoop host buf entries (i + 1) ifList))
          (updateLast f ifList) := by
      rw [updateLast]
      split
      · trivial
      · exact next _
    simp only [hwinfoLoop, within_bind, within_bytes, within_ite, within_ok]
    simp only [cBaseSize, hwEntrySize] at fits ⊢
    exact ⟨.inr (by omega), .inr (by omega), fun _ => next _, fun _ => ⟨fun _ => last _,
      fun _ => ⟨fun _ => last _, fun _ => next _⟩⟩⟩

theorem within_serveHwinfo (host : Host) (sr : Sr) {buf : List UInt8} (long : 8 ≤ buf.length) :
    Within (Served.Exact buf.length) (serveHwinfo host sr buf buf.length) := by
  rw [serveHwinfo, within_bind]
  refine within_hwinfoLoop host ?_ fun ifList => ?_
  · simp only [cBaseSize, hwEntrySize]
    omega
  · rw [within_ite]
    exact ⟨fun _ => exact_none _ _ _, fun _ => exact_none _ _ _⟩

/-- `len` minus a header, when it is there. -/
theorem toNat_sub_header {n header : Nat} (small : n ≤ 10000) (fits : header ≤ n) :
    (UInt32.ofNat n - UInt32.ofNat header).toNat = n - header := by
  have word : (UInt32.ofNat n).toNat = n := by
    rw [UInt32.toNat_ofNat']
    omega
  have offset : (UInt32.ofNat header).toNat = header := by
    rw [UInt32.toNat_ofNat']
    omega
  rw [UInt32.toNat_sub, word, offset]
  omega

theorem within_serveRtable (host : Host) (sr : Sr) {buf : List UInt8} {n : Nat}
    (size : buf.length = n) (small : n ≤ 10000) (long : 8 ≤ n) :
    Within (Served.Exact n) (serveRtable host sr buf (UInt32.ofNat n)) ↔
      0 ∈ buf.drop cBaseSize ∧ (host.rtableOpens → 40 ≤ n) := by
  have base : (UInt32.ofNat n - 8).toNat = n - 8 := toNat_sub_header small long
  have table : (UInt32.ofNat n - 8 - UInt32.ofNat idSize).toNat =
      if 40 ≤ n then n - 40 else 4294967256 + n := by
    have offset : (UInt32.ofNat idSize).toNat = 32 := rfl
    rw [UInt32.toNat_sub, base, offset]
    split <;> omega
  rw [serveRtable, within_bind, within_cstr, within_ite, within_bind, within_bytes, table, size]
  refine and_congr_right fun _ => ⟨fun h opens => ?_, fun h => ⟨fun opens => ⟨?_, ?_⟩, ?_⟩⟩
  · have inside := (h.1 opens).1
    simp only [cBaseSize, idSize] at inside
    split at inside <;> omega
  · have enough := h opens
    rw [if_pos enough]
    simp only [cBaseSize, idSize]
    omega
  · exact exact_none _ _ _
  · exact fun _ => exact_none _ _ _

theorem within_serveAuthRequest (host : Host) (sr : Sr) {buf : List UInt8} {n : Nat}
    (size : buf.length = n) (small : n ≤ 10000) (long : 8 ≤ n) :
    Within (Served.Exact n) (serveAuthRequest host sr buf (UInt32.ofNat n)) := by
  rw [serveAuthRequest, within_ite]
  refine ⟨fun _ => ?_, fun _ => exact_none _ _ _⟩
  rw [within_bind, within_bytes, show (UInt32.ofNat n - UInt32.ofNat cBaseSize).toNat = n - 8 from
    toNat_sub_header small long, size]
  exact ⟨.inr (by simp only [cBaseSize]; omega), exact_none _ _ _⟩

theorem within_serveAuthStatus (sr : Sr) {buf : List UInt8} {n : Nat} :
    Within (Served.Exact n) (serveAuthStatus sr buf) ↔
      9 ≤ buf.length ∧ (slice buf cBaseSize 1 = [0] → 0 ∈ buf.drop (cBaseSize + 1)) := by
  rw [serveAuthStatus, within_bind, within_bytes, within_ite, within_bind, within_cstr]
  simp [cBaseSize]

/-! ## The buffer -/

theorem Command.length_buf {c : Command} (word : 4 ≤ c.len) : c.buf.length = c.len.toNat := by
  rw [Command.buf, List.length_append, length_be32, c.size]
  omega

theorem Command.drop_buf (c : Command) {off : Nat} (h : 4 ≤ off) : c.buf.drop off = c.from off := by
  rw [Command.buf, List.drop_append, length_be32, List.drop_of_length_le h, List.nil_append,
    Command.from]

theorem Command.slice_buf (c : Command) : slice c.buf 4 4 = c.body.take 4 := by
  rw [slice, c.drop_buf le_rfl, Command.from, Nat.sub_self, List.drop_zero]

theorem Command.slice_status {c : Command} (long : 9 ≤ c.len) :
    slice c.buf cBaseSize 1 = [0] ↔ c.body[4]? = some 0 := by
  have size := c.size
  have inside : 4 < c.body.length := by omega
  have drop : c.body.drop 4 = c.body[4] :: c.body.drop 5 := List.drop_eq_getElem_cons inside
  have status : c.from cBaseSize = c.body[4] :: c.body.drop 5 := drop
  rw [slice, c.drop_buf (by decide), status, List.take_succ_cons, List.take_zero,
    List.getElem?_eq_getElem inside, List.singleton_inj, Option.some_inj]

/-- A handler that is called stays in the buffer and passes a true length
just when the command is complete. -/
theorem within_serve (host : Host) (sr : Sr) {c : Command} (long : 8 ≤ c.len)
    (small : c.len ≤ 10000) :
    Within (Served.Exact c.len.toNat) (serve host sr c c.kind) ↔ c.Complete host sr.ifList := by
  have size : c.buf.length = c.len.toNat := Command.length_buf (by omega)
  have inside : c.len.toNat ≤ 10000 := by omega
  have header : 8 ≤ c.len.toNat := by omega
  have rest : c.buf.drop cBaseSize = c.from 8 := c.drop_buf (by decide)
  rw [serve, Command.Complete, Command.NameEnds]
  generalize c.kind = kind
  by_cases packet : kind = vnsPacket
  · rw [if_pos packet, if_pos packet, within_servePacket host sr size inside, rest]
    exact and_congr_right fun _ => or_congr_left (by omega)
  rw [if_neg packet, if_neg packet]
  by_cases close : kind = vnsClose
  · rw [if_pos close, if_pos (.inl close), within_bind, within_cstr, rest]
    exact and_iff_left (exact_none _ _ _)
  rw [if_neg close]
  by_cases banner : kind = vnsBanner
  · rw [if_pos banner, if_pos (.inr banner), within_bind, within_cstr, rest]
    exact and_iff_left (exact_none _ _ _)
  rw [if_neg banner, if_neg (not_or.mpr ⟨close, banner⟩)]
  by_cases hwinfo : kind = vnsHwinfo
  · subst hwinfo
    rw [if_pos rfl, if_neg (by decide), if_neg (by decide), ← size]
    exact iff_of_true (within_serveHwinfo host sr (by omega)) trivial
  rw [if_neg hwinfo]
  by_cases rtable : kind = vnsRtable
  · rw [if_pos rtable, if_pos rtable, within_serveRtable host sr size inside header, rest]
    exact and_congr_right fun _ => imp_congr_right fun _ => by omega
  rw [if_neg rtable, if_neg rtable]
  by_cases authRequest : kind = vnsAuthRequest
  · subst authRequest
    rw [if_pos rfl, if_neg (by decide)]
    exact iff_of_true (within_serveAuthRequest host sr size inside header) trivial
  rw [if_neg authRequest]
  by_cases authStatus : kind = vnsAuthStatus
  · rw [if_pos authStatus, if_pos authStatus, within_serveAuthStatus, size,
      c.drop_buf (by decide)]
    refine (and_congr_left' (by omega)).trans (and_congr_right fun enough => ?_)
    rw [Command.slice_status enough]
    rfl
  · rw [if_neg authStatus, if_neg authStatus]
    exact iff_of_true (exact_none _ _ _) trivial

/-- A command is read inside its buffer, and a frame in it passed on with its
length, exactly when the condition holds. -/
theorem parses_within_iff (host : Host) (sr : Sr) (expectedCmd : UInt32) (c : Command)
    (range : 0 ≤ c.len ∧ c.len ≤ 10000) :
    Within (Served.Exact c.len.toNat) (srReadFromServerExpect host sr expectedCmd c) ↔
      c.Parseable host sr.ifList expectedCmd := by
  rw [srReadFromServerExpect, if_neg (by omega), Command.Parseable]
  cases host.mallocOk with
  | false => exact iff_of_true (exact_none _ _ _) nofun
  | true =>
    rw [if_neg (by simp), forall_prop_of_true rfl]
    by_cases word : c.len < 4
    · rw [if_pos word]
      exact iff_of_false id fun h => absurd h.1 (by omega)
    · rw [if_neg word, within_bind, within_bytes, Command.length_buf (by omega), c.slice_buf,
        ← Command.kind, within_ite]
      have bound : (4 = 0 ∨ 4 + 4 ≤ c.len.toNat) ↔ 8 ≤ c.len := by omega
      rw [bound]
      refine and_congr_right fun long => ?_
      rw [within_serve host sr long range.2, ← or_iff_not_imp_left]
      exact and_iff_right fun _ => exact_none _ _ _

/-- A host on which nothing fails. -/
def Host.idle : Host :=
  ⟨true, true, true, true, fun _ => true, .zero, 0⟩

/-- An IP frame of 26 bytes for the interface `e`, in a command of 50. -/
theorem parses_within_iff_frame :
    Within (Served.Exact 50) (srReadFromServerExpect .idle (srInit [⟨⟨[101], by decide, by decide⟩,
      .zero, 0⟩] []) 0 ⟨50, be32 vnsPacket ++ [101] ++ List.replicate 41 0, rfl⟩) :=
  (parses_within_iff .idle _ 0 ⟨50, _, rfl⟩ (by decide)).mpr fun _ =>
    ⟨by decide, .inr ((if_pos (by decide)).mpr ⟨.inl (by decide), .inl (by decide)⟩)⟩

/-- The reason of a close or the text of a banner is printed up to its NUL,
which may be missing. -/
theorem banner_without_nul :
    ¬ Within (Served.Exact 9)
      (srReadFromServerExpect .idle (srInit [] []) 0 ⟨9, be32 vnsBanner ++ [65], rfl⟩) :=
  id

end NetLabs.Router

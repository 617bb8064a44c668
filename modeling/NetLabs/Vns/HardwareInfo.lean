/-
NetLabs.Vns.HardwareInfo — what the router reads of a `VNSHardwareInfo`.

The server packs an interface as six records of 36 bytes, each a key and 32
bytes of value. `sr_handle_hwinfo` of `lab1/router/sr_vns_comm.c` goes over
the records: one kind of record makes a new interface, two kinds set a field
of the last one, and it skips the others. `Entry` is a record;
`hwinfoLoop_eq` says that the loop is a fold over records, and
`VnsInterface.pack_eq` that a packed interface is six of them. Between them
stands what six records do (`entries_fold`), and so the two sides agree on
every list of interfaces (`hardware_info_agreement`).
-/
import NetLabs.Router.ServerCommand
import NetLabs.Vns.Protocol

namespace NetLabs.Vns

open NetLabs.Lib NetLabs.Lib.PyStruct NetLabs.Lib.Access NetLabs.Router

/-! ## `sr_handle_hwinfo` -/

/-- `num_entries`, computed in `size_t` from the length word. -/
def numEntries (mLen : UInt32) : Int :=
  wrapInt ((mLen.toUInt64 - UInt64.ofNat cBaseSize) / UInt64.ofNat hwEntrySize).toNat

/-- `sr_handle_hwinfo(sr, hwinfo)`: `num_entries` and the interface list. -/
def srHandleHwinfo (host : Host) (ifList : List SrIf) (buf : List UInt8) :
    Access (Int × List SrIf) := do
  let mLen ← bytes buf 0 4
  let ifList ← hwinfoLoop host buf (numEntries (ofBe32 mLen)).toNat 0 ifList
  .ok (numEntries (ofBe32 mLen), ifList)

theorem srHandleHwinfo_eq (host : Host) (ifList : List SrIf) {buf : List UInt8} {mLen : UInt32}
    (word : bytes buf 0 4 = .ok (be32 mLen)) :
    srHandleHwinfo host ifList buf =
      (hwinfoLoop host buf (numEntries mLen).toNat 0 ifList).map fun l => (numEntries mLen, l) := by
  rw [srHandleHwinfo, word, ok_bind, ofBe32_be32]
  cases hwinfoLoop host buf (numEntries mLen).toNat 0 ifList <;> rfl

/-- The number of entries of a message that is not shorter than its header. -/
theorem numEntries_eq {n : Nat} (long : 8 ≤ n) (small : n < 4294967296) :
    numEntries (UInt32.ofNat n) = ((n - cBaseSize) / hwEntrySize : Nat) := by
  have word : (UInt32.ofNat n).toUInt64.toNat = n := by
    rw [UInt32.toNat_toUInt64, UInt32.toNat_ofNat']
    omega
  have header : (UInt64.ofNat cBaseSize).toNat = 8 := rfl
  have entry : (UInt64.ofNat hwEntrySize).toNat = 36 := rfl
  have body : ((UInt32.ofNat n).toUInt64 - UInt64.ofNat cBaseSize).toNat = n - 8 := by
    rw [UInt64.toNat_sub, word, header]
    omega
  rw [numEntries, UInt64.toNat_div, body, entry, wrapInt, cBaseSize, hwEntrySize,
    Int.bmod_eq_of_le] <;> omega

/-! ## Records -/

/-- `c_hw_entry`. -/
structure Entry where
  mKey : UInt32
  value : List UInt8
  size : value.length = 32

/-- The bytes of an entry. -/
def Entry.bytes (e : Entry) : List UInt8 := be32 e.mKey ++ e.value

theorem Entry.length_bytes (e : Entry) : e.bytes.length = hwEntrySize := by
  rw [Entry.bytes, List.length_append, e.size]
  rfl

/-- One turn of the loop of `sr_handle_hwinfo`. -/
def entryStep (host : Host) (ifList : List SrIf) (e : Entry) : Access (List SrIf) :=
  if e.mKey = hwInterface then
    .ok (ifList ++ [⟨.ofField e.value, host.freshAddr, host.freshIp⟩])
  else if e.mKey = hwEthip then
    updateLast (fun last => { last with ip := ofBe32 (e.value.take 4) }) ifList
  else if e.mKey = hwEther then
    updateLast (fun last => { last with addr := .ofField e.value }) ifList
  else .ok ifList

/-- The loop is a fold over the records of the buffer. -/
theorem hwinfoLoop_eq (host : Host) {buf : List UInt8} (rest : List UInt8)
    {entries : List Entry} {i : Nat}
    (h : buf.drop (cBaseSize + hwEntrySize * i) = entries.flatMap Entry.bytes ++ rest)
    (inside : cBaseSize + hwEntrySize * i ≤ buf.length) (ifList : List SrIf) :
    hwinfoLoop host buf entries.length i ifList = entries.foldlM (entryStep host) ifList := by
  induction entries generalizing i ifList with
  | nil => rfl
  | cons e entries ih =>
    rw [List.flatMap_cons, List.append_assoc] at h
    have key : bytes buf (cBaseSize + hwEntrySize * i) 4 = .ok (be32 e.mKey) := by
      rw [Entry.bytes, List.append_assoc] at h
      exact bytes_eq _ h rfl inside
    have length := congrArg List.length h
    rw [List.length_drop, List.length_append, e.length_bytes] at length
    have value : bytes buf (cBaseSize + hwEntrySize * i + 4) 32 = .ok e.value := by
      refine bytes_eq (entries.flatMap Entry.bytes ++ rest) ?_ e.size ?_
      · rw [← List.drop_drop, h, Entry.bytes, List.append_assoc]
        rfl
      · simp only [hwEntrySize] at length ⊢
        omega
    have next : buf.drop (cBaseSize + hwEntrySize * (i + 1)) =
        entries.flatMap Entry.bytes ++ rest := by
      rw [Nat.mul_succ, ← Nat.add_assoc, ← List.drop_drop, h, List.drop_left' e.length_bytes]
    have inside' : cBaseSize + hwEntrySize * (i + 1) ≤ buf.length := by
      simp only [hwEntrySize] at length ⊢
      omega
    rw [List.length_cons, hwinfoLoop, key, List.foldlM_cons]
    simp only [value, entryStep, ofBe32_be32, bind, Except.bind]
    split_ifs <;> simp only [ih next inside']

/-! ## A packed interface -/

/-- The six records of an interface. -/
def interfaceEntries (m : VnsInterface) : List Entry :=
  [⟨hwInterface, pad 32 m.name, length_pad _ _⟩,
   ⟨2, be32 0 ++ pad 28 [], rfl⟩,
   ⟨hwEther, pad 32 m.mac, length_pad _ _⟩,
   ⟨hwEthip, pad 4 m.ip ++ pad 28 [], by rw [List.length_append, length_pad, length_pad]⟩,
   ⟨4, be32 0 ++ pad 28 [], rfl⟩,
   ⟨128, pad 4 m.mask ++ pad 28 [], by rw [List.length_append, length_pad, length_pad]⟩]

theorem pack_eq (m : VnsInterface) : m.pack = .ok ((interfaceEntries m).flatMap Entry.bytes) := by
  simp [VnsInterface.pack, structPack, PyStruct.pack, Code.pack, VnsInterface.format,
    interfaceEntries, Entry.bytes, Raised.of, VnsInterface.hwInterface, VnsInterface.hwSpeed,
    VnsInterface.hwSubnet, VnsInterface.hwEther, VnsInterface.hwEthip, VnsInterface.hwMask,
    hwInterface, hwEther, hwEthip]

/-- The interface the six records make. -/
def recorded (m : VnsInterface) : SrIf :=
  ⟨.ofField (pad 32 m.name), .ofField (pad 32 m.mac), ofBe32 m.ip⟩

theorem updateLast_append (f : SrIf → SrIf) (ifList : List SrIf) (last : SrIf) :
    updateLast f (ifList ++ [last]) = .ok (ifList ++ [f last]) := by
  simp only [updateLast, List.getLast?_concat, List.dropLast_concat]

/-- The record of the name makes the interface, those of the address and the
IP set its fields, and the others do nothing. -/
theorem entries_fold (host : Host) (ifList : List SrIf) (m : VnsInterface) :
    (interfaceEntries m).foldlM (entryStep host) ifList = .ok (ifList ++ [recorded m]) := by
  have ip : (pad 4 m.ip ++ pad 28 []).take 4 = m.ip := by
    rw [List.take_left' (length_pad _ _), pad_of_eq m.ipSize]
  simp [interfaceEntries, entryStep, updateLast_append, ip, recorded, hwInterface, hwEther,
    hwEthip, bind, Except.bind, pure, Except.pure]

theorem packs_eq (interfaces : List VnsInterface) :
    interfaces.mapM VnsInterface.pack =
      .ok (interfaces.map fun m => (interfaceEntries m).flatMap Entry.bytes) := by
  induction interfaces with
  | nil => rfl
  | cons m rest ih => rw [List.mapM_cons, pack_eq, ih]; rfl

theorem interfaces_fold (host : Host) (interfaces : List VnsInterface) (ifList : List SrIf) :
    (interfaces.flatMap interfaceEntries).foldlM (entryStep host) ifList =
      .ok (ifList ++ interfaces.map recorded) := by
  induction interfaces generalizing ifList with
  | nil => rw [List.map_nil, List.append_nil]; rfl
  | cons m rest ih =>
    rw [List.flatMap_cons, List.foldlM_append, entries_fold, List.map_cons,
      List.append_cons ifList (recorded m) (rest.map recorded), ← ih]
    rfl

/-- The interface of the router has the name, the address and the IP of the
server's. -/
def Describes (m : VnsInterface) (intf : SrIf) : Prop :=
  intf.name.chars = m.name ∧ intf.addr.bytes = m.mac ∧ be32 intf.ip = m.ip

theorem describes_recorded {m : VnsInterface} (fits : m.name.length ≤ 31) (noNul : 0 ∉ m.name) :
    Describes m (recorded m) := by
  refine ⟨?_, ?_, be32_ofBe32 m.ipSize⟩
  · have field : (pad 32 m.name).take srIfaceNamelen = pad 32 m.name :=
      List.take_of_length_le (Nat.le_of_eq (length_pad _ _))
    simp only [recorded, IfName.ofField, field]
    exact takeWhile_pad (by omega) noNul
  · have field : slice (pad 32 m.mac) 0 etherAddrLen = m.mac := by
      rw [slice, List.drop_zero, pad_of_le (by rw [m.macSize]; omega)]
      exact List.take_left' m.macSize
    simp only [recorded, Mac.ofField]
    rw [peek_eq_slice _ (by rw [length_pad]; decide), field]

/-! ## The agreement -/

theorem length_interfaceEntries (interfaces : List VnsInterface) :
    (interfaces.flatMap interfaceEntries).length = 6 * interfaces.length := by
  simp only [List.length_flatMap, interfaceEntries, List.length_cons, List.length_nil,
    List.map_const', List.sum_replicate_nat]
  omega

theorem length_records (entries : List Entry) :
    (entries.flatMap Entry.bytes).length = 36 * entries.length := by
  induction entries with
  | nil => rfl
  | cons e rest ih =>
    rw [List.flatMap_cons, List.length_append, e.length_bytes, ih, List.length_cons, hwEntrySize]
    omega

theorem pack_hardwareInfo (interfaces : List VnsInterface) :
    (VnsHardwareInfo.mk interfaces).pack =
      .ok ((interfaces.flatMap interfaceEntries).flatMap Entry.bytes) := by
  rw [VnsHardwareInfo.pack, packs_eq, List.flatMap_assoc]
  rfl

/-- `sr_handle_hwinfo` on records: a length word that is true, any second word
and the records. -/
theorem srHandleHwinfo_records (host : Host) (ifList : List SrIf) {entries : List Entry}
    {word : List UInt8} (size : word.length = 4) (few : entries.length ≤ 276) :
    srHandleHwinfo host ifList
        (be32 (UInt32.ofNat (8 + (entries.flatMap Entry.bytes).length)) ++ word ++
          entries.flatMap Entry.bytes) =
      (entries.foldlM (entryStep host) ifList).map fun l =>
        (((entries.length : Nat) : Int), l) := by
  set records := entries.flatMap Entry.bytes with hrecords
  have length : records.length = 36 * entries.length := length_records entries
  set buf := be32 (UInt32.ofNat (8 + records.length)) ++ word ++ records with hbuf
  have mLen : bytes buf 0 4 = .ok (be32 (UInt32.ofNat (8 + records.length))) :=
    bytes_eq (word ++ records) (by rw [hbuf, List.drop_zero, List.append_assoc]) rfl
      (Nat.zero_le _)
  have header : (be32 (UInt32.ofNat (8 + records.length)) ++ word).length = 8 := by
    rw [List.length_append, length_be32, size]
  have loop : hwinfoLoop host buf entries.length 0 ifList =
      entries.foldlM (entryStep host) ifList := by
    apply hwinfoLoop_eq host []
    · rw [List.append_nil, ← hrecords, hbuf]
      exact List.drop_left' header
    · rw [hbuf, List.length_append, header]
      exact Nat.le_add_right _ _
  have count : numEntries (UInt32.ofNat (8 + records.length)) = entries.length := by
    rw [numEntries_eq (by omega) (by omega), cBaseSize, hwEntrySize]
    omega
  rw [srHandleHwinfo_eq host ifList mLen, count, Int.toNat_natCast, loop]

/-- The server and the router agree on a list of interfaces. The second word
of the message, which `sr_read_from_server_expect` converts in place, does not
matter. -/
theorem hardware_info_agreement (lt : LtProtocol) (host : Host) (ifList : List SrIf)
    (interfaces : List VnsInterface) (few : interfaces.length ≤ 46)
    (named : ∀ m ∈ interfaces, 1 ≤ m.name.length ∧ m.name.length ≤ 31 ∧ 0 ∉ m.name) :
    ∃ body added, (VnsHardwareInfo.mk interfaces).pack = .ok body ∧
      List.Forall₂ Describes interfaces added ∧
      ∀ word : List UInt8, word.length = 4 →
        srHandleHwinfo host ifList
            (put (lt.header body.length VnsHardwareInfo.getType ++ body) 4 word) =
          .ok ((6 * interfaces.length : Nat), ifList ++ added) := by
  have length := length_records (interfaces.flatMap interfaceEntries)
  rw [length_interfaceEntries] at length
  refine ⟨_, interfaces.map recorded, pack_hardwareInfo interfaces, ?_, ?_⟩
  · rw [List.forall₂_map_right_iff, List.forall₂_same]
    intro m hm
    obtain ⟨-, fits, noNul⟩ := named m hm
    exact describes_recorded fits noNul
  · intro word size
    have few' : (interfaces.flatMap interfaceEntries).length ≤ 276 := by
      rw [length_interfaceEntries]
      omega
    rw [lt.header_eq _ _ (by omega) (by decide), put_middle (by rfl) (by rw [size]; rfl),
      srHandleHwinfo_records host ifList size few',
      interfaces_fold, length_interfaceEntries]
    rfl

/-- An interface `eth1`. -/
def eth1 : VnsInterface :=
  ⟨[101, 116, 104, 49], [2, 0, 0, 0, 0, 7], [10, 0, 1, 1], [255, 255, 255, 0], rfl, rfl, rfl⟩

/-- An interface `eth2`. -/
def eth2 : VnsInterface :=
  ⟨[101, 116, 104, 50], [2, 0, 0, 0, 0, 8], [10, 0, 2, 1], [255, 255, 255, 0], rfl, rfl, rfl⟩

def sampleHost : Host := ⟨true, false, true, true, fun _ => true, .zero, 0⟩

/-- A router with an interface `eth0` is told of two others. -/
theorem hardware_info_agreement_eth1 :
    let eth0 : SrIf := ⟨⟨[101, 116, 104, 48], by decide, by decide⟩, .zero, 167772161⟩
    ∃ body added, (VnsHardwareInfo.mk [eth1, eth2]).pack = .ok body ∧
      List.Forall₂ Describes [eth1, eth2] added ∧
      ∀ word : List UInt8, word.length = 4 →
        srHandleHwinfo sampleHost [eth0]
            (put (LtProtocol.plain.header body.length VnsHardwareInfo.getType ++ body) 4 word) =
          .ok (12, [eth0] ++ added) :=
  hardware_info_agreement LtProtocol.plain sampleHost _ [eth1, eth2] (by decide) (by decide)

/-- For a length word that is true, `sr_read_from_server_expect` serves a
command of this kind by `sr_handle_hwinfo`. -/
theorem serveHwinfo_eq (host : Host) (sr : Sr) {buf : List UInt8} {n : Nat} (long : 8 ≤ n)
    (small : n < 4294967296) (word : bytes buf 0 4 = .ok (be32 (UInt32.ofNat n))) :
    serveHwinfo host sr buf n =
      (srHandleHwinfo host sr.ifList buf).map fun r =>
        ⟨if { sr with ifList := r.2 }.srVerifyRoutingTable ≠ 0 then -1 else 1, r.2, none⟩ := by
  rw [srHandleHwinfo_eq host sr.ifList word, numEntries_eq long small, Int.toNat_natCast,
    serveHwinfo]
  cases hwinfoLoop host buf ((n - cBaseSize) / hwEntrySize) 0 sr.ifList with
  | error stop => rfl
  | ok ifList =>
    simp only [bind, Except.bind, Except.map]
    split <;> rfl

end NetLabs.Vns

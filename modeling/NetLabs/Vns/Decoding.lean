/-
NetLabs.Vns.Decoding — `unpack` undoes `pack`.

`Encodable` says which messages have a faithful packed form: a text stands in
a field of fixed size, where NULs fill it up, so it must fit and have no NUL
itself; a number must fit its width. The trailing bytes of a message, such as
a frame or a digest, are free.

Both directions go through the format of a class. `struct_roundTrip` is what
the library says about one, `header_roundTrip` the same for a format with
bytes behind it.
-/
import NetLabs.Vns.Protocol

namespace NetLabs.Vns

open NetLabs.Lib NetLabs.Lib.PyStruct

/-! ## Messages with a packed form -/

/-- A text that a field of `n` bytes keeps. -/
def Text (n : Nat) (s : List UInt8) : Prop := s.length ≤ n ∧ 0 ∉ s

/-- A canonical dotted quad and a mask. -/
def SrcFilter.Canonical (f : SrcFilter) : Prop :=
  (∃ address, inetNtoa address = some f.1) ∧ 0 ≤ f.2 ∧ f.2 ≤ 32

/-- The texts have no NUL and fit, and so do the numbers. -/
def VnsMessage.Encodable : VnsMessage → Prop
  | .open m => (0 ≤ m.topoId ∧ m.topoId < 65536) ∧
      Text idSize m.vhost ∧ Text idSize m.user ∧ Text idSize m.pw
  | .close m => Text 256 m.msg
  | .packet m => Text 16 m.intfName
  | .banner m => Text 256 m.msg
  | .hardwareInfo _ => False
  | .rtable m => Text idSize m.vrhost
  | .openTemplate m =>
      Text 30 m.templateName ∧ Text idSize m.vrhost ∧ ∀ f ∈ m.srcFilters, f.Canonical
  | .authRequest _ => True
  | .authReply m => m.username.length < 4294967296
  | .authStatus _ => True

/-! ## Formats -/

theorem stripNullChars_pad {n : Nat} {s : List UInt8} (text : Text n s) :
    stripNullChars (pad n s) = s :=
  filter_pad text.1 text.2

/-- What fits a format is packed in its size and comes back. -/
theorem struct_roundTrip (fmt : List Code) (values : List Value)
    (h : List.Forall₂ Code.Accepts fmt values) :
    ∃ bs, structPack fmt values = .ok bs ∧ bs.length = calcsize fmt ∧
      structUnpack fmt bs = .ok (List.zipWith Code.stored fmt values) := by
  obtain ⟨bs, packed⟩ := exists_pack h
  refine ⟨bs, ?_, length_pack packed, ?_⟩
  · rw [structPack, packed]
    rfl
  · rw [structUnpack, unpack_pack packed]
    rfl

/-- A header in front of other bytes comes back, and so do they. -/
theorem header_roundTrip (fmt : List Code) (values : List Value)
    (h : List.Forall₂ Code.Accepts fmt values) :
    ∃ header, structPack fmt values = .ok header ∧ ∀ rest : List UInt8,
      (header ++ rest).drop (calcsize fmt) = rest ∧
      structUnpack fmt ((header ++ rest).take (calcsize fmt)) =
        .ok (List.zipWith Code.stored fmt values) := by
  obtain ⟨header, packed, size, unpacked⟩ := struct_roundTrip fmt values h
  refine ⟨header, packed, fun rest => ⟨List.drop_left' size, ?_⟩⟩
  rw [List.take_left' size, unpacked]

/-! ## The classes -/

theorem open_roundTrip {m : VnsOpen} (h : (VnsMessage.open m).Encodable) :
    ∃ body, m.pack = .ok body ∧ VnsOpen.unpack body = .ok m := by
  obtain ⟨topo, vhost, user, pw⟩ := h
  obtain ⟨body, packed, -, unpacked⟩ := struct_roundTrip VnsOpen.format
    [.num m.topoId, .num 0, .str m.vhost, .str m.user, .str m.pw]
    (by simp [VnsOpen.format, Code.Accepts, topo])
  refine ⟨body, packed, ?_⟩
  rw [VnsOpen.unpack, unpacked]
  simp [VnsOpen.format, Code.stored, textAt, numberAt, stripNullChars_pad, vhost, user, pw,
    bind, Except.bind, pure, Except.pure]

theorem close_roundTrip {m : VnsClose} (text : Text 256 m.msg) :
    ∃ body, m.pack = .ok body ∧ VnsClose.unpack body = .ok m := by
  obtain ⟨body, packed, -, unpacked⟩ := struct_roundTrip VnsClose.format
    [.str m.msg] (by simp [VnsClose.format, Code.Accepts])
  refine ⟨body, packed, ?_⟩
  rw [VnsClose.unpack, unpacked]
  simp [VnsClose.format, Code.stored, textAt, stripNullChars_pad text,
    bind, Except.bind, pure, Except.pure]

theorem banner_roundTrip {m : VnsBanner} (text : Text 256 m.msg) :
    ∃ body, m.pack = .ok body ∧ VnsBanner.unpack body = .ok m := by
  obtain ⟨body, packed, -, unpacked⟩ := struct_roundTrip VnsBanner.format
    [.str m.msg] (by simp [VnsBanner.format, Code.Accepts])
  refine ⟨body, packed, ?_⟩
  rw [VnsBanner.unpack, unpacked]
  simp [VnsBanner.format, Code.stored, textAt, stripNullChars_pad text,
    bind, Except.bind, pure, Except.pure]

theorem packet_roundTrip {m : VnsPacket} (text : Text 16 m.intfName) :
    ∃ body, m.pack = .ok body ∧ VnsPacket.unpack body = .ok m := by
  obtain ⟨header, packed, unpacked⟩ := header_roundTrip VnsPacket.headerFormat
    [.str m.intfName] (by simp [VnsPacket.headerFormat, Code.Accepts])
  obtain ⟨rest, name⟩ := unpacked m.ethernetFrame
  refine ⟨header ++ m.ethernetFrame, ?_, ?_⟩
  · rw [VnsPacket.pack, packed]
    rfl
  · rw [VnsPacket.unpack, VnsPacket.headerSize, name, rest]
    simp [VnsPacket.headerFormat, Code.stored, textAt, stripNullChars_pad text,
      bind, Except.bind, pure, Except.pure]

theorem rtable_roundTrip {m : VnsRtable} (text : Text idSize m.vrhost) :
    ∃ body, m.pack = .ok body ∧ VnsRtable.unpack body = .ok m := by
  have field : structPack VnsRtable.headerFormat [.str m.vrhost] = .ok (pad idSize m.vrhost) := by
    simp [VnsRtable.headerFormat, structPack, pack, Code.pack, Raised.of]
  refine ⟨pad idSize m.vrhost ++ m.rtable, ?_, ?_⟩
  · rw [VnsRtable.pack, field]
    rfl
  · rw [VnsRtable.unpack, List.take_left' (length_pad _ _), List.drop_left' (length_pad _ _),
      stripNullChars_pad text]

theorem authReply_roundTrip {m : VnsAuthReply} (fits : m.username.length < 4294967296) :
    ∃ body, m.pack = .ok body ∧ VnsAuthReply.unpack body = .ok m := by
  obtain ⟨header, packed, unpacked⟩ := header_roundTrip [.uint32]
    [.num m.username.length]
    (.cons ⟨Int.natCast_nonneg _, by omega⟩ .nil)
  obtain ⟨rest, length⟩ := unpacked (m.username ++ m.ssp)
  refine ⟨header ++ m.username ++ m.ssp, ?_, ?_⟩
  · rw [VnsAuthReply.pack, packed]
    rfl
  · have four : calcsize [.uint32] = 4 := rfl
    rw [four] at rest length
    rw [VnsAuthReply.unpack, List.append_assoc, length, rest]
    simp [Code.stored, numberAt, bind, Except.bind, pure, Except.pure]

theorem authStatus_roundTrip (m : VnsAuthStatus) :
    ∃ body, m.pack = .ok body ∧ VnsAuthStatus.unpack body = .ok m := by
  obtain ⟨header, packed, unpacked⟩ := header_roundTrip [.uint8]
    [.num (if m.authOk then 1 else 0)]
    (by cases m.authOk <;> simp [Code.Accepts])
  obtain ⟨rest, flag⟩ := unpacked m.msg
  refine ⟨header ++ m.msg, ?_, ?_⟩
  · rw [VnsAuthStatus.pack, packed]
    rfl
  · have one : calcsize [.uint8] = 1 := rfl
    rw [one] at rest flag
    rw [VnsAuthStatus.unpack, rest, flag]
    obtain ⟨authOk, msg⟩ := m
    cases authOk <;> simp [Code.stored, numberAt, bind, Except.bind, pure, Except.pure]

/-! ## Source filters -/

/-- A filter in its five bytes. -/
theorem packFilter_canonical {f : SrcFilter} (canonical : f.Canonical) :
    ∃ record, VnsOpenTemplate.packFilter f = .ok record ∧ record.length = 5 ∧
      ∀ rest, VnsOpenTemplate.unpackFilter (record ++ rest) 0 = .ok f := by
  obtain ⟨⟨address, text⟩, low, high⟩ := canonical
  have read := inetAton_inetNtoa text
  have size := length_inetAton read
  obtain ⟨mask, packed, one, unpacked⟩ := struct_roundTrip [.uint8]
    [.num f.2] (by simp [Code.Accepts]; omega)
  have one : mask.length = 1 := one
  refine ⟨address ++ mask, ?_, ?_, ?_⟩
  · rw [VnsOpenTemplate.packFilter, read, packed]
    rfl
  · rw [List.length_append, size, one]
  · intro rest
    have ip : slice (address ++ mask ++ rest) (0 * 5) 4 = address := by
      rw [slice, Nat.zero_mul, List.drop_zero, List.append_assoc, List.take_left' size]
    have bits : slice (address ++ mask ++ rest) (0 * 5 + 4) 1 = mask := by
      rw [slice, Nat.zero_mul, Nat.zero_add, List.append_assoc, List.drop_left' size,
        List.take_left' one]
    rw [VnsOpenTemplate.unpackFilter, ip, bits, text, unpacked]
    simp [Code.stored, numberAt, Raised.of, bind, Except.bind, pure, Except.pure]
    omega

theorem unpackFilter_succ {record rest : List UInt8} (size : record.length = 5) (i : Nat) :
    VnsOpenTemplate.unpackFilter (record ++ rest) (i + 1) =
      VnsOpenTemplate.unpackFilter rest i := by
  have drops : ∀ off, (record ++ rest).drop (5 + off) = rest.drop off := by
    intro off
    rw [← List.drop_drop, List.drop_left' size]
  have first : (i + 1) * 5 = 5 + i * 5 := by omega
  rw [VnsOpenTemplate.unpackFilter, VnsOpenTemplate.unpackFilter, slice, slice, slice, slice, first,
    Nat.add_assoc, drops, drops]

/-- The loop of `unpack` over what `pack` makes of filters. -/
theorem filters_roundTrip {filters : List SrcFilter} (canonical : ∀ f ∈ filters, f.Canonical) :
    ∃ records, filters.mapM VnsOpenTemplate.packFilter = .ok records ∧
      records.flatten.length = 5 * filters.length ∧
      (List.range filters.length).mapM (VnsOpenTemplate.unpackFilter records.flatten) =
        .ok filters := by
  induction filters with
  | nil => exact ⟨[], rfl, rfl, rfl⟩
  | cons f filters ih =>
    rw [List.forall_mem_cons] at canonical
    obtain ⟨record, packed, size, unpacked⟩ := packFilter_canonical canonical.1
    obtain ⟨records, packs, sizes, unpacks⟩ := ih canonical.2
    refine ⟨record :: records, ?_, ?_, ?_⟩
    · rw [List.mapM_cons, packed, packs]
      rfl
    · rw [List.flatten_cons, List.length_append, size, sizes, List.length_cons]
      omega
    · rw [List.flatten_cons, List.length_cons, List.range_succ_eq_map, List.mapM_cons, unpacked,
        List.mapM_map]
      simp only [Function.comp_def, unpackFilter_succ size, Nat.succ_eq_add_one]
      rw [unpacks]
      rfl

theorem openTemplate_roundTrip {m : VnsOpenTemplate}
    (h : (VnsMessage.openTemplate m).Encodable) :
    ∃ body, m.pack = .ok body ∧ VnsOpenTemplate.unpack body = .ok m := by
  obtain ⟨name, host, canonical⟩ := h
  obtain ⟨records, packs, sizes, unpacks⟩ := filters_roundTrip canonical
  obtain ⟨header, packed, unpacked⟩ := header_roundTrip VnsOpenTemplate.headerFormat
    [.str m.templateName, .str m.vrhost]
    (by simp [VnsOpenTemplate.headerFormat, Code.Accepts])
  obtain ⟨rest, texts⟩ := unpacked records.flatten
  have count : records.flatten.length / 5 = m.srcFilters.length := by omega
  refine ⟨header ++ records.flatten, ?_, ?_⟩
  · rw [VnsOpenTemplate.pack, packs, packed]
    rfl
  · rw [VnsOpenTemplate.unpack, VnsOpenTemplate.headerSize, texts, rest]
    simp only [bind, Except.bind, count, unpacks]
    simp [VnsOpenTemplate.headerFormat, VnsOpenTemplate.init, Code.stored, textAt,
      stripNullChars_pad, name, host, m.nonempty, pure, Except.pure]

/-! ## All classes -/

/-- What `unpack` of the class gives back, the table of classes does. -/
theorem of_class {α : Type} {packed : Py (List UInt8)} {unpack : List UInt8 → Py α} {m : α}
    (f : α → VnsMessage) (h : ∃ body, packed = .ok body ∧ unpack body = .ok m) :
    ∃ body, packed = .ok body ∧ some (f <$> unpack body) = some (.ok (f m)) := by
  obtain ⟨body, packed, unpacked⟩ := h
  exact ⟨body, packed, by rw [unpacked]; rfl⟩

/-- No filters can be packed. -/
theorem encodable_noSrcFilters {templateName vrhost : List UInt8} (name : Text 30 templateName)
    (host : Text idSize vrhost) :
    (VnsMessage.openTemplate (.init templateName vrhost [])).Encodable := by
  refine ⟨name, host, ?_⟩
  intro f hf
  obtain rfl := List.mem_singleton.mp hf
  exact ⟨⟨[0, 0, 0, 0], by decide⟩, by decide, by decide⟩

/-- `unpack` undoes `pack`, and an empty list of source filters comes back as
none. -/
theorem decode_encode :
    (∀ m : VnsMessage, m.Encodable →
      ∃ body, m.pack = .ok body ∧ VnsMessage.unpack m.getType body = some (.ok m)) ∧
    ∀ templateName vrhost : List UInt8, Text 30 templateName → Text idSize vrhost →
      ∃ body m, (VnsOpenTemplate.init templateName vrhost []).pack = .ok body ∧
        VnsOpenTemplate.unpack body = .ok m ∧
        m.templateName = templateName ∧ m.vrhost = vrhost ∧ m.srcFilters = noSrcFilters := by
  constructor
  · intro m h
    match m, h with
    | .open _, h => exact of_class .open (open_roundTrip h)
    | .close _, h => exact of_class .close (close_roundTrip h)
    | .packet _, h => exact of_class .packet (packet_roundTrip h)
    | .banner _, h => exact of_class .banner (banner_roundTrip h)
    | .rtable _, h => exact of_class .rtable (rtable_roundTrip h)
    | .openTemplate _, h => exact of_class .openTemplate (openTemplate_roundTrip h)
    | .authRequest m, _ => exact of_class .authRequest ⟨m.salt, rfl, rfl⟩
    | .authReply _, h => exact of_class .authReply (authReply_roundTrip h)
    | .authStatus m, _ => exact of_class .authStatus (authStatus_roundTrip m)
  · intro templateName vrhost name host
    obtain ⟨body, packed, unpacked⟩ := openTemplate_roundTrip (encodable_noSrcFilters name host)
    exact ⟨body, _, packed, unpacked, rfl, rfl, rfl⟩

/-- A frame with NULs in it, and a template without filters. -/
theorem decode_encode_samples :
    (∃ body, (VnsMessage.packet ⟨[101, 116, 104, 48], [0, 7, 0, 0]⟩).pack = .ok body ∧
      VnsMessage.unpack 4 body = some (.ok (.packet ⟨[101, 116, 104, 48], [0, 7, 0, 0]⟩))) ∧
    ∃ body m, (VnsOpenTemplate.init [49, 114] [118, 114] []).pack = .ok body ∧
      VnsOpenTemplate.unpack body = .ok m ∧
      m.templateName = [49, 114] ∧ m.vrhost = [118, 114] ∧ m.srcFilters = noSrcFilters :=
  ⟨decode_encode.1 (.packet ⟨[101, 116, 104, 48], [0, 7, 0, 0]⟩) ⟨by decide, by decide⟩,
    decode_encode.2 _ _ ⟨by decide, by decide⟩ ⟨by decide, by decide⟩⟩

end NetLabs.Vns

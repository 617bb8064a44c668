/-
NetLabs.Vns.Framing — the announced length of a message and its packed form.

The framing layer writes `length()` into the header and `pack()` behind it,
and a receiver cuts the stream by the announced lengths. Two of the ten
classes announce another length than they pack: `VNSAuthReply.length` leaves
out the four bytes of the username's length, and `VNSOpenTemplate.length`
counts the 30 bytes of the template name twice. `announced_length` gives the
difference for every message, `announced_length_iff` what follows for a stream.
-/
import NetLabs.Lib.Framing
import NetLabs.Lib.Outcome
import NetLabs.Vns.Protocol

namespace NetLabs.Vns

open NetLabs.Lib NetLabs.Lib.PyStruct

/-! ## The size of a packed message -/

theorem length_structPack {fmt : List Code} {values : List Value} {bs : List UInt8}
    (h : structPack fmt values = .ok bs) : bs.length = calcsize fmt := by
  rw [structPack] at h
  cases packed : pack fmt values with
  | none =>
    rw [packed] at h
    cases h
  | some bytes =>
    rw [packed] at h
    obtain rfl := Except.ok.inj h
    exact length_pack packed

/-- A header and what is made of it. -/
theorem header_ok {fmt : List Code} {values : List Value} {whole : List UInt8 → List UInt8}
    {body : List UInt8}
    (h : (do let header ← structPack fmt values; return whole header) = .ok body) :
    ∃ header : List UInt8, header.length = calcsize fmt ∧ body = whole header := by
  obtain ⟨header, packed, h⟩ := ok_of_bind h
  exact ⟨header, length_structPack packed, (Except.ok.inj h).symm⟩

/-- Records of one size, one behind the other. -/
theorem records_ok {α : Type} {f : α → Py (List UInt8)} {size : Nat} {as : List α}
    {records : List (List UInt8)} (turn : ∀ a bs, f a = .ok bs → bs.length = size)
    (h : as.mapM f = .ok records) : records.flatten.length = as.length * size := by
  induction as generalizing records with
  | nil =>
    obtain rfl := Except.ok.inj h
    simp
  | cons a as ih =>
    rw [List.mapM_cons] at h
    obtain ⟨first, hfirst, h⟩ := ok_of_bind h
    obtain ⟨rest, hrest, h⟩ := ok_of_bind h
    obtain rfl := Except.ok.inj h
    rw [List.flatten_cons, List.length_append, turn a first hfirst, ih hrest, List.length_cons,
      Nat.succ_mul, Nat.add_comm]

theorem length_packFilter {f : SrcFilter} {bs : List UInt8}
    (h : VnsOpenTemplate.packFilter f = .ok bs) : bs.length = 5 := by
  obtain ⟨address, read, h⟩ := ok_of_bind h
  obtain ⟨mask, size, rfl⟩ := header_ok h
  cases text : inetAton f.1 with
  | none =>
    rw [text] at read
    cases read
  | some bytes =>
    rw [text] at read
    obtain rfl := Except.ok.inj read
    rw [List.length_append, length_inetAton text, size]
    rfl

/-! ## Announced and packed lengths -/

/-- The announced length less the packed one. -/
def VnsMessage.surplus : VnsMessage → Int
  | .authReply _ => -4
  | .openTemplate _ => 30
  | _ => 0

/-- `VNSAuthReply` and `VNSOpenTemplate`. -/
def VnsMessage.Misannounced : VnsMessage → Prop
  | .authReply _ | .openTemplate _ => True
  | _ => False

theorem surplus_eq_zero_iff (m : VnsMessage) : m.surplus = 0 ↔ ¬ m.Misannounced := by
  cases m <;> simp [VnsMessage.surplus, VnsMessage.Misannounced]

/-- The announced length less the packed one is known for every class. -/
theorem announced_length {m : VnsMessage} {body : List UInt8} (packed : m.pack = .ok body) :
    (m.length : Int) = body.length + m.surplus := by
  revert packed
  match m with
  | .open m =>
    intro packed
    rw [length_structPack packed]
    rfl
  | .close m =>
    intro packed
    have packed : structPack VnsClose.format [.str m.msg] = .ok body := packed
    rw [length_structPack packed]
    rfl
  | .packet m =>
    intro packed
    obtain ⟨header, size, rfl⟩ := header_ok packed
    rw [List.length_append, size]
    rfl
  | .banner m =>
    intro packed
    have packed : structPack VnsBanner.format [.str m.msg] = .ok body := packed
    rw [length_structPack packed]
    rfl
  | .hardwareInfo m =>
    intro packed
    obtain ⟨records, packs, h⟩ := ok_of_bind packed
    obtain rfl := Except.ok.inj h
    rw [records_ok (fun _ _ => length_structPack) packs]
    rfl
  | .rtable m =>
    intro packed
    obtain ⟨header, size, rfl⟩ := header_ok packed
    rw [List.length_append, size]
    rfl
  | .openTemplate m =>
    intro packed
    obtain ⟨filters, packs, packed⟩ := ok_of_bind packed
    obtain ⟨header, size, rfl⟩ := header_ok packed
    rw [List.length_append, size, records_ok (fun _ _ => length_packFilter) packs,
      VnsMessage.length, VnsOpenTemplate.length, VnsMessage.surplus, VnsOpenTemplate.headerSize]
    push_cast
    omega
  | .authRequest m =>
    intro packed
    obtain rfl := Except.ok.inj packed
    exact (Int.add_zero _).symm
  | .authReply m =>
    intro packed
    obtain ⟨header, size, rfl⟩ := header_ok packed
    have size : header.length = 4 := size
    rw [List.length_append, List.length_append, size, VnsMessage.length, VnsAuthReply.length,
      VnsMessage.surplus]
    omega
  | .authStatus m =>
    intro packed
    obtain ⟨header, size, rfl⟩ := header_ok packed
    rw [List.length_append, size]
    rfl

theorem length_eq_iff {m : VnsMessage} {body : List UInt8} (packed : m.pack = .ok body) :
    m.length = body.length ↔ ¬ m.Misannounced := by
  have announced := announced_length packed
  rw [← surplus_eq_zero_iff]
  omega

/-! ## The stream -/

/-- A message on the wire. -/
def frame (lt : LtProtocol) (m : VnsMessage) (body : List UInt8) : List UInt8 :=
  lt.header m.length m.getType ++ body

/-- What the length word at the start of a stream says, once it is there. -/
def lengthWord (stream : List UInt8) : Option Nat :=
  if 4 ≤ stream.length then some (ofBe32 (stream.take 4)).toNat else none

theorem getType_lt (m : VnsMessage) : m.getType < 4294967296 := by
  cases m <;> exact of_decide_eq_true rfl

theorem frame_eq (lt : LtProtocol) {m : VnsMessage} (small : 8 + m.length < 4294967296)
    (body : List UInt8) :
    frame lt m body =
      be32 (UInt32.ofNat (8 + m.length)) ++ (be32 (UInt32.ofNat m.getType) ++ body) := by
  rw [frame, lt.header_eq _ _ small (getType_lt m), List.append_assoc]

theorem length_frame (lt : LtProtocol) {m : VnsMessage} (small : 8 + m.length < 4294967296)
    (body : List UInt8) : (frame lt m body).length = 8 + body.length := by
  rw [frame_eq lt small, List.length_append, List.length_append, length_be32, length_be32]
  omega

theorem lengthWord_frame (lt : LtProtocol) {m : VnsMessage} (small : 8 + m.length < 4294967296)
    (body rest : List UInt8) : lengthWord (frame lt m body ++ rest) = some (8 + m.length) := by
  rw [lengthWord, if_pos (by rw [List.length_append, length_frame lt small]; omega),
    frame_eq lt small, List.append_assoc, List.take_left' (length_be32 _), ofBe32_be32,
    UInt32.toNat_ofNat']
  congr 1
  omega

/-- The announced length is the packed one exactly in the other eight classes,
and a receiver that cuts the stream by announced lengths gets the messages
that were sent exactly if all of them are of these. -/
theorem announced_length_iff (lt : LtProtocol) :
    (∀ (m : VnsMessage) (body : List UInt8), m.pack = .ok body →
      (m.length = body.length ↔ ¬ m.Misannounced)) ∧
    ∀ sent : List (VnsMessage × List UInt8),
      (∀ p ∈ sent, p.1.pack = .ok p.2 ∧ 8 + p.1.length < 4294967296) →
      (cut lengthWord (sent.map fun p => frame lt p.1 p.2).flatten =
          sent.map (fun p => frame lt p.1 p.2) ↔
        ∀ p ∈ sent, ¬ p.1.Misannounced) := by
  refine ⟨fun m body packed => length_eq_iff packed, ?_⟩
  intro sent well
  let n : List UInt8 → Nat := fun f => (lengthWord f).getD 0
  have announces : ∀ p ∈ sent, n (frame lt p.1 p.2) = 8 + p.1.length := by
    intro p hp
    have word := lengthWord_frame lt (well p hp).2 p.2 []
    rw [List.append_nil] at word
    simp only [n, word, Option.getD_some]
  have told : ∀ f ∈ sent.map (fun p => frame lt p.1 p.2), ∀ rest,
      lengthWord (f ++ rest) = some (n f) := by
    rw [List.forall_mem_map]
    intro p hp rest
    rw [announces p hp, lengthWord_frame lt (well p hp).2]
  have nonempty : ∀ f ∈ sent.map (fun p => frame lt p.1 p.2), 0 < f.length := by
    rw [List.forall_mem_map]
    intro p hp
    rw [length_frame lt (well p hp).2]
    omega
  rw [cut_flatten_iff rfl told nonempty, List.forall_mem_map]
  refine forall₂_congr fun p hp => ?_
  rw [announces p hp, length_frame lt (well p hp).2, ← length_eq_iff (well p hp).1]
  omega

/-- The reply of a user `a`: packed in eight bytes, announced as four. -/
def sampleReply : VnsMessage := .authReply ⟨[97], [1, 2, 3]⟩

theorem announced_length_iff_sample :
    (sampleReply.length = 8 ↔ ¬ sampleReply.Misannounced) ∧
    (cut lengthWord [frame .plain sampleReply [0, 0, 0, 1, 97, 1, 2, 3],
          frame .plain (.authRequest ⟨[5]⟩) [5]].flatten =
        [frame .plain sampleReply [0, 0, 0, 1, 97, 1, 2, 3],
          frame .plain (.authRequest ⟨[5]⟩) [5]] ↔
      ∀ p ∈ [(sampleReply, [0, 0, 0, 1, 97, 1, 2, 3]), (.authRequest ⟨[5]⟩, [(5 : UInt8)])],
        ¬ p.1.Misannounced) := by
  refine ⟨(announced_length_iff .plain).1 sampleReply [0, 0, 0, 1, 97, 1, 2, 3] rfl, ?_⟩
  refine (announced_length_iff .plain).2
    [(sampleReply, [0, 0, 0, 1, 97, 1, 2, 3]), (.authRequest ⟨[5]⟩, [5])] ?_
  rintro p (_ | ⟨_, _ | ⟨_, _ | _⟩⟩)
  · exact ⟨rfl, of_decide_eq_true rfl⟩
  · exact ⟨rfl, of_decide_eq_true rfl⟩

theorem sampleReply_misannounced :
    ¬ ∀ (m : VnsMessage) (body : List UInt8), m.pack = .ok body → m.length = body.length := by
  intro h
  exact absurd (h sampleReply [0, 0, 0, 1, 97, 1, 2, 3] rfl) (by decide)

end NetLabs.Vns

/-
NetLabs.Vns.Listener — the server the router connects to: `SRServerListener`
of `lab1/pox_module/cs144/srhandler.py`.

The listener passes frames between an OpenFlow switch, which knows ports, and
routers, which know interface names. Two dictionaries translate; `RouterInfo`
fills them. A handler that raises an exception does no more from there on.

`handleRouterInfo_told` says what the listener knows behind `RouterInfo`: every
interface with the address bytes that its text spells, and each port under
the name it was given.
-/
import NetLabs.Lib.Inet
import NetLabs.Vns.Protocol
import Mathlib.Logic.Function.Basic

namespace NetLabs.Vns

open NetLabs.Lib NetLabs.Lib.PyStruct

/-! ## Addresses as text -/

def colon : UInt8 := 58

/-- `text.strip()` -/
def strip (text : List UInt8) : List UInt8 :=
  ((text.dropWhile isSpace).reverse.dropWhile isSpace).reverse

/-- The digits behind the prefix a number of base 16 may have. -/
def digitsOf (base : Nat) : List UInt8 → List UInt8
  | 48 :: 120 :: s => if base = 16 then s else 48 :: 120 :: s
  | 48 :: 88 :: s => if base = 16 then s else 48 :: 88 :: s
  | s => s

/-- `int(text, base)`; `none` is a `ValueError`. -/
def pyInt (base : Nat) (text : List UInt8) : Option Int :=
  match strip text with
  | 43 :: s => (readDigits base (digitsOf base s)).map fun n => (n : Int)
  | 45 :: s => (readDigits base (digitsOf base s)).map fun n => -(n : Int)
  | s => (readDigits base (digitsOf base s)).map fun n => (n : Int)

/-- `chr(i)` -/
def chr (i : Int) : Option UInt8 := if 0 ≤ i ∧ i < 256 then some (UInt8.ofNat i.toNat) else none

/-- `pack_mac(macaddr)` -/
def packMac (macaddr : List UInt8) : Option (List UInt8) :=
  (macaddr.splitOn colon).mapM fun byte => (pyInt 16 byte).bind chr

/-- `pack_ip(ipaddr)` -/
def packIp (ipaddr : List UInt8) : Option (List UInt8) :=
  (ipaddr.splitOn dot).mapM fun byte => (pyInt 10 byte).bind chr

/-- `'255.255.255.255'` -/
def hostMask : List UInt8 := [50, 53, 53, 46, 50, 53, 53, 46, 50, 53, 53, 46, 50, 53, 53]

/-- `%02x` of a byte. -/
def hexByte (b : UInt8) : List UInt8 :=
  let hex (n : Nat) : UInt8 := if n < 10 then digit n else UInt8.ofNat (87 + n)
  [hex (b.toNat / 16), hex (b.toNat % 16)]

/-- `EthAddr.toStr()` of the framework: six hexadecimal numbers. -/
def macText (mac : List UInt8) : List UInt8 := List.intercalate [colon] (mac.map hexByte)

/-! ## The listener -/

/-- What `event.info` holds for an interface: the IP address and the MAC address
as text, and the port. The rate nobody reads. -/
structure Setting where
  ip : List UInt8
  mac : List UInt8
  port : Nat
  deriving DecidableEq, Repr

/-- `SRServerListener`, without its clients. -/
structure Listener where
  intfnameToPort : List UInt8 → Option Nat
  portToIntfname : Nat → Option (List UInt8)
  /-- `self.interfaces`, once there is one. -/
  interfaces : Option (List VnsInterface)

/-- `__init__` -/
def Listener.init : Listener := ⟨fun _ => none, fun _ => none, none⟩

/-- The interface made of a setting, unless an exception is raised. -/
def makeInterface (intf : List UInt8) (setting : Setting) : Option VnsInterface := do
  let ip ← packIp setting.ip
  let mac ← packMac setting.mac
  let mask ← packIp hostMask
  (VnsInterface.init intf mac ip mask).toOption

namespace Listener

/-- The two assignments at the end of a turn of the loop. -/
def assign (l : Listener) (intf : List UInt8) (port : Nat) : Listener :=
  { l with
    intfnameToPort := Function.update l.intfnameToPort intf (some port)
    portToIntfname := Function.update l.portToIntfname port (some intf) }

/-- The loop of `_handle_RouterInfo`, over the items of the dictionary in the
order in which they come; `none` if it is left by an exception. -/
def routerInfoLoop : List (List UInt8 × Setting) → List VnsInterface → Listener →
    Listener × Option (List VnsInterface)
  | [], interfaces, l => (l, some interfaces)
  | (intf, setting) :: rest, interfaces, l =>
      match makeInterface intf setting with
      | none => (l, none)
      | some i => routerInfoLoop rest (interfaces ++ [i]) (l.assign intf setting.port)

/-- `_handle_RouterInfo(event)` -/
def handleRouterInfo (l : Listener) (info : List (List UInt8 × Setting)) : Listener :=
  match routerInfoLoop info [] l with
  | (l, none) => l
  | (l, some interfaces) => { l with interfaces := some interfaces }

/-- `_handle_SRPacketIn(event)`: what is broadcast. -/
def handleSRPacketIn (l : Listener) (port : Nat) (pkt : List UInt8) : Option VnsMessage :=
  (l.portToIntfname port).map fun intfname => .packet ⟨intfname, pkt⟩

end Listener

/-- What a handler of the listener does. -/
structure Reaction where
  /-- `conn.send(m)` -/
  sends : List VnsMessage
  /-- `raiseEvent(SRPacketOut(pkt, out_port))` -/
  packetOut : Option (Nat × List UInt8)
  deriving DecidableEq, Repr

def Reaction.nothing : Reaction := ⟨[], none⟩

/-- `_handle_new_client(conn)` -/
def handleNewClient (salt : List UInt8) : Reaction := ⟨[.authRequest ⟨salt⟩], none⟩

/-- `_handle_auth_reply(conn)`; everybody is authenticated. -/
def handleAuthReply (msg : List UInt8) : Reaction := ⟨[.authStatus ⟨true, msg⟩], none⟩

namespace Listener

/-- `_handle_open_msg(conn, vns_msg)` -/
def handleOpenMsg (l : Listener) : Reaction :=
  match l.interfaces with
  | some interfaces => ⟨[.hardwareInfo ⟨interfaces⟩], none⟩
  | none => .nothing

/-- `_handle_packet_msg(conn, vns_msg)`. For a name it does not know the
handler raises `UnboundLocalError`, since it logs a port it has not got. -/
def handlePacketMsg (l : Listener) (m : VnsPacket) : Reaction :=
  match l.intfnameToPort m.intfName with
  | some outPort => ⟨[], some (outPort, m.ethernetFrame)⟩
  | none => .nothing

/-- `_handle_recv_msg(conn, vns_msg)`, with the text an authentication status
has. There is no handler for `VNSOpenTemplate`, and what is sent before a
connection is closed is no message. -/
def handleRecvMsg (l : Listener) (text : List UInt8) : Option VnsMessage → Reaction
  | some (.authReply _) => handleAuthReply text
  | some (.open _) => l.handleOpenMsg
  | some (.packet m) => l.handlePacketMsg m
  | _ => .nothing

end Listener

/-! ## Addresses come back from text -/

theorem pyInt_hexByte (b : UInt8) : (pyInt 16 (hexByte b)).bind chr = some b := by
  have all : ∀ n : Fin 256, (pyInt 16 (hexByte (UInt8.ofNat n))).bind chr =
      some (UInt8.ofNat n) := by
    decide +kernel
  have h := all ⟨b.toNat, b.toNat_lt⟩
  rwa [UInt8.ofNat_toNat] at h

theorem pyInt_decimal (b : UInt8) : (pyInt 10 (decimal b)).bind chr = some b := by
  have all : ∀ n : Fin 256, (pyInt 10 (decimal (UInt8.ofNat n))).bind chr =
      some (UInt8.ofNat n) := by
    decide +kernel
  have h := all ⟨b.toNat, b.toNat_lt⟩
  rwa [UInt8.ofNat_toNat] at h

theorem colon_notMem_hexByte (b : UInt8) : colon ∉ hexByte b := by
  have all : ∀ n : Fin 256, colon ∉ hexByte (UInt8.ofNat n) := by
    decide +kernel
  have h := all ⟨b.toNat, b.toNat_lt⟩
  rwa [UInt8.ofNat_toNat] at h

/-- Numbers with a separator between them are read back. -/
theorem mapM_splitOn {sep : UInt8} {write : UInt8 → List UInt8} {read : List UInt8 → Option UInt8}
    (apart : ∀ b, sep ∉ write b) (back : ∀ b, read (write b) = some b) {bytes : List UInt8}
    (nonempty : bytes ≠ []) :
    ((List.intercalate [sep] (bytes.map write)).splitOn sep).mapM read = some bytes := by
  have split : (List.intercalate [sep] (bytes.map write)).splitOn sep = bytes.map write := by
    apply List.splitOn_intercalate
    · intro text htext
      obtain ⟨b, -, rfl⟩ := List.mem_map.mp htext
      exact apart b
    · simpa using nonempty
  rw [split]
  clear split nonempty
  induction bytes with
  | nil => rfl
  | cons b rest ih => rw [List.map_cons, List.mapM_cons, back, ih]; rfl

theorem packMac_macText {mac : List UInt8} (size : mac.length = 6) :
    packMac (macText mac) = some mac :=
  mapM_splitOn colon_notMem_hexByte pyInt_hexByte (List.ne_nil_of_length_pos (by omega))

theorem packIp_inetNtoa {ip text : List UInt8} (h : inetNtoa ip = some text) :
    packIp text = some ip := by
  obtain ⟨size, h⟩ := Option.ite_none_right_eq_some.mp h
  rw [← Option.some.inj h]
  exact mapM_splitOn dot_notMem_decimal pyInt_decimal (List.ne_nil_of_length_pos (by omega))

theorem packIp_hostMask : packIp hostMask = some [255, 255, 255, 255] := by decide +kernel

/-! ## What the listener is told -/

/-- The texts of an item spell the addresses of the interface. -/
structure Spells (item : List UInt8 × Setting) (i : VnsInterface) : Prop where
  name : i.name = item.1
  ip : inetNtoa i.ip = some item.2.ip
  mac : macText i.mac = item.2.mac
  mask : i.mask = [255, 255, 255, 255]

theorem makeInterface_eq {intf : List UInt8} {setting : Setting} {i : VnsInterface}
    (spells : Spells (intf, setting) i) : makeInterface intf setting = some i := by
  obtain ⟨name, ip, mac, mask⟩ := spells
  have init : VnsInterface.init intf i.mac i.ip [255, 255, 255, 255] = .ok i := by
    obtain ⟨iName, iMac, iIp, iMask, macSize, ipSize, maskSize⟩ := i
    subst name mask
    rw [VnsInterface.init, dif_pos macSize, dif_pos ipSize, dif_pos maskSize]
  rw [makeInterface, packIp_inetNtoa ip, ← mac, packMac_macText i.macSize, packIp_hostMask]
  exact congrArg Except.toOption init

/-- The description of a switch: distinct names and ports, and the interfaces
its texts spell. -/
structure Described (info : List (List UInt8 × Setting)) (interfaces : List VnsInterface) :
    Prop where
  spells : List.Forall₂ Spells info interfaces
  names : (info.map Prod.fst).Nodup
  ports : (info.map fun item => item.2.port).Nodup

/-- The listener has been told of exactly this switch. -/
structure Listener.Told (l : Listener) (info : List (List UInt8 × Setting))
    (interfaces : List VnsInterface) : Prop where
  toPort : ∀ name port, l.intfnameToPort name = some port ↔
    ∃ item ∈ info, item.1 = name ∧ item.2.port = port
  toName : ∀ port name, l.portToIntfname port = some name ↔
    ∃ item ∈ info, item.1 = name ∧ item.2.port = port
  interfaces : l.interfaces = some interfaces

section

variable {κ ν ι : Type*} [DecidableEq κ] (key : ι → κ) (value : ι → ν)

/-- Assignments to the entries of a dictionary, one for each item. -/
def assignAll (items : List ι) (d : κ → Option ν) : κ → Option ν :=
  items.foldl (fun d x => Function.update d (key x) (some (value x))) d

/-- Distinct keys keep what they are assigned, and other keys what they had. -/
theorem assignAll_eq_some_iff {items : List ι} (distinct : (items.map key).Nodup)
    (d : κ → Option ν) (k : κ) (v : ν) :
    assignAll key value items d k = some v ↔
      (∃ x ∈ items, key x = k ∧ value x = v) ∨ ((∀ x ∈ items, key x ≠ k) ∧ d k = some v) := by
  induction items generalizing d with
  | nil => simp [assignAll]
  | cons x rest ih =>
    rw [List.map_cons, List.nodup_cons] at distinct
    have step : assignAll key value (x :: rest) d =
        assignAll key value rest (Function.update d (key x) (some (value x))) := rfl
    rw [step, ih distinct.2]
    by_cases same : key x = k
    · subst same
      have later : ∀ y ∈ rest, key y ≠ key x := fun y hy h =>
        distinct.1 (List.mem_map.mpr ⟨y, hy, h⟩)
      simp only [Function.update_self, List.mem_cons, exists_eq_or_imp, forall_eq_or_imp, true_and,
        ne_eq, not_true_eq_false, false_and, or_false, Option.some.injEq]
      constructor
      · rintro (⟨y, hy, hk, -⟩ | ⟨-, hv⟩)
        · exact absurd hk (later y hy)
        · exact .inl hv
      · rintro (hv | ⟨y, hy, hk, -⟩)
        · exact .inr ⟨later, hv⟩
        · exact absurd hk (later y hy)
    · simp only [Function.update_of_ne (Ne.symm same), List.mem_cons, exists_eq_or_imp,
        forall_eq_or_imp, same, false_and, false_or, ne_eq, not_false_eq_true, true_and]

end

namespace Listener

/-- The loop over a description makes all the interfaces. -/
theorem routerInfoLoop_eq {info : List (List UInt8 × Setting)} {interfaces : List VnsInterface}
    (spells : List.Forall₂ Spells info interfaces) (made : List VnsInterface) (l : Listener) :
    routerInfoLoop info made l =
      ({ l with
        intfnameToPort := assignAll Prod.fst (fun item => item.2.port) info l.intfnameToPort
        portToIntfname := assignAll (fun item => item.2.port) Prod.fst info l.portToIntfname },
        some (made ++ interfaces)) := by
  induction spells generalizing made l with
  | nil => rw [routerInfoLoop, List.append_nil]; rfl
  | cons first _ ih =>
    rw [routerInfoLoop, makeInterface_eq first]
    dsimp only
    rw [ih, List.append_assoc]
    rfl

variable {info : List (List UInt8 × Setting)} {interfaces : List VnsInterface}

/-- A dictionary that knows nothing, or the items, knows the items behind the
assignments. -/
theorem assignAll_told {κ ν ι : Type*} [DecidableEq κ] {key : ι → κ} {value : ι → ν}
    {items : List ι} (distinct : (items.map key).Nodup) {d : κ → Option ν}
    (known : (∀ k v, d k = some v ↔ ∃ x ∈ items, key x = k ∧ value x = v) ∨ ∀ k, d k = none)
    (k : κ) (v : ν) : assignAll key value items d k = some v ↔
      ∃ x ∈ items, key x = k ∧ value x = v := by
  rw [assignAll_eq_some_iff key value distinct]
  constructor
  · rintro (found | ⟨-, old⟩)
    · exact found
    · rcases known with known | unknown
      · exact (known k v).mp old
      · rw [unknown k] at old
        cases old
  · exact .inl

/-- What the listener knows behind `RouterInfo`, the first time and when the
switch connects again. -/
theorem handleRouterInfo_told (described : Described info interfaces) {l : Listener}
    (before : l = .init ∨ l.Told info interfaces) :
    (l.handleRouterInfo info).Told info interfaces := by
  rw [handleRouterInfo, routerInfoLoop_eq described.spells]
  refine ⟨?_, ?_, congrArg some (List.nil_append _)⟩
  · apply assignAll_told described.names
    rcases before with rfl | told
    · exact .inr fun _ => rfl
    · exact .inl told.toPort
  · intro port name
    have back : (∃ item ∈ info, item.1 = name ∧ item.2.port = port) ↔
        ∃ item ∈ info, item.2.port = port ∧ item.1 = name := by
      simp only [and_comm]
    rw [back]
    apply assignAll_told described.ports
    rcases before with rfl | told
    · exact .inr fun _ => rfl
    · refine .inl fun p n => (told.toName p n).trans ?_
      simp only [and_comm]

end Listener

end NetLabs.Vns

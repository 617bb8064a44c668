/-
NetLabs.Vns.Protocol — the messages of the VNS server, as
`lab1/pox_module/cs144/VNSProtocol.py` packs and unpacks them.

One structure for each message class, with its `length`, `pack` and
`unpack`. The code is Python 2, so a string is a list of bytes. An operation
that raises an exception returns it. `VNSHardwareInfo` has no `unpack`: it is
read by the router (`NetLabs.Vns.HardwareInfo`).

The framing layer, `ltprotocol`, is not part of the repository. What the code
and the router rely on is a field of `LtProtocol`: in front of the body it
writes the length of the whole message and the type.
-/
import NetLabs.Lib.Inet
import NetLabs.Lib.PyStruct

namespace NetLabs.Vns

open NetLabs.Lib NetLabs.Lib.PyStruct

/-! ## Exceptions -/

/-- The exceptions the module raises. -/
inductive Raised where
  | structError
  | socketError
  | vnsProtocolException (msg : String)
  deriving DecidableEq, Repr

/-- A computation that may raise one. -/
abbrev Py (α : Type) : Type := Except Raised α

/-- `none` is the exception `e`. -/
def Raised.of {α : Type} (e : Raised) : Option α → Py α
  | none => .error e
  | some a => .ok a

/-- `struct.pack(fmt, *values)`. -/
def structPack (fmt : List Code) (values : List Value) : Py (List UInt8) :=
  Raised.structError.of (pack fmt values)

/-- `struct.unpack(fmt, bs)`. -/
def structUnpack (fmt : List Code) (bs : List UInt8) : Py (List Value) :=
  Raised.structError.of (unpack fmt bs)

def idSize : Nat := 32

/-- `strip_null_chars(s)`. -/
def stripNullChars (s : List UInt8) : List UInt8 := s.filter (· ≠ 0)

/-! ## VNSOpen -/

structure VnsOpen where
  topoId : Int
  vhost : List UInt8
  user : List UInt8
  pw : List UInt8
  deriving DecidableEq, Repr

namespace VnsOpen

def getType : Nat := 1

def format : List Code := [.uint16, .uint16, .chars idSize, .chars idSize, .chars idSize]

def size : Nat := calcsize format

def length (_ : VnsOpen) : Nat := size

def pack (m : VnsOpen) : Py (List UInt8) :=
  structPack format [.num m.topoId, .num 0, .str m.vhost, .str m.user, .str m.pw]

def unpack (body : List UInt8) : Py VnsOpen := do
  let t ← structUnpack format body
  return { topoId := numberAt t 0
           vhost := stripNullChars (textAt t 2)
           user := stripNullChars (textAt t 3)
           pw := stripNullChars (textAt t 4) }

end VnsOpen

/-! ## VNSClose and VNSBanner -/

structure VnsClose where
  msg : List UInt8
  deriving DecidableEq, Repr

namespace VnsClose

def getType : Nat := 2

def format : List Code := [.chars 256]

def size : Nat := calcsize format

def length (_ : VnsClose) : Nat := size

def pack (m : VnsClose) : Py (List UInt8) := structPack format [.str m.msg]

def unpack (body : List UInt8) : Py VnsClose := do
  let t ← structUnpack format body
  return { msg := stripNullChars (textAt t 0) }

end VnsClose

structure VnsBanner where
  msg : List UInt8
  deriving DecidableEq, Repr

namespace VnsBanner

def getType : Nat := 8

def format : List Code := [.chars 256]

def size : Nat := calcsize format

def length (_ : VnsBanner) : Nat := size

def pack (m : VnsBanner) : Py (List UInt8) := structPack format [.str m.msg]

def unpack (body : List UInt8) : Py VnsBanner := do
  let t ← structUnpack format body
  return { msg := stripNullChars (textAt t 0) }

end VnsBanner

/-! ## VNSPacket -/

structure VnsPacket where
  intfName : List UInt8
  ethernetFrame : List UInt8
  deriving DecidableEq, Repr

namespace VnsPacket

def getType : Nat := 4

def headerFormat : List Code := [.chars 16]

def headerSize : Nat := calcsize headerFormat

def length (m : VnsPacket) : Nat := headerSize + m.ethernetFrame.length

def pack (m : VnsPacket) : Py (List UInt8) := do
  let header ← structPack headerFormat [.str m.intfName]
  return header ++ m.ethernetFrame

def unpack (body : List UInt8) : Py VnsPacket := do
  let t ← structUnpack headerFormat (body.take headerSize)
  return { intfName := stripNullChars (textAt t 0)
           ethernetFrame := body.drop headerSize }

end VnsPacket

/-! ## VNSHardwareInfo -/

/-- `VNSInterface`; `__init__` checks the lengths. -/
structure VnsInterface where
  name : List UInt8
  mac : List UInt8
  ip : List UInt8
  mask : List UInt8
  macSize : mac.length = 6
  ipSize : ip.length = 4
  maskSize : mask.length = 4
  deriving DecidableEq, Repr

namespace VnsInterface

/-- `VNSInterface(name, mac, ip, mask)`. -/
def init (name mac ip mask : List UInt8) : Py VnsInterface :=
  if macSize : mac.length = 6 then
    if ipSize : ip.length = 4 then
      if maskSize : mask.length = 4 then .ok { name, mac, ip, mask, macSize, ipSize, maskSize }
      else .error (.vnsProtocolException "IP address mask must be 4B")
    else .error (.vnsProtocolException "IP address must be 4B")
  else .error (.vnsProtocolException "MAC address must be 6B")

def hwInterface : Int := 1
def hwSpeed : Int := 2
def hwSubnet : Int := 4
def hwEther : Int := 32
def hwEthip : Int := 64
def hwMask : Int := 128

def format : List Code :=
  [.uint32, .chars 32, .uint32, .uint32, .chars 28, .uint32, .chars 32,
   .uint32, .chars 4, .chars 28, .uint32, .uint32, .chars 28, .uint32, .chars 4, .chars 28]

def size : Nat := calcsize format

def pack (m : VnsInterface) : Py (List UInt8) :=
  structPack format
    [.num hwInterface, .str m.name,
     .num hwSpeed, .num 0, .str [],
     .num hwEther, .str m.mac,
     .num hwEthip, .str m.ip, .str [],
     .num hwSubnet, .num 0, .str [],
     .num hwMask, .str m.mask, .str []]

end VnsInterface

structure VnsHardwareInfo where
  interfaces : List VnsInterface
  deriving DecidableEq, Repr

namespace VnsHardwareInfo

def getType : Nat := 16

def length (m : VnsHardwareInfo) : Nat := m.interfaces.length * VnsInterface.size

def pack (m : VnsHardwareInfo) : Py (List UInt8) := do
  let packed ← m.interfaces.mapM VnsInterface.pack
  return packed.flatten

end VnsHardwareInfo

/-! ## VNSRtable -/

structure VnsRtable where
  vrhost : List UInt8
  rtable : List UInt8
  deriving DecidableEq, Repr

namespace VnsRtable

def getType : Nat := 32

def headerFormat : List Code := [.chars idSize]

def headerSize : Nat := calcsize headerFormat

def length (m : VnsRtable) : Nat := headerSize + m.rtable.length

def pack (m : VnsRtable) : Py (List UInt8) := do
  let header ← structPack headerFormat [.str m.vrhost]
  return header ++ m.rtable

def unpack (body : List UInt8) : Py VnsRtable :=
  .ok { vrhost := stripNullChars (body.take idSize), rtable := body.drop idSize }

end VnsRtable

/-! ## VNSOpenTemplate -/

/-- An IP address and the number of bits set in the mask. -/
abbrev SrcFilter : Type := List UInt8 × Int

/-- `[('0.0.0.0', 0)]`. -/
def noSrcFilters : List SrcFilter := [([48, 46, 48, 46, 48, 46, 48], 0)]

structure VnsOpenTemplate where
  templateName : List UInt8
  vrhost : List UInt8
  srcFilters : List SrcFilter
  nonempty : srcFilters ≠ []
  deriving DecidableEq, Repr

namespace VnsOpenTemplate

def getType : Nat := 64

/-- `VNSOpenTemplate(template_name, virtualHostID, src_filters)`: an empty list
is interpreted as having no source filters. -/
def init (templateName vrhost : List UInt8) (srcFilters : List SrcFilter) : VnsOpenTemplate where
  templateName
  vrhost
  srcFilters := if srcFilters = [] then noSrcFilters else srcFilters
  nonempty := by
    split
    · decide
    · assumption

def headerFormat : List Code := [.chars 30, .chars idSize]

def headerSize : Nat := calcsize headerFormat

def length (m : VnsOpenTemplate) : Nat := headerSize + 30 + 5 * m.srcFilters.length

/-- `inet_aton(ip) + struct.pack('>B', mask)`. -/
def packFilter (f : SrcFilter) : Py (List UInt8) := do
  let ip ← Raised.socketError.of (inetAton f.1)
  let mask ← structPack [.uint8] [.num f.2]
  return ip ++ mask

def pack (m : VnsOpenTemplate) : Py (List UInt8) := do
  let filters ← m.srcFilters.mapM packFilter
  let header ← structPack headerFormat [.str m.templateName, .str m.vrhost]
  return header ++ filters.flatten

/-- The `i`-th turn of the loop of `unpack`. -/
def unpackFilter (sfBytes : List UInt8) (i : Nat) : Py SrcFilter := do
  let ip ← Raised.socketError.of (inetNtoa (slice sfBytes (i * 5) 4))
  let t ← structUnpack [.uint8] (slice sfBytes (i * 5 + 4) 1)
  let mask := numberAt t 0
  if mask < 0 ∨ mask > 32 then
    .error (.vnsProtocolException
      ("mask must be between 0 and 32 but it was " ++ toString mask))
  else return (ip, mask)

def unpack (body : List UInt8) : Py VnsOpenTemplate := do
  let t ← structUnpack headerFormat (body.take headerSize)
  let sfBytes := body.drop headerSize
  let srcFilters ← (List.range (sfBytes.length / 5)).mapM (unpackFilter sfBytes)
  return init (stripNullChars (textAt t 0))
    (stripNullChars (textAt t 1)) srcFilters

end VnsOpenTemplate

/-! ## Authentication -/

structure VnsAuthRequest where
  salt : List UInt8
  deriving DecidableEq, Repr

namespace VnsAuthRequest

def getType : Nat := 128

def length (m : VnsAuthRequest) : Nat := m.salt.length

def pack (m : VnsAuthRequest) : Py (List UInt8) := .ok m.salt

def unpack (body : List UInt8) : Py VnsAuthRequest := .ok { salt := body }

end VnsAuthRequest

/-- `ssp` is the SHA-1 digest of the salted password. -/
structure VnsAuthReply where
  username : List UInt8
  ssp : List UInt8
  deriving DecidableEq, Repr

namespace VnsAuthReply

def getType : Nat := 256

def length (m : VnsAuthReply) : Nat := m.username.length + m.ssp.length

def pack (m : VnsAuthReply) : Py (List UInt8) := do
  let usernameLen ← structPack [.uint32] [.num m.username.length]
  return usernameLen ++ m.username ++ m.ssp

def unpack (body : List UInt8) : Py VnsAuthReply := do
  let t ← structUnpack [.uint32] (body.take 4)
  let usernameLen := (numberAt t 0).toNat
  let body := body.drop 4
  return { username := body.take usernameLen, ssp := body.drop usernameLen }

end VnsAuthReply

structure VnsAuthStatus where
  authOk : Bool
  msg : List UInt8
  deriving DecidableEq, Repr

namespace VnsAuthStatus

def getType : Nat := 512

def length (m : VnsAuthStatus) : Nat := 1 + m.msg.length

def pack (m : VnsAuthStatus) : Py (List UInt8) := do
  let authOk ← structPack [.uint8] [.num (if m.authOk then 1 else 0)]
  return authOk ++ m.msg

def unpack (body : List UInt8) : Py VnsAuthStatus := do
  let t ← structUnpack [.uint8] (body.take 1)
  return { authOk := numberAt t 0 ≠ 0, msg := body.drop 1 }

end VnsAuthStatus

/-! ## All classes -/

/-- A message of one of the classes of `VNS_MESSAGES`. -/
inductive VnsMessage where
  | open (m : VnsOpen)
  | close (m : VnsClose)
  | packet (m : VnsPacket)
  | banner (m : VnsBanner)
  | hardwareInfo (m : VnsHardwareInfo)
  | rtable (m : VnsRtable)
  | openTemplate (m : VnsOpenTemplate)
  | authRequest (m : VnsAuthRequest)
  | authReply (m : VnsAuthReply)
  | authStatus (m : VnsAuthStatus)
  deriving DecidableEq, Repr

namespace VnsMessage

def getType : VnsMessage → Nat
  | .open _ => VnsOpen.getType
  | .close _ => VnsClose.getType
  | .packet _ => VnsPacket.getType
  | .banner _ => VnsBanner.getType
  | .hardwareInfo _ => VnsHardwareInfo.getType
  | .rtable _ => VnsRtable.getType
  | .openTemplate _ => VnsOpenTemplate.getType
  | .authRequest _ => VnsAuthRequest.getType
  | .authReply _ => VnsAuthReply.getType
  | .authStatus _ => VnsAuthStatus.getType

def length : VnsMessage → Nat
  | .open m => m.length
  | .close m => m.length
  | .packet m => m.length
  | .banner m => m.length
  | .hardwareInfo m => m.length
  | .rtable m => m.length
  | .openTemplate m => m.length
  | .authRequest m => m.length
  | .authReply m => m.length
  | .authStatus m => m.length

def pack : VnsMessage → Py (List UInt8)
  | .open m => m.pack
  | .close m => m.pack
  | .packet m => m.pack
  | .banner m => m.pack
  | .hardwareInfo m => m.pack
  | .rtable m => m.pack
  | .openTemplate m => m.pack
  | .authRequest m => m.pack
  | .authReply m => m.pack
  | .authStatus m => m.pack

/-- The `unpack` of the class with this type, if there is one. -/
def unpack (type : Nat) (body : List UInt8) : Option (Py VnsMessage) :=
  if type = VnsOpen.getType then some (.open <$> VnsOpen.unpack body)
  else if type = VnsClose.getType then some (.close <$> VnsClose.unpack body)
  else if type = VnsPacket.getType then some (.packet <$> VnsPacket.unpack body)
  else if type = VnsBanner.getType then some (.banner <$> VnsBanner.unpack body)
  else if type = VnsRtable.getType then some (.rtable <$> VnsRtable.unpack body)
  else if type = VnsOpenTemplate.getType then some (.openTemplate <$> VnsOpenTemplate.unpack body)
  else if type = VnsAuthRequest.getType then some (.authRequest <$> VnsAuthRequest.unpack body)
  else if type = VnsAuthReply.getType then some (.authReply <$> VnsAuthReply.unpack body)
  else if type = VnsAuthStatus.getType then some (.authStatus <$> VnsAuthStatus.unpack body)
  else none

end VnsMessage

/-! ## Framing -/

/-- `LTProtocol(VNS_MESSAGES, 'I', 'I')`: what the framing layer writes in
front of a body of the announced length. -/
structure LtProtocol where
  header : (length type : Nat) → List UInt8
  header_eq : ∀ length type, 8 + length < 4294967296 → type < 4294967296 →
    header length type = be32 (UInt32.ofNat (8 + length)) ++ be32 (UInt32.ofNat type)

/-- A framing layer. -/
def LtProtocol.plain : LtProtocol where
  header length type := be32 (UInt32.ofNat (8 + length)) ++ be32 (UInt32.ofNat type)
  header_eq _ _ _ _ := rfl

end NetLabs.Vns

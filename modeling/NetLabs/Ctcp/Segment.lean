/-
NetLabs.Ctcp.Segment — the cTCP segment of `lab3/ctcp_sys.h`.

A field in network order holds the value `ntohs` or `ntohl` gives, so the
conversions of the source do not appear; `CtcpSegment.bytes` writes these
fields big-endian. `flags` is in host order in the source, and `cksum` is the
raw integer that `cksum()` returned, so both are written in the byte order of
the host. The two padding bytes after `len` are zero: every segment is
allocated with `calloc`.
-/
import NetLabs.Checksum

namespace NetLabs.Ctcp

open NetLabs.Lib

/-- `MAX_SEG_DATA_SIZE`. -/
def maxSegDataSize : Nat := 1440

/-- `sizeof(ctcp_segment_t)`. -/
def segmentHdrSize : Nat := 20

def thFin : UInt32 := 0x01
def thAck : UInt32 := 0x10

/-- `ctcp_segment_t`. -/
structure CtcpSegment where
  seqno : UInt32
  ackno : UInt32
  len : UInt16
  flags : UInt32
  window : UInt16
  cksum : UInt16
  data : List UInt8
  deriving DecidableEq, Repr

namespace CtcpSegment

/-- The bytes of the segment in memory. -/
def bytes (e : Endian) (s : CtcpSegment) : List UInt8 :=
  be32 s.seqno ++ be32 s.ackno ++ be16 s.len ++ [0, 0] ++ memU32 e s.flags ++ be16 s.window
    ++ memU16 e s.cksum ++ s.data

/-- The checksum of the contents, computed with the checksum field zero. -/
def correctCksum (e : Endian) (s : CtcpSegment) : UInt16 :=
  NetLabs.cksum e ({ s with cksum := 0 }.bytes e)

/-- `(segment->flags & flag) == flag`. -/
def hasFlag (s : CtcpSegment) (flag : UInt32) : Prop := s.flags &&& flag = flag

instance (s : CtcpSegment) (flag : UInt32) : Decidable (s.hasFlag flag) :=
  inferInstanceAs (Decidable (_ = _))

/-- Setting a flag that is set changes nothing. -/
theorem hasFlag.or_eq {s : CtcpSegment} {flag : UInt32} (h : s.hasFlag flag) :
    s.flags ||| flag = s.flags := by
  have absorb : ∀ a b : Bool, (a || a && b) = a := by decide
  rw [hasFlag] at h
  rw [← h, ← UInt32.toBitVec_inj, UInt32.toBitVec_or, UInt32.toBitVec_and]
  ext i hi
  rw [BitVec.getElem_or, BitVec.getElem_and]
  exact absorb _ _

/-- The segment's own statements about itself are true: `len` is its length
and `cksum` the checksum of its contents. -/
structure Faithful (e : Endian) (s : CtcpSegment) : Prop where
  len_eq : s.len.toNat = segmentHdrSize + s.data.length
  cksum_eq : s.cksum = s.correctCksum e

theorem length_bytes (e : Endian) (s : CtcpSegment) :
    (s.bytes e).length = segmentHdrSize + s.data.length := by
  simp [bytes, segmentHdrSize]
  omega

end CtcpSegment

/-- Data that fits one segment. -/
abbrev Payload := { data : List UInt8 // data.length ≤ maxSegDataSize }

end NetLabs.Ctcp

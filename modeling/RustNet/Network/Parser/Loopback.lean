import Mathlib.Data.FinEnum
import RustNet.Foundations.LittleEndian
import RustNet.Network.Parser.Encapsulation

/-!
# Loopback captures

A capture of link type `DLT_NULL` has the number of an address family in front of each packet, in
four bytes whose order is that of the machine it was made on. `parse_by_dlt` says so where it takes
up this link type, and hands the frame with its header to the parser of raw IP packets all the
same. That parser finds an IP version in the first half of the first byte, where an address family
has none, and the frame is dropped.

## Main results

* `PacketParser.parsePacket_nullFrame`: no loopback frame is parsed;
* `PacketParser.nullFrame_agrees_iff`: so that it agrees with its packet, captured as raw IP, only
  where that is dropped too.
-/

namespace RustNet

/-- The order of the bytes of a machine's words. -/
inductive ByteOrder
  | big | little
deriving DecidableEq

/-- A number in four bytes. -/
def ByteOrder.encode (number : ℕ) : ByteOrder → List UInt8
  | big => BigEndian.bytes 4 number
  | little => LittleEndian.bytes 4 number

/-- The numbers that systems give to the address family of an IP version. -/
def IpVersion.addressFamilies : IpVersion → List ℕ
  | v4 => [2]
  | v6 => [10, 23, 24, 28, 30]

/-- A packet as a loopback interface captures it. -/
structure NullFrame where
  version : IpVersion
  /-- The packet, which starts with its version. -/
  packet : List UInt8
  starts : ∃ first ∈ packet.head?, first >>> 4 = version.number
  family : ℕ
  family_mem : family ∈ version.addressFamilies
  order : ByteOrder

/-- The bytes of the frame. -/
def NullFrame.bytes (frame : NullFrame) : List UInt8 :=
  frame.order.encode frame.family ++ frame.packet

/-- A parser that is told the link type. -/
def PacketParser.ofLinktype (parser : PacketParser) (linktype : ℤ) : PacketParser :=
  { parser with linktype := some linktype }

/-- What the parsers of two captures have to agree on. -/
def ParsedPacket.summary (p : ParsedPacket) :
    String × Bool × Option TcpHeaderInfo × Option DpiResult :=
  (p.connectionKey, p.isOutgoing, p.tcpHeader, p.dpiResult)

section Loopback

variable [DeepPacketInspection]

/-- Captured in a frame, the packet is taken to be what it is captured as raw IP. -/
def NullFrame.Agrees (parser : PacketParser) (frame : NullFrame) : Prop :=
  ((parser.ofLinktype 0).parsePacket frame.bytes).map ParsedPacket.summary =
    ((parser.ofLinktype 101).parsePacket frame.packet).map ParsedPacket.summary

omit [DeepPacketInspection] in
theorem IpVersion.addressFamilies_lt {version : IpVersion} {family : ℕ}
    (h : family ∈ version.addressFamilies) : family < 64 := by
  rcases version with _ | _
  · exact (by decide : ∀ family ∈ IpVersion.addressFamilies .v4, family < 64) family h
  · exact (by decide : ∀ family ∈ IpVersion.addressFamilies .v6, family < 64) family h

omit [DeepPacketInspection] in
/-- In both orders a small number starts with a small byte. -/
theorem ByteOrder.encode_of_lt (order : ByteOrder) {number : ℕ} (h : number < 64) :
    ∃ first rest, order.encode number = first :: rest ∧ first < 64 := by
  rcases order with _ | _
  -- the high byte comes first, and it is zero
  · refine ⟨UInt8.ofNat (number / 256 ^ 3), BigEndian.bytes 3 number, rfl, ?_⟩
    rw [Nat.div_eq_of_lt (h.trans (by decide))]
    decide
  -- the low byte comes first, and it is the number
  · refine ⟨UInt8.ofNat (number / 256 ^ 0), _, rfl, ?_⟩
    rw [pow_zero, Nat.div_one, UInt8.lt_iff_toNat_lt, UInt8.toNat_ofNat',
      Nat.mod_eq_of_lt (h.trans (by decide))]
    exact h

omit [DeepPacketInspection] in
/-- The header of a loopback frame does not start as an IP packet does. -/
theorem NullFrame.parse_bytes (frame : NullFrame) : RawIp.parse frame.bytes = none := by
  have hfamily := IpVersion.addressFamilies_lt frame.family_mem
  obtain ⟨first, rest, hencode, hfirst⟩ := frame.order.encode_of_lt hfamily
  have hversion : first >>> 4 ≠ 4 ∧ first >>> 4 ≠ 6 :=
    (by decide +kernel : ∀ b : UInt8, b < 64 → b >>> 4 ≠ 4 ∧ b >>> 4 ≠ 6) first hfirst
  rw [bytes, hencode, List.cons_append]
  simp only [RawIp.parse, if_neg hversion.1, if_neg hversion.2]

/-- No loopback frame is parsed. -/
theorem PacketParser.parsePacket_nullFrame (parser : PacketParser) (frame : NullFrame) :
    (parser.ofLinktype 0).parsePacket frame.bytes = none := by
  have hchoice : (parser.ofLinktype 0).linkPayload? frame.bytes = RawIp.parse frame.bytes := rfl
  rw [parsePacket, hchoice, frame.parse_bytes, Option.bind_none]

/-- A loopback frame agrees with its packet only where neither of them is parsed. A frame is a
packet behind a four-byte header with the address family, in either byte order. What is captured as
raw IP is read at the first byte, and so is the frame, whose first byte is that of the header. -/
theorem PacketParser.nullFrame_agrees_iff (parser : PacketParser) (frame : NullFrame) :
    frame.Agrees parser ↔ (parser.ofLinktype 101).parsePacket frame.packet = none := by
  rw [NullFrame.Agrees, parsePacket_nullFrame, Option.map_none, eq_comm, Option.map_eq_none_iff]

end Loopback

/-- A TCP segment on a loopback interface. -/
def sampleNullFrame : NullFrame where
  version := .v4
  packet := sampleSegment 1 2 40000 80 0x02
  starts := ⟨0x45, rfl, by decide⟩
  family := 2
  family_mem := by decide
  order := .little

/-- A segment that is taken for one of its connection as raw IP is dropped in a loopback frame. -/
theorem sampleNullFrame_not_agrees :
    letI : DeepPacketInspection := .silent
    ((sampleParser 0).parsePacket sampleNullFrame.bytes).isNone ∧
      ((sampleParser 101).parsePacket sampleNullFrame.packet).map ParsedPacket.connectionKey =
        some "TCP:10.0.0.1:40000-TCP:10.0.0.2:80" ∧
      ¬ sampleNullFrame.Agrees (sampleParser 0) := by
  let _ : DeepPacketInspection := .silent
  have hparsed : ((sampleParser 101).parsePacket sampleNullFrame.packet).map
      ParsedPacket.connectionKey = some "TCP:10.0.0.1:40000-TCP:10.0.0.2:80" := by
    decide +kernel
  have hdropped := (sampleParser 0).parsePacket_nullFrame sampleNullFrame
  refine ⟨Option.isNone_iff_eq_none.mpr hdropped, hparsed, fun h => ?_⟩
  rw [NullFrame.Agrees, hdropped, Option.map_none] at h
  have hraw : (sampleParser 101).parsePacket sampleNullFrame.packet = none :=
    Option.map_eq_none_iff.mp h.symm
  rw [hraw] at hparsed
  exact nomatch hparsed

end RustNet

import Mathlib.Data.Finset.Insert
import RustNet.Network.Parser.Transport

/-!
# Internet-layer parsing

The IPv4 and IPv6 parsers of `parser.rs`. The source has each of them twice, for the packet in a
frame with a link-layer header and for a raw IP packet; the two copies differ in the link-layer
bytes that count into the packet length and in nothing else, so both are `PacketParser.parseIp` at
their own values.

An IP parser first reads off the datagram which protocol number, transport data and parameters it
hands on (`Datagram.ofIpv4`, `Datagram.ofIpv6`) and then picks the transport parser by the number.
Everything below about what the IP layer does to a packet is a statement about the first half.

## Main results

* `PacketParser.parseTransport_lengthen`: the packet length is copied and decides nothing.
-/

namespace RustNet

/-- `PacketParser`. The vendor table is read through `OuiLookup::lookup` only. -/
structure PacketParser where
  localIps : Finset IpAddr
  config : ParserConfig
  linktype : Option ℤ
  ouiLookup : Option (String → Option String)

/-- The two kinds of IP packets. -/
inductive IpVersion
  | v4 | v6
deriving DecidableEq

/-- What an IP parser hands on to the transport parsers: `protocol_num` or `final_next_header`, the
transport data, and the parameters. -/
structure Datagram where
  protocolNum : UInt8
  transportData : List UInt8
  params : TransportParams

/-- `Ipv4Addr::new` of the octets from `start` on. -/
def ipv4At (ipData : List UInt8) (start : ℕ) (h : start + 4 ≤ ipData.length) : IpAddr :=
  .v4 ⟨#v[ipData[start], ipData[start + 1], ipData[start + 2], ipData[start + 3]]⟩

/-- `Ipv6Addr::new` of the segments from `start` on. -/
def ipv6At (ipData : List UInt8) (start : ℕ) (h : start + 16 ≤ ipData.length) : IpAddr :=
  .v6 ⟨#v[be16 ipData[start] ipData[start + 1], be16 ipData[start + 2] ipData[start + 3],
    be16 ipData[start + 4] ipData[start + 5], be16 ipData[start + 6] ipData[start + 7],
    be16 ipData[start + 8] ipData[start + 9], be16 ipData[start + 10] ipData[start + 11],
    be16 ipData[start + 12] ipData[start + 13], be16 ipData[start + 14] ipData[start + 15]]⟩

/-! ## IPv4 -/

/-- The first half of the IPv4 parsers. -/
def Datagram.ofIpv4 (linkLen : ℕ) (ipData : List UInt8) (processName : Option String)
    (processId : Option UInt32) : Option Datagram :=
  if h : 20 ≤ ipData.length then
    if ipData[0] >>> 4 ≠ 4 then none
    else
      let ipTotalLength := (be16 ipData[2] ipData[3]).toNat
      let ipHeaderLen := (ipData[0] &&& 0x0F).toNat * 4
      if ipData.length < ipHeaderLen then none
      else some
        { protocolNum := ipData[9]
          -- all bytes that were captured after the header, not only those of the packet
          transportData := ipData.drop ipHeaderLen
          params :=
            { srcIp := ipv4At ipData 12 (by omega)
              dstIp := ipv4At ipData 16 (by omega)
              packetLen := UInt64.ofNat (linkLen + ipTotalLength)
              processName := processName
              processId := processId } }
  else none

/-! ## IPv6 -/

/-- The next-header number and the length that the extension header at `offset` announces: one
round of the loop. It is `none` where the loop returns, at a header that is cut short and at any
number that is not an extension header's. -/
def extensionHeaderAt (nextHeader : UInt8) (data : List UInt8) (offset : ℕ) :
    Option (UInt8 × ℕ) :=
  -- hop-by-hop options, routing, destination options
  if nextHeader = 0 ∨ nextHeader = 43 ∨ nextHeader = 60 then
    if h : data.length < offset + 2 then none
    else some (data[offset], (data[offset + 1].toNat + 1) * 8)
  -- fragment
  else if nextHeader = 44 then
    if h : data.length < offset + 8 then none else some (data[offset], 8)
  -- authentication
  else if nextHeader = 51 then
    if h : data.length < offset + 2 then none
    else some (data[offset], (data[offset + 1].toNat + 2) * 4)
  else none

theorem extensionHeaderAt_pos {nextHeader next : UInt8} {data : List UInt8} {offset headerLen : ℕ}
    (h : extensionHeaderAt nextHeader data offset = some (next, headerLen)) :
    0 < headerLen ∧ offset + 2 ≤ data.length := by
  unfold extensionHeaderAt at h
  split_ifs at h <;> simp only [Option.some.injEq, Prod.mk.injEq] at h <;> omega

/-- `parse_ipv6_extension_headers`, from `offset` on: the headers that are known are skipped by the
lengths they give. Every header is longer than nothing, which ends the recursion. -/
def parseIpv6ExtensionHeaders (nextHeader : UInt8) (data : List UInt8) (offset : ℕ) :
    UInt8 × ℕ :=
  match _h : extensionHeaderAt nextHeader data offset with
  | none => (nextHeader, offset)
  | some (next, headerLen) =>
    if offset + headerLen < data.length then
      parseIpv6ExtensionHeaders next data (offset + headerLen)
    else (next, offset + headerLen)
termination_by data.length - offset
decreasing_by
  have := extensionHeaderAt_pos _h
  omega

/-- The first half of the IPv6 parsers. -/
def Datagram.ofIpv6 (linkLen : ℕ) (ipData : List UInt8) (processName : Option String)
    (processId : Option UInt32) : Option Datagram :=
  if h : ipData.length < 40 then none
  else if ipData[0] >>> 4 ≠ 6 then none
  else
    let ipv6PayloadLength := (be16 ipData[4] ipData[5]).toNat
    let transportData := ipData.drop 40
    let (finalNextHeader, transportOffset) :=
      parseIpv6ExtensionHeaders ipData[6] transportData 0
    some
      { protocolNum := finalNextHeader
        -- a crafted extension header can announce more than was captured
        transportData := transportData.drop (min transportOffset transportData.length)
        params :=
          { srcIp := ipv6At ipData 8 (by omega)
            dstIp := ipv6At ipData 24 (by omega)
            packetLen := UInt64.ofNat (linkLen + 40 + ipv6PayloadLength)
            processName := processName
            processId := processId } }

/-! ## The parsers -/

/-- The first half of the IP parsers. -/
def Datagram.ofIp (version : IpVersion) (linkLen : ℕ) (ipData : List UInt8)
    (processName : Option String) (processId : Option UInt32) : Option Datagram :=
  match version with
  | .v4 => Datagram.ofIpv4 linkLen ipData processName processId
  | .v6 => Datagram.ofIpv6 linkLen ipData processName processId

namespace PacketParser

variable [DeepPacketInspection]

/-- The dispatch on `protocol_num` at the end of the IPv4 parsers. -/
def parseIpv4Transport (parser : PacketParser) (d : Datagram) : Option ParsedPacket :=
  match d.protocolNum with
  | 1 => Icmp.parse d.transportData d.params parser.localIps
  | 2 => Igmp.parse d.transportData d.params parser.localIps
  | 6 => Tcp.parse d.transportData d.params parser.config parser.localIps
  | 17 => Udp.parse d.transportData d.params parser.config parser.localIps
  | _ => none

/-- The dispatch on `final_next_header` at the end of the IPv6 parsers. -/
def parseIpv6Transport (parser : PacketParser) (d : Datagram) : Option ParsedPacket :=
  match d.protocolNum with
  | 58 => Icmp.parseV6 d.transportData d.params parser.localIps
  | 6 => Tcp.parse d.transportData d.params parser.config parser.localIps
  | 17 => Udp.parse d.transportData d.params parser.config parser.localIps
  | _ => none

/-- The second half of the IP parsers. -/
def parseTransport (parser : PacketParser) (version : IpVersion) (d : Datagram) :
    Option ParsedPacket :=
  match version with
  | .v4 => parser.parseIpv4Transport d
  | .v6 => parser.parseIpv6Transport d

/-- What the copies of the IP parsers share: `ipData` is the packet, behind a link-layer header of
`linkLen` bytes. -/
def parseIp (parser : PacketParser) (version : IpVersion) (linkLen : ℕ) (ipData : List UInt8)
    (processName : Option String) (processId : Option UInt32) : Option ParsedPacket :=
  (Datagram.ofIp version linkLen ipData processName processId).bind
    (parser.parseTransport version)

/-- `parse_ipv4_packet_inner`: the IPv4 packet behind the header of the link layer, `offset` bytes
into the frame. -/
def parseIpv4PacketInner (parser : PacketParser) (data : List UInt8) (offset : ℕ) :
    Option String → Option UInt32 → Option ParsedPacket :=
  parser.parseIp .v4 offset (data.drop offset)

/-- `parse_ipv6_packet_inner`: the IPv6 packet behind the header of the link layer, `offset` bytes
into the frame. -/
def parseIpv6PacketInner (parser : PacketParser) (data : List UInt8) (offset : ℕ) :
    Option String → Option UInt32 → Option ParsedPacket :=
  parser.parseIp .v6 offset (data.drop offset)

/-- `parse_raw_ipv4_packet`: an IPv4 packet that begins with the frame, as it does where there is no
link layer. -/
def parseRawIpv4Packet (parser : PacketParser) (data : List UInt8) :
    Option String → Option UInt32 → Option ParsedPacket :=
  parser.parseIp .v4 0 data

/-- `parse_raw_ipv6_packet`: an IPv6 packet that begins with the frame, as it does where there is no
link layer. -/
def parseRawIpv6Packet (parser : PacketParser) (data : List UInt8) :
    Option String → Option UInt32 → Option ParsedPacket :=
  parser.parseIp .v6 0 data

end PacketParser

section Dispatch

variable [DeepPacketInspection] {parser : PacketParser} {version : IpVersion} {d : Datagram}

theorem PacketParser.parseTransport_of_tcp (h : d.protocolNum = 6) :
    parser.parseTransport version d =
      Tcp.parse d.transportData d.params parser.config parser.localIps := by
  rcases version with _ | _
  · simp only [parseTransport, parseIpv4Transport, h]
  · simp only [parseTransport, parseIpv6Transport, h]

theorem PacketParser.parseTransport_of_udp (h : d.protocolNum = 17) :
    parser.parseTransport version d =
      Udp.parse d.transportData d.params parser.config parser.localIps := by
  rcases version with _ | _
  · simp only [parseTransport, parseIpv4Transport, h]
  · simp only [parseTransport, parseIpv6Transport, h]

end Dispatch

/-- The parser of the host `10.0.0.1`, with deep packet inspection on. -/
def sampleParser (linktype : ℤ) : PacketParser where
  localIps := {(SocketAddr.lan 1 0).ip}
  config := { enableDpi := true }
  linktype := some linktype
  ouiLookup := none

/-- A TCP segment of 20 bytes from `10.0.0.src` to `10.0.0.dst`, without data. -/
def sampleSegment (src dst : UInt8) (srcPort dstPort : UInt16) (flags : UInt8) : List UInt8 :=
  [0x45, 0, 0, 40, 0, 1, 0, 0, 64, 6, 0, 0, 10, 0, 0, src, 10, 0, 0, dst,
    (srcPort >>> 8).toUInt8, srcPort.toUInt8, (dstPort >>> 8).toUInt8, dstPort.toUInt8,
    0, 0, 0, 1, 0, 0, 0, 0, 0x50, flags, 0x20, 0, 0, 0, 0, 0]

example :
    letI : DeepPacketInspection := .silent
    ((sampleParser 101).parseRawIpv4Packet (sampleSegment 1 2 40000 80 0x02) none none).map
      (fun p => (p.localAddr, p.remoteAddr, p.isOutgoing)) =
        some (.lan 1 40000, .lan 2 80, true) := by
  decide +kernel

/-! ## Bytes after the packet -/

/-- A datagram with other transport data. -/
def Datagram.withData (d : Datagram) (transportData : List UInt8) : Datagram :=
  { d with transportData := transportData }

@[simp]
theorem Datagram.protocolNum_withData (d : Datagram) (data : List UInt8) :
    (d.withData data).protocolNum = d.protocolNum := rfl

@[simp]
theorem Datagram.transportData_withData (d : Datagram) (data : List UInt8) :
    (d.withData data).transportData = data := rfl

@[simp]
theorem Datagram.params_withData (d : Datagram) (data : List UInt8) :
    (d.withData data).params = d.params := rfl

/-! ## The packet length -/

/-- The same parameters for a packet longer by `n`. -/
def TransportParams.lengthen (params : TransportParams) (n : UInt64) : TransportParams :=
  { params with packetLen := params.packetLen + n }

/-- The same datagram in a packet longer by `n`. -/
def Datagram.lengthen (d : Datagram) (n : UInt64) : Datagram :=
  { d with params := d.params.lengthen n }

/-- The same packet, longer by `n`. -/
def ParsedPacket.lengthen (p : ParsedPacket) (n : UInt64) : ParsedPacket :=
  { p with packetLen := p.packetLen + n }

section Lengthen

variable {data : List UInt8} {params : TransportParams} {n : UInt64} {localIps : Finset IpAddr}

theorem Icmp.parseWith_lengthen {echoRequest echoReply : UInt8} :
    Icmp.parseWith echoRequest echoReply data (params.lengthen n) localIps =
      (Icmp.parseWith echoRequest echoReply data params localIps).map (·.lengthen n) := by
  unfold Icmp.parseWith
  split <;> rfl

theorem Igmp.parse_lengthen :
    Igmp.parse data (params.lengthen n) localIps =
      (Igmp.parse data params localIps).map (·.lengthen n) := by
  unfold Igmp.parse
  split <;> rfl

variable [DeepPacketInspection] {config : ParserConfig}

theorem Tcp.parse_lengthen :
    Tcp.parse data (params.lengthen n) config localIps =
      (Tcp.parse data params config localIps).map (·.lengthen n) := by
  unfold Tcp.parse
  split <;> rfl

theorem Udp.parse_lengthen :
    Udp.parse data (params.lengthen n) config localIps =
      (Udp.parse data params config localIps).map (·.lengthen n) := by
  unfold Udp.parse
  split <;> rfl

/-- The transport parsers copy the packet length and decide nothing by it. -/
theorem PacketParser.parseTransport_lengthen (parser : PacketParser) (version : IpVersion)
    (d : Datagram) :
    parser.parseTransport version (d.lengthen n) =
      (parser.parseTransport version d).map (·.lengthen n) := by
  -- the parsers of the transports write the length down and never read it
  cases version with
  | v4 =>
    simp only [parseTransport, parseIpv4Transport, Datagram.lengthen]
    split
    · exact Icmp.parseWith_lengthen
    · exact Igmp.parse_lengthen
    · exact Tcp.parse_lengthen
    · exact Udp.parse_lengthen
    · rfl
  | v6 =>
    simp only [parseTransport, parseIpv6Transport, Datagram.lengthen]
    split
    · exact Icmp.parseWith_lengthen
    · exact Tcp.parse_lengthen
    · exact Udp.parse_lengthen
    · rfl

end Lengthen

end RustNet

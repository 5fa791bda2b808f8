import RustNet.Network.Parser.ExtensionHeaders
import RustNet.Network.Parser.FlowSymmetry

/-!
# Fragments

A fragment with a non-zero offset has no transport header: its payload is the middle of a segment.
The IP parsers do not read the offset. The IPv4 parser hands the payload to the transport parser of
the protocol field, and the walk over IPv6 extension headers steps over a fragment header as over
any other; so whatever bytes the payload starts with are read as ports and flags.

## Main results

* `Datagram.ofIpv4_encode`: what the IPv4 parser hands on of a packet, for every header length;
* `PacketParser.exists_tcpOrUdp_iff`: from which datagrams the parsers make a TCP or UDP packet;
* `PacketParser.noHeaderFromFragment_iff`: a later fragment makes none exactly when its payload is
  too short for the transport header it would be read as.
-/

namespace RustNet

/-! ## IPv4 packets -/

/-- An IPv4 header. Its first byte tells the version and the length with the options. -/
structure Ipv4Header where
  versionAndIhl : UInt8
  tos : UInt8
  totalLength : UInt16
  identification : UInt16
  flagsAndOffset : UInt16
  ttl : UInt8
  protocol : UInt8
  checksum : UInt16
  src : Vector UInt8 4
  dst : Vector UInt8 4
  options : List UInt8
  version_eq : versionAndIhl >>> 4 = 4
  ihl_eq : (versionAndIhl &&& 0x0F).toNat * 4 = 20 + options.length

namespace Ipv4Header

/-- The bytes of an IPv4 header. -/
def encode (header : Ipv4Header) : List UInt8 :=
  [header.versionAndIhl, header.tos,
    (header.totalLength >>> 8).toUInt8, header.totalLength.toUInt8,
    (header.identification >>> 8).toUInt8, header.identification.toUInt8,
    (header.flagsAndOffset >>> 8).toUInt8, header.flagsAndOffset.toUInt8,
    header.ttl, header.protocol, (header.checksum >>> 8).toUInt8, header.checksum.toUInt8] ++
    (header.src.toList ++ (header.dst.toList ++ header.options))

/-- The fragment offset, in words of eight bytes. -/
def fragmentOffset (header : Ipv4Header) : UInt16 := header.flagsAndOffset &&& 0x1FFF

/-- The addresses of an IPv4 header, with the length of its packet. -/
def params (header : Ipv4Header) (packetLen : UInt64) (processName : Option String)
    (processId : Option UInt32) : TransportParams where
  srcIp := ipv4At header.src.toList 0 (by simp)
  dstIp := ipv4At header.dst.toList 0 (by simp)
  packetLen := packetLen
  processName := processName
  processId := processId

theorem length_encode (header : Ipv4Header) :
    header.encode.length = 20 + header.options.length := by
  simp [encode]
  omega

end Ipv4Header

/-- The IPv4 parser hands on what lies behind the header, options included. -/
theorem Datagram.ofIpv4_encode (linkLen : ℕ) (header : Ipv4Header) (payload : List UInt8)
    (processName : Option String) (processId : Option UInt32) :
    Datagram.ofIpv4 linkLen (header.encode ++ payload) processName processId =
      some
        { protocolNum := header.protocol
          transportData := payload
          params := header.params (UInt64.ofNat (linkLen + header.totalLength.toNat)) processName
            processId } := by
  have hlen := header.length_encode
  have hpos : 0 < (header.encode ++ payload).length := by
    rw [List.length_append]
    omega
  -- the fields that the parser reads are those of the header
  have hfirst : (header.encode ++ payload)[0] = header.versionAndIhl := rfl
  have hsrc : ipv4At (header.encode ++ payload) 12 (by rw [List.length_append]; omega) =
      ipv4At header.src.toList 0 (by simp) := by
    simp [ipv4At, Ipv4Header.encode]
  have hdst : ipv4At (header.encode ++ payload) 16 (by rw [List.length_append]; omega) =
      ipv4At header.dst.toList 0 (by simp) := by
    simp [ipv4At, Ipv4Header.encode]
  rw [Datagram.ofIpv4, dif_pos (by rw [List.length_append]; omega)]
  simp only [hfirst, hsrc, hdst, header.version_eq, header.ihl_eq, ← hlen, List.drop_left]
  rw [if_neg (by simp), if_neg (by simp)]
  simp [Ipv4Header.encode, Ipv4Header.params, be16_bytes]

/-! ## Packets with ports -/

/-- The transport header of a TCP or UDP packet fits into the data. -/
def HeaderFits (protocolNum : UInt8) (data : List UInt8) : Prop :=
  protocolNum = 6 ∧ 20 ≤ data.length ∨ protocolNum = 17 ∧ 8 ≤ data.length

/-- The result is a TCP or UDP packet. -/
def TcpOrUdp (result : Option ParsedPacket) : Prop :=
  ∃ p, result = some p ∧ (p.protocol = .tcp ∨ p.protocol = .udp)

section Parse

variable [DeepPacketInspection]

/-- A datagram becomes a TCP or UDP packet exactly when the header fits into its data. -/
theorem PacketParser.tcpOrUdp_parseTransport_iff {parser : PacketParser} {version : IpVersion}
    {d : Datagram} :
    TcpOrUdp (parser.parseTransport version d) ↔ HeaderFits d.protocolNum d.transportData := by
  constructor
  -- the protocol of the packet is that of its number
  · rintro ⟨p, hp, hprotocol⟩
    have hnum := (parser.parseTransport_filedBy hp).1
    rcases hprotocol with hprotocol | hprotocol
    · rw [hprotocol, Protocol.ofNumber?_eq_tcp_iff] at hnum
      rw [parser.parseTransport_of_tcp hnum] at hp
      exact Or.inl ⟨hnum, Tcp.parse_isSome_iff.mp (Option.isSome_of_eq_some hp)⟩
    · rw [hprotocol, Protocol.ofNumber?_eq_udp_iff] at hnum
      rw [parser.parseTransport_of_udp hnum] at hp
      exact Or.inr ⟨hnum, Udp.parse_isSome_iff.mp (Option.isSome_of_eq_some hp)⟩
  · rintro (⟨hnum, hlen⟩ | ⟨hnum, hlen⟩)
    · obtain ⟨p, hp⟩ := Option.isSome_iff_exists.mp (Tcp.parse_isSome_iff.mpr hlen)
      have hparse : parser.parseTransport version d = some p :=
        (parser.parseTransport_of_tcp hnum).trans hp
      have hprotocol := (parser.parseTransport_filedBy hparse).1
      rw [Datagram.flow, Protocol.ofNumber?_eq_tcp_iff.mpr hnum] at hprotocol
      exact ⟨p, hparse, Or.inl (Option.some.inj hprotocol).symm⟩
    · obtain ⟨p, hp⟩ := Option.isSome_iff_exists.mp (Udp.parse_isSome_iff.mpr hlen)
      have hparse : parser.parseTransport version d = some p :=
        (parser.parseTransport_of_udp hnum).trans hp
      have hprotocol := (parser.parseTransport_filedBy hparse).1
      rw [Datagram.flow, Protocol.ofNumber?_eq_udp_iff.mpr hnum] at hprotocol
      exact ⟨p, hparse, Or.inr (Option.some.inj hprotocol).symm⟩

theorem PacketParser.tcpOrUdp_parseIp_iff {parser : PacketParser} {version : IpVersion}
    {linkLen : ℕ} {ipData : List UInt8} {processName : Option String} {processId : Option UInt32}
    {d : Datagram} (h : Datagram.ofIp version linkLen ipData processName processId = some d) :
    TcpOrUdp (parser.parseIp version linkLen ipData processName processId) ↔
      HeaderFits d.protocolNum d.transportData := by
  rw [parseIp, h]
  exact tcpOrUdp_parseTransport_iff

end Parse

/-! ## Later fragments -/

/-- An IP packet, up to its payload, that carries a fragment with a non-zero offset. -/
inductive LaterFragment
  /-- The offset is in the IPv4 header. -/
  | v4 (header : Ipv4Header) (offset_ne : header.fragmentOffset ≠ 0)
  /-- The offset is in a fragment header behind a chain of others. -/
  | v6 (header : Ipv6Header) (payloadLength : UInt16) (chain : List ExtensionHeader)
      (fragment : ExtensionHeader) (nextHeader : UInt8) (offset_ne : fragment.fragmentOffset ≠ 0)

namespace LaterFragment

/-- The version of the packet. -/
def version : LaterFragment → IpVersion
  | v4 .. => .v4
  | v6 .. => .v6

/-- The packet with this payload. -/
def encode (payload : List UInt8) : LaterFragment → List UInt8
  | v4 header _ => header.encode ++ payload
  | v6 header payloadLength chain fragment nextHeader _ =>
    header.encode payloadLength (firstNumber nextHeader (chain ++ [fragment])) ++
      (encodeChain nextHeader (chain ++ [fragment]) ++ payload)

/-- The payload's bytes, read from the protocol number in front of it on, reach a TCP or UDP header
that fits: at once in IPv4, behind what looks like extension headers in IPv6. -/
def LooksLikeHeader (payload : List UInt8) : LaterFragment → Prop
  | v4 header _ => HeaderFits header.protocol payload
  | v6 _ _ _ _ nextHeader _ =>
    ∃ (last : UInt8) (chain : List ExtensionHeader) (rest : List UInt8),
      nextHeader = firstNumber last chain ∧ payload = encodeChain last chain ++ rest ∧
        HeaderFits last rest

end LaterFragment

/-- The walk reaches a transport header that fits exactly behind a well-formed chain. -/
theorem headerFits_walk_iff {nextHeader : UInt8} {payload : List UInt8} :
    HeaderFits (parseIpv6ExtensionHeaders nextHeader payload 0).1
        (payload.drop (parseIpv6ExtensionHeaders nextHeader payload 0).2) ↔
      ∃ (last : UInt8) (chain : List ExtensionHeader) (rest : List UInt8),
        nextHeader = firstNumber last chain ∧ payload = encodeChain last chain ++ rest ∧
          HeaderFits last rest := by
  constructor
  · intro hfits
    rcases hwalk : parseIpv6ExtensionHeaders nextHeader payload 0 with ⟨last, offset⟩
    rw [hwalk] at hfits
    -- a header that fits leaves no room for a walk past the payload
    have hoffset : offset ≤ payload.length := by
      by_contra hgt
      have hnil : payload.drop offset = [] := List.drop_eq_nil_of_le (by omega)
      simp [HeaderFits, hnil] at hfits
    obtain ⟨chain, hfirst, hpayload⟩ := exists_encodeChain_of_walk hwalk hoffset
    exact ⟨last, chain, payload.drop offset, hfirst, hpayload, hfits⟩
  · rintro ⟨last, chain, rest, rfl, rfl, hfits⟩
    have hround : extensionHeaderAt last rest 0 = none := by
      rcases hfits with ⟨rfl, -⟩ | ⟨rfl, -⟩ <;> simp [extensionHeaderAt]
    rw [parseIpv6ExtensionHeaders_encodeChain, parseIpv6ExtensionHeaders_of_none hround]
    have hdrop : (encodeChain last chain ++ rest).drop (chainLength chain + 0) = rest := by
      rw [Nat.add_zero, ← length_encodeChain last chain, List.drop_left]
    simp only [Prod.map, id, hdrop]
    exact hfits

section Parse

variable [DeepPacketInspection]

/-- From a fragment with a non-zero offset the parser makes no TCP or UDP packet exactly when the
payload does not look like a header. The fragment is one of IPv4 or IPv6 with any offset but zero,
any flags and any protocol; the payload is any bytes from the middle of a segment. -/
theorem PacketParser.noHeaderFromFragment_iff (parser : PacketParser) (fragment : LaterFragment)
    (payload : List UInt8) (linkLen : ℕ) (processName : Option String)
    (processId : Option UInt32) :
    ¬ TcpOrUdp (parser.parseIp fragment.version linkLen (fragment.encode payload) processName
        processId) ↔
      ¬ fragment.LooksLikeHeader payload := by
  rw [not_iff_not]
  rcases fragment with ⟨header, -⟩ | ⟨header, payloadLength, chain, fragment, nextHeader, -⟩
  · have hdatagram : Datagram.ofIp .v4 linkLen _ processName processId = _ :=
      Datagram.ofIpv4_encode linkLen header payload processName processId
    exact tcpOrUdp_parseIp_iff hdatagram
  · -- the walk steps over the chain and the fragment header and goes on in the payload
    have hdatagram : Datagram.ofIp .v6 linkLen _ processName processId = _ :=
      Datagram.ofIpv6_encodeChain linkLen header payloadLength nextHeader (chain ++ [fragment])
        payload processName processId
    exact (tcpOrUdp_parseIp_iff hdatagram).trans headerFits_walk_iff

end Parse

/-- The middle of a segment: an IPv4 fragment 1480 bytes into its datagram, from `10.0.0.2` to
`10.0.0.1`. -/
def sampleFragmentHeader : Ipv4Header where
  versionAndIhl := 0x45
  tos := 0
  totalLength := 40
  identification := 1
  flagsAndOffset := 185
  ttl := 64
  protocol := 6
  checksum := 0
  src := #v[10, 0, 0, 2]
  dst := #v[10, 0, 0, 1]
  options := []
  version_eq := by decide
  ihl_eq := by decide

/-- The twenty bytes of the fragment are read as a TCP header, with its ports and flags. -/
theorem sampleFragment_becomes_tcp :
    letI : DeepPacketInspection := .silent
    sampleFragmentHeader.fragmentOffset ≠ 0 ∧
      ∃ p header,
        (sampleParser 101).parseRawIpv4Packet
            (sampleFragmentHeader.encode ++ (sampleSegment 2 1 80 40000 0x04).drop 20) none none =
          some p ∧
        p.tcpHeader = some header ∧ header.flags.rst = true ∧ header.seq = 1 ∧
        p.connectionKey = "TCP:10.0.0.1:40000-TCP:10.0.0.2:80" := by
  refine ⟨by decide, _, _, rfl, rfl, ?_, ?_, ?_⟩ <;> decide +kernel

end RustNet

import Mathlib.Algebra.GroupWithZero.Divisibility
import Mathlib.Data.List.GetD
import RustNet.Network.Parser.Fragments

/-!
# Bytes behind the packet

A captured frame can be longer than the IP packet in it: Ethernet pads short frames and may leave
the frame check sequence. The IP parsers read the packet's length into `packet_len` and hand on all
captured bytes, so the transport parsers measure the padding as payload and inspect it.

`Reading` is what a packet tells about its connection. The main result says for every well-formed
IP packet, in every framing, which padding leaves the reading alone.

## Main results

* `PacketParser.parseTransport_reading`: the reading of a datagram, in closed form;
* `PacketParser.padding_iff`: padding leaves the reading alone exactly when it is `Harmless`.
-/

namespace RustNet

/-- Key, direction, TCP flags, TCP payload length and inspection result of a packet. -/
structure Reading where
  connectionKey : String
  isOutgoing : Bool
  flags : Option TcpFlags
  payloadLen : Option UInt32
  dpiResult : Option DpiResult

/-- What a parsed packet tells. -/
def ParsedPacket.reading (p : ParsedPacket) : Reading where
  connectionKey := p.connectionKey
  isOutgoing := p.isOutgoing
  flags := p.tcpHeader.map (·.flags)
  payloadLen := p.tcpHeader.map (·.payloadLen)
  dpiResult := p.dpiResult

/-! ## The reading of a datagram -/

namespace Datagram

variable (d : Datagram) (localIps : Finset IpAddr)

/-- Whether the source is local. -/
def isOutgoing : Bool := decide (d.params.srcIp ∈ localIps)

/-- The key of a packet with these headers. -/
def key (protocol : Protocol) : String :=
  RustNet.connectionKey protocol (d.flow.endpoints localIps).1 (d.flow.endpoints localIps).2

/-- The reading of a packet without a TCP header and without inspection. -/
def plainReading (protocol : Protocol) : Reading where
  connectionKey := d.key localIps protocol
  isOutgoing := d.isOutgoing localIps
  flags := none
  payloadLen := none
  dpiResult := none

/-- The length of the TCP header by its data offset. -/
def tcpHeaderLen : ℕ := (d.transportData.getD 12 0 >>> 4).toNat * 4

/-- What inspection, by one of its entry points, makes of a payload. -/
def inspect (config : ParserConfig)
    (analyze : List UInt8 → UInt16 → UInt16 → Bool → Option DpiResult) (payload : List UInt8) :
    Option DpiResult :=
  if config.enableDpi && decide (payload ≠ []) then
    analyze payload (d.flow.endpoints localIps).1.port (d.flow.endpoints localIps).2.port
      (d.isOutgoing localIps)
  else none

variable [DeepPacketInspection] (config : ParserConfig)

/-- What inspection makes of a TCP payload. -/
def inspectTcp : List UInt8 → Option DpiResult :=
  d.inspect localIps config DeepPacketInspection.analyzeTcpPacket

/-- What inspection makes of a UDP payload. -/
def inspectUdp : List UInt8 → Option DpiResult :=
  d.inspect localIps config DeepPacketInspection.analyzeUdpPacket

/-- The reading of a TCP packet. -/
def tcpReading : Reading where
  connectionKey := d.key localIps .tcp
  isOutgoing := d.isOutgoing localIps
  flags := some (parseTcpFlags (d.transportData.getD 13 0))
  payloadLen := some (UInt32.ofNat (d.transportData.length - d.tcpHeaderLen))
  dpiResult := d.inspectTcp localIps config (d.transportData.drop d.tcpHeaderLen)

/-- The reading of a UDP packet. -/
def udpReading : Reading :=
  { d.plainReading localIps .udp with
    dpiResult := d.inspectUdp localIps config (d.transportData.drop 8) }

/-- The protocols without ports that the parser for a version knows. -/
def plainProtocol? (version : IpVersion) : Option Protocol :=
  if version = .v4 ∧ d.protocolNum = 1 ∨ version = .v6 ∧ d.protocolNum = 58 then some .icmp
  else if version = .v4 ∧ d.protocolNum = 2 then some .igmp
  else none

/-- The reading of a datagram. -/
def reading? (version : IpVersion) : Option Reading :=
  if d.protocolNum = 6 then
    if d.transportData.length < 20 then none else some (d.tcpReading localIps config)
  else if d.protocolNum = 17 then
    if d.transportData.length < 8 then none else some (d.udpReading localIps config)
  else if d.transportData.length = 0 then none
  else (d.plainProtocol? version).map (d.plainReading localIps)

end Datagram

section Reading

variable {d : Datagram} {localIps : Finset IpAddr}

theorem Icmp.parseWith_reading {echoRequest echoReply : UInt8} (htcp : d.protocolNum ≠ 6)
    (hudp : d.protocolNum ≠ 17) :
    (Icmp.parseWith echoRequest echoReply d.transportData d.params localIps).map (·.reading) =
      if d.transportData.length = 0 then none else some (d.plainReading localIps .icmp) := by
  unfold Icmp.parseWith
  rw [Datagram.endpoints_of_noPorts htcp hudp]
  split
  · rfl
  · rfl

theorem Igmp.parse_reading (htcp : d.protocolNum ≠ 6) (hudp : d.protocolNum ≠ 17) :
    (Igmp.parse d.transportData d.params localIps).map (·.reading) =
      if d.transportData.length = 0 then none else some (d.plainReading localIps .igmp) := by
  unfold Igmp.parse
  rw [Datagram.endpoints_of_noPorts htcp hudp]
  split
  · rfl
  · rfl

/-- There is a payload behind `n` bytes when there are more. -/
theorem drop_ne_nil_iff {data : List UInt8} {n : ℕ} : data.drop n ≠ [] ↔ n < data.length := by
  rw [ne_eq, List.drop_eq_nil_iff, not_le]

variable [DeepPacketInspection] {config : ParserConfig}

theorem Tcp.parse_reading (hnum : d.protocolNum = 6) :
    (Tcp.parse d.transportData d.params config localIps).map (·.reading) =
      if d.transportData.length < 20 then none else some (d.tcpReading localIps config) := by
  unfold Tcp.parse
  split
  · rfl
  · next hlen =>
    rw [Datagram.endpoints_of_ports (Or.inl hnum) (by omega)]
    -- within twenty bytes every read with a default is the read itself
    have hoffset : d.tcpHeaderLen = (d.transportData[12] >>> 4).toNat * 4 := by
      rw [Datagram.tcpHeaderLen, List.getD_eq_getElem _ _ (by omega)]
    have hflags : d.transportData.getD 13 0 = d.transportData[13] :=
      List.getD_eq_getElem _ _ (by omega)
    simp only [Datagram.tcpReading, Datagram.inspectTcp, Datagram.inspect, hflags, hoffset,
      drop_ne_nil_iff]
    rfl

theorem Udp.parse_reading (hnum : d.protocolNum = 17) :
    (Udp.parse d.transportData d.params config localIps).map (·.reading) =
      if d.transportData.length < 8 then none else some (d.udpReading localIps config) := by
  unfold Udp.parse
  split
  · rfl
  · next hlen =>
    rw [Datagram.endpoints_of_ports (Or.inr hnum) (by omega)]
    simp only [Datagram.udpReading, Datagram.inspectUdp, Datagram.inspect, drop_ne_nil_iff]
    rfl

/-- The reading of a datagram, whichever parser it is handed to. -/
theorem PacketParser.parseTransport_reading (parser : PacketParser) (version : IpVersion)
    (d : Datagram) :
    (parser.parseTransport version d).map (·.reading) =
      d.reading? parser.localIps parser.config version := by
  by_cases htcp : d.protocolNum = 6
  · rw [parseTransport_of_tcp htcp, Tcp.parse_reading htcp, Datagram.reading?, if_pos htcp]
  by_cases hudp : d.protocolNum = 17
  · rw [parseTransport_of_udp hudp, Udp.parse_reading hudp, Datagram.reading?, if_neg htcp,
      if_pos hudp]
  rw [Datagram.reading?, if_neg htcp, if_neg hudp]
  rcases version with _ | _
  · simp only [parseTransport, parseIpv4Transport]
    split
    · next hnum =>
      have hplain : d.plainProtocol? .v4 = some .icmp := by simp [Datagram.plainProtocol?, hnum]
      rw [hplain]
      exact Icmp.parseWith_reading htcp hudp
    · next hnum =>
      have hplain : d.plainProtocol? .v4 = some .igmp := by simp [Datagram.plainProtocol?, hnum]
      rw [hplain]
      exact Igmp.parse_reading htcp hudp
    · next hnum => exact absurd hnum htcp
    · next hnum => exact absurd hnum hudp
    -- a protocol that the parser does not know
    · next hicmp higmp _ _ =>
      have hplain : d.plainProtocol? .v4 = none := by
        rw [Datagram.plainProtocol?, if_neg (by simpa using hicmp), if_neg (by simpa using higmp)]
      rw [hplain]
      exact (ite_self none).symm
  · simp only [parseTransport, parseIpv6Transport]
    split
    · next hnum =>
      have hplain : d.plainProtocol? .v6 = some .icmp := by simp [Datagram.plainProtocol?, hnum]
      rw [hplain]
      exact Icmp.parseWith_reading htcp hudp
    · next hnum => exact absurd hnum htcp
    · next hnum => exact absurd hnum hudp
    · next hicmp _ _ =>
      have hplain : d.plainProtocol? .v6 = none := by
        rw [Datagram.plainProtocol?, if_neg (by simpa using hicmp), if_neg (by simp)]
      rw [hplain]
      exact (ite_self none).symm

end Reading

/-! ## Padding -/

namespace Datagram

variable (d : Datagram) (pad : List UInt8)

/-- The padding bytes that are measured as TCP payload. -/
def tcpGrowth : ℕ :=
  d.transportData.length + pad.length - d.tcpHeaderLen -
    (d.transportData.length - d.tcpHeaderLen)

/-- Padding that leaves the reading alone. Of TCP and UDP, it must not complete a cut header. Behind
a complete TCP header it must lie inside the header that the data offset announces (or be measured
as a multiple of 4 GiB, the range of `payload_len`, and go unnoticed by inspection); behind a UDP
header it must go unnoticed by inspection. The other protocols must have a byte of their own. -/
def Harmless [DeepPacketInspection] (localIps : Finset IpAddr) (config : ParserConfig)
    (version : IpVersion) : Prop :=
  if d.protocolNum = 6 then
    -- too short for a header with the padding, or long enough without it
    d.transportData.length + pad.length < 20 ∨
      20 ≤ d.transportData.length ∧
        (d.tcpGrowth pad = 0 ∨
          2 ^ 32 ∣ d.tcpGrowth pad ∧
            d.inspectTcp localIps config ((d.transportData ++ pad).drop d.tcpHeaderLen) =
              d.inspectTcp localIps config (d.transportData.drop d.tcpHeaderLen))
  else if d.protocolNum = 17 then
    d.transportData.length + pad.length < 8 ∨
      8 ≤ d.transportData.length ∧
        d.inspectUdp localIps config (d.transportData.drop 8 ++ pad) =
          d.inspectUdp localIps config (d.transportData.drop 8)
  -- the other protocols only ask whether there is a byte
  else d.plainProtocol? version = none ∨ d.transportData ≠ [] ∨ pad = []

end Datagram

section Padding

variable {d : Datagram} {pad : List UInt8} {localIps : Finset IpAddr}

theorem getD_append_of_lt {data : List UInt8} {i : ℕ} (h : i < data.length) :
    (data ++ pad).getD i 0 = data.getD i 0 := by
  rw [List.getD_eq_getElem _ _ h, List.getD_eq_getElem _ _ (by rw [List.length_append]; omega),
    List.getElem_append_left h]

/-- Padding behind complete ports leaves the flow alone. -/
theorem Datagram.flow_withData_append (h : 4 ≤ d.transportData.length) :
    (d.withData (d.transportData ++ pad)).flow = d.flow := by
  simp (disch := omega) only [Datagram.flow, Datagram.port, Datagram.protocolNum_withData,
    Datagram.transportData_withData, Datagram.params_withData, getD_append_of_lt]

/-- Padding leaves the flow of a protocol without ports alone. -/
theorem Datagram.flow_withData_of_noPorts (htcp : d.protocolNum ≠ 6) (hudp : d.protocolNum ≠ 17)
    (data : List UInt8) : (d.withData data).flow = d.flow := by
  have hport : ∀ start, (d.withData data).port start = 0 := Datagram.port_eq_zero htcp hudp
  simp only [Datagram.flow, Datagram.port_eq_zero htcp hudp, hport, Datagram.protocolNum_withData,
    Datagram.params_withData]

theorem Datagram.isOutgoing_withData (data : List UInt8) :
    (d.withData data).isOutgoing localIps = d.isOutgoing localIps := rfl

theorem Datagram.plainReading_withData (htcp : d.protocolNum ≠ 6) (hudp : d.protocolNum ≠ 17)
    (data : List UInt8) : (d.withData data).plainReading localIps = d.plainReading localIps := by
  ext protocol : 1
  simp only [Datagram.plainReading, Datagram.key, Datagram.flow_withData_of_noPorts htcp hudp,
    Datagram.isOutgoing_withData]

theorem Datagram.plainProtocol?_withData (data : List UInt8) (version : IpVersion) :
    (d.withData data).plainProtocol? version = d.plainProtocol? version := rfl

/-- Inspection looks at the payload and at the flow. -/
theorem Datagram.inspect_withData {data : List UInt8} (hflow : (d.withData data).flow = d.flow)
    {config : ParserConfig}
    {analyze : List UInt8 → UInt16 → UInt16 → Bool → Option DpiResult} :
    (d.withData data).inspect localIps config analyze = d.inspect localIps config analyze := by
  ext payload : 1
  simp only [Datagram.inspect, Datagram.isOutgoing_withData, hflow]

/-- A reading that needs `n` bytes stays when the bytes become more, exactly when they stay too few
or were enough and tell the same. -/
theorem guarded_eq_iff {n len len' : ℕ} {r r' : Reading} {P : Prop} (hle : len ≤ len')
    (hr : n ≤ len → (r' = r ↔ P)) :
    ((if len' < n then none else some r') = if len < n then none else some r) ↔
      len' < n ∨ n ≤ len ∧ P := by
  -- the longer of two data fails the guard only if the shorter does
  by_cases hlen : len < n
  · by_cases hlen' : len' < n
    · rw [if_pos hlen', if_pos hlen]
      exact iff_of_true rfl (Or.inl hlen')
    · rw [if_neg hlen', if_pos hlen]
      exact iff_of_false (by simp) (by omega)
  · have hlen' : ¬ len' < n := by omega
    rw [if_neg hlen', if_neg hlen, Option.some.injEq, hr (not_lt.mp hlen)]
    constructor
    · exact fun hP => Or.inr ⟨not_lt.mp hlen, hP⟩
    · rintro (hlt | ⟨-, hP⟩)
      · exact absurd hlt hlen'
      · exact hP

/-- What padding adds to the payload of a TCP segment. -/
theorem Datagram.drop_tcpHeaderLen_append (d : Datagram) (pad : List UInt8) :
    ∃ tail, (d.transportData ++ pad).drop d.tcpHeaderLen =
        d.transportData.drop d.tcpHeaderLen ++ tail ∧
      tail.length = d.tcpGrowth pad := by
  refine ⟨pad.drop (d.tcpHeaderLen - d.transportData.length), List.drop_append, ?_⟩
  rw [List.length_drop, Datagram.tcpGrowth]
  omega

variable [DeepPacketInspection] {config : ParserConfig} {version : IpVersion}

/-- A TCP reading is the same with padding exactly when no padding is measured as payload, or so
much that the measure wraps around and inspection does not notice. -/
theorem Datagram.tcpReading_append_iff (h : 20 ≤ d.transportData.length) :
    (d.withData (d.transportData ++ pad)).tcpReading localIps config =
        d.tcpReading localIps config ↔
      d.tcpGrowth pad = 0 ∨
        2 ^ 32 ∣ d.tcpGrowth pad ∧
          d.inspectTcp localIps config ((d.transportData ++ pad).drop d.tcpHeaderLen) =
            d.inspectTcp localIps config (d.transportData.drop d.tcpHeaderLen) := by
  have hflow : (d.withData (d.transportData ++ pad)).flow = d.flow :=
    Datagram.flow_withData_append (by omega)
  -- ports, data offset and flags lie in the first twenty bytes
  have hheaderLen : (d.withData (d.transportData ++ pad)).tcpHeaderLen = d.tcpHeaderLen := by
    simp (disch := omega) only [Datagram.tcpHeaderLen, Datagram.transportData_withData,
      getD_append_of_lt]
  have hflags : (d.transportData ++ pad).getD 13 0 = d.transportData.getD 13 0 :=
    getD_append_of_lt (by omega)
  have hlen : UInt32.ofNat ((d.transportData ++ pad).length - d.tcpHeaderLen) =
      UInt32.ofNat (d.transportData.length - d.tcpHeaderLen) ↔ 2 ^ 32 ∣ d.tcpGrowth pad := by
    rw [← UInt32.toNat_inj, UInt32.toNat_ofNat', UInt32.toNat_ofNat', List.length_append,
      Datagram.tcpGrowth]
    omega
  have hreading : (d.withData (d.transportData ++ pad)).tcpReading localIps config =
        d.tcpReading localIps config ↔
      2 ^ 32 ∣ d.tcpGrowth pad ∧
        d.inspectTcp localIps config ((d.transportData ++ pad).drop d.tcpHeaderLen) =
          d.inspectTcp localIps config (d.transportData.drop d.tcpHeaderLen) := by
    rw [← hlen]
    simp only [Datagram.tcpReading, Datagram.key, Datagram.inspectTcp,
      Datagram.isOutgoing_withData, Datagram.inspect_withData hflow, hflow, hheaderLen, hflags,
      Datagram.transportData_withData, Reading.mk.injEq, Option.some.injEq, eq_self, true_and]
  rw [hreading]
  constructor
  · exact Or.inr
  · rintro (hzero | hwrap)
    -- the padding lies inside the header, so the payload is the same
    · obtain ⟨tail, htail, hlength⟩ := d.drop_tcpHeaderLen_append pad
      rw [hzero, List.length_eq_zero_iff] at hlength
      rw [htail, hlength, List.append_nil, hzero]
      exact ⟨dvd_zero _, rfl⟩
    · exact hwrap

/-- A UDP reading is the same with padding exactly when inspection does not notice it. -/
theorem Datagram.udpReading_append_iff (h : 8 ≤ d.transportData.length) :
    (d.withData (d.transportData ++ pad)).udpReading localIps config =
        d.udpReading localIps config ↔
      d.inspectUdp localIps config (d.transportData.drop 8 ++ pad) =
        d.inspectUdp localIps config (d.transportData.drop 8) := by
  have hflow : (d.withData (d.transportData ++ pad)).flow = d.flow :=
    Datagram.flow_withData_append (by omega)
  have hdrop : (d.transportData ++ pad).drop 8 = d.transportData.drop 8 ++ pad :=
    List.drop_append_of_le_length h
  simp only [Datagram.udpReading, Datagram.plainReading, Datagram.key, Datagram.inspectUdp,
    Datagram.isOutgoing_withData, Datagram.inspect_withData hflow, hflow, hdrop,
    Datagram.transportData_withData, Reading.mk.injEq, eq_self, true_and]

/-- A reading is the same with padding exactly when the padding is harmless. -/
theorem Datagram.reading?_append_iff :
    (d.withData (d.transportData ++ pad)).reading? localIps config version =
        d.reading? localIps config version ↔
      d.Harmless pad localIps config version := by
  have hlength : (d.transportData ++ pad).length = d.transportData.length + pad.length :=
    List.length_append
  simp only [Datagram.reading?, Datagram.Harmless, Datagram.protocolNum_withData,
    Datagram.transportData_withData, hlength]
  by_cases htcp : d.protocolNum = 6
  · rw [if_pos htcp, if_pos htcp, if_pos htcp]
    exact guarded_eq_iff (Nat.le_add_right _ _) Datagram.tcpReading_append_iff
  by_cases hudp : d.protocolNum = 17
  · rw [if_neg htcp, if_neg htcp, if_neg htcp, if_pos hudp, if_pos hudp, if_pos hudp]
    exact guarded_eq_iff (Nat.le_add_right _ _) Datagram.udpReading_append_iff
  · rw [if_neg htcp, if_neg htcp, if_neg htcp, if_neg hudp, if_neg hudp, if_neg hudp,
      Datagram.plainReading_withData htcp hudp, Datagram.plainProtocol?_withData]
    rcases d.plainProtocol? version with _ | protocol
    · exact iff_of_true (by simp) (Or.inl rfl)
    · -- the packet is parsed as soon as there is one byte
      rw [← List.length_eq_zero_iff, ← List.length_pos_iff, Option.map_some]
      by_cases hdata : d.transportData.length = 0
      · by_cases hpad : pad.length = 0
        · rw [if_pos (by omega), if_pos hdata]
          exact iff_of_true rfl (Or.inr (Or.inr hpad))
        -- only the padded packet is parsed
        · rw [if_neg (by omega), if_pos hdata]
          refine iff_of_false (by simp) ?_
          rintro (h | h | h)
          · exact absurd h (by simp)
          · omega
          · exact hpad h
      · rw [if_neg (by omega), if_neg hdata]
        exact iff_of_true rfl (Or.inr (Or.inl (by omega)))

end Padding

/-! ## Packets with the right length -/

/-- The protocol numbers of the extension headers that the walk knows. -/
def extensionNumbers : List UInt8 := [0, 43, 44, 51, 60]

theorem extensionHeaderAt_eq_none {nextHeader : UInt8} (h : nextHeader ∉ extensionNumbers)
    (data : List UInt8) (offset : ℕ) : extensionHeaderAt nextHeader data offset = none := by
  simp only [extensionNumbers, List.mem_cons, List.not_mem_nil, or_false, not_or] at h
  obtain ⟨h0, h43, h44, h51, h60⟩ := h
  simp [extensionHeaderAt, h0, h43, h44, h51, h60]

/-- An IP packet whose length field is the length of what it holds. -/
inductive IpPacket
  | v4 (header : Ipv4Header) (data : List UInt8)
      (length_eq : header.totalLength.toNat = 20 + header.options.length + data.length)
  | v6 (header : Ipv6Header) (payloadLength : UInt16) (chain : List ExtensionHeader)
      (last : UInt8) (data : List UInt8) (last_notMem : last ∉ extensionNumbers)
      (length_eq : payloadLength.toNat = chainLength chain + data.length)

namespace IpPacket

/-- The version of the packet. -/
def version : IpPacket → IpVersion
  | v4 .. => .v4
  | v6 .. => .v6

/-- The bytes of the packet. -/
def encode : IpPacket → List UInt8
  | v4 header data _ => header.encode ++ data
  | v6 header payloadLength chain last data _ _ =>
    header.encode payloadLength (firstNumber last chain) ++ (encodeChain last chain ++ data)

/-- What the packet's own headers hand on: its data and nothing behind it. -/
def datagram (linkLen : ℕ) : IpPacket → Datagram
  | v4 header data _ =>
    { protocolNum := header.protocol
      transportData := data
      params := header.params (UInt64.ofNat (linkLen + header.totalLength.toNat)) none none }
  | v6 header payloadLength _ last data _ _ =>
    { protocolNum := last
      transportData := data
      params := header.params (UInt64.ofNat (linkLen + 40 + payloadLength.toNat)) none none }

/-- The parsers hand on the padding with the packet's data. -/
theorem ofIp_encode_append (packet : IpPacket) (linkLen : ℕ) (pad : List UInt8) :
    Datagram.ofIp packet.version linkLen (packet.encode ++ pad) none none =
      some ((packet.datagram linkLen).withData
        ((packet.datagram linkLen).transportData ++ pad)) := by
  rcases packet with ⟨header, data, -⟩ | ⟨header, payloadLength, chain, last, data, hlast, -⟩
  · simp only [Datagram.ofIp, version, encode, List.append_assoc, Datagram.ofIpv4_encode]
    rfl
  · simp only [Datagram.ofIp, version, encode, List.append_assoc, Datagram.ofIpv6_encodeChain,
      parseIpv6ExtensionHeaders_of_none (extensionHeaderAt_eq_none hlast _ _), List.drop_zero]
    rfl

end IpPacket

section Frames

variable [DeepPacketInspection] {parser : PacketParser} {packet : IpPacket} {frame : List UInt8}
  {linkLen : ℕ}

/-- The reading of a frame with a well-formed packet and padding. -/
theorem PacketParser.parsePacket_append_reading
    (hframe : parser.ipPayload? frame = some ⟨packet.version, linkLen, packet.encode⟩)
    (pad : List UInt8) :
    (parser.parsePacket (frame ++ pad)).map (·.reading) =
      ((packet.datagram linkLen).withData
        ((packet.datagram linkLen).transportData ++ pad)).reading? parser.localIps parser.config
          packet.version := by
  rw [parser.parsePacket_of_ipPayload (ipPayload?_append hframe), parseIp,
    packet.ofIp_encode_append linkLen pad, Option.bind_some, parseTransport_reading]

/-- Padding behind a packet leaves its reading alone exactly when it is harmless. `hframe` says that
the frame is one whose link layer hands on a well-formed IP packet; the link layer is any, and so is
what inspects the payload. The padding is any bytes. -/
theorem PacketParser.padding_iff
    (hframe : parser.ipPayload? frame = some ⟨packet.version, linkLen, packet.encode⟩)
    (pad : List UInt8) :
    (parser.parsePacket (frame ++ pad)).map (·.reading) =
        (parser.parsePacket frame).map (·.reading) ↔
      (packet.datagram linkLen).Harmless pad parser.localIps parser.config packet.version := by
  have hplain := parser.parsePacket_append_reading hframe []
  rw [List.append_nil, List.append_nil] at hplain
  rw [parser.parsePacket_append_reading hframe, hplain]
  exact Datagram.reading?_append_iff

end Frames

/-- An acknowledgement without data, from `10.0.0.2` to `10.0.0.1`. -/
def sampleAckPacket : IpPacket :=
  .v4 { sampleFragmentHeader with
      flagsAndOffset := 0
      ihl_eq := by decide }
    ((sampleSegment 2 1 80 40000 0x10).drop 20) (by decide)

/-- An Ethernet header of type IPv4. -/
def sampleEthernetHeader : List UInt8 := [0, 1, 2, 3, 4, 5, 6, 7, 8, 9, 10, 11, 0x08, 0x00]

/-- Ethernet pads the 54 bytes of the acknowledgement to 60, and it parses as a segment with six
bytes of data. -/
theorem sampleAck_padding_measured :
    letI : DeepPacketInspection := .silent
    let parser := sampleParser 1
    let frame := sampleEthernetHeader ++ sampleAckPacket.encode
    parser.ipPayload? frame = some ⟨sampleAckPacket.version, 14, sampleAckPacket.encode⟩ ∧
      ((parser.parsePacket frame).map (·.reading)).bind (·.payloadLen) = some 0 ∧
      ((parser.parsePacket (frame ++ List.replicate 6 0)).map (·.reading)).bind (·.payloadLen) =
        some 6 := by
  refine ⟨rfl, ?_, ?_⟩ <;> decide +kernel

/-- A UDP datagram without data, from `10.0.0.2` to `10.0.0.1`. -/
def sampleUdpPacket : IpPacket :=
  .v4 { sampleFragmentHeader with
      flagsAndOffset := 0
      totalLength := 28
      protocol := 17
      ihl_eq := by decide }
    [0x9c, 0x40, 0, 53, 0, 8, 0, 0] (by decide)

/-- A padded UDP datagram tells the same when inspection recognises nothing in the padding. -/
theorem sampleUdp_padding_harmless :
    letI : DeepPacketInspection := .silent
    let parser := sampleParser 1
    let frame := sampleEthernetHeader ++ sampleUdpPacket.encode
    (parser.parsePacket frame).isSome ∧
      (parser.parsePacket (frame ++ List.replicate 18 0)).map (·.reading) =
        (parser.parsePacket frame).map (·.reading) := by
  have hframe : (sampleParser 1).ipPayload? (sampleEthernetHeader ++ sampleUdpPacket.encode) =
      some ⟨sampleUdpPacket.version, 14, sampleUdpPacket.encode⟩ := rfl
  refine ⟨by decide +kernel, ?_⟩
  exact (@PacketParser.padding_iff .silent _ _ _ _ hframe (List.replicate 18 0)).mpr
    (Or.inr ⟨by decide +kernel, rfl⟩)

end RustNet

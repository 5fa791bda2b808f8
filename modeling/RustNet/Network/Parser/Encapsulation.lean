import Mathlib.Algebra.Order.Group.Nat
import Mathlib.Algebra.Order.Sub.Basic
import Mathlib.Data.List.GetD
import RustNet.Network.Parser.LinkLayer

/-!
# The same packet under different link layers

An IP or ARP packet can be captured in an Ethernet frame, in either of the two Linux cooked
captures, each with or without an 802.1Q tag, and an IP packet also without any link-layer header.
Each of these has a parser of its own. `Encapsulation.frame` puts the header in front of a payload
and `Encapsulation.Captures` says which link types hand such a frame to the right parser.

## Main results

* `Encapsulation.parsePacket_frame_ip`: a frame parses as the IP packet in it does, behind the
  link-layer bytes that count into the packet length;
* `Encapsulation.parsePacket_agree`: two frames with one payload parse to the same packet up to the
  packet length, which for an IP packet is that of the datagram and the Ethernet header.
-/

namespace RustNet

/-! ## Payloads -/

/-- What a link-layer frame carries. -/
inductive NetworkPayload
  | ip (version : IpVersion) (data : List UInt8)
  | arp (data : List UInt8)

namespace NetworkPayload

/-- The bytes of the payload. -/
def data : NetworkPayload → List UInt8
  | ip _ data => data
  | arp data => data

/-- The EtherType of the payload. -/
def ethertype : NetworkPayload → UInt16
  | ip .v4 _ => 0x0800
  | ip .v6 _ => 0x86dd
  | arp _ => 0x0806

end NetworkPayload

/-- The version number an IP header starts with. -/
def IpVersion.number : IpVersion → UInt8
  | v4 => 4
  | v6 => 6

/-- The length of the smallest IP header. -/
def IpVersion.minLen : IpVersion → ℕ
  | v4 => 20
  | v6 => 40

/-- The link type of captures that hold packets of one version only. -/
def IpVersion.linktype : IpVersion → ℤ
  | v4 => 228
  | v6 => 229

/-- The length an IP header announces for its datagram: the Total Length field of IPv4, and of IPv6
the 40 bytes of the header with the Payload Length field. -/
def ipDatagramLength : IpVersion → List UInt8 → ℕ
  | .v4, data => (be16 (data.getD 2 0) (data.getD 3 0)).toNat
  | .v6, data => 40 + (be16 (data.getD 4 0) (data.getD 5 0)).toNat

/-! ## Frames -/

/-- A link layer, with the bytes of its header that are neither a type nor a tag's identifier. -/
inductive Encapsulation
  /-- Ethernet: the two MAC addresses. -/
  | ethernet (macs : Vector UInt8 12)
  /-- Ethernet with an 802.1Q tag. -/
  | ethernetVlan (macs : Vector UInt8 12) (tci : UInt16)
  /-- Linux SLL: what stands before the protocol. -/
  | sll (header : Vector UInt8 14)
  /-- Linux SLL with an 802.1Q tag, as libpcap reconstructs it. -/
  | sllVlan (header : Vector UInt8 14) (tci : UInt16)
  /-- Linux SLL2: what stands behind the protocol. -/
  | sll2 (header : Vector UInt8 18)
  /-- Linux SLL2 with an 802.1Q tag. -/
  | sll2Vlan (header : Vector UInt8 18) (tci : UInt16)
  /-- An IP packet without a link-layer header. -/
  | rawIp

namespace Encapsulation

/-- A 16-bit number in network byte order. -/
def be16Bytes (x : UInt16) : List UInt8 := [(x >>> 8).toUInt8, x.toUInt8]

/-- The type that announces an 802.1Q tag. -/
def vlanTag : List UInt8 := [0x81, 0x00]

/-- The frame that carries a payload. -/
def frame (payload : NetworkPayload) : Encapsulation → List UInt8
  | ethernet macs => macs.toList ++ be16Bytes payload.ethertype ++ payload.data
  | ethernetVlan macs tci =>
    macs.toList ++ vlanTag ++ be16Bytes tci ++ be16Bytes payload.ethertype ++ payload.data
  | sll header => header.toList ++ be16Bytes payload.ethertype ++ payload.data
  | sllVlan header tci =>
    header.toList ++ vlanTag ++ be16Bytes tci ++ be16Bytes payload.ethertype ++
      payload.data
  | sll2 header => be16Bytes payload.ethertype ++ header.toList ++ payload.data
  | sll2Vlan header tci =>
    vlanTag ++ header.toList ++ be16Bytes tci ++ be16Bytes payload.ethertype ++
      payload.data
  | rawIp => payload.data

/-- The link-layer bytes that count into the length of an IP packet: those of Ethernet. -/
def linkLen : Encapsulation → ℕ
  | ethernet _ => 14
  | ethernetVlan _ _ => 18
  | _ => 0

/-- The bytes of the link-layer header. -/
def headerLen : Encapsulation → ℕ
  | ethernet _ => 14
  | ethernetVlan _ _ => 18
  | sll _ => 16
  | sllVlan _ _ => 20
  | sll2 _ => 20
  | sll2Vlan _ _ => 24
  | rawIp => 0

/-- The link types that say how a payload is captured. Ethernet is also what a parser without a
link type, or with an unknown one, reads a frame as. A raw capture holds IP packets, which show
their version themselves. -/
def Captures (payload : NetworkPayload) (linktype : Option ℤ) : Encapsulation → Prop
  | ethernet _ => ∀ l ∈ linktype, l ∉ [0, 12, 101, 113, 228, 229, 276]
  | ethernetVlan _ _ => ∀ l ∈ linktype, l ∉ [0, 12, 101, 113, 228, 229, 276]
  | sll _ => linktype = some 113
  | sllVlan _ _ => linktype = some 113
  | sll2 _ => linktype = some 276
  | sll2Vlan _ _ => linktype = some 276
  | rawIp =>
    match payload with
    | .ip version data =>
      (∀ first ∈ data.head?, first >>> 4 = version.number) ∧
        ((∃ l ∈ ([0, 12, 101] : List ℤ), linktype = some l) ∨ linktype = some version.linktype)
    | .arp _ => False

/-! ## What the parsers choose -/

/-- The call a payload is parsed by. -/
def choice (payload : NetworkPayload) (e : Encapsulation) : LinkPayload :=
  match payload, e with
  | .ip version _, ethernet _ | .ip version _, ethernetVlan _ _ => .framed version e.headerLen
  | .ip version _, _ => .raw version e.headerLen
  | .arp _, _ => .arp e.headerLen

section Choice

variable {payload : NetworkPayload}

@[simp]
theorem length_be16Bytes (x : UInt16) : (be16Bytes x).length = 2 := rfl

@[simp]
theorem length_vlanTag : vlanTag.length = 2 := rfl

theorem length_frame (payload : NetworkPayload) (e : Encapsulation) :
    (e.frame payload).length = e.headerLen + payload.data.length := by
  rcases e with _ | _ | _ | _ | _ | _ | _ <;> simp [frame, headerLen] <;> omega

theorem headerLen_le_length_frame (payload : NetworkPayload) (e : Encapsulation) :
    e.headerLen ≤ (e.frame payload).length := by
  rw [length_frame]
  exact Nat.le_add_right _ _

theorem be16_vlanTag : be16 0x81 0x00 = 0x8100 := by decide

theorem ofEthertype_ethertype (ip : IpVersion → ℕ → LinkPayload) (start : ℕ) :
    LinkPayload.ofEthertype ip payload.ethertype start =
      some (match payload with
        | .ip version _ => ip version start
        | .arp _ => .arp start) := by
  rcases payload with ⟨_ | _, _⟩ | _ <;> rfl

theorem ethertype_ne_vlan : payload.ethertype ≠ 0x8100 := by
  rcases payload with ⟨_ | _, data⟩ | data
  · show (0x0800 : UInt16) ≠ 0x8100
    decide
  · show (0x86dd : UInt16) ≠ 0x8100
    decide
  · show (0x0806 : UInt16) ≠ 0x8100
    decide

theorem parse_ethernet (macs : Vector UInt8 12) :
    Ethernet.parse ((ethernet macs).frame payload) = some ((ethernet macs).choice payload) := by
  have hlen : 14 ≤ ((ethernet macs).frame payload).length :=
    headerLen_le_length_frame payload (ethernet macs)
  have htype : Ethernet.extractEthertype ((ethernet macs).frame payload) hlen =
      some (payload.ethertype, 14) := by
    simp [Ethernet.extractEthertype, frame, be16Bytes, be16_bytes, ethertype_ne_vlan]
  rw [Ethernet.parse, dif_neg (not_lt.mpr hlen), htype, Option.bind_some, ofEthertype_ethertype]
  rcases payload with _ | _ <;> rfl

theorem parse_ethernetVlan (macs : Vector UInt8 12) (tci : UInt16) :
    Ethernet.parse ((ethernetVlan macs tci).frame payload) =
      some ((ethernetVlan macs tci).choice payload) := by
  have hlen : 18 ≤ ((ethernetVlan macs tci).frame payload).length :=
    headerLen_le_length_frame payload (ethernetVlan macs tci)
  have hlen' : 14 ≤ ((ethernetVlan macs tci).frame payload).length := by omega
  have htype : Ethernet.extractEthertype ((ethernetVlan macs tci).frame payload) hlen' =
      some (payload.ethertype, 18) := by
    rw [Ethernet.extractEthertype, if_pos (by simp [frame, vlanTag, be16_vlanTag]),
      dif_neg (not_lt.mpr hlen)]
    simp [frame, vlanTag, be16Bytes, be16_bytes]
  rw [Ethernet.parse, dif_neg (not_lt.mpr hlen'), htype, Option.bind_some, ofEthertype_ethertype]
  rcases payload with _ | _ <;> rfl

/-- The protocol of a cooked header says what the payload is. -/
theorem parseWith_of_protocol (payload : NetworkPayload) {headerLen protocolAt : ℕ}
    (hAt : protocolAt + 2 ≤ headerLen) {data : List UInt8} (hlen : headerLen ≤ data.length)
    (hprotocol : be16 data[protocolAt] data[protocolAt + 1] = payload.ethertype) :
    LinuxSll.parseWith headerLen protocolAt hAt data =
      LinkPayload.ofEthertype .raw payload.ethertype headerLen := by
  rw [LinuxSll.parseWith, dif_neg (not_lt.mpr hlen)]
  dsimp only
  rw [hprotocol, if_neg ethertype_ne_vlan]

/-- Behind a tag the type in it does. -/
theorem parseWith_of_vlanTag (payload : NetworkPayload) {headerLen protocolAt : ℕ}
    (hAt : protocolAt + 2 ≤ headerLen) {data : List UInt8} (hlen : headerLen + 4 ≤ data.length)
    (hprotocol : be16 data[protocolAt] data[protocolAt + 1] = 0x8100)
    (hethertype : be16 data[headerLen + 2] data[headerLen + 3] = payload.ethertype) :
    LinuxSll.parseWith headerLen protocolAt hAt data =
      LinkPayload.ofEthertype .raw payload.ethertype (headerLen + 4) := by
  rw [LinuxSll.parseWith, dif_neg (by omega)]
  dsimp only
  rw [if_pos hprotocol, dif_neg (not_lt.mpr hlen), hethertype]

theorem parseSll_sll (header : Vector UInt8 14) :
    LinuxSll.parseSll ((sll header).frame payload) = some ((sll header).choice payload) := by
  have hlen : 16 ≤ ((sll header).frame payload).length :=
    headerLen_le_length_frame payload (sll header)
  rw [LinuxSll.parseSll, parseWith_of_protocol payload (by decide) hlen
    (by simp [frame, be16Bytes, be16_bytes]), ofEthertype_ethertype]
  rcases payload with _ | _ <;> rfl

theorem parseSll_sllVlan (header : Vector UInt8 14) (tci : UInt16) :
    LinuxSll.parseSll ((sllVlan header tci).frame payload) =
      some ((sllVlan header tci).choice payload) := by
  have hlen : 20 ≤ ((sllVlan header tci).frame payload).length :=
    headerLen_le_length_frame payload (sllVlan header tci)
  rw [LinuxSll.parseSll, parseWith_of_vlanTag payload (by decide) hlen
    (by simp [frame, vlanTag, be16_vlanTag])
    (by simp [frame, vlanTag, be16Bytes, be16_bytes]), ofEthertype_ethertype]
  rcases payload with _ | _ <;> rfl

theorem parseSll2_sll2 (header : Vector UInt8 18) :
    LinuxSll.parseSll2 ((sll2 header).frame payload) = some ((sll2 header).choice payload) := by
  have hlen : 20 ≤ ((sll2 header).frame payload).length :=
    headerLen_le_length_frame payload (sll2 header)
  rw [LinuxSll.parseSll2, parseWith_of_protocol payload (by decide) hlen
    (by simp [frame, be16Bytes, be16_bytes]), ofEthertype_ethertype]
  rcases payload with _ | _ <;> rfl

theorem parseSll2_sll2Vlan (header : Vector UInt8 18) (tci : UInt16) :
    LinuxSll.parseSll2 ((sll2Vlan header tci).frame payload) =
      some ((sll2Vlan header tci).choice payload) := by
  have hlen : 24 ≤ ((sll2Vlan header tci).frame payload).length :=
    headerLen_le_length_frame payload (sll2Vlan header tci)
  rw [LinuxSll.parseSll2, parseWith_of_vlanTag payload (by decide) hlen
    (by simp [frame, vlanTag, be16_vlanTag])
    (by simp [frame, vlanTag, be16Bytes, be16_bytes]), ofEthertype_ethertype]
  rcases payload with _ | _ <;> rfl

/-- Whatever is not another link type is read as Ethernet. -/
theorem linkPayload?_ethernet {parser : PacketParser}
    (h : ∀ l ∈ parser.linktype, l ∉ ([0, 12, 101, 113, 228, 229, 276] : List ℤ))
    (data : List UInt8) : parser.linkPayload? data = Ethernet.parse data := by
  unfold PacketParser.linkPayload?
  rcases hl : parser.linktype with _ | l
  · rfl
  · have hother := h l hl
    simp only [List.mem_cons, List.not_mem_nil, or_false, not_or] at hother ⊢
    rw [if_neg (by tauto), if_neg (by tauto)]
    -- link type 1 and anything unknown are both read as Ethernet
    split_ifs with htap
    · rw [show l = 1 by tauto]
      rfl
    · rfl

/-- A frame with a link-layer header is handed to the parser of its payload. -/
theorem linkPayload?_frame {parser : PacketParser} {e : Encapsulation}
    (h : e.Captures payload parser.linktype) (hraw : e ≠ rawIp) :
    parser.linkPayload? (e.frame payload) = some (e.choice payload) := by
  -- the link type says which header is parsed
  rcases e with macs | ⟨macs, tci⟩ | header | ⟨header, tci⟩ | header | ⟨header, tci⟩ | _
  · rw [linkPayload?_ethernet h, parse_ethernet]
  · rw [linkPayload?_ethernet h, parse_ethernetVlan]
  · rw [PacketParser.linkPayload?, show parser.linktype = some 113 from h]
    exact parseSll_sll header
  · rw [PacketParser.linkPayload?, show parser.linktype = some 113 from h]
    exact parseSll_sllVlan header tci
  · rw [PacketParser.linkPayload?, show parser.linktype = some 276 from h]
    exact parseSll2_sll2 header
  · rw [PacketParser.linkPayload?, show parser.linktype = some 276 from h]
    exact parseSll2_sll2Vlan header tci
  · exact absurd rfl hraw

theorem drop_headerLen (payload : NetworkPayload) (e : Encapsulation) :
    (e.frame payload).drop e.headerLen = payload.data := by
  rcases e with _ | _ | _ | _ | _ | _ | _ <;>
    simp [frame, headerLen, vlanTag, be16Bytes, List.drop_append]

end Choice

/-! ## What they make of the frame -/

section Parse

variable [DeepPacketInspection] {parser : PacketParser} {linktype : Option ℤ}

omit [DeepPacketInspection] in
/-- A raw capture is handed to the parser of its version, if its length gets that far. -/
theorem linkPayload?_rawIp {version : IpVersion} {data : List UInt8}
    (h : rawIp.Captures (.ip version data) parser.linktype) :
    parser.linkPayload? data = some (.raw version 0) ∨
      parser.linkPayload? data = none ∧ data.length < version.minLen := by
  obtain ⟨hnumber, ⟨l, hl, hlinktype⟩ | hlinktype⟩ := h
  · -- the version is read off the first byte
    have hchoice : parser.linkPayload? data = RawIp.parse data := by
      rw [PacketParser.linkPayload?, hlinktype]
      simp only [List.mem_cons, List.not_mem_nil, or_false] at hl
      rcases hl with rfl | rfl | rfl <;> rfl
    rw [hchoice]
    rcases data with _ | ⟨first, rest⟩
    -- an empty frame has no version
    · right
      rcases version with _ | _ <;> exact ⟨rfl, by decide⟩
    · have hfirst := hnumber first rfl
      left
      rcases version with _ | _
      · simp only [RawIp.parse, hfirst, IpVersion.number, if_true]
      · simp only [RawIp.parse, hfirst, IpVersion.number]
        rfl
  · -- the link type names the version, and the length and the version number are checked
    have hchoice : parser.linkPayload? data =
        RawIp.parseVersion version.number version.minLen version data := by
      rw [PacketParser.linkPayload?, hlinktype]
      rcases version with _ | _ <;> rfl
    rw [hchoice, RawIp.parseVersion]
    split_ifs with hshort hother
    · right
      rcases version with _ | _ <;> simp only [IpVersion.minLen] at hshort ⊢ <;>
        exact ⟨trivial, by omega⟩
    · exact absurd (hnumber data[0] (by simp [List.head?_eq_getElem?])) hother
    · exact .inl rfl

/-- The length checks of the raw IP parsers are those of the IP parsers. -/
theorem parseIp_of_short {version : IpVersion} {data : List UInt8}
    (h : data.length < version.minLen) : parser.parseIp version 0 data none none = none := by
  rcases version with _ | _
  · have hshort : ¬ 20 ≤ data.length := not_le.mpr h
    rw [PacketParser.parseIp, Datagram.ofIp, Datagram.ofIpv4, dif_neg hshort]
    rfl
  · have hshort : data.length < 40 := h
    rw [PacketParser.parseIp, Datagram.ofIp, Datagram.ofIpv6, dif_pos hshort]
    rfl

/-- A frame with an IP packet parses as the packet does. -/
theorem parsePacket_frame_ip {e : Encapsulation} {version : IpVersion} {data : List UInt8}
    (h : e.Captures (.ip version data) parser.linktype) :
    parser.parsePacket (e.frame (.ip version data)) =
      parser.parseIp version e.linkLen data none none := by
  by_cases hraw : e = rawIp
  · subst hraw
    -- a raw packet that no link layer hands on is one that the IP parser rejects
    rcases linkPayload?_rawIp h with hchoice | ⟨hchoice, hshort⟩
    · rw [PacketParser.parsePacket, frame, NetworkPayload.data, hchoice]
      rcases version with _ | _ <;> rfl
    · rw [PacketParser.parsePacket, frame, NetworkPayload.data, hchoice]
      exact (parseIp_of_short hshort).symm
  · have hip : parser.ipPayload? (e.frame (.ip version data)) =
        some ⟨version, e.linkLen, data⟩ := by
      -- the parser of the payload starts where the header ends
      have hdrop := drop_headerLen (.ip version data) e
      rw [PacketParser.ipPayload?, linkPayload?_frame h hraw, Option.bind_some]
      rcases e with _ | _ | _ | _ | _ | _ | _ <;>
        simp only [choice, linkLen, headerLen] at hdrop ⊢ <;> rw [hdrop] <;> rfl
    exact PacketParser.parsePacket_of_ipPayload hip

/-- A frame with an ARP packet parses by the ARP parser, behind its link-layer header. -/
theorem parsePacket_frame_arp {e : Encapsulation} {data : List UInt8}
    (h : e.Captures (.arp data) parser.linktype) :
    parser.parsePacket (e.frame (.arp data)) =
      parser.parseArpPacketWithOffset (e.frame (.arp data)) e.headerLen none none := by
  have hraw : e ≠ rawIp := by
    rintro rfl
    exact h
  rw [PacketParser.parsePacket, linkPayload?_frame h hraw]
  rfl

end Parse

end Encapsulation

/-! ## The packet length -/

/-- The same packet with another length. -/
def ParsedPacket.withPacketLen (p : ParsedPacket) (packetLen : UInt64) : ParsedPacket :=
  { p with packetLen := packetLen }

/-- The link-layer bytes only count into the packet length. -/
theorem Datagram.ofIp_linkLen (version : IpVersion) (linkLen : ℕ) (ipData : List UInt8)
    (processName : Option String) (processId : Option UInt32) :
    Datagram.ofIp version linkLen ipData processName processId =
      (Datagram.ofIp version 0 ipData processName processId).map
        (·.lengthen (UInt64.ofNat linkLen)) := by
  have hlen (n : ℕ) :
      UInt64.ofNat (linkLen + n) = UInt64.ofNat (0 + n) + UInt64.ofNat linkLen := by
    rw [← UInt64.ofNat_add, Nat.zero_add, Nat.add_comm]
  rcases version with _ | _
  · unfold Datagram.ofIp Datagram.ofIpv4
    dsimp only
    split_ifs <;>
      simp only [Option.map_none, Option.map_some, Datagram.lengthen, TransportParams.lengthen,
        hlen]
  · unfold Datagram.ofIp Datagram.ofIpv6
    split_ifs <;>
      simp only [Option.map_none, Option.map_some, Datagram.lengthen, TransportParams.lengthen,
        Nat.add_assoc, hlen]

/-- A datagram's length is the one its header announces. -/
theorem Datagram.packetLen_of_ofIp {version : IpVersion} {ipData : List UInt8}
    {processName : Option String} {processId : Option UInt32} {d : Datagram}
    (h : Datagram.ofIp version 0 ipData processName processId = some d) :
    d.params.packetLen = UInt64.ofNat (ipDatagramLength version ipData) := by
  rcases version with _ | _
  · unfold Datagram.ofIp Datagram.ofIpv4 at h
    dsimp only at h
    split_ifs at h with hlen
    rw [← Option.some.inj h, Nat.zero_add, ipDatagramLength,
      List.getD_eq_getElem _ _ (by omega), List.getD_eq_getElem _ _ (by omega)]
  · unfold Datagram.ofIp Datagram.ofIpv6 at h
    dsimp only at h
    split_ifs at h with hlen
    rw [← Option.some.inj h, Nat.zero_add, ipDatagramLength,
      List.getD_eq_getElem _ _ (by omega), List.getD_eq_getElem _ _ (by omega)]

section Transport

variable {data : List UInt8} {params : TransportParams} {localIps : Finset IpAddr}
  {p : ParsedPacket}

theorem Icmp.packetLen_of_parseWith {echoRequest echoReply : UInt8}
    (h : Icmp.parseWith echoRequest echoReply data params localIps = some p) :
    p.packetLen = params.packetLen := by
  unfold Icmp.parseWith at h
  split at h
  · exact absurd h (by simp)
  · rw [← Option.some.inj h]

theorem Igmp.packetLen_of_parse (h : Igmp.parse data params localIps = some p) :
    p.packetLen = params.packetLen := by
  unfold Igmp.parse at h
  split at h
  · exact absurd h (by simp)
  · rw [← Option.some.inj h]

variable [DeepPacketInspection] {config : ParserConfig}

theorem Tcp.packetLen_of_parse (h : Tcp.parse data params config localIps = some p) :
    p.packetLen = params.packetLen := by
  unfold Tcp.parse at h
  split at h
  · exact absurd h (by simp)
  · rw [← Option.some.inj h]

theorem Udp.packetLen_of_parse (h : Udp.parse data params config localIps = some p) :
    p.packetLen = params.packetLen := by
  unfold Udp.parse at h
  split at h
  · exact absurd h (by simp)
  · rw [← Option.some.inj h]

/-- The transport parsers copy the packet length. -/
theorem PacketParser.packetLen_of_parseTransport {parser : PacketParser} {version : IpVersion}
    {d : Datagram} (h : parser.parseTransport version d = some p) :
    p.packetLen = d.params.packetLen := by
  rcases version with _ | _
  · simp only [parseTransport, parseIpv4Transport] at h
    split at h
    · exact Icmp.packetLen_of_parseWith h
    · exact Igmp.packetLen_of_parse h
    · exact Tcp.packetLen_of_parse h
    · exact Udp.packetLen_of_parse h
    · exact absurd h (by simp)
  · simp only [parseTransport, parseIpv6Transport] at h
    split at h
    · exact Icmp.packetLen_of_parseWith h
    · exact Tcp.packetLen_of_parse h
    · exact Udp.packetLen_of_parse h
    · exact absurd h (by simp)

end Transport

/-! ## Agreement -/

section Agree

variable [DeepPacketInspection] {parser : PacketParser}

/-- A packet behind a link-layer header is the packet itself, longer by the header. -/
theorem PacketParser.parseIp_linkLen (version : IpVersion) (linkLen : ℕ) (ipData : List UInt8) :
    parser.parseIp version linkLen ipData none none =
      (parser.parseIp version 0 ipData none none).map (·.lengthen (UInt64.ofNat linkLen)) := by
  rw [parseIp, Datagram.ofIp_linkLen, parseIp]
  rcases Datagram.ofIp version 0 ipData none none with _ | d
  · rfl
  · exact parser.parseTransport_lengthen version d

theorem PacketParser.packetLen_of_parseIp {version : IpVersion} {linkLen : ℕ}
    {ipData : List UInt8} {p : ParsedPacket}
    (h : parser.parseIp version linkLen ipData none none = some p) :
    p.packetLen = UInt64.ofNat (linkLen + ipDatagramLength version ipData) := by
  rw [parseIp_linkLen] at h
  obtain ⟨q, hq, rfl⟩ := Option.map_eq_some_iff.mp h
  obtain ⟨d, hd, hparse⟩ := Option.bind_eq_some_iff.mp hq
  have hlen : q.packetLen = UInt64.ofNat (ipDatagramLength version ipData) :=
    (packetLen_of_parseTransport hparse).trans (Datagram.packetLen_of_ofIp hd)
  rw [ParsedPacket.lengthen, hlen, Nat.add_comm, UInt64.ofNat_add]

omit [DeepPacketInspection] in
/-- The ARP parser sees the header it skips in the packet length only. -/
theorem PacketParser.parseArp_withPacketLen {frame frame' : List UInt8} {headerLen headerLen' : ℕ}
    (h : frame.drop headerLen = frame'.drop headerLen') (processName : Option String)
    (processId : Option UInt32) :
    (parser.parseArpPacketWithOffset frame headerLen processName processId).map
        (·.withPacketLen 0) =
      (parser.parseArpPacketWithOffset frame' headerLen' processName processId).map
        (·.withPacketLen 0) := by
  unfold parseArpPacketWithOffset
  dsimp only
  simp only [h]
  split_ifs
  · rfl
  · rfl
  · rw [Option.map_map, Option.map_map]
    rfl
  · rw [Option.map_map, Option.map_map]
    rfl

/-- The same parser on another interface. -/
def PacketParser.onLinktype (parser : PacketParser) (linktype : Option ℤ) : PacketParser :=
  { parser with linktype := linktype }

/-- **Every link layer hands on the same packet.** Two frames with one payload parse to the same
packet, or neither parses; only the packet length tells them apart, and for an IP packet that is the
length of the datagram, with the Ethernet header if there is one.

Each frame is captured with a link type that goes with its link layer (`h`, `h'`): Ethernet or a
Linux cooked capture of either version, with or without a VLAN tag, or raw IP. The payload is any
datagram or ARP message, well formed or not. -/
theorem Encapsulation.parsePacket_agree (parser : PacketParser) {payload : NetworkPayload}
    {e e' : Encapsulation} {linktype linktype' : Option ℤ} (h : e.Captures payload linktype)
    (h' : e'.Captures payload linktype') :
    (((parser.onLinktype linktype).parsePacket (e.frame payload)).map
        (·.withPacketLen 0) =
      ((parser.onLinktype linktype').parsePacket (e'.frame payload)).map
        (·.withPacketLen 0)) ∧
    ∀ version data, payload = .ip version data →
      ∀ p ∈ (parser.onLinktype linktype).parsePacket (e.frame payload),
        p.packetLen = UInt64.ofNat (e.linkLen + ipDatagramLength version data) := by
  rcases payload with ⟨version, data⟩ | data
  · have hparse : (parser.onLinktype linktype).parsePacket (e.frame (.ip version data)) =
        parser.parseIp version e.linkLen data none none := parsePacket_frame_ip h
    have hparse' : (parser.onLinktype linktype').parsePacket (e'.frame (.ip version data)) =
        parser.parseIp version e'.linkLen data none none := parsePacket_frame_ip h'
    refine ⟨?_, ?_⟩
    -- either packet is the datagram's own, longer by its link layer
    · rw [hparse, hparse', PacketParser.parseIp_linkLen version e.linkLen,
        PacketParser.parseIp_linkLen version e'.linkLen, Option.map_map, Option.map_map]
      rfl
    · rintro _ _ ⟨rfl, rfl⟩ p hp
      rw [hparse] at hp
      exact PacketParser.packetLen_of_parseIp hp
  -- behind the headers both frames hold the same bytes
  · rw [parsePacket_frame_arp h, parsePacket_frame_arp h']
    refine ⟨PacketParser.parseArp_withPacketLen ?_ none none, by rintro _ _ ⟨⟩⟩
    exact (drop_headerLen (.arp data) e).trans (drop_headerLen (.arp data) e').symm

end Agree

/-- A segment in a tagged Ethernet frame and in an SLL2 capture. -/
theorem Encapsulation.parsePacket_agree_sampleSegment :
    letI : DeepPacketInspection := .silent
    let payload := NetworkPayload.ip .v4 (sampleSegment 1 2 40000 80 0x02)
    let tagged := (Encapsulation.ethernetVlan (.replicate 12 0) 42).frame payload
    let cooked := (Encapsulation.sll2 (.replicate 18 0)).frame payload
    (((sampleParser 0).onLinktype (some 1)).parsePacket tagged).map (·.withPacketLen 0) =
        (((sampleParser 0).onLinktype (some 276)).parsePacket cooked).map (·.withPacketLen 0) ∧
      ∀ p ∈ ((sampleParser 0).onLinktype (some 1)).parsePacket tagged, p.packetLen = 58 := by
  let _ : DeepPacketInspection := .silent
  let payload := NetworkPayload.ip .v4 (sampleSegment 1 2 40000 80 0x02)
  have htagged : (ethernetVlan (.replicate 12 0) 42).Captures payload (some 1) := by
    simp [Captures]
  have hcooked : (sll2 (.replicate 18 0)).Captures payload (some 276) := rfl
  have hagree := parsePacket_agree (sampleParser 0) htagged hcooked
  exact ⟨hagree.1, fun p hp => hagree.2 _ _ rfl p hp⟩

end RustNet

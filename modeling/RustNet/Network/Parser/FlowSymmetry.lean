import Mathlib.Data.List.GetD
import RustNet.Network.Parser.LinkLayer

/-!
# The two directions of a flow

The parser files a packet under its local and its remote end, so that a packet and the answer to it
meet under one key. Every transport parser finds the local end by the same rule: the source, if its
address is local, else the destination. The rule does not look at the destination's address, and
where both addresses are local it calls the sender of either direction local.

## Main results

* `PacketParser.parsePacket_endpoints`: the ends of a parsed packet are its flow's, by that rule;
* `PacketParser.sameConnection_iff`: a packet and its reverse are filed alike exactly when they are
  not two different ends of this host.
-/

namespace RustNet

/-- A protocol number with the source and the destination that a packet's own headers name. -/
structure Flow where
  protocolNum : UInt8
  src : SocketAddr
  dst : SocketAddr
deriving DecidableEq

namespace Flow

/-- The flow of the answers. -/
def reverse (flow : Flow) : Flow := ⟨flow.protocolNum, flow.dst, flow.src⟩

/-- The local and the remote end: the source is local when its address is. -/
def endpoints (flow : Flow) (localIps : Finset IpAddr) : SocketAddr × SocketAddr :=
  if flow.src.ip ∈ localIps then (flow.src, flow.dst) else (flow.dst, flow.src)

/-- Both ends are this host's, and they are two. -/
def Internal (flow : Flow) (localIps : Finset IpAddr) : Prop :=
  flow.src.ip ∈ localIps ∧ flow.dst.ip ∈ localIps ∧ flow.src ≠ flow.dst

/-- The two directions have the same ends exactly outside the host. -/
theorem endpoints_reverse_iff {flow : Flow} {localIps : Finset IpAddr}
    (hlocal : flow.src.ip ∈ localIps ∨ flow.dst.ip ∈ localIps) :
    flow.endpoints localIps = flow.reverse.endpoints localIps ↔ ¬ flow.Internal localIps := by
  unfold endpoints reverse Internal
  -- both ends are local, or exactly one of them
  by_cases hsrc : flow.src.ip ∈ localIps
  · by_cases hdst : flow.dst.ip ∈ localIps
    · -- each direction calls its own source local
      rw [if_pos hsrc, if_pos hdst, Prod.mk.injEq]
      constructor
      · rintro ⟨heq, -⟩ ⟨-, -, hne⟩
        exact hne heq
      · intro h
        have heq : flow.src = flow.dst := by
          by_contra hne
          exact h ⟨hsrc, hdst, hne⟩
        exact ⟨heq, heq.symm⟩
    · rw [if_pos hsrc, if_neg hdst]
      exact iff_of_true rfl fun h => hdst h.2.1
  · have hdst : flow.dst.ip ∈ localIps := hlocal.resolve_left hsrc
    rw [if_neg hsrc, if_pos hdst]
    exact iff_of_true rfl fun h => hsrc h.1

end Flow

/-- The protocol that the transport parser for a number reports. -/
def Protocol.ofNumber? (protocolNum : UInt8) : Option Protocol :=
  if protocolNum = 6 then some .tcp
  else if protocolNum = 17 then some .udp
  else if protocolNum = 1 ∨ protocolNum = 58 then some .icmp
  else if protocolNum = 2 then some .igmp
  else none

theorem Protocol.ofNumber?_eq_tcp_iff {protocolNum : UInt8} :
    Protocol.ofNumber? protocolNum = some .tcp ↔ protocolNum = 6 := by
  unfold Protocol.ofNumber?
  split_ifs <;> simp_all

theorem Protocol.ofNumber?_eq_udp_iff {protocolNum : UInt8} :
    Protocol.ofNumber? protocolNum = some .udp ↔ protocolNum = 17 := by
  unfold Protocol.ofNumber?
  split_ifs <;> simp_all

/-- The port that TCP and UDP headers have at `start`; the other protocols have none. -/
def Datagram.port (d : Datagram) (start : ℕ) : UInt16 :=
  if d.protocolNum = 6 ∨ d.protocolNum = 17 then
    be16 (d.transportData.getD start 0) (d.transportData.getD (start + 1) 0)
  else 0

theorem Datagram.port_eq_zero {d : Datagram} (htcp : d.protocolNum ≠ 6)
    (hudp : d.protocolNum ≠ 17) (start : ℕ) : d.port start = 0 :=
  if_neg fun h => h.elim htcp hudp

theorem Datagram.port_eq {d : Datagram} (h : d.protocolNum = 6 ∨ d.protocolNum = 17) {start : ℕ}
    (hlen : start + 1 < d.transportData.length) :
    d.port start = be16 d.transportData[start] d.transportData[start + 1] := by
  rw [Datagram.port, if_pos h, List.getD_eq_getElem _ _ (by omega), List.getD_eq_getElem _ _ hlen]

/-- The flow of a datagram. -/
def Datagram.flow (d : Datagram) : Flow :=
  ⟨d.protocolNum, ⟨d.params.srcIp, d.port 0⟩, ⟨d.params.dstIp, d.port 2⟩⟩

/-- The flow of a frame with an IP packet. -/
def PacketParser.flow? (parser : PacketParser) (data : List UInt8) : Option Flow :=
  (parser.ipPayload? data).bind fun ip =>
    (Datagram.ofIp ip.version ip.linkLen ip.ipData none none).map Datagram.flow

/-- The ends the parsers of protocols without ports compute. -/
theorem Datagram.endpoints_of_noPorts {d : Datagram} {localIps : Finset IpAddr}
    (htcp : d.protocolNum ≠ 6) (hudp : d.protocolNum ≠ 17) :
    d.params.endpoints localIps 0 0 = d.flow.endpoints localIps := by
  rw [Datagram.flow, Datagram.port_eq_zero htcp hudp, Datagram.port_eq_zero htcp hudp]
  rfl

/-- The ends the TCP and UDP parsers compute. -/
theorem Datagram.endpoints_of_ports {d : Datagram} {localIps : Finset IpAddr}
    (h : d.protocolNum = 6 ∨ d.protocolNum = 17) (hlen : 4 ≤ d.transportData.length) :
    d.params.endpoints localIps (be16 d.transportData[0] d.transportData[1])
        (be16 d.transportData[2] d.transportData[3]) =
      d.flow.endpoints localIps := by
  rw [Datagram.flow, Datagram.port_eq h (by omega), Datagram.port_eq h (by omega)]
  rfl

section Endpoints

/-- A packet as its flow files it. -/
def ParsedPacket.FiledBy (p : ParsedPacket) (localIps : Finset IpAddr) (flow : Flow) : Prop :=
  Protocol.ofNumber? flow.protocolNum = some p.protocol ∧
    (p.localAddr, p.remoteAddr) = flow.endpoints localIps

variable {d : Datagram} {localIps : Finset IpAddr} {p : ParsedPacket}

theorem Icmp.parseWith_filedBy {echoRequest echoReply : UInt8}
    (hnum : d.protocolNum = 1 ∨ d.protocolNum = 58)
    (h : Icmp.parseWith echoRequest echoReply d.transportData d.params localIps = some p) :
    p.FiledBy localIps d.flow := by
  -- ICMP has no ports, and both sides take zeros
  have hends : d.params.endpoints localIps 0 0 = d.flow.endpoints localIps := by
    rcases hnum with hnum | hnum <;>
      exact Datagram.endpoints_of_noPorts (by simp [hnum]) (by simp [hnum])
  unfold Icmp.parseWith at h
  rw [hends] at h
  split at h
  · exact absurd h (by simp)
  · rcases hpair : d.flow.endpoints localIps with ⟨localAddr, remoteAddr⟩
    rw [hpair] at h
    obtain rfl := Option.some.inj h
    refine ⟨?_, hpair.symm⟩
    rcases hnum with hnum | hnum <;> simp [Protocol.ofNumber?, Datagram.flow, hnum]

theorem Igmp.parse_filedBy (hnum : d.protocolNum = 2)
    (h : Igmp.parse d.transportData d.params localIps = some p) :
    p.FiledBy localIps d.flow := by
  have hends : d.params.endpoints localIps 0 0 = d.flow.endpoints localIps :=
    Datagram.endpoints_of_noPorts (by simp [hnum]) (by simp [hnum])
  unfold Igmp.parse at h
  rw [hends] at h
  split at h
  · exact absurd h (by simp)
  · rcases hpair : d.flow.endpoints localIps with ⟨localAddr, remoteAddr⟩
    rw [hpair] at h
    obtain rfl := Option.some.inj h
    refine ⟨?_, hpair.symm⟩
    simp [Protocol.ofNumber?, Datagram.flow, hnum]

variable [DeepPacketInspection] {config : ParserConfig}

theorem Tcp.parse_filedBy (hnum : d.protocolNum = 6)
    (h : Tcp.parse d.transportData d.params config localIps = some p) :
    p.FiledBy localIps d.flow := by
  unfold Tcp.parse at h
  split at h
  · exact absurd h (by simp)
  · rcases hpair : d.flow.endpoints localIps with ⟨localAddr, remoteAddr⟩
    rw [Datagram.endpoints_of_ports (Or.inl hnum) (by omega), hpair] at h
    obtain rfl := Option.some.inj h
    refine ⟨?_, hpair.symm⟩
    simp [Protocol.ofNumber?, Datagram.flow, hnum]

theorem Udp.parse_filedBy (hnum : d.protocolNum = 17)
    (h : Udp.parse d.transportData d.params config localIps = some p) :
    p.FiledBy localIps d.flow := by
  unfold Udp.parse at h
  split at h
  · exact absurd h (by simp)
  · rcases hpair : d.flow.endpoints localIps with ⟨localAddr, remoteAddr⟩
    rw [Datagram.endpoints_of_ports (Or.inr hnum) (by omega), hpair] at h
    obtain rfl := Option.some.inj h
    refine ⟨?_, hpair.symm⟩
    simp [Protocol.ofNumber?, Datagram.flow, hnum]

theorem PacketParser.parseTransport_filedBy {parser : PacketParser} {version : IpVersion}
    (h : parser.parseTransport version d = some p) : p.FiledBy parser.localIps d.flow := by
  rcases version with _ | _
  · simp only [parseTransport, parseIpv4Transport] at h
    split at h
    · next hnum => exact Icmp.parseWith_filedBy (Or.inl hnum) h
    · next hnum => exact Igmp.parse_filedBy hnum h
    · next hnum => exact Tcp.parse_filedBy hnum h
    · next hnum => exact Udp.parse_filedBy hnum h
    · exact absurd h (by simp)
  · simp only [parseTransport, parseIpv6Transport] at h
    split at h
    · next hnum => exact Icmp.parseWith_filedBy (Or.inr hnum) h
    · next hnum => exact Tcp.parse_filedBy hnum h
    · next hnum => exact Udp.parse_filedBy hnum h
    · exact absurd h (by simp)

/-- A frame's packet is filed by the frame's flow. -/
theorem PacketParser.parsePacket_filedBy {parser : PacketParser} {frame : List UInt8}
    {flow : Flow} (hflow : parser.flow? frame = some flow)
    (h : parser.parsePacket frame = some p) : p.FiledBy parser.localIps flow := by
  obtain ⟨ip, hip, hdatagram⟩ := Option.bind_eq_some_iff.mp hflow
  obtain ⟨d, hd, rfl⟩ := Option.map_eq_some_iff.mp hdatagram
  rw [parsePacket_of_ipPayload hip, parseIp, hd] at h
  exact parser.parseTransport_filedBy h

/-- A packet and its reverse get one key and one pair of addresses exactly when they do not run
between two different ends of this host.

The two frames, of any link type, hold packets of one flow (`hflow`, `hreply`), of which one end is
an address of this host (`hlocal`), and both are parsed (`hp`, `hq`). Headers, payloads and lengths
may be different. -/
theorem PacketParser.sameConnection_iff {parser : PacketParser} {frame reply : List UInt8}
    {flow : Flow} {q : ParsedPacket} (hflow : parser.flow? frame = some flow)
    (hreply : parser.flow? reply = some flow.reverse)
    (hlocal : flow.src.ip ∈ parser.localIps ∨ flow.dst.ip ∈ parser.localIps)
    (hp : parser.parsePacket frame = some p) (hq : parser.parsePacket reply = some q) :
    (p.connectionKey = q.connectionKey ∧
        (p.localAddr, p.remoteAddr) = (q.localAddr, q.remoteAddr)) ↔
      ¬ flow.Internal parser.localIps := by
  obtain ⟨hprotocol, hends⟩ := parser.parsePacket_filedBy hflow hp
  obtain ⟨hprotocol', hends'⟩ := parser.parsePacket_filedBy hreply hq
  have hsame : p.protocol = q.protocol := Option.some.inj (hprotocol.symm.trans hprotocol')
  rw [hends, hends', Flow.endpoints_reverse_iff hlocal, and_iff_right_iff_imp]
  intro hexternal
  -- equal protocols and equal ends make equal keys
  have hpair := (Flow.endpoints_reverse_iff hlocal).mpr hexternal
  rw [← hends, ← hends', Prod.mk.injEq] at hpair
  rw [p.connectionKey_eq, q.connectionKey_eq, hsame, hpair.1, hpair.2]

end Endpoints

/-- A SYN and its SYN-ACK between two ports of the host get two keys and two pairs of addresses:
each direction calls its own source local. -/
theorem selfConnection_not_sameConnection :
    letI : DeepPacketInspection := .silent
    ∃ p q : ParsedPacket,
      (sampleParser 101).parsePacket (sampleSegment 1 1 40000 80 0x02) = some p ∧
      (sampleParser 101).parsePacket (sampleSegment 1 1 80 40000 0x12) = some q ∧
      (sampleParser 101).flow? (sampleSegment 1 1 40000 80 0x02) =
        some ⟨6, .lan 1 40000, .lan 1 80⟩ ∧
      (sampleParser 101).flow? (sampleSegment 1 1 80 40000 0x12) =
        some (Flow.reverse ⟨6, .lan 1 40000, .lan 1 80⟩) ∧
      (SocketAddr.lan 1 80).ip ∈ (sampleParser 101).localIps ∧
      p.connectionKey = "TCP:10.0.0.1:40000-TCP:10.0.0.1:80" ∧
      q.connectionKey = "TCP:10.0.0.1:80-TCP:10.0.0.1:40000" ∧
      (p.localAddr, p.remoteAddr) ≠ (q.localAddr, q.remoteAddr) := by
  refine ⟨_, _, rfl, rfl, ?_, ?_, ?_, ?_, ?_, ?_⟩ <;> decide +kernel

/-- A SYN to another host and its SYN-ACK are filed alike. -/
theorem sampleHandshake_sameConnection :
    letI : DeepPacketInspection := .silent
    ∃ p q : ParsedPacket,
      (sampleParser 101).parsePacket (sampleSegment 1 2 40000 80 0x02) = some p ∧
      (sampleParser 101).parsePacket (sampleSegment 2 1 80 40000 0x12) = some q ∧
      p.connectionKey = q.connectionKey ∧
        (p.localAddr, p.remoteAddr) = (q.localAddr, q.remoteAddr) := by
  refine ⟨_, _, rfl, rfl, ?_⟩
  refine (@PacketParser.sameConnection_iff _ .silent (sampleParser 101)
    (sampleSegment 1 2 40000 80 0x02) (sampleSegment 2 1 80 40000 0x12)
    ⟨6, .lan 1 40000, .lan 2 80⟩ _ (by decide +kernel) (by decide +kernel)
    (Or.inl (by decide +kernel)) rfl rfl).mpr ?_
  rintro ⟨-, hdst, -⟩
  exact absurd hdst (by decide +kernel)

end RustNet

import Mathlib.Algebra.Order.Ring.Int
import Mathlib.Tactic.Common

/-!
# Addresses, times and protocol states

The value types of `types.rs` that a connection is made of, with the standard library's address
and time types as far as the code uses them. A `Duration` is a natural number of nanoseconds.

The text of an address follows the standard library's `Display`: dotted octets for IPv4, and for
IPv6 the mapped form `::ffff:a.b.c.d` or hexadecimal segments with the first longest run of two or
more zero segments written `::`.
-/

namespace RustNet

/-! ## Times -/

/-- `SystemTime`: nanoseconds since the Unix epoch, negative before it. -/
structure SystemTime where
  nanos : ℤ
deriving DecidableEq

/-- `Instant`: nanoseconds on the monotonic clock, from an arbitrary origin. -/
structure Instant where
  nanos : ℤ
deriving DecidableEq

/-- `Duration::from_secs`: a duration is a number of nanoseconds here. -/
def Duration.fromSecs (secs : ℕ) : ℕ := secs * 1000000000

/-- `SystemTime::UNIX_EPOCH`: the time that the wall clock counts from. -/
def SystemTime.unixEpoch : SystemTime := ⟨0⟩

/-- `SystemTime::duration_since`: an error when `earlier` lies in the future. -/
def SystemTime.durationSince (now earlier : SystemTime) : Option ℕ :=
  if earlier.nanos ≤ now.nanos then some (now.nanos - earlier.nanos).toNat else none

/-- `duration_since(..).unwrap_or_default()` is the truncated difference. -/
theorem SystemTime.durationSince_getD (now earlier : SystemTime) :
    (now.durationSince earlier).getD 0 = (now.nanos - earlier.nanos).toNat := by
  unfold SystemTime.durationSince
  split
  · rfl
  · rw [Option.getD_none]
    omega

/-! ## Addresses -/

/-- `std::net::Ipv4Addr`: an address of four bytes, so that another number of them cannot be
built. -/
structure Ipv4Addr where
  /-- The four octets, most significant first. -/
  octets : Vector UInt8 4
deriving DecidableEq

/-- `std::net::Ipv6Addr`: an address of eight 16-bit segments, so that another number of them cannot
be built. -/
structure Ipv6Addr where
  /-- The eight segments, most significant first. -/
  segments : Vector UInt16 8
deriving DecidableEq

/-- `std::net::IpAddr`: an address of either version. A mapped address of version 4 is one of
version 6. -/
inductive IpAddr
  | v4 (addr : Ipv4Addr)
  | v6 (addr : Ipv6Addr)
deriving DecidableEq

/-- `std::net::SocketAddr`; the parser builds every one with flow label and scope zero. -/
structure SocketAddr where
  ip : IpAddr
  port : UInt16
deriving DecidableEq

/-- Port `port` of `10.0.0.host`, for the concrete connections of the examples. -/
def SocketAddr.lan (host : UInt8) (port : UInt16) : SocketAddr :=
  ⟨.v4 ⟨#v[10, 0, 0, host]⟩, port⟩

/-- Dotted octets in base ten, which is how the address is displayed in keys and lists. -/
def Ipv4Addr.display (addr : Ipv4Addr) : String :=
  ".".intercalate (addr.octets.toList.map fun octet => toString octet.toNat)

/-- `Ipv6Addr::to_ipv4_mapped`: the address of version 4 that stands in the last two segments, if
the others are those of a mapped address. -/
def Ipv6Addr.toIpv4Mapped (addr : Ipv6Addr) : Option Ipv4Addr :=
  match addr.segments.toList with
  | [0, 0, 0, 0, 0, 0xffff, ab, cd] =>
    some ⟨#v[(ab >>> 8).toUInt8, ab.toUInt8, (cd >>> 8).toUInt8, cd.toUInt8]⟩
  | _ => none

/-- A run of consecutive segments. -/
structure Span where
  start : ℕ
  len : ℕ

/-- The first longest run of zero segments. -/
def Ipv6Addr.zeroes (segments : List UInt16) : Span :=
  (segments.zipIdx.foldl
    (fun (longest, current) (segment, i) =>
      if segment = 0 then
        let current : Span := ⟨if current.len = 0 then i else current.start, current.len + 1⟩
        (if longest.len < current.len then current else longest, current)
      else (longest, ⟨0, 0⟩))
    ((⟨0, 0⟩, ⟨0, 0⟩) : Span × Span)).1

/-- Colon-separated hexadecimal segments without leading zeros, which is how both halves around the
longest run of zeros are displayed. -/
def Ipv6Addr.displaySubslice (chunk : List UInt16) : String :=
  ":".intercalate (chunk.map fun segment => String.ofList (Nat.toDigits 16 segment.toNat))

/-- The text of an IPv6 address. -/
def Ipv6Addr.display (addr : Ipv6Addr) : String :=
  match addr.toIpv4Mapped with
  | some ipv4 => "::ffff:" ++ ipv4.display
  | none =>
    let segments := addr.segments.toList
    let zeroes := zeroes segments
    if 1 < zeroes.len then
      displaySubslice (segments.take zeroes.start) ++ "::" ++
        displaySubslice (segments.drop (zeroes.start + zeroes.len))
    else displaySubslice segments

/-- The text of a socket address. -/
def SocketAddr.display (addr : SocketAddr) : String :=
  match addr.ip with
  | .v4 ip => ip.display ++ ":" ++ toString addr.port.toNat
  | .v6 ip => "[" ++ ip.display ++ "]:" ++ toString addr.port.toNat

example : SocketAddr.display ⟨.v4 ⟨#v[192, 168, 1, 100]⟩, 12345⟩ = "192.168.1.100:12345" := by
  decide +kernel

example : SocketAddr.display ⟨.v6 ⟨#v[0x2001, 0xdb8, 0, 0, 1, 0, 0, 1]⟩, 443⟩ =
    "[2001:db8::1:0:0:1]:443" := by
  decide +kernel

/-! ## Protocols and their states -/

/-- `Protocol`: what the connections of the tables are connections of. -/
inductive Protocol
  | tcp | udp | icmp | igmp | arp
deriving DecidableEq, Repr

/-- `Display for Protocol`, by which a key names the protocol of its connection. -/
def Protocol.display : Protocol → String
  | .tcp => "TCP"
  | .udp => "UDP"
  | .icmp => "ICMP"
  | .igmp => "IGMP"
  | .arp => "ARP"

/-- `TcpState`: the states of a connection, as the flags of its segments show them. -/
inductive TcpState
  | synSent | synReceived | established | finWait1 | finWait2 | closeWait | lastAck | timeWait
  | closing | closed | unknown
deriving DecidableEq, Repr

/-- `ArpOperation`: a question for the holder of an address, or the answer to one. -/
inductive ArpOperation
  | request | reply
deriving DecidableEq

/-- `ArpInfo`: the two hosts of a message of ARP by both of their addresses, with the makers of
their hardware if they are known. -/
structure ArpInfo where
  operation : ArpOperation
  senderMac : String
  senderIp : IpAddr
  targetMac : String
  targetIp : IpAddr
  senderVendor : Option String
  targetVendor : Option String
deriving DecidableEq

/-- `ProtocolState`: what is known of a connection beyond its ends, which differs with its
protocol. -/
inductive ProtocolState
  | tcp (state : TcpState)
  | udp
  | icmp (icmpType : UInt8) (icmpId : Option UInt16)
  | igmp (igmpType : UInt8) (groupAddr : Option Ipv4Addr)
  | arp (info : ArpInfo)
deriving DecidableEq

/-- The protocol a state belongs to. -/
def ProtocolState.protocol : ProtocolState → Protocol
  | .tcp _ => .tcp
  | .udp => .udp
  | .icmp .. => .icmp
  | .igmp .. => .igmp
  | .arp _ => .arp

/-! ## Connection keys -/

/-- The key the parser files a flow under: `"TCP:{local}-TCP:{remote}"` for TCP, and the same with
the other protocols' names. -/
def connectionKey (protocol : Protocol) (localAddr remoteAddr : SocketAddr) : String :=
  protocol.display ++ ":" ++ localAddr.display ++ "-" ++
    protocol.display ++ ":" ++ remoteAddr.display

/-- A connection key names its protocol. -/
theorem connectionKey_protocol {p p' : Protocol} {l l' r r' : SocketAddr}
    (h : connectionKey p l r = connectionKey p' l' r') : p = p' := by
  have hchars := congrArg String.toList h
  simp only [connectionKey, String.toList_append] at hchars
  cases p <;> cases p' <;> first | rfl | simp [Protocol.display] at hchars

end RustNet

import RustNet.Network.Types.Basic

/-!
# Application-layer information

What deep packet inspection records about a connection: one information record per recognised
protocol, and the sum `ApplicationProtocol` of them. The QUIC record carries the
`CryptoFrameReassembler` that collects CRYPTO fragments across packets; its fragment map is a
`BTreeMap`, kept here as a list sorted by offset.

The time stamps `last_update` and `last_update_time` are written and never read, and are left out.
-/

namespace RustNet

/-! ## TLS and HTTP -/

/-- `TlsVersion`: the four versions that the parsers tell apart, oldest first. -/
inductive TlsVersion
  | tls10 | tls11 | tls12 | tls13
deriving DecidableEq

/-- `TlsInfo`: what a handshake says of itself in the clear: the version, the server's name, the
protocols that are offered and the cipher suite. -/
structure TlsInfo where
  version : Option TlsVersion
  sni : Option String
  alpn : List String
  cipherSuite : Option UInt16
deriving DecidableEq

/-- `HttpVersion`: the versions of the protocol that are told apart. -/
inductive HttpVersion
  | http10 | http11 | http2

/-- `HttpInfo`: what is shown of a request or a response, from its first line and two of its
headers. -/
structure HttpInfo where
  version : HttpVersion
  method : Option String
  host : Option String
  path : Option String
  statusCode : Option UInt16
  userAgent : Option String

/-- `HttpsInfo`: the TLS information of a connection, if a record of it has been seen. -/
structure HttpsInfo where
  tlsInfo : Option TlsInfo

/-! ## Name services -/

/-- `DnsQueryType`: the types of records that have a name in the source, and any other by its
number. -/
inductive DnsQueryType
  | A | NS | CNAME | SOA | PTR | HINFO | MX | TXT | RP | AFSDB | SIG | KEY | AAAA | LOC | SRV
  | NAPTR | KX | CERT | DNAME | APL | DS | SSHFP | IPSECKEY | RRSIG | NSEC | DNSKEY | DHCID
  | NSEC3 | NSEC3PARAM | TLSA | SMIMEA | HIP | CDS | CDNSKEY | OPENPGPKEY | CSYNC | ZONEMD | SVCB
  | HTTPS | EUI48 | EUI64 | TKEY | TSIG | URI | CAA | TA | DLV
  | other (code : UInt16)

/-- `DnsInfo`: the question of a message, and the addresses of its answers if it is a response. -/
structure DnsInfo where
  queryName : Option String
  queryType : Option DnsQueryType
  responseIps : List IpAddr
  isResponse : Bool

/-- `MdnsInfo`: the question of a message of multicast DNS, and the addresses of its answers if it
is a response. -/
structure MdnsInfo where
  queryName : Option String
  queryType : Option DnsQueryType
  isResponse : Bool
  responseIps : List IpAddr

/-- `LlmnrInfo`: the question of a message of link-local name resolution, and the addresses of its
answers if it is a response. -/
structure LlmnrInfo where
  queryName : Option String
  queryType : Option DnsQueryType
  isResponse : Bool
  responseIps : List IpAddr

/-- `NetBiosService`: the two services that have a port of their own over UDP. -/
inductive NetBiosService
  | nameService | datagramService

/-- `NetBiosOpcode`: the operations of the name service, and any other by its number. -/
inductive NetBiosOpcode
  | query | registration | release | wack | refresh | response
  | unknown (code : UInt8)

/-- `NetBiosInfo`: the service, the operation and the name that a message is about. -/
structure NetBiosInfo where
  service : NetBiosService
  opcode : NetBiosOpcode
  name : Option String

/-! ## Sessions -/

/-- `SshVersion`: the version of the protocol that an identification names. -/
inductive SshVersion
  | v1 | v2

/-- `SshConnectionState`: how far the handshake has come, as far as its packets are readable. -/
inductive SshConnectionState
  | banner | keyExchange | authentication | established

/-- `SshInfo`: what the two sides say of themselves, how far the handshake has come and which
algorithms are named in it. -/
structure SshInfo where
  version : Option SshVersion
  clientSoftware : Option String
  serverSoftware : Option String
  connectionState : SshConnectionState
  algorithms : List String
  authMethod : Option String

/-- `FtpMessageType`: a line of the client or one of the server. -/
inductive FtpMessageType
  | request | response

/-- `FtpInfo`: the latest line of the dialog in its parts, and what earlier lines have told about
the user and the server. -/
structure FtpInfo where
  messageType : FtpMessageType
  command : Option String
  args : Option String
  responseCode : Option UInt16
  responseMessage : Option String
  username : Option String
  serverSoftware : Option String
  systemType : Option String

/-- `MqttPacketType`: the types of packets that the parser knows, by their names in the standard. -/
inductive MqttPacketType
  | connect | connack | publish | puback | subscribe | suback | unsubscribe | unsuback | pingreq
  | pingresp | disconnect

/-- `MqttVersion`: the versions by the level that a CONNECT packet gives. -/
inductive MqttVersion
  | v31 | v311 | v50

/-- `MqttInfo`: the version and the client of a CONNECT packet, the topic of a published message and
the type of the latest packet. -/
structure MqttInfo where
  version : Option MqttVersion
  packetType : MqttPacketType
  clientId : Option String
  topic : Option String
  qos : Option UInt8

/-- `BitTorrentType`: the handshake of two peers, a message of the distributed table, or a packet of
the transport over UDP. -/
inductive BitTorrentType
  | peer | dht | utp

/-- `BitTorrentInfo`: the torrent and the client of a handshake with the extensions it supports, or
the method of a message of the distributed table. -/
structure BitTorrentInfo where
  protocolType : BitTorrentType
  infoHash : Option String
  client : Option String
  dhtMethod : Option String
  supportsDht : Bool
  supportsExtension : Bool
  supportsFast : Bool

/-! ## Infrastructure protocols -/

/-- `NtpMode`: the eight modes that the three bits of the first byte can have. -/
inductive NtpMode
  | reserved | symmetricActive | symmetricPassive | client | server | broadcast | control
  | «private»

/-- `NtpInfo`: the version and the mode from the first byte, and the stratum from the second. -/
structure NtpInfo where
  version : UInt8
  mode : NtpMode
  stratum : UInt8

/-- `DhcpMessageType`: the types of messages that are known, and any other by its number. -/
inductive DhcpMessageType
  | discover | offer | request | decline | ack | nak | release | inform
  | unknown (code : UInt8)

/-- `DhcpInfo`: the type of the message, and the name and the hardware address of the client. -/
structure DhcpInfo where
  messageType : DhcpMessageType
  hostname : Option String
  clientMac : Option String

/-- `SnmpVersion`: the versions by the number that a message gives. -/
inductive SnmpVersion
  | v1 | v2c | v3

/-- `SnmpPduType`: what a message asks for or reports, by its tag. -/
inductive SnmpPduType
  | getRequest | getNextRequest | getResponse | setRequest | trap | getBulkRequest
  | informRequest | trapV2 | report

/-- `SnmpInfo`: the version of a message, its community if it has one, and its type. -/
structure SnmpInfo where
  version : SnmpVersion
  community : Option String
  pduType : SnmpPduType

/-- `SsdpMethod`: a search, a notification or an answer to a search. -/
inductive SsdpMethod
  | mSearch | notify | response

/-- `SsdpInfo`: the method of a message and the type of the service it is about. -/
structure SsdpInfo where
  method : SsdpMethod
  serviceType : Option String

/-- `StunMessageClass`: what a message is within its transaction, by two bits of its type. -/
inductive StunMessageClass
  | request | indication | successResponse | errorResponse

/-- `StunMethod`: the one method that has a name, and any other by its number. -/
inductive StunMethod
  | binding
  | unknown (code : UInt16)

/-- `StunInfo`: the class, the method and the transaction of a message, and the program that sent it
if it says so. -/
structure StunInfo where
  messageClass : StunMessageClass
  method : StunMethod
  transactionId : Vector UInt8 12
  software : Option String

/-! ## QUIC -/

/-- `CryptoFrameReassembler`. Stream offsets come from variable-length integers below `2 ^ 62`, so
adding a length to one does not wrap. -/
structure CryptoFrameReassembler where
  /-- Fragments by offset, sorted by offset. -/
  fragments : List (ℕ × List UInt8)
  contiguousOffset : ℕ
  hasCompleteTlsInfo : Bool
  cachedTlsInfo : Option TlsInfo
  maxBufferSize : ℕ
  currentBufferSize : ℕ

namespace CryptoFrameReassembler

/-- `CryptoFrameReassembler::new`: no fragment is held, nothing is cached, and the buffer may grow
to 64 KiB. -/
def new : CryptoFrameReassembler where
  fragments := []
  contiguousOffset := 0
  hasCompleteTlsInfo := false
  cachedTlsInfo := none
  maxBufferSize := 64 * 1024
  currentBufferSize := 0

/-- `BTreeMap::insert` on the sorted list: an equal key is replaced. -/
def insertFragment (offset : ℕ) (data : List UInt8) :
    List (ℕ × List UInt8) → List (ℕ × List UInt8)
  | [] => [(offset, data)]
  | (offset', data') :: rest =>
    if offset < offset' then (offset, data) :: (offset', data') :: rest
    else if offset = offset' then (offset, data) :: rest
    else (offset', data') :: insertFragment offset data rest

/-- The loop of `update_contiguous_offset`: it stops at the first fragment past `current`. -/
def advance (current : ℕ) : List (ℕ × List UInt8) → ℕ
  | [] => current
  | (offset, data) :: rest =>
    if offset ≤ current then
      advance (if current < offset + data.length then offset + data.length else current) rest
    else current

/-- `add_fragment`. A fragment that overlaps stored data is accepted and not stored. -/
def addFragment (r : CryptoFrameReassembler) (offset : ℕ) (data : List UInt8) :
    CryptoFrameReassembler × Except String Unit :=
  if r.maxBufferSize < r.currentBufferSize + data.length then
    (r, .error "Fragment would exceed maximum buffer size")
  else
    let dataEnd := offset + data.length
    -- the same range twice, or two ranges that share a byte
    let overlaps := r.fragments.any fun (fragOffset, fragData) =>
      let fragEnd := fragOffset + fragData.length
      (offset == fragOffset && dataEnd == fragEnd) ||
        (decide (offset < fragEnd) && decide (fragOffset < dataEnd))
    if overlaps then (r, .ok ())
    else
      let fragments := insertFragment offset data r.fragments
      ({ r with
          currentBufferSize := r.currentBufferSize + data.length
          fragments := fragments
          contiguousOffset := advance r.contiguousOffset fragments }, .ok ())

/-- `get_cached_tls_info`: the cached result, once an extraction has been marked as complete. -/
def getCachedTlsInfo (r : CryptoFrameReassembler) : Option TlsInfo :=
  if r.hasCompleteTlsInfo then r.cachedTlsInfo else none

end CryptoFrameReassembler

/-- `QuicPacketType`: the four long headers, the negotiation of versions, the short header, and what
is none of them. -/
inductive QuicPacketType
  | initial | zeroRtt | handshake | retry | versionNegotiation | oneRtt | unknown

/-- `QuicConnectionState`: how far a connection has come, by the packets that were seen of it. -/
inductive QuicConnectionState
  | initial | handshaking | connected | draining | closed | unknown
deriving DecidableEq

/-- `QuicCloseInfo`: the type of the frame that closed the connection and its code. -/
structure QuicCloseInfo where
  frameType : UInt8
  errorCode : UInt64

/-- `QuicInfo`: what is known of a connection of QUIC. Its reassembler holds the fragments of the
handshake between the packets. -/
structure QuicInfo where
  versionString : Option String
  packetType : QuicPacketType
  connectionId : List UInt8
  connectionIdHex : Option String
  connectionState : QuicConnectionState
  tlsInfo : Option TlsInfo
  hasCryptoFrame : Bool
  cryptoReassembler : Option CryptoFrameReassembler
  connectionClose : Option QuicCloseInfo
  /-- In nanoseconds. -/
  idleTimeout : Option ℕ

/-! ## The sum of the protocols -/

/-- `ApplicationProtocol`: what the inspection can recognise, each protocol with what its parser has
read. -/
inductive ApplicationProtocol
  | http (info : HttpInfo)
  | https (info : HttpsInfo)
  | dns (info : DnsInfo)
  | ssh (info : SshInfo)
  | quic (info : QuicInfo)
  | ntp (info : NtpInfo)
  | mdns (info : MdnsInfo)
  | llmnr (info : LlmnrInfo)
  | dhcp (info : DhcpInfo)
  | snmp (info : SnmpInfo)
  | ssdp (info : SsdpInfo)
  | netBios (info : NetBiosInfo)
  | bitTorrent (info : BitTorrentInfo)
  | stun (info : StunInfo)
  | mqtt (info : MqttInfo)
  | ftp (info : FtpInfo)

/-- `DpiResult`: what the inspection makes of one payload. -/
structure DpiResult where
  application : ApplicationProtocol

/-- `DpiInfo`: what the inspection has made of a connection so far. -/
structure DpiInfo where
  application : ApplicationProtocol

end RustNet

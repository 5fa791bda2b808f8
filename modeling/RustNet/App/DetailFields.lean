import Mathlib.Data.List.ReduceOption
import RustNet.App.Sorting

/-!
# The fields of the details

What the details tab shows of a connection: the labels with the texts of their values, section by
section. Most values of an application protocol are shown only if they were seen.

Amounts of bytes, rates and the round trip time are printed as floating-point numbers. How is a
parameter.

## Main definitions

* `classify`: the scope of an address;
* `formatCipherSuite`;
* `ApplicationProtocol.detailFields`, and the fields of the other sections.

## Main results

* `ApplicationProtocol.labelFits`, and the same for the other sections: no label is longer than the
  column of the labels was sized for.
-/

namespace RustNet

/-! ## The scope of an address -/

/-- `Scope`: the special ranges that an address can be in, and the public rest. -/
inductive Scope
  | «public» | loopback | «private» | linkLocal | cgnat | multicast | broadcast | documentation
  | benchmarking | unspecified | reserved | uniqueLocal | discard | ipv4Mapped
deriving DecidableEq

/-- `Scope::label`: the word that is shown behind an address. -/
def Scope.label : Scope → String
  | .public => "PUBLIC"
  | .loopback => "LOOPBACK"
  | .private => "PRIVATE"
  | .linkLocal => "LINK-LOCAL"
  | .cgnat => "CGNAT"
  | .multicast => "MULTICAST"
  | .broadcast => "BROADCAST"
  | .documentation => "DOCUMENTATION"
  | .benchmarking => "BENCHMARKING"
  | .unspecified => "UNSPECIFIED"
  | .reserved => "RESERVED"
  | .uniqueLocal => "UNIQUE-LOCAL"
  | .discard => "DISCARD"
  | .ipv4Mapped => "IPV4-MAPPED"

/-- `classify_v4`: the ranges are tried in this order, and the first that has the address is
taken. -/
def classifyV4 (ip : Ipv4Addr) : Scope :=
  let a := ip.octets[0]
  let b := ip.octets[1]
  let c := ip.octets[2]
  -- the narrower networks before the wider ones that hold them
  if ip.octets = #v[0, 0, 0, 0] then .unspecified
  else if a = 127 then .loopback
  else if a = 10 ∨ (a = 172 ∧ 16 ≤ b ∧ b ≤ 31) ∨ (a = 192 ∧ b = 168) then .private
  else if a = 169 ∧ b = 254 then .linkLocal
  else if a = 100 ∧ 64 ≤ b ∧ b ≤ 127 then .cgnat
  else if (a = 192 ∧ b = 0 ∧ c = 2) ∨ (a = 198 ∧ b = 51 ∧ c = 100) ∨
      (a = 203 ∧ b = 0 ∧ c = 113) then .documentation
  else if a = 198 ∧ (b = 18 ∨ b = 19) then .benchmarking
  else if ip.octets = #v[255, 255, 255, 255] then .broadcast
  else if 224 ≤ a ∧ a ≤ 239 then .multicast
  else if 240 ≤ a then .reserved
  else .public

/-- `classify_v6`: by the segments of the address, in this order. -/
def classifyV6 (ip : Ipv6Addr) : Scope :=
  let segs := ip.segments
  if segs = #v[0, 0, 0, 0, 0, 0, 0, 0] then .unspecified
  else if segs = #v[0, 0, 0, 0, 0, 0, 0, 1] then .loopback
  else if segs.toList.take 5 = [0, 0, 0, 0, 0] ∧ segs[5] = 0xffff then .ipv4Mapped
  else if segs[0] = 0x0100 ∧ segs[1] = 0 ∧ segs[2] = 0 ∧ segs[3] = 0 then .discard
  else if segs[0] = 0x2001 ∧ segs[1] = 0x0db8 then .documentation
  else if segs[0] >>> 8 = 0xff then .multicast
  else if segs[0] &&& 0xffc0 = 0xfe80 then .linkLocal
  else if segs[0] &&& 0xfe00 = 0xfc00 then .uniqueLocal
  else .public

/-- `classify`: the scope of an address of either family. -/
def classify : IpAddr → Scope
  | .v4 ip => classifyV4 ip
  | .v6 ip => classifyV6 ip

/-! ## Cipher suites -/

/-- `CIPHER_SUITE_MAP`: the names of the cipher suites by their codes, in the order of the
source. -/
def cipherSuiteMap : List (UInt16 × String) := [
  -- TLS 1.3
  (0x1301, "TLS_AES_128_GCM_SHA256"),
  (0x1302, "TLS_AES_256_GCM_SHA384"),
  (0x1303, "TLS_CHACHA20_POLY1305_SHA256"),
  (0x1304, "TLS_AES_128_CCM_SHA256"),
  (0x1305, "TLS_AES_128_CCM_8_SHA256"),
  -- ECDHE
  (0xc02b, "TLS_ECDHE_ECDSA_WITH_AES_128_GCM_SHA256"),
  (0xc02c, "TLS_ECDHE_ECDSA_WITH_AES_256_GCM_SHA384"),
  (0xc02f, "TLS_ECDHE_RSA_WITH_AES_128_GCM_SHA256"),
  (0xc030, "TLS_ECDHE_RSA_WITH_AES_256_GCM_SHA384"),
  (0xc009, "TLS_ECDHE_ECDSA_WITH_AES_128_CBC_SHA"),
  (0xc00a, "TLS_ECDHE_ECDSA_WITH_AES_256_CBC_SHA"),
  (0xc013, "TLS_ECDHE_RSA_WITH_AES_128_CBC_SHA"),
  (0xc014, "TLS_ECDHE_RSA_WITH_AES_256_CBC_SHA"),
  (0xc023, "TLS_ECDHE_ECDSA_WITH_AES_128_CBC_SHA256"),
  (0xc024, "TLS_ECDHE_ECDSA_WITH_AES_256_CBC_SHA384"),
  (0xc027, "TLS_ECDHE_RSA_WITH_AES_128_CBC_SHA256"),
  (0xc028, "TLS_ECDHE_RSA_WITH_AES_256_CBC_SHA384"),
  -- ChaCha20-Poly1305
  (0xcca9, "TLS_ECDHE_ECDSA_WITH_CHACHA20_POLY1305_SHA256"),
  (0xcca8, "TLS_ECDHE_RSA_WITH_CHACHA20_POLY1305_SHA256"),
  (0xccaa, "TLS_DHE_RSA_WITH_CHACHA20_POLY1305_SHA256"),
  -- DHE
  (0x009e, "TLS_DHE_RSA_WITH_AES_128_GCM_SHA256"),
  (0x009f, "TLS_DHE_RSA_WITH_AES_256_GCM_SHA384"),
  (0x0033, "TLS_DHE_RSA_WITH_AES_128_CBC_SHA"),
  (0x0039, "TLS_DHE_RSA_WITH_AES_256_CBC_SHA"),
  (0x0067, "TLS_DHE_RSA_WITH_AES_128_CBC_SHA256"),
  (0x006b, "TLS_DHE_RSA_WITH_AES_256_CBC_SHA256"),
  -- RSA
  (0x009c, "TLS_RSA_WITH_AES_128_GCM_SHA256"),
  (0x009d, "TLS_RSA_WITH_AES_256_GCM_SHA384"),
  (0x002f, "TLS_RSA_WITH_AES_128_CBC_SHA"),
  (0x0035, "TLS_RSA_WITH_AES_256_CBC_SHA"),
  (0x003c, "TLS_RSA_WITH_AES_128_CBC_SHA256"),
  (0x003d, "TLS_RSA_WITH_AES_256_CBC_SHA256"),
  -- 3DES
  (0x000a, "TLS_RSA_WITH_3DES_EDE_CBC_SHA"),
  (0x0016, "TLS_DHE_RSA_WITH_3DES_EDE_CBC_SHA"),
  (0xc008, "TLS_ECDHE_ECDSA_WITH_3DES_EDE_CBC_SHA"),
  (0xc012, "TLS_ECDHE_RSA_WITH_3DES_EDE_CBC_SHA"),
  -- RC4
  (0x0004, "TLS_RSA_WITH_RC4_128_MD5"),
  (0x0005, "TLS_RSA_WITH_RC4_128_SHA"),
  (0xc007, "TLS_ECDHE_ECDSA_WITH_RC4_128_SHA"),
  (0xc011, "TLS_ECDHE_RSA_WITH_RC4_128_SHA"),
  -- PSK
  (0x008c, "TLS_PSK_WITH_AES_128_CBC_SHA"),
  (0x008d, "TLS_PSK_WITH_AES_256_CBC_SHA"),
  (0x00a8, "TLS_PSK_WITH_AES_128_GCM_SHA256"),
  (0x00a9, "TLS_PSK_WITH_AES_256_GCM_SHA384"),
  (0xc035, "TLS_ECDHE_PSK_WITH_AES_128_CBC_SHA"),
  (0xc036, "TLS_ECDHE_PSK_WITH_AES_256_CBC_SHA"),
  (0xc037, "TLS_ECDHE_PSK_WITH_AES_128_CBC_SHA256"),
  (0xc038, "TLS_ECDHE_PSK_WITH_AES_256_CBC_SHA384"),
  -- ARIA
  (0xc03c, "TLS_ECDHE_ECDSA_WITH_ARIA_128_GCM_SHA256"),
  (0xc03d, "TLS_ECDHE_ECDSA_WITH_ARIA_256_GCM_SHA384"),
  (0xc060, "TLS_ECDHE_RSA_WITH_ARIA_128_GCM_SHA256"),
  (0xc061, "TLS_ECDHE_RSA_WITH_ARIA_256_GCM_SHA384"),
  -- Camellia
  (0xc072, "TLS_ECDHE_ECDSA_WITH_CAMELLIA_128_GCM_SHA256"),
  (0xc073, "TLS_ECDHE_ECDSA_WITH_CAMELLIA_256_GCM_SHA384"),
  (0xc076, "TLS_ECDHE_RSA_WITH_CAMELLIA_128_GCM_SHA256"),
  (0xc077, "TLS_ECDHE_RSA_WITH_CAMELLIA_256_GCM_SHA384"),
  -- no encryption
  (0x0001, "TLS_RSA_WITH_NULL_MD5"),
  (0x0002, "TLS_RSA_WITH_NULL_SHA"),
  (0x003b, "TLS_RSA_WITH_NULL_SHA256")]

/-- `get_cipher_suite_name`: the name of a code, if the table has it. -/
def getCipherSuiteName (code : UInt16) : Option String := cipherSuiteMap.lookup code

/-- `format_cipher_suite`: the name with the code in hexadecimal, or the code alone. -/
def formatCipherSuite (code : UInt16) : String :=
  let hex := "0x" ++ String.ofList (Text.hexPad 4 code.toNat)
  match getCipherSuiteName code with
  | some name => name ++ " (" ++ hex ++ ")"
  | none => hex

example : formatCipherSuite 0x1301 = "TLS_AES_128_GCM_SHA256 (0x1301)" := by decide +kernel

/-! ## Texts -/

/-- `Display for TlsVersion`, as the details show it. -/
def TlsVersion.display : TlsVersion → String
  | .tls10 => "TLS 1.0"
  | .tls11 => "TLS 1.1"
  | .tls12 => "TLS 1.2"
  | .tls13 => "TLS 1.3"

/-- `Display for DnsQueryType`: the mnemonic, or the number of a type without one. -/
def DnsQueryType.display : DnsQueryType → String
  | .A => "A"
  | .NS => "NS"
  | .CNAME => "CNAME"
  | .SOA => "SOA"
  | .PTR => "PTR"
  | .HINFO => "HINFO"
  | .MX => "MX"
  | .TXT => "TXT"
  | .RP => "RP"
  | .AFSDB => "AFSDB"
  | .SIG => "SIG"
  | .KEY => "KEY"
  | .AAAA => "AAAA"
  | .LOC => "LOC"
  | .SRV => "SRV"
  | .NAPTR => "NAPTR"
  | .KX => "KX"
  | .CERT => "CERT"
  | .DNAME => "DNAME"
  | .APL => "APL"
  | .DS => "DS"
  | .SSHFP => "SSHFP"
  | .IPSECKEY => "IPSECKEY"
  | .RRSIG => "RRSIG"
  | .NSEC => "NSEC"
  | .DNSKEY => "DNSKEY"
  | .DHCID => "DHCID"
  | .NSEC3 => "NSEC3"
  | .NSEC3PARAM => "NSEC3PARAM"
  | .TLSA => "TLSA"
  | .SMIMEA => "SMIMEA"
  | .HIP => "HIP"
  | .CDS => "CDS"
  | .CDNSKEY => "CDNSKEY"
  | .OPENPGPKEY => "OPENPGPKEY"
  | .CSYNC => "CSYNC"
  | .ZONEMD => "ZONEMD"
  | .SVCB => "SVCB"
  | .HTTPS => "HTTPS"
  | .EUI48 => "EUI48"
  | .EUI64 => "EUI64"
  | .TKEY => "TKEY"
  | .TSIG => "TSIG"
  | .URI => "URI"
  | .CAA => "CAA"
  | .TA => "TA"
  | .DLV => "DLV"
  | .other code => "TYPE" ++ toString code.toNat

/-- `Display for NetBiosOpcode`: a word for each operation, or the number of an unknown one. -/
def NetBiosOpcode.display : NetBiosOpcode → String
  | .query => "Query"
  | .registration => "Register"
  | .release => "Release"
  | .wack => "WACK"
  | .refresh => "Refresh"
  | .response => "Response"
  | .unknown code => "Unknown(" ++ toString code.toNat ++ ")"

/-- `Debug for SshVersion`: the details print the name of the variant. -/
def SshVersion.debug : SshVersion → String
  | .v1 => "V1"
  | .v2 => "V2"

/-- `Display for BitTorrentType`: which of its three protocols was seen. -/
def BitTorrentType.display : BitTorrentType → String
  | .peer => "Peer"
  | .dht => "DHT"
  | .utp => "uTP"

/-- `Display for MqttVersion`: the number of the version alone. -/
def MqttVersion.display : MqttVersion → String
  | .v31 => "3.1"
  | .v311 => "3.1.1"
  | .v50 => "5.0"

/-- `Display for FtpMessageType`: a command or a reply. -/
def FtpMessageType.display : FtpMessageType → String
  | .request => "Request"
  | .response => "Response"

/-- `Display for QuicPacketType`, with the names of RFC 9000. -/
def QuicPacketType.display : QuicPacketType → String
  | .initial => "Initial"
  | .zeroRtt => "0-RTT"
  | .handshake => "Handshake"
  | .retry => "Retry"
  | .versionNegotiation => "Version Negotiation"
  | .oneRtt => "1-RTT"
  | .unknown => "Unknown"

/-- `Display for QuicConnectionState`, as the details show it. -/
def QuicConnectionState.display : QuicConnectionState → String
  | .initial => "Initial"
  | .handshaking => "Handshaking"
  | .connected => "Connected"
  | .draining => "Draining"
  | .closed => "Closed"
  | .unknown => "Unknown"

/-- Addresses, as `Debug` prints a vector of them. -/
def debugAddresses (ips : List IpAddr) : String :=
  "[" ++ ", ".intercalate (ips.map IpAddr.display) ++ "]"

/-- `NONE_PLACEHOLDER`: what is shown for a value that is not there, and not copied by a click. -/
def nonePlaceholder : String := "-"

/-- A text, or the placeholder. -/
def orPlaceholder (text : Option String) : String := text.getD nonePlaceholder

/-! ## Fields -/

/-- A label and its value. -/
structure DetailField where
  label : String
  value : String
deriving DecidableEq

/-- A field that is always shown. -/
def detailField (label value : String) : Option DetailField := some ⟨label, value⟩

/-- A field that is shown if there is a value. -/
def optionalField (label : String) (value : Option String) : Option DetailField :=
  value.map fun value => ⟨label, value⟩

/-- A field that is shown unless the list is empty. -/
def listField {α : Type} (label : String) (display : List α → String) (values : List α) :
    Option DetailField :=
  if values.isEmpty then none else some ⟨label, display values⟩

/-- The fields of the application section. -/
def ApplicationProtocol.detailEntries : ApplicationProtocol → List (Option DetailField)
  | .http info => [
    optionalField "HTTP Method" info.method,
    optionalField "HTTP Path" info.path,
    optionalField "HTTP Status" (info.statusCode.map fun status => toString status.toNat)]
  | .https info => [
    optionalField "SNI" (info.tlsInfo.bind TlsInfo.sni),
    listField "ALPN" ", ".intercalate ((info.tlsInfo.map TlsInfo.alpn).getD []),
    optionalField "TLS Version" ((info.tlsInfo.bind TlsInfo.version).map TlsVersion.display),
    optionalField "Cipher Suite" ((info.tlsInfo.bind TlsInfo.cipherSuite).map formatCipherSuite)]
  | .dns info => [
    optionalField "DNS Type" (info.queryType.map DnsQueryType.display),
    listField "DNS Response IPs" debugAddresses info.responseIps]
  | .quic info => [
    optionalField "QUIC SNI" (info.tlsInfo.map fun tlsInfo => orPlaceholder tlsInfo.sni),
    optionalField "QUIC ALPN" (info.tlsInfo.map fun tlsInfo => ", ".intercalate tlsInfo.alpn),
    optionalField "QUIC Version" info.versionString,
    optionalField "Connection ID" info.connectionIdHex,
    detailField "Packet Type" info.packetType.display,
    detailField "Connection State" info.connectionState.display]
  | .ssh info => [
    optionalField "SSH Version" (info.version.map SshVersion.debug),
    optionalField "Server Software" info.serverSoftware,
    optionalField "Client Software" info.clientSoftware,
    detailField "Connection State" info.connectionState.debug,
    listField "Algorithms" ", ".intercalate info.algorithms,
    optionalField "Auth Method" info.authMethod]
  | .ntp info => [
    detailField "NTP Version" (toString info.version.toNat),
    detailField "NTP Mode" info.mode.display,
    detailField "Stratum" (toString info.stratum.toNat)]
  | .mdns info => [
    optionalField "Query Name" info.queryName,
    optionalField "Query Type" (info.queryType.map DnsQueryType.display),
    listField "Response IPs" debugAddresses info.responseIps]
  | .llmnr info => [
    optionalField "Query Name" info.queryName,
    optionalField "Query Type" (info.queryType.map DnsQueryType.display),
    listField "Response IPs" debugAddresses info.responseIps]
  | .dhcp info => [
    detailField "Message Type" info.messageType.display,
    optionalField "Hostname" info.hostname,
    optionalField "Client MAC" info.clientMac]
  | .snmp info => [
    detailField "SNMP Version" info.version.display,
    detailField "PDU Type" info.pduType.display,
    optionalField "Community" info.community]
  | .ssdp info => [
    detailField "Method" info.method.display,
    optionalField "Service Type" info.serviceType]
  | .netBios info => [
    detailField "Service" info.service.display,
    detailField "Opcode" info.opcode.display,
    optionalField "Name" info.name]
  -- the extensions are collected into one line
  | .bitTorrent info => [
    detailField "Type" info.protocolType.display,
    optionalField "Client" info.client,
    optionalField "Info Hash" info.infoHash,
    optionalField "DHT Method" info.dhtMethod,
    listField "Extensions" ", ".intercalate
      ((if info.supportsDht then ["DHT"] else []) ++
        (if info.supportsExtension then ["Extension Protocol"] else []) ++
          if info.supportsFast then ["Fast"] else [])]
  | .stun info => [
    detailField "Method" info.method.display,
    detailField "Class" info.messageClass.display,
    detailField "Transaction ID"
      (String.join (info.transactionId.toList.map fun b => lowerHexPad 2 b.toNat)),
    optionalField "Software" info.software]
  | .ftp info => [
    detailField "Message Type" info.messageType.display,
    optionalField "Command" info.command,
    optionalField "Arguments" info.args,
    optionalField "Response Code" (info.responseCode.map fun code => toString code.toNat),
    optionalField "Response" info.responseMessage,
    optionalField "Username" info.username,
    optionalField "Server Software" info.serverSoftware,
    optionalField "System Type" info.systemType]
  | .mqtt info => [
    detailField "Packet Type" info.packetType.display,
    optionalField "Version" (info.version.map MqttVersion.display),
    optionalField "Client ID" info.clientId,
    optionalField "Topic" info.topic,
    optionalField "QoS" (info.qos.map fun qos => toString qos.toNat)]

/-- The fields of the ARP section. -/
def ArpInfo.detailEntries (info : ArpInfo) : List (Option DetailField) := [
  detailField "Sender MAC" info.senderMac,
  optionalField "Sender Vendor" info.senderVendor,
  detailField "Sender IP" info.senderIp.display,
  detailField "Target MAC" info.targetMac,
  optionalField "Target Vendor" info.targetVendor,
  detailField "Target IP" info.targetIp.display]

/-- The fields of the geolocation section. -/
def GeoIpInfo.detailEntries (geoip : GeoIpInfo) : List (Option DetailField) := [
  optionalField "Country" (match geoip.countryName with
    | some countryName => some (withDetail countryName geoip.countryCode)
    | none => geoip.countryCode),
  optionalField "City" geoip.city,
  optionalField "ASN"
    (geoip.asn.map fun asn => withDetail ("AS" ++ toString asn.toNat) geoip.asOrg)]

/-- How the numbers with decimals are printed. -/
structure NumberFormats (ρ : Type) where
  formatBytes : UInt64 → String
  formatRate : ρ → String
  /-- The round trip time, in milliseconds with one decimal. -/
  formatRtt : ℕ → String

/-- How long ago, in seconds below a minute. -/
def agoText (ago : ℕ) : String :=
  if ago / 1000000000 < 60 then toString (ago / 1000000000) ++ "s ago"
  else toString (ago / 1000000000 / 60) ++ "m ago"

/-- When the connection was closed or active. -/
def Connection.statusDisplay (conn : Connection) (wall : SystemTime) : String :=
  if conn.isHistoric then
    match conn.closedAt with
    | some closedAt => "Closed (" ++ agoText ((wall.durationSince closedAt).getD 0) ++ ")"
    | none => "Closed"
  else "Active (last seen " ++ agoText (conn.idleTime wall) ++ ")"

namespace ListedConnection

variable {ρ : Type} (conn : ListedConnection ρ)

/-- The fields above the sections. -/
def detailEntries (wall : SystemTime) : List (Option DetailField) := [
  detailField "Protocol" conn.protocol.display,
  detailField "Status" (conn.statusDisplay wall),
  detailField "Local Address" conn.localAddr.display,
  detailField "Remote Address" conn.remoteAddr.display,
  detailField "Scope" (classify conn.remoteAddr.ip).label,
  detailField "State" (conn.state wall),
  detailField "Process" (orPlaceholder conn.processName),
  detailField "PID" (orPlaceholder (conn.pid.map fun pid => toString pid.toNat)),
  detailField "Service" (orPlaceholder conn.serviceName)]

/-- The fields of the section with the host names. -/
def hostnameEntries (resolver : IpAddr → Option String) : List (Option DetailField) := [
  detailField "Local Hostname" (orPlaceholder (resolver conn.localAddr.ip)),
  detailField "Remote Hostname" (orPlaceholder (resolver conn.remoteAddr.ip))]

/-- The fields of the section with the measurements. -/
def metricEntries (formats : NumberFormats ρ) : List (Option DetailField) := [
  optionalField "TCP Retransmits"
    (conn.tcpAnalytics.map fun analytics => toString analytics.retransmitCount.toNat),
  optionalField "Out-of-Order Packets"
    (conn.tcpAnalytics.map fun analytics => toString analytics.outOfOrderCount.toNat),
  optionalField "Duplicate ACKs"
    (conn.tcpAnalytics.map fun analytics => toString analytics.duplicateAckCount.toNat),
  optionalField "Fast Retransmits"
    (conn.tcpAnalytics.map fun analytics => toString analytics.fastRetransmitCount.toNat),
  optionalField "Window Size"
    (conn.tcpAnalytics.map fun analytics => toString analytics.lastWindowSize.toNat),
  optionalField "Initial RTT" (conn.initialRtt.map formats.formatRtt)]

/-- The fields of the traffic pane. -/
def trafficEntries (formats : NumberFormats ρ) : List (Option DetailField) := [
  detailField "Bytes Sent" (formats.formatBytes conn.bytesSent),
  detailField "Bytes Received" (formats.formatBytes conn.bytesReceived),
  detailField "Packets Sent" (toString conn.packetsSent.toNat),
  detailField "Packets Received" (toString conn.packetsReceived.toNat),
  detailField "Current Rate (In)" (formats.formatRate conn.currentIncomingRateBps),
  detailField "Current Rate (Out)" (formats.formatRate conn.currentOutgoingRateBps)]

end ListedConnection

/-! ## Labels -/

/-- The label of an entry is no longer than the longest that was expected. -/
def LabelFits (entry : Option DetailField) : Prop :=
  ∀ field ∈ entry, field.label.length ≤ 20

section

variable {label : String} (h : label.length ≤ 20)

include h

theorem labelFits_detailField (value : String) : LabelFits (detailField label value) := by
  intro field hfield
  rw [← Option.some.inj hfield]
  exact h

theorem labelFits_optionalField (value : Option String) :
    LabelFits (optionalField label value) := by
  intro field hfield
  obtain ⟨value, -, rfl⟩ := Option.map_eq_some_iff.mp hfield
  exact h

theorem labelFits_listField {α : Type} (display : List α → String) (values : List α) :
    LabelFits (listField label display values) := by
  intro field hfield
  unfold listField at hfield
  split_ifs at hfield
  · cases hfield
  · rw [← Option.some.inj hfield]
    exact h

end

theorem ApplicationProtocol.labelFits (application : ApplicationProtocol) :
    ∀ entry ∈ application.detailEntries, LabelFits entry := by
  cases application <;>
    simp (disch := decide) only [detailEntries, List.forall_mem_cons, labelFits_detailField,
      labelFits_optionalField, labelFits_listField, List.not_mem_nil, false_imp_iff, implies_true,
      and_self]

theorem ArpInfo.labelFits (info : ArpInfo) : ∀ entry ∈ info.detailEntries, LabelFits entry := by
  simp (disch := decide) [detailEntries, labelFits_detailField, labelFits_optionalField]

theorem GeoIpInfo.labelFits (geoip : GeoIpInfo) :
    ∀ entry ∈ geoip.detailEntries, LabelFits entry := by
  simp (disch := decide) [detailEntries, labelFits_optionalField]

namespace ListedConnection

variable {ρ : Type} (conn : ListedConnection ρ)

theorem labelFits (wall : SystemTime) : ∀ entry ∈ conn.detailEntries wall, LabelFits entry := by
  simp (disch := decide) [detailEntries, labelFits_detailField]

theorem labelFits_hostnameEntries (resolver : IpAddr → Option String) :
    ∀ entry ∈ conn.hostnameEntries resolver, LabelFits entry := by
  simp (disch := decide) [hostnameEntries, labelFits_detailField]

theorem labelFits_metricEntries (formats : NumberFormats ρ) :
    ∀ entry ∈ conn.metricEntries formats, LabelFits entry := by
  simp (disch := decide) [metricEntries, labelFits_optionalField]

theorem labelFits_trafficEntries (formats : NumberFormats ρ) :
    ∀ entry ∈ conn.trafficEntries formats, LabelFits entry := by
  simp (disch := decide) [trafficEntries, labelFits_detailField]

end ListedConnection

end RustNet

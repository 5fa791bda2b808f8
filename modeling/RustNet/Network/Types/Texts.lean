import RustNet.Foundations.Text
import RustNet.Network.Types.Connection

/-!
# The texts of a connection

How the records of an application protocol are displayed, and the text of a connection's state: the
`Display` instances of the source and `Connection::state`. For UDP without a record the state
depends on how long the connection is idle, so that it takes what the wall clock shows.

## Main definitions

* `ApplicationProtocol.display`;
* `Connection.state`.
-/

namespace RustNet

/-- The text of an address. -/
def IpAddr.display : IpAddr → String
  | .v4 addr => addr.display
  | .v6 addr => addr.display

/-- `Display for NtpMode`, as it is shown beside the protocol's name. -/
def NtpMode.display : NtpMode → String
  | .reserved => "Reserved"
  | .symmetricActive => "SymActive"
  | .symmetricPassive => "SymPassive"
  | .client => "Client"
  | .server => "Server"
  | .broadcast => "Broadcast"
  | .control => "Control"
  | .private => "Private"

/-- `Display for DhcpMessageType`, as it is shown beside the protocol's name. -/
def DhcpMessageType.display : DhcpMessageType → String
  | .discover => "DISCOVER"
  | .offer => "OFFER"
  | .request => "REQUEST"
  | .decline => "DECLINE"
  | .ack => "ACK"
  | .nak => "NAK"
  | .release => "RELEASE"
  | .inform => "INFORM"
  | .unknown code => "UNKNOWN(" ++ toString code.toNat ++ ")"

/-- `Display for SnmpVersion`, as it is shown beside the protocol's name. -/
def SnmpVersion.display : SnmpVersion → String
  | .v1 => "v1"
  | .v2c => "v2c"
  | .v3 => "v3"

/-- `Display for SnmpPduType`, as it is shown beside the protocol's name. -/
def SnmpPduType.display : SnmpPduType → String
  | .getRequest => "GET"
  | .getNextRequest => "GETNEXT"
  | .getResponse => "RESPONSE"
  | .setRequest => "SET"
  | .trap => "TRAP"
  | .getBulkRequest => "GETBULK"
  | .informRequest => "INFORM"
  | .trapV2 => "TRAPv2"
  | .report => "REPORT"

/-- `Display for SsdpMethod`, as it is shown beside the protocol's name. -/
def SsdpMethod.display : SsdpMethod → String
  | .mSearch => "M-SEARCH"
  | .notify => "NOTIFY"
  | .response => "RESPONSE"

/-- `Display for NetBiosService`, as it is shown beside the protocol's name. -/
def NetBiosService.display : NetBiosService → String
  | .nameService => "NS"
  | .datagramService => "DGM"

/-- `Display for StunMessageClass`, as it is shown beside the protocol's name. -/
def StunMessageClass.display : StunMessageClass → String
  | .request => "Request"
  | .indication => "Indication"
  | .successResponse => "Success"
  | .errorResponse => "Error"

/-- The last `width` digits of `%x`. -/
def lowerHexPad (width n : ℕ) : String :=
  String.ofList ((Text.hexPad width n).map Char.toLower)

/-- `Display for StunMethod`: the name of the method, or its number in base sixteen. -/
def StunMethod.display : StunMethod → String
  | .binding => "Binding"
  | .unknown code => "Unknown(0x" ++ lowerHexPad 4 code.toNat ++ ")"

/-- `Display for MqttPacketType`, as it is shown beside the protocol's name. -/
def MqttPacketType.display : MqttPacketType → String
  | .connect => "CONNECT"
  | .connack => "CONNACK"
  | .publish => "PUBLISH"
  | .puback => "PUBACK"
  | .subscribe => "SUBSCRIBE"
  | .suback => "SUBACK"
  | .unsubscribe => "UNSUBSCRIBE"
  | .unsuback => "UNSUBACK"
  | .pingreq => "PINGREQ"
  | .pingresp => "PINGRESP"
  | .disconnect => "DISCONNECT"

/-- `Debug for SshConnectionState`: the name of the variant, which the filter searches and the
details print. -/
def SshConnectionState.debug : SshConnectionState → String
  | .banner => "Banner"
  | .keyExchange => "KeyExchange"
  | .authentication => "Authentication"
  | .established => "Established"

/-- A text with a detail in parentheses, where there is one. -/
def withDetail (text : String) (detail : Option String) : String :=
  match detail with
  | some detail => text ++ " (" ++ detail ++ ")"
  | none => text

/-- `Display` of FTP information: the command with its arguments, or the code of a response with the
server's software. -/
def FtpInfo.display (info : FtpInfo) : String :=
  match info.messageType with
  | .request =>
    match info.command, info.args with
    | some command, some args => "FTP " ++ command ++ " " ++ args
    | some command, none => "FTP " ++ command
    | none, _ => "FTP"
  | .response =>
    match info.responseCode with
    | some code => withDetail ("FTP " ++ toString code.toNat) info.serverSoftware
    | none => "FTP"

/-- `Display for ApplicationProtocol`: the name of the protocol, with what tells its connections
apart behind it. -/
def ApplicationProtocol.display : ApplicationProtocol → String
  | .http info => withDetail "HTTP" info.host
  | .https info => withDetail "HTTPS" (info.tlsInfo.bind TlsInfo.sni)
  | .dns info => withDetail "DNS" info.queryName
  | .ssh info =>
    -- the name of the software, without the version behind it
    withDetail "SSH" ((info.serverSoftware.or info.clientSoftware).map fun software =>
      String.ofList (software.toList.takeWhile (· ≠ '_')))
  | .quic info => withDetail "QUIC" (info.tlsInfo.bind TlsInfo.sni)
  | .ntp info => "NTP (v" ++ toString info.version.toNat ++ " " ++ info.mode.display ++ ")"
  | .mdns info => withDetail "mDNS" info.queryName
  | .llmnr info => withDetail "LLMNR" info.queryName
  | .dhcp info => withDetail ("DHCP " ++ info.messageType.display) info.hostname
  | .snmp info =>
    withDetail ("SNMP " ++ info.version.display ++ " " ++ info.pduType.display) info.community
  | .ssdp info => withDetail ("SSDP " ++ info.method.display) info.serviceType
  | .netBios info => withDetail ("NetBIOS " ++ info.service.display) info.name
  | .bitTorrent info =>
    match info.protocolType with
    | .peer => withDetail "BitTorrent" info.client
    | .dht => withDetail "BT DHT" info.dhtMethod
    | .utp => "BT uTP"
  | .stun info =>
    withDetail ("STUN " ++ info.method.display ++ " " ++ info.messageClass.display) info.software
  | .mqtt info => withDetail ("MQTT " ++ info.packetType.display) (info.topic.or info.clientId)
  | .ftp info => info.display

/-! ## The state -/

/-- The name of a TCP state. -/
def TcpState.display : TcpState → String
  | .synSent => "SYN_SENT"
  | .synReceived => "SYN_RECV"
  | .established => "ESTABLISHED"
  | .finWait1 => "FIN_WAIT1"
  | .finWait2 => "FIN_WAIT2"
  | .closeWait => "CLOSE_WAIT"
  | .lastAck => "LAST_ACK"
  | .timeWait => "TIME_WAIT"
  | .closing => "CLOSING"
  | .closed => "CLOSED"
  | .unknown => "TCP_UNKNOWN"

/-- The state of a QUIC connection; before there is one, the kind of its last packet. -/
def QuicInfo.state (info : QuicInfo) : String :=
  match info.connectionState with
  | .initial => "QUIC_INITIAL"
  | .handshaking => "QUIC_HANDSHAKE"
  | .connected => "QUIC_CONNECTED"
  | .draining => "QUIC_DRAINING"
  | .closed => "QUIC_CLOSED"
  | .unknown =>
    match info.packetType with
    | .zeroRtt => "QUIC_0RTT"
    | .retry => "QUIC_RETRY"
    | .versionNegotiation => "QUIC_VERSION_NEG"
    | _ => "QUIC_UNKNOWN"

/-- The state of a UDP connection with a record. -/
def ApplicationProtocol.udpState : ApplicationProtocol → String
  | .quic info => info.state
  | .dns info => if info.isResponse then "DNS_RESPONSE" else "DNS_QUERY"
  | .http _ => "HTTP_UDP"
  | .https _ => "HTTPS_UDP"
  | .ssh _ => "SSH_UDP"
  | .ntp _ => "NTP"
  | .mdns info => if info.isResponse then "MDNS_RESPONSE" else "MDNS_QUERY"
  | .llmnr info => if info.isResponse then "LLMNR_RESPONSE" else "LLMNR_QUERY"
  | .dhcp info => "DHCP_" ++ info.messageType.display
  | .snmp info => "SNMP_" ++ info.pduType.display
  | .ssdp info => "SSDP_" ++ info.method.display
  | .netBios info => "NETBIOS_" ++ info.service.display
  | .bitTorrent _ => "BT_UDP"
  | .stun info => "STUN_" ++ info.messageClass.display
  | .mqtt _ => "MQTT_UDP"
  | .ftp _ => "FTP_UDP"

/-- The state of an ICMP flow. -/
def icmpState (icmpType : UInt8) (icmpId : Option UInt16) : String :=
  match icmpType.toNat, icmpId with
  | 8, some id => "ECHO_REQ(" ++ toString id.toNat ++ ")"
  | 8, none => "ECHO_REQUEST"
  | 0, some id => "ECHO_REP(" ++ toString id.toNat ++ ")"
  | 0, none => "ECHO_REPLY"
  | 3, _ => "DEST_UNREACH"
  | 11, _ => "TIME_EXCEEDED"
  | _, _ => "ICMP_OTHER"

/-- The state of an IGMP flow. -/
def igmpState (igmpType : UInt8) (groupAddr : Option Ipv4Addr) : String :=
  let type := match igmpType.toNat with
    | 0x11 => "QUERY"
    | 0x12 => "REPORT_V1"
    | 0x16 => "REPORT_V2"
    | 0x22 => "REPORT_V3"
    | 0x17 => "LEAVE_GROUP"
    | _ => "IGMP_OTHER"
  match groupAddr with
  | some addr => type ++ "(" ++ addr.display ++ ")"
  | none => type

/-- The state of an ARP exchange. -/
def ArpInfo.state (info : ArpInfo) : String :=
  match info.operation with
  | .request => withDetail ("ARP_WHO_HAS " ++ info.targetIp.display) info.senderVendor
  | .reply => withDetail ("ARP_IS_AT " ++ info.senderMac) info.senderVendor

/-- `Connection::state`, with the wall clock showing `wall`. -/
def Connection.state (conn : Connection) (wall : SystemTime) : String :=
  match conn.protocolState with
  | .tcp state => state.display
  | .udp =>
    match conn.dpiInfo with
    | some info => info.application.udpState
    | none =>
      if Duration.fromSecs 60 < conn.idleTime wall then "UDP_STALE"
      else if Duration.fromSecs 30 < conn.idleTime wall then "UDP_IDLE"
      else "UDP_ACTIVE"
  | .icmp icmpType icmpId => icmpState icmpType icmpId
  | .igmp igmpType groupAddr => igmpState igmpType groupAddr
  | .arp info => info.state

end RustNet

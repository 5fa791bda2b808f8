import RustNet.Network.Types.Application
import RustNet.Network.Types.Measurement

/-!
# Connections and their timeouts

The tracked connection and the protocol-aware timeout that decides when `cleanup` removes it.
The fields that only the user interface and the enrichment threads fill (`service_name`,
`geoip_info`, the smoothed rates) are left out: no function of the tracker reads them.

`get_timeout` is where the wall clock enters: an established TCP connection without an SSH, HTTP
or HTTPS classification gets a timeout that depends on `idle_time`, which `SystemTime::now`
decides. The reading is the argument `wall`.
-/

namespace RustNet

/-- `Connection`: an entry of the tracker's tables, with what packets, the inspection and the
attribution to processes have added to it. -/
structure Connection where
  protocol : Protocol
  localAddr : SocketAddr
  remoteAddr : SocketAddr
  protocolState : ProtocolState
  pid : Option UInt32
  processName : Option String
  /-- `some true` for a connection the local side opened, `some false` for one it accepted. -/
  connectionDirection : Option Bool
  bytesSent : UInt64
  bytesReceived : UInt64
  packetsSent : UInt64
  packetsReceived : UInt64
  createdAt : SystemTime
  lastActivity : SystemTime
  dpiInfo : Option DpiInfo
  rateTracker : RateTracker
  tcpAnalytics : Option TcpAnalytics
  /-- In nanoseconds. -/
  initialRtt : Option ℕ
  isHistoric : Bool
  closedAt : Option SystemTime

namespace Connection

/-- `Connection::new`: no packet is counted, and nothing is known of the process or the application
yet. -/
def new (protocol : Protocol) (localAddr remoteAddr : SocketAddr) (state : ProtocolState)
    (wall : SystemTime) (instant : Instant) : Connection where
  protocol := protocol
  localAddr := localAddr
  remoteAddr := remoteAddr
  protocolState := state
  pid := none
  processName := none
  connectionDirection := none
  bytesSent := 0
  bytesReceived := 0
  packetsSent := 0
  packetsReceived := 0
  createdAt := wall
  lastActivity := wall
  dpiInfo := none
  rateTracker := RateTracker.new instant
  -- only segments of TCP are analysed
  tcpAnalytics := if protocol = .tcp then some TcpAnalytics.new else none
  initialRtt := none
  isHistoric := false
  closedAt := none

/-- `idle_time`, with the wall clock showing `wall`. -/
def idleTime (conn : Connection) (wall : SystemTime) : ℕ :=
  (wall.durationSince conn.lastActivity).getD 0

/-- The application protocols whose established TCP connections have a timeout of their own. -/
def tcpApplicationTimeout : ApplicationProtocol → Option ℕ
  | .ssh _ => some (Duration.fromSecs 1800)
  | .http _ | .https _ => some (Duration.fromSecs 600)
  | _ => none

/-- `get_tcp_timeout`, with the wall clock showing `wall`. -/
def getTcpTimeout (conn : Connection) (tcpState : TcpState) (wall : SystemTime) : ℕ :=
  match tcpState with
  | .established =>
    match conn.dpiInfo.bind fun info => tcpApplicationTimeout info.application with
    | some timeout => timeout
    -- long for a connection that is active now, on the wall clock
    | none =>
      if conn.idleTime wall < Duration.fromSecs 60 then Duration.fromSecs 600
      else Duration.fromSecs 300
  | .timeWait => Duration.fromSecs 30
  | .closed => Duration.fromSecs 5
  | .finWait1 | .finWait2 => Duration.fromSecs 60
  | .closeWait | .lastAck => Duration.fromSecs 60
  | .synSent | .synReceived => Duration.fromSecs 60
  | .closing => Duration.fromSecs 30
  | .unknown => Duration.fromSecs 120

/-- `get_quic_timeout`: how long a connection of QUIC may be idle, by how it was closed or else by
its state. -/
def getQuicTimeout (quic : QuicInfo) : ℕ :=
  match quic.connectionClose with
  | some closeInfo =>
    -- a transport close, an application close, and any other
    if closeInfo.frameType = 0x1c then Duration.fromSecs 10
    else if closeInfo.frameType = 0x1d then Duration.fromSecs 1
    else Duration.fromSecs 5
  | none =>
    match quic.connectionState with
    | .initial => Duration.fromSecs 60
    | .handshaking => Duration.fromSecs 60
    | .connected => quic.idleTimeout.getD (Duration.fromSecs 180)
    | .draining => Duration.fromSecs 10
    | .closed => Duration.fromSecs 1
    | .unknown => Duration.fromSecs 120

/-- The timeout of a UDP flow by its application protocol. -/
def udpApplicationTimeout : ApplicationProtocol → ℕ
  | .quic quic => getQuicTimeout quic
  | .dns _ => Duration.fromSecs 30
  | .http _ => Duration.fromSecs 600
  | .https _ => Duration.fromSecs 600
  | .ssh _ => Duration.fromSecs 1800
  | .ntp _ => Duration.fromSecs 30
  | .mdns _ => Duration.fromSecs 30
  | .llmnr _ => Duration.fromSecs 30
  | .dhcp _ => Duration.fromSecs 60
  | .snmp _ => Duration.fromSecs 60
  | .ssdp _ => Duration.fromSecs 30
  | .netBios _ => Duration.fromSecs 60
  | .bitTorrent _ => Duration.fromSecs 60
  | .stun _ => Duration.fromSecs 30
  | .mqtt _ => Duration.fromSecs 120
  | .ftp _ => Duration.fromSecs 60

/-- `get_timeout`, with the wall clock showing `wall`. -/
def getTimeout (conn : Connection) (wall : SystemTime) : ℕ :=
  match conn.protocolState with
  | .tcp tcpState => conn.getTcpTimeout tcpState wall
  | .udp =>
    match conn.dpiInfo with
    | some info => udpApplicationTimeout info.application
    | none => Duration.fromSecs 60
  | .icmp .. => Duration.fromSecs 10
  | .igmp .. => Duration.fromSecs 10
  | .arp _ => Duration.fromSecs 30

/-- `should_cleanup` at the caller's time `now`, with the wall clock showing `wall`. -/
def shouldCleanup (conn : Connection) (now wall : SystemTime) : Bool :=
  decide (conn.getTimeout wall < (now.durationSince conn.lastActivity).getD 0)

/-! ## Which timeouts read the wall clock -/

end Connection

end RustNet

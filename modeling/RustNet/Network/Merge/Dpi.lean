import RustNet.Network.Parser.Packet

/-!
# Merging application-layer information

`merge_dpi_info` and the per-protocol merges it dispatches to. Most fields are set once: a field
that is already there is kept, which is `Option.or`. The QUIC merge also feeds the new packet's
CRYPTO fragments into the connection's reassembler and tries to extract the TLS handshake again
while the recorded server name is partial or missing.
-/

namespace RustNet

/-- `MAX_MERGED_RESPONSE_IPS`: how many addresses the merges of DNS responses may bring a connection
to. -/
def maxMergedResponseIps : ℕ := 64

/-- `quic_state_priority`: the rank of a state of a QUIC connection, by which a merge only ever
moves forward. -/
def quicStatePriority : QuicConnectionState → ℕ
  | .unknown => 0
  | .initial => 1
  | .handshaking => 2
  | .connected => 3
  | .draining => 4
  | .closed => 5

/-- `merge_http_info`: the fields that the connection has stay, those that it lacks are filled from
the new packet, and the version is never touched. -/
def mergeHttpInfo (old new : HttpInfo) : HttpInfo :=
  { old with
    method := old.method.or new.method
    path := old.path.or new.path
    host := old.host.or new.host
    userAgent := old.userAgent.or new.userAgent
    statusCode := old.statusCode.or new.statusCode }

/-- `merge_https_info`: the first record is taken over whole; later ones only fill the fields of it
that are still missing. -/
def mergeHttpsInfo (old new : HttpsInfo) : HttpsInfo :=
  match old.tlsInfo, new.tlsInfo with
  | none, some newTls => { old with tlsInfo := some newTls }
  | some oldTls, some newTls =>
    let mergedTls : TlsInfo :=
      { version := oldTls.version.or newTls.version
        sni := oldTls.sni.or newTls.sni
        alpn := if oldTls.alpn.isEmpty then newTls.alpn else oldTls.alpn
        cipherSuite := oldTls.cipherSuite.or newTls.cipherSuite }
    { old with tlsInfo := some mergedTls }
  | _, none => old

/-! ## QUIC -/

/-- Whether a recorded SNI is marked partial. -/
def sniIsPartial (sni : Option String) : Bool := sni.any isPartialSni

section Quic

variable [DeepPacketInspection]

/-- Another attempt at the TLS handshake: a complete SNI first, a partial one as a fallback. -/
def reextractTls (reassembler : CryptoFrameReassembler) (current : Option TlsInfo) :
    CryptoFrameReassembler × Option TlsInfo :=
  match DeepPacketInspection.tryExtractTlsFromReassembler reassembler false with
  | (some tls, reassembler) => (reassembler, some tls)
  | (none, reassembler) =>
    match DeepPacketInspection.tryExtractTlsFromReassembler reassembler true with
    | (some tls, reassembler) => (reassembler, some tls)
    | (none, reassembler) => (reassembler, current)

/-- The reassembler part of `merge_quic_info`. -/
def mergeReassembler (old new : QuicInfo) : QuicInfo :=
  match new.cryptoReassembler, old.cryptoReassembler with
  | none, _ => old
  | some newReassembler, none => { old with cryptoReassembler := some newReassembler }
  | some newReassembler, some oldReassembler =>
    -- a fragment that cannot be added is only logged
    let merged := newReassembler.fragments.foldl
      (fun reassembler (offset, data) => (reassembler.addFragment offset data).1) oldReassembler
    -- extract again while the server name is missing or partial
    let shouldRetry := match old.tlsInfo with
      | none => true
      | some tls => tls.sni.isNone || sniIsPartial tls.sni
    let (merged, tlsInfo) :=
      if shouldRetry then reextractTls merged old.tlsInfo else (merged, old.tlsInfo)
    let tlsInfo := match newReassembler.getCachedTlsInfo with
      | none => tlsInfo
      | some cached =>
        -- what the new packet's reassembler had cached may be more complete
        let newIsComplete := cached.sni.any fun sni => !isPartialSni sni
        let shouldUpdate := match tlsInfo with
          | none => true
          | some oldTls => oldTls.sni.isNone || (sniIsPartial oldTls.sni && newIsComplete)
        if shouldUpdate then some cached else tlsInfo
    { old with cryptoReassembler := some merged, tlsInfo := tlsInfo }

/-- The TLS part of `merge_quic_info`. -/
def mergeQuicTls (old new : QuicInfo) : QuicInfo :=
  match old.tlsInfo, new.tlsInfo with
  | none, some newTls => { old with tlsInfo := some newTls }
  | some oldTls, some newTls =>
    let mergedTls : TlsInfo :=
      { version := oldTls.version.or newTls.version
        -- a complete name replaces a partial one, and any name a missing one
        sni :=
          if oldTls.sni.isNone && newTls.sni.isSome then newTls.sni
          else if sniIsPartial oldTls.sni && newTls.sni.isSome && !sniIsPartial newTls.sni then
            newTls.sni
          else oldTls.sni
        alpn := if oldTls.alpn.isEmpty then newTls.alpn else oldTls.alpn
        cipherSuite := oldTls.cipherSuite.or newTls.cipherSuite }
    { old with tlsInfo := some mergedTls }
  | _, none => old

/-- The CONNECTION_CLOSE part of `merge_quic_info`; it sets the state without a priority check. -/
def mergeConnectionClose (old new : QuicInfo) : QuicInfo :=
  match new.connectionClose with
  | none => old
  | some newClose =>
    { old with
      connectionClose := some newClose
      connectionState :=
        if newClose.frameType = 0x1c ∧ newClose.errorCode = 0 then .draining else .closed }

/-- `merge_quic_info`: the state moves forward unless a CONNECTION_CLOSE sets it, the packet type
and the idle timeout are the latest, what is missing is filled, and the fragments of the new packet
are added to those of the connection. -/
def mergeQuicInfo (old new : QuicInfo) : QuicInfo :=
  let info :=
    if quicStatePriority old.connectionState < quicStatePriority new.connectionState then
      { old with connectionState := new.connectionState }
    else old
  let info := { info with packetType := new.packetType }
  let info :=
    if info.connectionId.isEmpty && !new.connectionId.isEmpty then
      { info with connectionId := new.connectionId, connectionIdHex := new.connectionIdHex }
    else info
  let info := { info with versionString := info.versionString.or new.versionString }
  let info := mergeReassembler info new
  let info := mergeQuicTls info new
  let info := if new.hasCryptoFrame then { info with hasCryptoFrame := true } else info
  let info := mergeConnectionClose info new
  -- the latest idle timeout wins, unlike the fields above
  { info with idleTimeout := new.idleTimeout.or info.idleTimeout }

end Quic

/-! ## The other protocols -/

/-- Append the elements of `new` that are not there yet. -/
def mergeUnique {α : Type} [DecidableEq α] (old new : List α) : List α :=
  new.foldl (fun merged a => if a ∈ merged then merged else merged ++ [a]) old

/-- `merge_dns_info`. Once the list is full the loop adds nothing more, where the source breaks. -/
def mergeDnsInfo (old new : DnsInfo) : DnsInfo where
  queryName := old.queryName.or new.queryName
  queryType := old.queryType.or new.queryType
  responseIps := new.responseIps.foldl
    (fun ips ip =>
      if maxMergedResponseIps ≤ ips.length then ips else if ip ∈ ips then ips else ips ++ [ip])
    old.responseIps
  isResponse := old.isResponse || new.isResponse

/-- The state part of `merge_ssh_info`: only to a more advanced state. -/
def mergeSshState (old new : SshConnectionState) : SshConnectionState :=
  match old, new with
  | .banner, new => new
  | .keyExchange, .authentication => .authentication
  | .keyExchange, .established => .established
  | .authentication, .established => .established
  | old, _ => old

/-- `merge_ssh_info`: the first version, programs and method stay, the state moves along the
handshake, and the algorithms are collected unless an established session brings its own list. -/
def mergeSshInfo (old new : SshInfo) : SshInfo where
  version := old.version.or new.version
  clientSoftware := old.clientSoftware.or new.clientSoftware
  serverSoftware := old.serverSoftware.or new.serverSoftware
  connectionState := mergeSshState old.connectionState new.connectionState
  algorithms :=
    -- the source's two remaining arms do the same
    match new.connectionState, new.algorithms.isEmpty with
    | .established, false => new.algorithms
    | _, _ => mergeUnique old.algorithms new.algorithms
  authMethod := old.authMethod.or new.authMethod

/-- The BitTorrent arm of `merge_dpi_info`. -/
def mergeBitTorrentInfo (old new : BitTorrentInfo) : BitTorrentInfo :=
  { old with client := old.client.or new.client, infoHash := old.infoHash.or new.infoHash }

/-- `merge_mqtt_info`: the first version, client, topic and quality of service stay; the packet type
is that of the latest packet. -/
def mergeMqttInfo (old new : MqttInfo) : MqttInfo where
  version := old.version.or new.version
  clientId := old.clientId.or new.clientId
  topic := old.topic.or new.topic
  qos := old.qos.or new.qos
  packetType := new.packetType

/-- `merge_ftp_info`: identity fields are set once, dialogue fields follow the latest message. -/
def mergeFtpInfo (old new : FtpInfo) : FtpInfo where
  username := old.username.or new.username
  serverSoftware := old.serverSoftware.or new.serverSoftware
  systemType := old.systemType.or new.systemType
  messageType := new.messageType
  command := new.command.or old.command
  args := new.args.or old.args
  responseCode := new.responseCode.or old.responseCode
  responseMessage := new.responseMessage.or old.responseMessage

/-! ## The dispatch -/

section Dispatch

variable [DeepPacketInspection]

/-- The match of `merge_dpi_info`: a result of another protocol is ignored. -/
def mergeApplication (old new : ApplicationProtocol) : ApplicationProtocol :=
  match old, new with
  | .http old, .http new => .http (mergeHttpInfo old new)
  | .https old, .https new => .https (mergeHttpsInfo old new)
  | .quic old, .quic new => .quic (mergeQuicInfo old new)
  | .dns old, .dns new => .dns (mergeDnsInfo old new)
  | .ssh old, .ssh new => .ssh (mergeSshInfo old new)
  | .bitTorrent old, .bitTorrent new => .bitTorrent (mergeBitTorrentInfo old new)
  | .mqtt old, .mqtt new => .mqtt (mergeMqttInfo old new)
  | .ftp old, .ftp new => .ftp (mergeFtpInfo old new)
  -- another protocol, or one that keeps its first record
  | old, _ => old

/-- `merge_dpi_info`, on the connection's `dpi_info` field. -/
def mergeDpiInfo (dpiInfo : Option DpiInfo) (dpiResult : DpiResult) : DpiInfo :=
  match dpiInfo with
  | none => ⟨dpiResult.application⟩
  | some info => ⟨mergeApplication info.application dpiResult.application⟩

end Dispatch

end RustNet

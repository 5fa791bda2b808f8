import RustNet.Network.Dispatch.Safety
import RustNet.Network.Dispatch.Services
import RustNet.Network.Dns.Records
import RustNet.Network.Ftp.Analysis
import RustNet.Network.Http.Analysis
import RustNet.Network.Https.Analysis
import RustNet.Network.Mqtt.Analysis
import RustNet.Network.NetBios.Names
import RustNet.Network.Ssdp.Analysis
import RustNet.Network.Ssh.Analysis
import RustNet.Network.Tls.Inspection

/-!
# The dispatch over the protocols

`analyze_udp_packet` and `analyze_tcp_packet` try one protocol after another and report the first
that recognises the payload. Most are tried on their ports only; QUIC has to look like QUIC as well,
and STUN, TLS, MQTT, SSH and FTP are tried on any port if the payload looks like them. HTTP and
BitTorrent are tried everywhere.

## Main definitions

* `Dpi.analyzeUdpPacket`, `Dpi.analyzeTcpPacket`: the dispatch, with every access checked;
* `Dpi.UdpClaim`, `Dpi.TcpClaim`: what is known of a payload that was given a label.

## Main results

* `Dpi.analyzeUdpPacket_claims`, `Dpi.analyzeTcpPacket_claims`: no payload makes the dispatch fail,
  and a label is given to what has the ports or the looks of the protocol only.
-/

namespace RustNet

namespace Dpi

open Checked

/-! ## Dispatch -/

/-- One of the ports is among these. -/
def onPorts (ports : List UInt16) (localPort remotePort : UInt16) : Bool :=
  ports.any fun port => localPort == port || remotePort == port

/-- `if gate && let Some(result) = analysis`. -/
def attempt {α : Type} (gate : Checked Bool) (analysis : Checked (Option α))
    (label : α → ApplicationProtocol) : Checked (Option DpiResult) := do
  if ← gate then do
    let info? ← analysis
    return info?.map fun info => ⟨label info⟩
  else return none

/-- The next protocol is tried if this one does not recognise the payload. -/
def orElse (first next : Checked (Option DpiResult)) : Checked (Option DpiResult) := do
  match ← first with
  | some result => return some result
  | none => next

/-- `localPort == PORT || remotePort == PORT || looks_like(payload)`. -/
def portsOr (ports : List UInt16) (localPort remotePort : UInt16) (looksLike : Checked Bool) :
    Checked Bool :=
  if onPorts ports localPort remotePort then pure true else looksLike

section Udp

variable [QuicCrypto]

/-- The branch for QUIC: what looks like it is taken for it, also if it cannot be parsed. The walk
over the frames ends in the extraction of the program. -/
def analyzeQuic (payload : List UInt8) : Checked (Option QuicInfo) := do
  if ← Quic.isQuicPacket payload then do
    let quicInfo ← @Quic.parseQuicPacket Quic.checkedExtraction _ payload
    return some (quicInfo.getD (QuicInfo.new 0))
  else return none

/-- `analyze_udp_packet`: the protocols in the source's order, the first result standing; the
direction is not used. The analysis of SSDP is the one without an access that could fail. -/
def analyzeUdpPacket (payload : List UInt8) (localPort remotePort : UInt16) (_isOutgoing : Bool) :
    Checked (Option DpiResult) :=
  if payload.isEmpty = true then return none
  else
    let on (ports : List UInt16) : Checked Bool := pure (onPorts ports localPort remotePort)
    orElse (attempt (on [53]) (Dns.analyzeDns payload) .dns) <|
    orElse (attempt (on [443]) (analyzeQuic payload) .quic) <|
    orElse (attempt (on [5353]) (Dns.analyzeMdns payload) .mdns) <|
    orElse (attempt (on [67, 68]) (Dhcp.analyzeDhcp payload) .dhcp) <|
    orElse (attempt (on [123]) (Ntp.analyzeNtp payload) .ntp) <|
    orElse (attempt (on [5355]) (Dns.analyzeLlmnr payload) .llmnr) <|
    orElse (attempt (on [1900]) (pure (Ssdp.analyzeSsdp payload)) .ssdp) <|
    orElse (attempt (on [137]) (NetBios.Indexed.analyzeNetbiosNs payload) .netBios) <|
    orElse (attempt (on [138]) (NetBios.Indexed.analyzeNetbiosDgm payload) .netBios) <|
    orElse (attempt (on [161, 162]) (Snmp.analyzeSnmp payload) .snmp) <|
    orElse (attempt (portsOr [3478, 5349] localPort remotePort (Stun.isLikelyStun payload))
      (Stun.analyzeStun payload) .stun) <|
    attempt (pure true) (BitTorrent.analyzeUdpBittorrent payload) .bitTorrent

end Udp

/-- `analyze_tcp_packet`: the protocols in the source's order, the first result standing. The
direction is what the SSH analysis assigns a banner by. -/
def analyzeTcpPacket (payload : List UInt8) (localPort remotePort : UInt16) (isOutgoing : Bool) :
    Checked (Option DpiResult) :=
  if payload.isEmpty = true then return none
  else
    let on := fun port => portsOr [port] localPort remotePort
    orElse (attempt (pure true) (Http.Indexed.analyzeHttp payload) .http) <|
    orElse (attempt (on 443 (Https.isTlsHandshake payload)) (Https.analyzeHttps payload) .https) <|
    orElse (attempt (pure (BitTorrent.isBittorrentHandshake payload))
      (BitTorrent.analyzeBittorrent payload) .bitTorrent) <|
    orElse (attempt (on 1883 (Mqtt.isMqttPacket payload)) (Mqtt.analyzeMqtt payload) .mqtt) <|
    orElse (attempt (on 22 (Ssh.Indexed.isLikelySsh payload))
      (Ssh.Indexed.analyzeSsh payload isOutgoing) .ssh) <|
    attempt (on 21 (Ftp.Indexed.isFtp payload)) (Ftp.Indexed.analyzeFtp payload) .ftp

/-! ## Labels -/

/-- What is known of a UDP payload with this label. -/
def UdpClaim (payload : List UInt8) (localPort remotePort : UInt16) : ApplicationProtocol → Prop
  | .dns _ => onPorts [53] localPort remotePort = true
  | .quic _ => onPorts [443] localPort remotePort = true ∧ Quic.isQuicPacket payload = pure true
  | .mdns _ => onPorts [5353] localPort remotePort = true
  | .dhcp _ => onPorts [67, 68] localPort remotePort = true
  | .ntp _ => onPorts [123] localPort remotePort = true
  | .llmnr _ => onPorts [5355] localPort remotePort = true
  | .ssdp _ => onPorts [1900] localPort remotePort = true
  | .netBios info =>
    info.service = .nameService ∧ onPorts [137] localPort remotePort = true ∨
      info.service = .datagramService ∧ onPorts [138] localPort remotePort = true
  | .snmp _ => onPorts [161, 162] localPort remotePort = true
  | .stun _ => Stun.isLikelyStun payload = pure true
  | .bitTorrent info =>
    info.protocolType = .dht ∧ payload.head? = some 0x64 ∨
      info.protocolType = .utp ∧ ∃ b, payload.head? = some b ∧ b &&& 0x0F = 1
  -- these are never reported over UDP
  | .http _ | .https _ | .ssh _ | .mqtt _ | .ftp _ => False

/-- What is known of a TCP payload with this label. -/
def TcpClaim (payload : List UInt8) (localPort remotePort : UInt16) : ApplicationProtocol → Prop
  | .http _ => Http.isLikelyHttp payload = true
  | .https _ =>
    onPorts [443] localPort remotePort = true ∨ Https.isTlsHandshake payload = pure true
  | .bitTorrent info =>
    info.protocolType = .peer ∧ BitTorrent.btHandshakePrefix <+: payload
  | .mqtt _ =>
    onPorts [1883] localPort remotePort = true ∨ Mqtt.isMqttPacket payload = pure true
  | .ssh _ => Ssh.isLikelySsh payload = true
  | .ftp _ => onPorts [21] localPort remotePort = true ∨ Ftp.isFtp payload = true
  | .dns _ | .quic _ | .mdns _ | .dhcp _ | .ntp _ | .llmnr _ | .ssdp _ | .netBios _ | .snmp _
  | .stun _ => False

/-! ## One protocol after another -/

section Combinators

variable {α : Type} {gate looksLike : Checked Bool} {analysis : Checked (Option α)}
  {label : α → ApplicationProtocol} {first next : Checked (Option DpiResult)} {ports : List UInt16}
  {localPort remotePort : UInt16} {p : ApplicationProtocol → Prop}

@[simp]
theorem attempt_false (analysis : Checked (Option α)) :
    attempt (pure false) analysis label = pure none := rfl

@[simp]
theorem attempt_some (info : α) :
    attempt (pure true) (pure (some info)) label = pure (some ⟨label info⟩) := rfl

/-- A protocol that recognises nothing lets the next one try, whether it was tried or not. -/
theorem attempt_none (h : Ensures gate fun _ => True) :
    attempt gate (pure none) label = pure none := by
  obtain ⟨opens, rfl, -⟩ := h
  cases opens <;> rfl

@[simp]
theorem orElse_none (next : Checked (Option DpiResult)) : orElse (pure none) next = next := rfl

@[simp]
theorem orElse_some (result : DpiResult) (next : Checked (Option DpiResult)) :
    orElse (pure (some result)) next = pure (some result) := rfl

/-- What a protocol recognises has passed its test. -/
theorem attempt_ensures {passed : Prop} {q : α → Prop}
    (hgate : Ensures gate fun open? => open? = true → passed)
    (hanalysis : Ensures analysis fun info? => ∀ info, info? = some info → q info)
    (hlabel : passed → ∀ info, q info → p (label info)) :
    Ensures (attempt gate analysis label) fun result? =>
      ∀ result, result? = some result → p result.application := by
  refine hgate.bind fun open? hopen => Ensures.ite (fun htrue => ?_) fun _ => ensures_none
  refine hanalysis.bind fun info? hinfo => ensures_pure fun result heq => ?_
  obtain ⟨info, rfl, rfl⟩ := Option.map_eq_some_iff.mp heq
  exact hlabel (hopen htrue) info (hinfo info rfl)

/-- A protocol about which only its test says something. -/
theorem attempt_ensures_of_gate {passed : Prop}
    (hgate : Ensures gate fun open? => open? = true → passed)
    (hanalysis : Ensures analysis fun _ => True) (hlabel : passed → ∀ info, p (label info)) :
    Ensures (attempt gate analysis label) fun result? =>
      ∀ result, result? = some result → p result.application :=
  attempt_ensures hgate (hanalysis.mono fun _ _ _ _ => trivial)
    fun hpassed info (_ : True) => hlabel hpassed info

/-- A protocol about which only its analysis says something. -/
theorem attempt_ensures_of_analysis {q : α → Prop} (hgate : Ensures gate fun _ => True)
    (hanalysis : Ensures analysis fun info? => ∀ info, info? = some info → q info)
    (hlabel : ∀ info, q info → p (label info)) :
    Ensures (attempt gate analysis label) fun result? =>
      ∀ result, result? = some result → p result.application :=
  attempt_ensures (hgate.mono fun _ h _ => h) hanalysis fun (_ : True) => hlabel

/-- The result is that of one of the protocols. -/
theorem orElse_ensures
    (hfirst : Ensures first fun result? => ∀ result, result? = some result → p result.application)
    (hnext : Ensures next fun result? => ∀ result, result? = some result → p result.application) :
    Ensures (orElse first next) fun result? =>
      ∀ result, result? = some result → p result.application :=
  hfirst.bindOption (fun _ hresult => ensures_some hresult) hnext

theorem portsOr_ensures (h : Ensures looksLike fun _ => True) :
    Ensures (portsOr ports localPort remotePort looksLike) fun open? => open? = true →
      onPorts ports localPort remotePort = true ∨ looksLike = pure true := by
  obtain ⟨looks, rfl, -⟩ := h
  exact Ensures.ite (fun hports => ensures_pure fun _ => .inl hports) fun _ =>
    ensures_pure fun htrue => .inr (congrArg pure htrue)

end Combinators

/-! ## No payload makes the dispatch fail -/

section Safety

variable {payload : List UInt8} {localPort remotePort : UInt16}

theorem analyzeLlmnr_ensures (hlen : payload.length < 2 ^ 63) :
    Ensures (Dns.analyzeLlmnr payload) fun _ => True :=
  (Dns.analyzeDns_ensures hlen).bind fun info? _ => by
    cases info? <;> exact ensures_pure trivial

theorem analyzeNetbiosNs_ensures (payload : List UInt8) :
    Ensures (NetBios.Indexed.analyzeNetbiosNs payload) fun info? =>
      ∀ info, info? = some info → info.service = .nameService := by
  rw [NetBios.Indexed.analyzeNetbiosNs_eq]
  refine ensures_pure fun info h => ?_
  simp only [NetBios.analyzeNetbiosNs, NetBios.Program.analyzeNetbiosNs, Access.run_ite,
    Id.run_bind, Id.run_pure] at h
  split_ifs at h
  · cases h; rfl
  · cases h; rfl

theorem analyzeNetbiosDgm_ensures (payload : List UInt8) :
    Ensures (NetBios.Indexed.analyzeNetbiosDgm payload) fun info? =>
      ∀ info, info? = some info → info.service = .datagramService := by
  rw [NetBios.Indexed.analyzeNetbiosDgm_eq]
  refine ensures_pure fun info h => ?_
  simp only [NetBios.analyzeNetbiosDgm, NetBios.Program.analyzeNetbiosDgm, Access.run_ite,
    Id.run_bind, Id.run_pure] at h
  split_ifs at h
  · cases h; rfl

variable [QuicCrypto]

theorem analyzeQuic_ensures (payload : List UInt8) :
    Ensures (analyzeQuic payload) fun info? =>
      ∀ info, info? = some info → Quic.isQuicPacket payload = pure true := by
  unfold analyzeQuic
  obtain ⟨looks, hlooks, -⟩ := Quic.isQuicPacket_ensures payload
  rw [hlooks, pure_bind']
  refine Ensures.ite (fun htrue => ?_) fun _ => ensures_none
  -- the reassemblers that the walk hands to the extraction are sound
  exact (@Quic.parseQuicPacket_sound Quic.checkedExtraction _ Quic.safeExtraction_checked
    payload).bind fun _ _ =>
    ensures_some (congrArg pure htrue)

/-- **Every UDP payload is inspected without a fault**, whatever its bytes, its ports and its
direction are, and what is reported of it has the ports or the looks of its protocol.

The payload has a length that a slice can have (`hlen`). Each parser is the one that checks its
accesses; that of SSDP makes none, it goes over lines and characters. Of the cryptography of QUIC
only the lengths of its outputs are assumed, and the extraction of the server name is the one of
`Tls.tryExtractTlsFromReassembler`. -/
theorem analyzeUdpPacket_claims (payload : List UInt8) (hlen : payload.length < 2 ^ 63)
    (localPort remotePort : UInt16) (isOutgoing : Bool) :
    Ensures (analyzeUdpPacket payload localPort remotePort isOutgoing) fun result? =>
      ∀ result, result? = some result →
        UdpClaim payload localPort remotePort result.application := by
  refine Ensures.ite (fun _ => ensures_none) fun _ => ?_
  -- one protocol after the other, as the function tries them
  refine orElse_ensures (attempt_ensures_of_gate (ensures_pure id)
    ((Dns.analyzeDns_ensures hlen).mono fun _ _ => trivial) fun hports _ => hports) ?_
  refine orElse_ensures (attempt_ensures (ensures_pure id) (analyzeQuic_ensures payload)
    fun hports _ hlooks => ⟨hports, hlooks⟩) ?_
  refine orElse_ensures (attempt_ensures_of_gate (ensures_pure id)
    ((Dns.analyzeMdns_ensures hlen).mono fun _ _ => trivial) fun hports _ => hports) ?_
  refine orElse_ensures (attempt_ensures_of_gate (ensures_pure id)
    (Dhcp.analyzeDhcp_ensures hlen) fun hports _ => hports) ?_
  refine orElse_ensures (attempt_ensures_of_gate (ensures_pure id)
    (Ntp.analyzeNtp_ensures payload) fun hports _ => hports) ?_
  refine orElse_ensures (attempt_ensures_of_gate (ensures_pure id)
    (analyzeLlmnr_ensures hlen) fun hports _ => hports) ?_
  refine orElse_ensures (attempt_ensures_of_gate (ensures_pure id)
    (ensures_pure trivial) fun hports _ => hports) ?_
  refine orElse_ensures (attempt_ensures (ensures_pure id) (analyzeNetbiosNs_ensures payload)
    fun hports _ hservice => .inl ⟨hservice, hports⟩) ?_
  refine orElse_ensures (attempt_ensures (ensures_pure id) (analyzeNetbiosDgm_ensures payload)
    fun hports _ hservice => .inr ⟨hservice, hports⟩) ?_
  refine orElse_ensures (attempt_ensures_of_gate (ensures_pure id)
    (Snmp.analyzeSnmp_ensures hlen) fun hports _ => hports) ?_
  refine orElse_ensures (attempt_ensures (portsOr_ensures (Stun.isLikelyStun_ensures payload))
    (Stun.analyzeStun_ensures hlen) fun _ _ hlooks => hlooks) ?_
  exact attempt_ensures_of_analysis (ensures_pure trivial)
    (BitTorrent.analyzeUdpBittorrent_ensures hlen) fun _ hlooks => hlooks

end Safety

/-- A packet of uTP that opens a connection, cut off. -/
theorem analyzeUdpPacket_claims_cutOff :
    letI : QuicCrypto := .silent
    Ensures (analyzeUdpPacket [0x41, 0x02, 0x12] 6881 51413 false) fun result? =>
      ∀ result, result? = some result →
        UdpClaim [0x41, 0x02, 0x12] 6881 51413 result.application := by
  let _ : QuicCrypto := .silent
  exact analyzeUdpPacket_claims [0x41, 0x02, 0x12] (by decide) 6881 51413 false

section Safety

variable {payload : List UInt8} {localPort remotePort : UInt16}

theorem analyzeHttp_ensures (payload : List UInt8) :
    Ensures (Http.Indexed.analyzeHttp payload) fun info? =>
      ∀ info, info? = some info → Http.isLikelyHttp payload = true := by
  rw [Http.Indexed.analyzeHttp_eq]
  refine ensures_pure fun info h => ?_
  by_contra hlikely
  rw [Http.analyzeHttp_of_not_isLikelyHttp (Bool.eq_false_iff.mpr hlikely)] at h
  cases h

theorem analyzeSsh_ensures (hlen : payload.length < 2 ^ 63) (isOutgoing : Bool) :
    Ensures (Ssh.Indexed.analyzeSsh payload isOutgoing) fun info? =>
      ∀ info, info? = some info → Ssh.isLikelySsh payload = true := by
  rw [Ssh.Indexed.analyzeSsh_eq hlen]
  refine ensures_pure fun info h => ?_
  rw [Ssh.analyzeSsh_eq_ite] at h
  split_ifs at h with hlikely
  exact hlikely

/-- **Every TCP payload is inspected without a fault**, and what is reported of it has the ports or
the looks of its protocol.

The payload has a length that a slice can have (`hlen`); its bytes, its ports and its direction are
any. Each parser is the one that checks its accesses: those of HTTP, FTP and SSH are the checked
readings of programs whose plain readings the other modules are about. -/
theorem analyzeTcpPacket_claims (payload : List UInt8) (hlen : payload.length < 2 ^ 63)
    (localPort remotePort : UInt16) (isOutgoing : Bool) :
    Ensures (analyzeTcpPacket payload localPort remotePort isOutgoing) fun result? =>
      ∀ result, result? = some result →
        TcpClaim payload localPort remotePort result.application := by
  refine Ensures.ite (fun _ => ensures_none) fun _ => ?_
  -- the two gates that are read in checked form have no fault
  have hftp : Ensures (Ftp.Indexed.isFtp payload) fun _ => True := by
    rw [Ftp.Indexed.isFtp_eq]
    exact ensures_pure trivial
  have hssh : Ensures (Ssh.Indexed.isLikelySsh payload) fun _ => True := by
    rw [Ssh.Indexed.isLikelySsh_eq]
    exact ensures_pure trivial
  -- one protocol after the other, as the function tries them
  refine orElse_ensures (attempt_ensures_of_analysis (ensures_pure trivial)
    (analyzeHttp_ensures payload) fun _ hlikely => hlikely) ?_
  refine orElse_ensures (attempt_ensures_of_gate
    (portsOr_ensures (Https.isTlsHandshake_ensures payload))
    ((Https.analyzeHttps_ensures hlen).mono fun _ _ => trivial) fun hpassed _ => hpassed) ?_
  refine orElse_ensures (attempt_ensures_of_analysis (ensures_pure trivial)
    (BitTorrent.analyzeBittorrent_ensures payload)
    fun _ hinfo => ⟨hinfo.2, List.isPrefixOf_iff_prefix.mp hinfo.1⟩) ?_
  refine orElse_ensures (attempt_ensures_of_gate
    (portsOr_ensures (Mqtt.isMqttPacket_ensures hlen)) (Mqtt.analyzeMqtt_ensures hlen)
    fun hpassed _ => hpassed) ?_
  refine orElse_ensures (attempt_ensures (portsOr_ensures hssh)
    (analyzeSsh_ensures hlen isOutgoing) fun _ _ hlikely => hlikely) ?_
  refine attempt_ensures_of_gate (portsOr_ensures hftp) ?_ fun hpassed _ => ?_
  · rw [Ftp.Indexed.analyzeFtp_eq]
    exact ensures_pure trivial
  · rw [Ftp.Indexed.isFtp_eq, pure_inj] at hpassed
    exact hpassed

end Safety

/-- A packet of SSH that says that it is longer than it is. -/
theorem analyzeTcpPacket_claims_cutOff :
    Ensures (analyzeTcpPacket [0, 0, 0x05, 0xDC, 0x0A, 0x14] 22 40000 false) fun result? =>
      ∀ result, result? = some result →
        TcpClaim [0, 0, 0x05, 0xDC, 0x0A, 0x14] 22 40000 result.application :=
  analyzeTcpPacket_claims [0, 0, 0x05, 0xDC, 0x0A, 0x14] (by decide) 22 40000 false

end Dpi

end RustNet

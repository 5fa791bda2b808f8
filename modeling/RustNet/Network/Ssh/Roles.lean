import Mathlib.Data.List.DropRight
import RustNet.Foundations.Run
import RustNet.Network.Dispatch.Analysis
import RustNet.Network.Merge.Results
import RustNet.Network.Tcp.Lifecycle

/-!
# Who is the SSH client

The client is the side that opened the connection. `analyze_ssh` takes every outgoing banner for the
client's, which is right only if that is the local side; the direction that the handshake showed is
not asked. Nor does a payload show more than its own bytes: a banner is recorded as far as the first
packet has it that is taken for SSH.

What a side sends is a stream of bytes, and the payloads of its segments are parts of the stream.
Its banner is in the first line of the stream that begins with `SSH-`, once the line has been sent
to its end.

## Main definitions

* `Ssh.InspectedSegment`: a segment with its payload;
* `Ssh.Capture`: the segments of a connection, and what its sides sent;
* `Ssh.Capture.sent`, `Ssh.Capture.Shows`: the banner that a side sent, and the one that its
  segments show;
* `Ssh.RolesRight`: each side's banner is recorded in its role.

## Main results

* `opener_of_isSyn`, `opener_of_isSynAck`: the opener of a connection that is seen from its
  handshake on;
* `Ssh.analyzeTcpPacket_of_isLikelySsh`: what looks like SSH is taken for SSH, except on port 443;
* `Ssh.rolesRight_iff`: the roles are right exactly if the segments of the local side show what the
  opener sent, and those of the remote side what the other side sent.
-/

namespace RustNet

/-! ## The opener -/

/-- The side that opened a connection, where its first segment showed that. -/
def Connection.opener (conn : Connection) : Option Side :=
  conn.connectionDirection.map fun outgoing => if outgoing then .localSide else .remoteSide

/-- The side that sent a segment. -/
def ParsedPacket.sender (p : ParsedPacket) : Side :=
  if p.isOutgoing then .localSide else .remoteSide

section Opener

variable [DeepPacketInspection] {first : Arrival}

theorem track_opener (first : Arrival) (rest : List Arrival) :
    (track first rest).opener =
      (createConnectionFromPacket first.parsed first.now first.clock).opener := by
  rw [track]
  exact Run.foldl_of_step (I := fun conn : Connection => conn.opener =
    (createConnectionFromPacket first.parsed first.now first.clock).opener)
    (fun conn a hconn => hconn) rfl

/-- Whoever sends the SYN opens the connection. -/
theorem opener_of_isSyn (h : first.parsed.IsSyn) (rest : List Arrival) :
    (track first rest).opener = some first.parsed.sender := by
  obtain ⟨header, hheader, hsyn, hack, hfin, hrst⟩ := h
  have hstate : updateTcpState .unknown header.flags first.parsed.isOutgoing =
      if first.parsed.isOutgoing then .synSent else .synReceived := by
    simp only [updateTcpState, hsyn, hack, hfin, hrst]
    cases first.parsed.isOutgoing <;> rfl
  rw [track_opener, Connection.opener, ParsedPacket.sender]
  show (first.parsed.tcpHeader.bind _).map _ = _
  rw [hheader, Option.bind_some, hstate]
  cases first.parsed.isOutgoing <;> rfl

/-- Whoever receives the SYN-ACK has opened the connection. -/
theorem opener_of_isSynAck (h : first.parsed.IsSynAck) (rest : List Arrival) :
    (track first rest).opener = some first.parsed.sender.other := by
  obtain ⟨header, hheader, hsyn, hack, hfin, hrst⟩ := h
  have hdirection : initialDirection (updateTcpState .unknown header.flags
      first.parsed.isOutgoing) header.flags first.parsed.isOutgoing =
        some !first.parsed.isOutgoing := by
    simp only [initialDirection, updateTcpState, hsyn, hack, hfin, hrst]
    cases first.parsed.isOutgoing <;> rfl
  rw [track_opener, Connection.opener, ParsedPacket.sender]
  show (first.parsed.tcpHeader.bind _).map _ = _
  rw [hheader, Option.bind_some, hdirection]
  cases first.parsed.isOutgoing <;> rfl

end Opener

namespace Ssh

open Checked

/-! ## Payloads that are taken for SSH -/

section Dispatch

variable {payload : List UInt8} {localPort remotePort : UInt16} {isOutgoing : Bool}

/-- What looks like SSH begins with an `S`, or with a zero of the length of a packet. -/
theorem head_of_isLikelySsh (h : isLikelySsh payload = true) :
    ∃ b rest, payload = b :: rest ∧ (b = 0x53 ∨ b = 0) ∧ 6 ≤ payload.length := by
  rcases isLikelySsh_cases h with ⟨rest, rfl⟩ | ⟨rest, rfl⟩ | ⟨hsix, hvalid⟩
  · exact ⟨0x53, _, rfl, .inl rfl, by simp⟩
  · exact ⟨0x53, _, rfl, .inl rfl, by simp⟩
  · obtain ⟨b, rest, rfl⟩ := List.exists_cons_of_ne_nil (l := payload) (by rintro rfl; cases hsix)
    refine ⟨b, rest, rfl, .inr ?_, hsix⟩
    rw [List.length_cons] at hsix
    -- the length of a packet has four bytes, and is not above 35000
    have hlength := packetLength_le hvalid
    rw [List.drop_zero, List.take_succ_cons, BigEndian.value_cons, List.length_take] at hlength
    have hthree : min 3 rest.length = 3 := by omega
    rw [hthree] at hlength
    exact UInt8.toNat_inj.mp (by rw [UInt8.toNat_zero]; omega)

/-- HTTP begins with other letters. -/
theorem analyzeHttp_eq_none (h : isLikelySsh payload = true) : Http.analyzeHttp payload = none := by
  obtain ⟨b, rest, rfl, hb, -⟩ := head_of_isLikelySsh h
  -- nothing that HTTP is told by begins with an `S` or a zero
  have hletters : ∀ start ∈ Http.likelyPrefixes,
      (nameBytes start).head?.any (fun c => c != 0x53 && c != 0) = true := by decide +kernel
  have hhttp : Http.isLikelyHttp (b :: rest) = false := by
    unfold Http.isLikelyHttp
    split_ifs
    · rfl
    · rw [List.any_eq_false]
      intro start hlikely hstart
      obtain ⟨c, hc, hne⟩ := (Option.any_eq_true _ _).mp (hletters start hlikely)
      obtain ⟨tail, htail⟩ := List.head?_eq_some_iff.mp hc
      rw [htail, List.isPrefixOf_cons_cons, Bool.and_eq_true, beq_iff_eq] at hstart
      rcases hb with rfl | rfl <;> simp [hstart.1] at hne
  exact Http.analyzeHttp_of_not_isLikelyHttp hhttp

/-- The record of TLS begins with `0x16`. -/
theorem isTlsHandshake_eq_false (h : isLikelySsh payload = true) :
    Https.isTlsHandshake payload = pure false := by
  obtain ⟨b, rest, rfl, hb, hlength⟩ := head_of_isLikelySsh h
  have hne : b ≠ 0x16 := by rcases hb with rfl | rfl <;> decide
  rw [Https.isTlsHandshake, if_neg (by omega), (At.start (b :: rest)).index, pure_bind',
    if_pos hne]

/-- On its port, TLS takes what does not begin a handshake too. -/
theorem exists_analyzeHttps (h : isLikelySsh payload = true) :
    ∃ info, Https.analyzeHttps payload = pure (some info) := by
  obtain ⟨b, rest, rfl, hb, hlength⟩ := head_of_isLikelySsh h
  have hne : b ≠ 0x16 := by rcases hb with rfl | rfl <;> decide
  rw [Https.analyzeHttps, if_neg (by omega), (At.start (b :: rest)).index, pure_bind',
    index_eq (by omega), pure_bind', index_eq (by omega), pure_bind', if_pos hne]
  exact ⟨_, rfl⟩

/-- The handshake of BitTorrent begins with `0x13`. -/
theorem isBittorrentHandshake_eq_false (h : isLikelySsh payload = true) :
    BitTorrent.isBittorrentHandshake payload = false := by
  obtain ⟨b, rest, rfl, hb, -⟩ := head_of_isLikelySsh h
  rw [BitTorrent.isBittorrentHandshake, BitTorrent.btHandshakePrefix, List.isPrefixOf_cons_cons]
  rcases hb with rfl | rfl <;> rfl

/-- MQTT has no packets of the types 0 and 5. -/
theorem analyzeMqtt_eq_none (h : isLikelySsh payload = true) :
    Mqtt.analyzeMqtt payload = pure none := by
  obtain ⟨b, rest, rfl, hb, hlength⟩ := head_of_isLikelySsh h
  have htype : Mqtt.packetTypeOf (b >>> 4) = none := by rcases hb with rfl | rfl <;> decide
  have hreturns : Ensures (Mqtt.decodeRemainingLength (b :: rest) 1) _ :=
    Mqtt.decodeRemainingLength_ensures (by decide)
  obtain ⟨decoded, hdecoded, -⟩ := hreturns
  rw [Mqtt.analyzeMqtt, if_neg (by omega), (At.start (b :: rest)).index, pure_bind', hdecoded,
    pure_bind']
  cases decoded with
  | none => rfl
  | some d => rw [htype]

variable (localPort remotePort isOutgoing) in
/-- What looks like SSH is taken for SSH, unless it is on the port of HTTPS. -/
theorem analyzeTcpPacket_of_isLikelySsh (hlen : payload.length < 2 ^ 63)
    (h : isLikelySsh payload = true) :
    ∃ result, Dpi.analyzeTcpPacket payload localPort remotePort isOutgoing = pure (some result) ∧
      result.application.ssh? =
        if Dpi.onPorts [443] localPort remotePort then none else analyzeSsh payload isOutgoing := by
  have hne : ¬ payload.isEmpty = true := by
    obtain ⟨b, rest, rfl, -⟩ := head_of_isLikelySsh h
    exact Bool.false_ne_true
  have hmqtt : Ensures (Dpi.portsOr [1883] localPort remotePort (Mqtt.isMqttPacket payload))
      fun _ => True :=
    (Dpi.portsOr_ensures (Mqtt.isMqttPacket_ensures hlen)).mono fun _ _ => trivial
  have hssh : Dpi.portsOr [22] localPort remotePort (Indexed.isLikelySsh payload) = pure true := by
    rw [Dpi.portsOr, Indexed.isLikelySsh_eq, h, ite_self]
  obtain ⟨info, hinfo⟩ : ∃ info, analyzeSsh payload isOutgoing = some info := by
    rw [analyzeSsh_eq_ite, if_pos h]
    exact ⟨_, rfl⟩
  rw [Dpi.analyzeTcpPacket, if_neg hne]
  dsimp only
  rw [Http.Indexed.analyzeHttp_eq, analyzeHttp_eq_none h, isTlsHandshake_eq_false h,
    isBittorrentHandshake_eq_false h, analyzeMqtt_eq_none h, hssh, Indexed.analyzeSsh_eq hlen,
    hinfo, Dpi.attempt_none hmqtt, Dpi.attempt_none (ensures_pure trivial), Dpi.attempt_false,
    Dpi.attempt_some, Dpi.orElse_none, Dpi.orElse_none, Dpi.orElse_none, Dpi.orElse_some]
  cases hports : Dpi.onPorts [443] localPort remotePort with
  | true =>
    -- on its port, the analysis of TLS returns something for any five bytes
    obtain ⟨https, hhttps⟩ := exists_analyzeHttps h
    rw [Dpi.portsOr, hports, hhttps]
    exact ⟨_, rfl, rfl⟩
  | false =>
    rw [Dpi.portsOr, hports]
    exact ⟨_, rfl, rfl⟩

/-- A payload that is reported as SSH looks like it. -/
def LikelyIfSsh (payload : List UInt8) (application : ApplicationProtocol) : Prop :=
  ∀ info, application.ssh? = some info → isLikelySsh payload = true

variable (localPort remotePort isOutgoing) in
/-- What does not look like SSH is not taken for it. -/
theorem likelyIfSsh_of_analyzeTcpPacket (hlen : payload.length < 2 ^ 63) :
    Ensures (Dpi.analyzeTcpPacket payload localPort remotePort isOutgoing) fun result? =>
      ∀ result, result? = some result → LikelyIfSsh payload result.application := by
  -- the label of another protocol is not that of SSH
  have hother {α : Type} {gate : Checked Bool} {analysis : Checked (Option α)}
      {label : α → ApplicationProtocol} (hgate : Ensures gate fun _ => True)
      (hanalysis : Ensures analysis fun _ => True) (hlabel : ∀ info, (label info).ssh? = none) :
      Ensures (Dpi.attempt gate analysis label) fun result? =>
        ∀ result, result? = some result → LikelyIfSsh payload result.application := by
    refine Dpi.attempt_ensures_of_gate (hgate.mono fun _ h _ => h) hanalysis
      fun _ info info' h => ?_
    rw [hlabel info] at h
    cases h
  have hports {ports : List UInt16} {looksLike : Checked Bool}
      (h : Ensures looksLike fun _ => True) :
      Ensures (Dpi.portsOr ports localPort remotePort looksLike) fun _ => True :=
    (Dpi.portsOr_ensures h).mono fun _ _ => trivial
  have hssh : Ensures (Indexed.isLikelySsh payload) fun _ => True := by
    rw [Indexed.isLikelySsh_eq]
    exact ensures_pure trivial
  refine Ensures.ite (fun _ => ensures_none) fun _ => ?_
  refine Dpi.orElse_ensures (hother (ensures_pure trivial)
    ((Dpi.analyzeHttp_ensures payload).mono fun _ _ => trivial) fun _ => rfl) ?_
  refine Dpi.orElse_ensures (hother (hports (Https.isTlsHandshake_ensures payload))
    ((Https.analyzeHttps_ensures hlen).mono fun _ _ => trivial) fun _ => rfl) ?_
  refine Dpi.orElse_ensures (hother (ensures_pure trivial)
    ((BitTorrent.analyzeBittorrent_ensures payload).mono fun _ _ => trivial) fun _ => rfl) ?_
  refine Dpi.orElse_ensures (hother (hports (Mqtt.isMqttPacket_ensures hlen))
    (Mqtt.analyzeMqtt_ensures hlen) fun _ => rfl) ?_
  refine Dpi.orElse_ensures (Dpi.attempt_ensures_of_analysis (hports hssh)
    (Dpi.analyzeSsh_ensures hlen isOutgoing) fun _ hlikely _ _ => hlikely) ?_
  refine hother (hports ?_) ?_ fun _ => rfl
  · rw [Ftp.Indexed.isFtp_eq]
    exact ensures_pure trivial
  · rw [Ftp.Indexed.analyzeFtp_eq]
    exact ensures_pure trivial

end Dispatch

/-! ## Segments -/

/-- A segment with the payload that was inspected. -/
structure InspectedSegment extends Arrival where
  payload : List UInt8
  /-- No slice is longer. -/
  payload_lt : payload.length < 2 ^ 63
  dpiResult_eq : Dpi.analyzeTcpPacket payload parsed.localAddr.port parsed.remoteAddr.port
    parsed.isOutgoing = pure parsed.dpiResult

namespace InspectedSegment

/-- What the inspection found, where that is SSH. -/
def ssh? (a : InspectedSegment) : Option SshInfo :=
  a.parsed.dpiResult.bind fun result => result.application.ssh?

/-- The payload looks like SSH, and is not on the port that TLS is tried on first. -/
def takenForSsh (a : InspectedSegment) : Bool :=
  isLikelySsh a.payload && !Dpi.onPorts [443] a.parsed.localAddr.port a.parsed.remoteAddr.port

/-- The software of the first banner among the lines of the payload, if that is taken for SSH. -/
def banner (a : InspectedSegment) : Option String :=
  if a.takenForSsh then firstSoftware a.payload else none

/-- A segment is recorded as SSH exactly if its payload is taken for it. -/
theorem ssh?_eq (a : InspectedSegment) :
    a.ssh? = if a.takenForSsh then analyzeSsh a.payload a.parsed.isOutgoing else none := by
  cases hlikely : isLikelySsh a.payload with
  -- what looks like SSH comes to its analysis, but for the port of HTTPS
  | true =>
    obtain ⟨result, hresult, hssh⟩ := analyzeTcpPacket_of_isLikelySsh a.parsed.localAddr.port
      a.parsed.remoteAddr.port a.parsed.isOutgoing a.payload_lt hlikely
    have hdpi := pure_inj.mp (a.dpiResult_eq.symm.trans hresult)
    rw [ssh?, hdpi, Option.bind_some, hssh, takenForSsh, hlikely, Bool.true_and]
    cases Dpi.onPorts [443] a.parsed.localAddr.port a.parsed.remoteAddr.port <;> rfl
  -- and what does not is never recorded as SSH
  | false =>
    have hnot := (likelyIfSsh_of_analyzeTcpPacket _ _ _ a.payload_lt).of_eq_pure a.dpiResult_eq
    have hnone : a.ssh? = none := by
      rw [ssh?, Option.bind_eq_none_iff]
      intro result hresult
      by_contra hssh
      obtain ⟨info, hinfo⟩ := Option.ne_none_iff_exists'.mp hssh
      exact Bool.false_ne_true (hlikely.symm.trans (hnot result hresult info hinfo))
    rw [hnone, takenForSsh, hlikely]
    rfl

theorem isSome_ssh? (a : InspectedSegment) : a.ssh?.isSome = a.takenForSsh := by
  rw [ssh?_eq]
  cases htaken : a.takenForSsh with
  | true =>
    rw [takenForSsh, Bool.and_eq_true] at htaken
    rw [if_pos rfl, analyzeSsh_eq_ite, if_pos htaken.1]
    rfl
  | false => rfl

/-- The banner of the local side is taken for the client's. -/
theorem clientSoftware (a : InspectedSegment) :
    a.ssh?.bind SshInfo.clientSoftware =
      if a.parsed.sender = .localSide then a.banner else none := by
  have hsome := a.isSome_ssh?
  rw [banner, ParsedPacket.sender, ← hsome]
  cases hssh : a.ssh? with
  | none => exact (ite_self _).symm
  | some info =>
    have hanalyzed := a.ssh?_eq
    rw [hssh, ← hsome, hssh] at hanalyzed
    rw [Option.bind_some, analyzeSsh_clientSoftware hanalyzed.symm]
    cases a.parsed.isOutgoing <;> rfl

/-- That of the remote side is taken for the server's. -/
theorem serverSoftware (a : InspectedSegment) :
    a.ssh?.bind SshInfo.serverSoftware =
      if a.parsed.sender = .remoteSide then a.banner else none := by
  have hsome := a.isSome_ssh?
  rw [banner, ParsedPacket.sender, ← hsome]
  cases hssh : a.ssh? with
  | none => exact (ite_self _).symm
  | some info =>
    have hanalyzed := a.ssh?_eq
    rw [hssh, ← hsome, hssh] at hanalyzed
    rw [Option.bind_some, analyzeSsh_serverSoftware hanalyzed.symm]
    cases a.parsed.isOutgoing <;> rfl

end InspectedSegment

/-! ## Roles -/

/-- The segments of a connection, with the streams of bytes that its sides sent. A segment may be
there more than once, in any place, or not at all. -/
structure Capture where
  stream : Side → List UInt8
  first : InspectedSegment
  rest : List InspectedSegment
  /-- A segment carries a part of what its sender sent. -/
  part : ∀ a ∈ first :: rest, a.payload <:+: stream a.parsed.sender

/-- The SSH record of a connection. -/
def sshInfo (conn : Connection) : Option SshInfo :=
  conn.dpiInfo.bind fun info => info.application.ssh?

namespace Capture

variable (c : Capture)

/-- The captured segments, in the order in which they are inspected. -/
def segments : List InspectedSegment := c.first :: c.rest

/-- The connection that the segments make. -/
def connection [DeepPacketInspection] : Connection :=
  track c.first.toArrival (c.rest.map InspectedSegment.toArrival)

/-- The software of the banner that a side sent, with the line feed at its end. -/
def sent (side : Side) : Option String :=
  firstSoftware ((c.stream side).rdropWhile (· ≠ 0x0A))

/-- The first segment in which anything is recognised is taken for SSH. -/
def recognised : Bool :=
  (c.segments.find? fun a => a.parsed.dpiResult.isSome).any InspectedSegment.takenForSsh

/-- The first banner that a segment of the side carries is of this software. -/
def Shows (side : Side) (software : String) : Prop :=
  (c.segments.findSome? fun a => if a.parsed.sender = side then a.banner else none) = some software

end Capture

section Roles

variable [DeepPacketInspection]

/-- The opener's banner is recorded as the client's, and the other side's as the server's. -/
structure RolesRight (c : Capture) : Prop where
  client : ∀ opener software, c.connection.opener = some opener → c.sent opener = some software →
    (sshInfo c.connection).bind SshInfo.clientSoftware = some software
  server : ∀ opener software, c.connection.opener = some opener →
    c.sent opener.other = some software →
    (sshInfo c.connection).bind SshInfo.serverSoftware = some software

end Roles

/-! ## What is recorded -/

section Recorded

variable [DeepPacketInspection] {c : Capture}

omit [DeepPacketInspection] in
theorem findSome?_dpiResults {β : Type} (field : SshInfo → Option β)
    (segments : List InspectedSegment) :
    ((dpiResults (segments.map InspectedSegment.toArrival)).findSome? fun result =>
      result.application.ssh?.bind field) = segments.findSome? fun a => a.ssh?.bind field := by
  rw [dpiResults, List.filterMap_map, findSome?_filterMap]
  refine congrArg (List.findSome? · segments) (funext fun a => ?_)
  exact (Option.bind_assoc _ _ _).symm

theorem sshInfo_connection (c : Capture) :
    sshInfo c.connection =
      (record none (dpiResults (c.segments.map InspectedSegment.toArrival))).bind
        fun info => info.application.ssh? := by
  rw [sshInfo, Capture.connection, track_dpiInfo, Capture.segments, List.map_cons]

/-- There is a record of SSH if the first segment in which anything is recognised is taken for
it. -/
theorem isSome_sshInfo (c : Capture) : (sshInfo c.connection).isSome = c.recognised := by
  -- the first result decides the protocol of the connection
  have hhead : (dpiResults (c.segments.map InspectedSegment.toArrival)).head? =
      c.segments.findSome? fun a => a.parsed.dpiResult := by
    rw [dpiResults, List.filterMap_map, List.head?_filterMap]
    rfl
  have hrecord : (sshInfo c.connection).isSome =
      (c.segments.findSome? fun a => a.parsed.dpiResult).any fun result =>
        result.application.ssh?.isSome := by
    rw [sshInfo_connection, record_of_proj ssh?_mergeApplication, hhead]
    cases c.segments.findSome? fun a => a.parsed.dpiResult <;> simp
  rw [hrecord, Capture.recognised]
  induction c.segments with
  | nil => rfl
  | cons a segments ih =>
    have htaken := a.isSome_ssh?
    rw [InspectedSegment.ssh?] at htaken
    rw [List.findSome?_cons, List.find?_cons]
    cases hresult : a.parsed.dpiResult with
    | none => exact ih
    | some result =>
      rw [hresult] at htaken
      exact htaken

/-- A field that the merge keeps is that of the first segment that has it. -/
theorem software_of_record {β : Type} {field : SshInfo → Option β}
    (hfield : ∀ old new, field (mergeSshInfo old new) = (field old).or (field new)) (b : β) :
    (sshInfo c.connection).bind field = some b ↔ c.recognised = true ∧
      (c.segments.findSome? fun a => a.ssh?.bind field) = some b := by
  rw [← isSome_sshInfo]
  cases hinfo : sshInfo c.connection with
  | none => simp
  | some info =>
    rw [sshInfo_connection] at hinfo
    rw [Option.bind_some, field_of_record ssh?_mergeApplication hfield hinfo,
      findSome?_dpiResults]
    simp

/-- **The roles are right exactly if the segments of the local side show the banner that the opener
sent, and those of the remote side the banner that the other side sent**, where any was sent. The
opener is the one that the handshake showed (`opener_of_isSyn`, `opener_of_isSynAck`). If it is the
local side, what is asked of each side is that its segments show what it sent: the banner was
captured, in a segment that is taken for SSH, whole and in front of any other. If it is the remote
side, the two banners have to be of the same software besides. -/
theorem rolesRight_iff {opener : Side} (hopener : c.connection.opener = some opener) :
    RolesRight c ↔
      (∀ software, c.sent opener = some software →
        c.recognised = true ∧ c.Shows .localSide software) ∧
      ∀ software, c.sent opener.other = some software →
        c.recognised = true ∧ c.Shows .remoteSide software := by
  -- the record has the software that the segments of a side show
  have hclient (software : String) :
      (sshInfo c.connection).bind SshInfo.clientSoftware = some software ↔
        c.recognised = true ∧ c.Shows .localSide software := by
    rw [software_of_record fun _ _ => rfl, Capture.Shows,
      funext InspectedSegment.clientSoftware]
  have hserver (software : String) :
      (sshInfo c.connection).bind SshInfo.serverSoftware = some software ↔
        c.recognised = true ∧ c.Shows .remoteSide software := by
    rw [software_of_record fun _ _ => rfl, Capture.Shows,
      funext InspectedSegment.serverSoftware]
  constructor
  · intro h
    exact ⟨fun software hsent => (hclient software).mp (h.client opener software hopener hsent),
      fun software hsent => (hserver software).mp (h.server opener software hopener hsent)⟩
  · rintro ⟨hlocal, hremote⟩
    refine ⟨fun opener' software hopener' hsent => ?_, fun opener' software hopener' hsent => ?_⟩
    · obtain rfl := Option.some.inj (hopener.symm.trans hopener')
      exact (hclient software).mpr (hlocal software hsent)
    · obtain rfl := Option.some.inj (hopener.symm.trans hopener')
      exact (hserver software).mpr (hremote software hsent)

end Recorded

/-! ## A local server -/

section Sample

/-- What an analysis returns, for the parsers in checked form. A fault gives nothing; the analyses
have none. -/
def resultOf (analysis : Checked (Option DpiResult)) : Option DpiResult :=
  match analysis with
  | .ok result? => result?
  | .error _ => none

/-- A segment of a connection to port 22 of the local host. -/
def sshSegment (syn ack : Bool) (sender : Side) (text : List UInt8)
    (h : text.length < 2 ^ 63) : InspectedSegment where
  parsed :=
    { ParsedPacket.ofTcp (.lan 1 22) (.lan 2 5000)
        { seq := 1
          ack := 1
          window := 512
          flags := ⟨false, syn, false, false, ack, false⟩
          payloadLen := text.length.toUInt32 } sender.isOutgoing 60 with
      dpiResult := resultOf (Dpi.analyzeTcpPacket text 22 5000 sender.isOutgoing) }
  now := ⟨0⟩
  clock := .constant 0
  payload := text
  payload_lt := h
  dpiResult_eq := by
    obtain ⟨result?, hresult, -⟩ :=
      likelyIfSsh_of_analyzeTcpPacket 22 5000 sender.isOutgoing h
    show Dpi.analyzeTcpPacket text 22 5000 sender.isOutgoing =
      pure (resultOf (Dpi.analyzeTcpPacket text 22 5000 sender.isOutgoing))
    rw [hresult]
    rfl

/-- `OpenSSH` on the local side, and `PuTTY` on the remote side. -/
def sampleStream : Side → List UInt8
  | .localSide => nameBytes "SSH-2.0-OpenSSH_9.6\r\n"
  | .remoteSide => nameBytes "SSH-2.0-PuTTY_Release_0.81\r\n"

/-- The handshake of a connection that either side opens, and the banners of the two sides. -/
def sampleCapture (opener : Side) : Capture where
  stream := sampleStream
  first := sshSegment true false opener [] (by decide)
  rest :=
    [sshSegment true true opener.other [] (by decide),
      sshSegment false true .localSide (sampleStream .localSide) (by decide +kernel),
      sshSegment false true .remoteSide (sampleStream .remoteSide) (by decide +kernel)]
  part := by
    intro a ha
    simp only [List.mem_cons, List.not_mem_nil, or_false] at ha
    rcases ha with rfl | rfl | rfl | rfl
    · exact List.nil_infix
    · exact List.nil_infix
    · exact List.infix_rfl
    · exact List.infix_rfl

end Sample

/-- If the local side connects, the roles are right. -/
theorem rolesRight_localOpener :
    letI : DeepPacketInspection := .silent
    (sampleCapture .localSide).connection.opener = some .localSide ∧
      (sampleCapture .localSide).sent .localSide = some "OpenSSH_9.6" ∧
        RolesRight (sampleCapture .localSide) := by
  let _ : DeepPacketInspection := .silent
  -- both banners are in the first segment of their side
  have hopener : (sampleCapture .localSide).connection.opener = some .localSide := by
    decide +kernel
  have hsent : (sampleCapture .localSide).sent .localSide = some "OpenSSH_9.6" := by decide +kernel
  have hsent' : (sampleCapture .localSide).sent .remoteSide = some "PuTTY_Release_0.81" := by
    decide +kernel
  have hrecognised : (sampleCapture .localSide).recognised = true := by decide +kernel
  refine ⟨hopener, hsent, (rolesRight_iff hopener).mpr ⟨fun software h => ?_, fun software h => ?_⟩⟩
  · obtain rfl := Option.some.inj (hsent.symm.trans h)
    refine ⟨hrecognised, ?_⟩
    unfold Capture.Shows
    decide +kernel
  · obtain rfl := Option.some.inj (hsent'.symm.trans h)
    refine ⟨hrecognised, ?_⟩
    unfold Capture.Shows
    decide +kernel

/-- If the remote side connects, the banner of the local server is recorded as the client's. -/
theorem not_rolesRight_remoteOpener :
    letI : DeepPacketInspection := .silent
    (sampleCapture .remoteSide).sent .remoteSide = some "PuTTY_Release_0.81" ∧
      (sshInfo (sampleCapture .remoteSide).connection).bind SshInfo.clientSoftware =
        some "OpenSSH_9.6" ∧
      ¬ RolesRight (sampleCapture .remoteSide) := by
  let _ : DeepPacketInspection := .silent
  have hsent : (sampleCapture .remoteSide).sent .remoteSide = some "PuTTY_Release_0.81" := by
    decide +kernel
  have hclient : (sshInfo (sampleCapture .remoteSide).connection).bind SshInfo.clientSoftware =
      some "OpenSSH_9.6" := by decide +kernel
  refine ⟨hsent, hclient, fun h => ?_⟩
  have hopener : (sampleCapture .remoteSide).connection.opener = some .remoteSide := by
    decide +kernel
  have hright := h.client .remoteSide _ hopener hsent
  rw [hclient] at hright
  exact absurd hright (by decide)

end Ssh

end RustNet

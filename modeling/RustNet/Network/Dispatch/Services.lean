import RustNet.Network.BitTorrent.Dht
import RustNet.Network.Parser.LinkLayer

/-!
# Signatures and small protocols

What the dispatch over the protocols needs beside the analyses that have modules of their own: the
tests that let a payload through on any port, and the analyses of NTP and of the handshake between
BitTorrent peers.

## Main definitions

* `Ntp.analyzeNtp`, `BitTorrent.analyzeBittorrent`: the analyses;
* `Quic.isQuicPacket`, `Https.isTlsHandshake`, `BitTorrent.isBittorrentHandshake`: the tests.

## Main results

* `BitTorrent.analyzeBittorrent_ensures`: no segment makes the analysis of a handshake fail.
-/

namespace RustNet

open Checked

/-! ## NTP -/

namespace Ntp

/-- `MIN_NTP_PACKET_SIZE`: the header, without the fields that may follow. -/
def minNtpPacketSize : ℕ := 48

/-- `NtpMode::from`: the eight modes of the three bits; a larger number is reserved. -/
def modeOf (value : UInt8) : NtpMode :=
  if value = 0 then .reserved
  else if value = 1 then .symmetricActive
  else if value = 2 then .symmetricPassive
  else if value = 3 then .client
  else if value = 4 then .server
  else if value = 5 then .broadcast
  else if value = 6 then .control
  else if value = 7 then .private
  else .reserved

/-- `analyze_ntp`: version and mode from the first byte, the stratum from the second. Versions 1 to
4 are known. -/
def analyzeNtp (payload : List UInt8) : Checked (Option NtpInfo) := do
  if payload.length < minNtpPacketSize then return none
  let firstByte ← index payload 0
  let version := (firstByte >>> 3) &&& 0x07
  let mode := firstByte &&& 0x07
  let stratum ← index payload 1
  if ¬ (1 ≤ version ∧ version ≤ 4) then return none
  return some ⟨version, modeOf mode, stratum⟩

theorem analyzeNtp_ensures (payload : List UInt8) :
    Ensures (analyzeNtp payload) fun _ => True := by
  refine Ensures.ite (fun _ => ensures_pure trivial) fun hlength => ?_
  have hlength' : 48 ≤ payload.length := Nat.le_of_not_lt hlength
  refine (ensures_index (by omega)).bind fun firstByte _ => ?_
  refine (ensures_index (by omega)).bind fun stratum _ => ?_
  exact Ensures.ite (fun _ => ensures_pure trivial) fun _ => ensures_pure trivial

end Ntp

/-! ## QUIC and TLS -/

/-- `known_versions` of `is_quic_packet`: both versions, drafts, those of Google and of Facebook,
and zero for the negotiation. -/
def Quic.knownVersions : List ℕ :=
  [0x00000001, 0x6b3343cf, 0xff00001d, 0xff00001c, 0xff00001b, 0x51303530, 0x51303433, 0x54303530,
    0xfaceb001, 0xfaceb002, 0]

/-- What `is_quic_packet` takes for a version: a known one, a draft, or one that is there to be
refused. -/
def Quic.isQuicVersion (version : ℕ) : Bool :=
  knownVersions.contains version || version >>> 8 == 0xff0000 ||
    version &&& 0x0F0F0F0F == 0x0a0a0a0a

/-- The part of `is_quic_packet` about long headers. -/
def Quic.hasLongHeader (payload : List UInt8) (firstByte : UInt8) : Checked Bool := do
  if firstByte &&& 0x80 = 0 then return false
  let version ← Tls.beAt payload 1 4
  return isQuicVersion version

/-- `is_quic_packet`: a long header of a known version, or a first byte that a short header can
have, in a packet of a likely size. -/
def Quic.isQuicPacket (payload : List UInt8) : Checked Bool := do
  if payload.length < 5 then return false
  let firstByte ← index payload 0
  if ← hasLongHeader payload firstByte then return true
  if firstByte &&& 0xc0 = 0x40 then return 20 ≤ payload.length && payload.length ≤ 1500
  return false

theorem Quic.isQuicPacket_ensures (payload : List UInt8) :
    Ensures (isQuicPacket payload) fun _ => True := by
  refine Ensures.ite (fun _ => ensures_pure trivial) fun hlength => ?_
  refine (ensures_index (by omega)).bind fun firstByte _ => ?_
  have hlong : Ensures (hasLongHeader payload firstByte) fun _ => True :=
    Ensures.ite (fun _ => ensures_pure trivial) fun _ =>
      (Tls.beAt_ensures (by omega)).bind fun _ _ => ensures_pure trivial
  refine hlong.bind fun isLong _ => Ensures.ite (fun _ => ensures_pure trivial) fun _ => ?_
  exact Ensures.ite (fun _ => ensures_pure trivial) fun _ => ensures_pure trivial

/-- `is_tls_handshake`: the type of the record, and a version from TLS 1.0 to 1.3. -/
def Https.isTlsHandshake (payload : List UInt8) : Checked Bool := do
  if payload.length < 5 then return false
  let contentType ← index payload 0
  if contentType ≠ 0x16 then return false
  let major ← index payload 1
  if major ≠ 0x03 then return false
  let minor ← index payload 2
  return decide (0x01 ≤ minor ∧ minor ≤ 0x04)

theorem Https.isTlsHandshake_ensures (payload : List UInt8) :
    Ensures (isTlsHandshake payload) fun _ => True := by
  refine Ensures.ite (fun _ => ensures_pure trivial) fun hlength => ?_
  refine (ensures_index (by omega)).bind fun contentType _ => ?_
  refine Ensures.ite (fun _ => ensures_pure trivial) fun _ => ?_
  refine (ensures_index (by omega)).bind fun major _ => ?_
  refine Ensures.ite (fun _ => ensures_pure trivial) fun _ => ?_
  exact (ensures_index (by omega)).bind fun minor _ => ensures_pure trivial

/-! ## Handshakes between BitTorrent peers -/

namespace BitTorrent

/-- `BT_HANDSHAKE_PREFIX`: the name of the protocol behind its length. -/
def btHandshakePrefix : List UInt8 := 0x13 :: nameBytes "BitTorrent protocol"

/-- `BT_HANDSHAKE_LEN`: prefix, reserved bytes, hash of the torrent and identifier of the peer. -/
def btHandshakeLen : ℕ := 68

/-- `is_bittorrent_handshake`: by its prefix alone, so that it may be cut off behind it. -/
def isBittorrentHandshake (payload : List UInt8) : Bool := btHandshakePrefix.isPrefixOf payload

/-- `r[byte] & mask != 0` of the reserved bytes, if they are there. -/
def reservedBit (reserved : Option (List UInt8)) (byte : ℕ) (mask : UInt8) : Checked Bool :=
  match reserved with
  | none => return false
  | some r => do
    let bits ← index r byte
    return bits &&& mask != 0

/-- `hex_encode`: two digits for each byte, in lower case. -/
def hexEncode (bytes : List UInt8) : String := String.join (bytes.map hexByte)

/-- The match on `client_id`: the clients by the two letters of the Azureus style. -/
def clientName (clientId : String) : String :=
  if clientId = "qB" then "qBittorrent"
  else if clientId = "TR" then "Transmission"
  else if clientId = "DE" then "Deluge"
  else if clientId = "UT" then "uTorrent"
  else if clientId = "lt" then "libtorrent"
  else if clientId = "LT" then "libtorrent"
  else if clientId = "AZ" then "Azureus"
  else if clientId = "BT" then "BitTorrent"
  else if clientId = "BI" then "BiglyBT"
  else if clientId = "FD" then "Free Download Manager"
  else if clientId = "KT" then "KTorrent"
  else if clientId = "RB" then "rtorrent"
  else if clientId = "WW" then "WebTorrent"
  else if clientId = "FL" then "Flud"
  else if clientId = "SD" then "Xunlei"
  else if clientId = "TL" then "Tribler"
  else clientId

/-- A part of `format_version`: digits and letters are kept. -/
def versionPart (b : UInt8) : Option String :=
  if isAsciiDigit b then some (toString (b - 0x30).toNat)
  else if isAsciiDigit b || isAsciiAlphabetic b then some (String.singleton (Char.ofNat b.toNat))
  else none

/-- `format_version`: the digits of a version with dots between them. -/
def formatVersion (bytes : List UInt8) : String := ".".intercalate (bytes.filterMap versionPart)

/-- The match on `id_char`: the clients by the letter of the Shadow style. -/
def shadowName (idChar : UInt8) : Option String :=
  if idChar = 0x4D then some "Mainline"
  else if idChar = 0x53 then some "Shadow"
  else if idChar = 0x54 then some "BitTornado"
  else if idChar = 0x41 then some "ABC"
  else none

/-- The condition of the first branch of `decode_client_name`. -/
def isAzureusStyle (peerId : List UInt8) : Checked Bool := do
  if peerId.length < 8 then return false
  let first ← index peerId 0
  if first ≠ 0x2D then return false
  let eighth ← index peerId 7
  return decide (eighth = 0x2D)

/-- `decode_client_name`: the Azureus style if the identifier has its dashes, else the Shadow
style. -/
def decodeClientName (peerId : List UInt8) : Checked (Option String) := do
  if ← isAzureusStyle peerId then do
    let idBytes ← slice peerId 1 3
    match fromUtf8 idBytes with
    | none => return none
    | some clientId => do
      let versionBytes ← slice peerId 3 7
      return some (clientName clientId ++ " " ++ formatVersion versionBytes)
  else do
    let first ← index peerId 0
    if isAsciiDigit first || isAsciiAlphabetic first then return shadowName first else return none

/-- `reserved`: the eight bytes behind the prefix, if they are there. -/
def reservedBytes (payload : List UInt8) : Checked (Option (List UInt8)) :=
  if 28 ≤ payload.length then some <$> slice payload 20 28 else pure none

/-- `info_hash` of a handshake, where it is not cut off before its end. -/
def infoHash (payload : List UInt8) : Checked (Option String) :=
  if 48 ≤ payload.length then do
    let hashBytes ← slice payload 28 48
    return some (hexEncode hashBytes)
  else pure none

/-- `client` of a handshake, where it is not cut off before its end. -/
def client (payload : List UInt8) : Checked (Option String) :=
  if btHandshakeLen ≤ payload.length then do
    let peerId ← slice payload 48 68
    decodeClientName peerId
  else pure none

/-- `analyze_bittorrent`: what a handshake says, as far as it goes. -/
def analyzeBittorrent (payload : List UInt8) : Checked (Option BitTorrentInfo) := do
  if isBittorrentHandshake payload = false then return none
  let reserved ← reservedBytes payload
  let supportsDht ← reservedBit reserved 7 0x01
  let supportsFast ← reservedBit reserved 7 0x04
  let supportsExtension ← reservedBit reserved 5 0x10
  let infoHash ← infoHash payload
  let client ← client payload
  return some ⟨.peer, infoHash, client, none, supportsDht, supportsExtension, supportsFast⟩

section Safety

variable {payload peerId : List UInt8}

theorem decodeClientName_ensures (h : peerId.length = 20) :
    Ensures (decodeClientName peerId) fun _ => True := by
  have hstyle : Ensures (isAzureusStyle peerId) fun _ => True := by
    refine Ensures.ite (fun _ => ensures_pure trivial) fun _ => ?_
    refine (ensures_index (by omega)).bind fun first _ => ?_
    refine Ensures.ite (fun _ => ensures_pure trivial) fun _ => ?_
    exact (ensures_index (by omega)).bind fun eighth _ => ensures_pure trivial
  -- all positions lie below the twenty bytes of a peer id
  refine hstyle.bind fun isAzureus _ => Ensures.ite (fun _ => ?_) fun _ => ?_
  · refine (ensures_slice (by decide) (by omega)).bind fun idBytes _ => ?_
    cases fromUtf8 idBytes with
    | none => exact ensures_pure trivial
    | some clientId =>
      exact (ensures_slice (by decide) (by omega)).bind fun _ _ => ensures_pure trivial
  · refine (ensures_index (by omega)).bind fun first _ => ?_
    exact Ensures.ite (fun _ => ensures_pure trivial) fun _ => ensures_pure trivial

/-- The bits are among the reserved bytes. -/
theorem reservedBit_ensures {reserved : Option (List UInt8)}
    (h : ∀ r, reserved = some r → r.length = 8) {byte : ℕ} (hbyte : byte < 8) (mask : UInt8) :
    Ensures (reservedBit reserved byte mask) fun _ => True := by
  cases reserved with
  | none => exact ensures_pure trivial
  | some r =>
    have hlength := h r rfl
    exact (ensures_index (by omega)).bind fun _ _ => ensures_pure trivial

/-- No segment makes the analysis of a handshake fail. -/
theorem analyzeBittorrent_ensures (payload : List UInt8) :
    Ensures (analyzeBittorrent payload) fun info? => ∀ info, info? = some info →
      isBittorrentHandshake payload = true ∧ info.protocolType = .peer := by
  refine Ensures.ite (fun _ => ensures_none) fun hprefix => ?_
  -- the reserved bytes are eight or not read at all
  have hreserved : Ensures (reservedBytes payload) fun reserved? =>
      ∀ r, reserved? = some r → r.length = 8 := by
    refine Ensures.ite (fun hlength => ?_) fun _ => ensures_none
    rw [slice_eq (by decide) hlength]
    refine ensures_some ?_
    rw [List.length_take, List.length_drop]
    omega
  refine hreserved.bind fun reserved hlength => ?_
  refine (reservedBit_ensures hlength (by decide) _).bind fun supportsDht _ => ?_
  refine (reservedBit_ensures hlength (by decide) _).bind fun supportsFast _ => ?_
  refine (reservedBit_ensures hlength (by decide) _).bind fun supportsExtension _ => ?_
  -- the hash and the identifier are read only if they are there
  have hhash : Ensures (infoHash payload) fun _ => True :=
    Ensures.ite (fun hlength => (ensures_slice (by decide) hlength).bind fun _ _ =>
      ensures_pure trivial) fun _ => ensures_pure trivial
  have hclient : Ensures (client payload) fun _ => True :=
    Ensures.ite (fun hlength => (ensures_slice (by decide) hlength).bind fun _ hpeer =>
      decodeClientName_ensures hpeer) fun _ => ensures_pure trivial
  refine hhash.bind fun infoHash _ => hclient.bind fun client _ => ensures_some ⟨?_, rfl⟩
  exact (Bool.eq_false_or_eq_true _).resolve_right hprefix

end Safety

end BitTorrent

end RustNet

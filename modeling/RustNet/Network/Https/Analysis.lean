import RustNet.Network.Tls.Handshake

/-!
# TLS records

`analyze_https` and the parsers below it, which read the first TLS record of a TCP segment as far as
its bytes are there. They are written apart from those for QUIC: every level cuts its data to what is
declared and to what has arrived, and goes on with the rest. As there, every access and every sum
with a declared length is a checked one, and a loop that runs out of rounds stops with a fault.

## Main definitions

* `Https.analyzeHttps`: the analysis of a segment;
* `Https.parseClientHello`, `Https.parseExtensions`, `Https.parseSniExtensionResilient`: the parsers
  below it.

## Main results

* `Https.parseExtensions_ensures`: the loop over the extensions ends, and reads none outside the
  data;
* `Https.analyzeHttps_ensures`: no segment makes the analysis fail, and only names of printing
  characters are read from it;
* `Https.analyzeHttps_returns`: the first half of it, that the analysis of every segment returns.
-/

namespace RustNet

namespace Https

open Checked
open Tls (beAt)

/-- `MAX_TLS_EXTENSIONS`: the parser gives up a list of extensions behind so many, whatever length
the list declares. -/
def maxTlsExtensions : ℕ := 100

/-! ## Versions -/

/-- `version_from_bytes`: the versions from 1.0 to 1.3 as they are written in records and hello
messages. SSL and anything else is unknown. -/
def versionFromBytes (major minor : UInt8) : Option TlsVersion :=
  if major = 0x03 then
    if minor = 0x01 then some .tls10
    else if minor = 0x02 then some .tls11
    else if minor = 0x03 then some .tls12
    else if minor = 0x04 then some .tls13
    else none
  else none

/-- `version_to_priority`: the rank by which a list of supported versions is searched for its
highest version. -/
def versionToPriority : TlsVersion → ℕ
  | .tls10 => 1
  | .tls11 => 2
  | .tls12 => 3
  | .tls13 => 4

/-- The match on `best_version` and a version that is known. -/
def higherVersion (best : Option TlsVersion) (version : TlsVersion) : TlsVersion :=
  best.elim version fun v => if versionToPriority v < versionToPriority version then version else v

/-- The loop of `parse_supported_versions_resilient`: pairs of bytes from `offset` on, as long as
both are there and the declared list goes on. The highest version so far is carried along. -/
def versionsLoop (data : List UInt8) (listLen : ℕ) :
    ℕ → ℕ → Option TlsVersion → Checked (Option TlsVersion)
  | 0, _, _ => throw .endless
  | rounds + 1, offset, best => do
    let second ← add offset 1
    if second < data.length ∧ offset < 1 + listLen then do
      let major ← index data offset
      let minor ← index data second
      let next ← add offset 2
      versionsLoop data listLen rounds next
        (((versionFromBytes major minor).map (higherVersion best)).or best)
    else return best

/-- `parse_supported_versions_resilient`: a client sends a list behind its length, of which the
highest known version is taken; a server sends the one version it has chosen. -/
def parseSupportedVersionsResilient (data : List UInt8) (isClientHello : Bool) :
    Checked (Option TlsVersion) := do
  if isClientHello = true then do
    if data.isEmpty = true then return none
    let listLen ← index data 0
    versionsLoop data listLen.toNat (data.length + 1) 1 none
  else do
    if data.length < 2 then return none
    let major ← index data 0
    let minor ← index data 1
    return versionFromBytes major minor

/-! ## Server names and protocols -/

/-- `char::is_ascii_graphic`: a character that can be seen when it is printed, which leaves the
space out. -/
def isAsciiGraphic (c : Char) : Bool := decide (0x21 ≤ c.toNat ∧ c.toNat ≤ 0x7E)

/-- What the parsers make of a text of `actualLen` bytes, where `declaredLen` bytes are declared. -/
def markCut (actualLen declaredLen : ℕ) (text : String) : String :=
  if actualLen < declaredLen then text ++ "[PARTIAL]" else text

/-- The text of some bytes, if all its characters can be printed. -/
def graphicText (bytes : List UInt8) : Option String :=
  (fromUtf8 bytes).filter fun hostname =>
    hostname.toList.all fun c => isAsciiGraphic c || c == '.'

/-- `parse_sni_extension_resilient`: the first name of the list when it is of the type of host
names. A name that is cut off is kept as far as it is there and marked as partial. -/
def parseSniExtensionResilient (data : List UInt8) : Checked (Option String) := do
  if data.length < 5 then return none
  let _listLen ← beAt data 0 2
  let nameType ← index data 2
  if nameType ≠ 0x00 then return none
  let nameLen ← beAt data 3 2
  let actualLen := min nameLen (data.length - 5)
  if 0 < actualLen then do
    let hostnameEnd ← add 5 actualLen
    let hostnameBytes ← slice data 5 hostnameEnd
    return (graphicText hostnameBytes).map (markCut actualLen nameLen)
  else return none

/-- The protocol at `offset`, of which `actualLen` bytes are there, behind those read so far. -/
def readProtocol (data : List UInt8) (offset actualLen protoLen : ℕ) (protocols : List String) :
    Checked (List String) := do
  if 0 < actualLen then do
    let protoEnd ← add offset actualLen
    let proto ← slice data offset protoEnd
    return protocols ++ ((fromUtf8 proto).map (markCut actualLen protoLen)).toList
  else return protocols

/-- The loop of `parse_alpn_extension_resilient`. A protocol that is not UTF-8 is passed over. -/
def protocolsLoop (data : List UInt8) (listEnd : ℕ) :
    ℕ → ℕ → List String → Checked (List String)
  | 0, _, _ => throw .endless
  | rounds + 1, offset, protocols => do
    if offset < listEnd ∧ offset < data.length then do
      let protoLen ← index data offset
      let offset ← add offset 1
      -- what is there of the name, which the list or the data may cut off
      let availableLen := min (listEnd - offset) (data.length - offset)
      let actualLen := min protoLen.toNat availableLen
      let protocols ← readProtocol data offset actualLen protoLen.toNat protocols
      let next ← add offset protoLen.toNat
      if data.length ≤ next then return protocols
      protocolsLoop data listEnd rounds next protocols
    else return protocols

/-- `parse_alpn_extension_resilient`: the protocols of the list as far as they are there, or nothing
when no protocol could be read. -/
def parseAlpnExtensionResilient (data : List UInt8) : Checked (Option (List String)) := do
  if data.length < 2 then return none
  let alpnLen ← beAt data 0 2
  let left ← sub data.length 2
  let listEnd ← add 2 (min alpnLen left)
  let protocols ← protocolsLoop data listEnd (data.length + 1) 2 []
  return if protocols.isEmpty then none else some protocols

/-! ## Extensions -/

/-- The match on `ext_type`: the server name of a client, the protocols and the supported versions.
Each replaces what the record has only when something was read; other extensions are passed over. -/
def parseExtension (info : TlsInfo) (isClientHello : Bool) (extType : ℕ) (extData : List UInt8) :
    Checked TlsInfo :=
  if extType = 0x0000 ∧ isClientHello = true then do
    let sni ← parseSniExtensionResilient extData
    return { info with sni := sni.or info.sni }
  else if extType = 0x0010 then do
    let alpn ← parseAlpnExtensionResilient extData
    return { info with alpn := (alpn.filter fun alpn => !alpn.isEmpty).getD info.alpn }
  else if extType = 0x002b then do
    let version ← parseSupportedVersionsResilient extData isClientHello
    return { info with version := version.or info.version }
  else return info

/-- An extension of which `extDataLen` bytes are there, from `start` on. -/
def readExtension (data : List UInt8) (start extDataLen : ℕ) (info : TlsInfo)
    (isClientHello : Bool) (extType : ℕ) : Checked TlsInfo := do
  if 0 < extDataLen then do
    let extEnd ← add start extDataLen
    let extData ← slice data start extEnd
    parseExtension info isClientHello extType extData
  else return info

/-- The loop of `parse_extensions`: the header of an extension, what is there of its data, and on by
its declared length, until the data ends or too many extensions have been read. -/
def extensionsLoop (data : List UInt8) (isClientHello : Bool) :
    ℕ → ℕ → ℕ → TlsInfo → Checked TlsInfo
  | 0, _, _, _ => throw .endless
  | rounds + 1, extensionsParsed, offset, info => do
    let headerEnd ← add offset 4
    if headerEnd ≤ data.length then do
      let extensionsParsed ← add extensionsParsed 1
      if maxTlsExtensions < extensionsParsed then return info
      let extType ← beAt data offset 2
      let extLen ← beAt data (offset + 2) 2
      -- what is declared, as far as it is there
      let extDataLen := min extLen (data.length - headerEnd)
      let info ← readExtension data headerEnd extDataLen info isClientHello extType
      let offset ← add offset (4 + extLen)
      if data.length < offset then return info
      extensionsLoop data isClientHello rounds extensionsParsed offset info
    else return info

/-- `parse_extensions`: the extensions from the beginning of the data. A round takes four bytes at
least, so that the rounds cannot run out. -/
def parseExtensions (data : List UInt8) (info : TlsInfo) (isClientHello : Bool) :
    Checked TlsInfo := extensionsLoop data isClientHello (data.length + 1) 0 0 info

/-! ## Hello messages -/

/-- The end of both hello messages: the extensions, as far as they are there. -/
def parseHelloExtensions (data : List UInt8) (offset : ℕ) (info : TlsInfo) (isClientHello : Bool) :
    Checked TlsInfo := do
  let extStart ← add offset 2
  if data.length < extStart then return info
  let extensionsLen ← beAt data offset 2
  if extStart < data.length then do
    let extEnd ← add extStart extensionsLen
    let availableExtData ← slice data extStart (min data.length extEnd)
    if availableExtData.isEmpty = true then return info
    parseExtensions availableExtData info isClientHello
  else return info

/-- The end of `parse_client_hello`, behind the version and the random. -/
def parseClientHelloTail (data : List UInt8) (info : TlsInfo) : Checked TlsInfo := do
  -- the session, the cipher suites and the compression methods are skipped
  if data.length ≤ 34 then return info
  let sessionIdLen ← index data 34
  let offset ← add 34 (1 + sessionIdLen.toNat)
  -- the source asks this twice
  if data.length ≤ offset then return info
  let suitesStart ← add offset 2
  if data.length < suitesStart then return info
  let cipherSuitesLen ← beAt data offset 2
  let offset ← add offset (2 + cipherSuitesLen)
  if data.length ≤ offset then return info
  if data.length ≤ offset then return info
  let compressionLen ← index data offset
  let offset ← add offset (1 + compressionLen.toNat)
  if data.length ≤ offset then return info
  parseHelloExtensions data offset info true

/-- `parse_client_hello`: the version of the message, or else that of the record, and then the
extensions. A message that ends early leaves what has been read so far. -/
def parseClientHello (data : List UInt8) (info : TlsInfo) (recordVersion : Option TlsVersion) :
    Checked TlsInfo := do
  if data.length < 2 then return info
  let major ← index data 0
  let minor ← index data 1
  let info := { info with version := (versionFromBytes major minor).or recordVersion }
  if data.length < 34 then return info
  parseClientHelloTail data info

/-- `parse_server_hello`: the version, the cipher suite that was chosen and the extensions. A
message that ends early leaves what has been read so far. -/
def parseServerHello (data : List UInt8) (info : TlsInfo) : Checked TlsInfo := do
  if data.length < 2 then return info
  let major ← index data 0
  let minor ← index data 1
  let info := { info with version := versionFromBytes major minor }
  if data.length < 34 then return info
  if data.length ≤ 34 then return info
  let sessionIdLen ← index data 34
  let offset ← add 34 (1 + sessionIdLen.toNat)
  if data.length ≤ offset then return info
  let cipherEnd ← add offset 2
  if data.length < cipherEnd then return info
  let cipher ← beAt data offset 2
  let info := { info with cipherSuite := some (UInt16.ofNat cipher) }
  if data.length ≤ cipherEnd then return info
  -- the compression method is one byte
  let offset ← add cipherEnd 1
  parseHelloExtensions data offset info false

/-- The part of `analyze_https` behind the record header. -/
def parseHandshake (handshakeData : List UInt8) (info : TlsInfo)
    (recordVersion : Option TlsVersion) : Checked TlsInfo := do
  let handshakeType ← index handshakeData 0
  -- what cannot be a message of the handshake is left alone
  if ¬ (handshakeType ≤ 0x18 ∨ handshakeType = 0xfe) then return info
  let handshakeLength ← beAt handshakeData 1 3
  if 16384 < handshakeLength then return info
  let left ← sub handshakeData.length 4
  let handshakeAvailable := min left handshakeLength
  if handshakeAvailable = 0 then return info
  let handshakeEnd ← add 4 handshakeAvailable
  if handshakeType = 0x01 then do
    let hello ← slice handshakeData 4 handshakeEnd
    parseClientHello hello info recordVersion
  else if handshakeType = 0x02 then do
    let hello ← slice handshakeData 4 handshakeEnd
    parseServerHello hello info
  else return info

/-- `analyze_https`: a record of five bytes at least gives a result; its handshake message is parsed
as far as it is there, unless the record declares more than a record may hold. -/
def analyzeHttps (payload : List UInt8) : Checked (Option HttpsInfo) := do
  if payload.length < 5 then return none
  let contentType ← index payload 0
  let major ← index payload 1
  let minor ← index payload 2
  let recordVersion := versionFromBytes major minor
  let info := { TlsInfo.new with version := recordVersion }
  -- only the version is known of a record that is no handshake
  if contentType ≠ 0x16 then return some ⟨some info⟩
  let recordLength ← beAt payload 3 2
  if 16384 + 2048 < recordLength then return some ⟨some info⟩
  let left ← sub payload.length 5
  let availableData := min left recordLength
  -- the header of the message must be there
  if availableData < 4 then return some ⟨some info⟩
  let handshakeEnd ← add 5 availableData
  let handshakeData ← slice payload 5 handshakeEnd
  let info ← parseHandshake handshakeData info recordVersion
  return some ⟨some info⟩

/-! ## Safety -/

open Tls (beAt_ensures names_or)

section Safety

variable {data : List UInt8} {isClientHello : Bool} {info : TlsInfo} {P : String → Prop}

theorem versionsLoop_ensures (hlen : data.length < 2 ^ 63) {listLen rounds offset : ℕ}
    {best : Option TlsVersion} (hoffset : offset ≤ data.length + 1)
    (hrounds : data.length - offset < rounds) :
    Ensures (versionsLoop data listLen rounds offset best) fun _ => True := by
  induction rounds generalizing offset best with
  | zero => exact absurd hrounds (Nat.not_lt_zero _)
  | succ rounds ih =>
    rw [versionsLoop]
    refine (ensures_add (by omega)).bind fun second hsecond => ?_
    refine Ensures.ite (fun hmore => ?_) fun _ => ensures_pure trivial
    refine (ensures_index (by omega)).bind fun major _ => ?_
    refine (ensures_index hmore.1).bind fun minor _ => ?_
    exact (ensures_add (by omega)).bind fun next hnext => ih (by omega) (by omega)

theorem parseSupportedVersionsResilient_ensures (hlen : data.length < 2 ^ 63)
    (isClientHello : Bool) :
    Ensures (parseSupportedVersionsResilient data isClientHello) fun _ => True := by
  refine Ensures.ite (fun _ => ?_) fun _ => ?_
  · refine Ensures.ite (fun _ => ensures_pure trivial) fun hempty => ?_
    have hpos : 0 < data.length :=
      List.length_pos_of_ne_nil fun hnil => hempty (List.isEmpty_iff.mpr hnil)
    refine (ensures_index hpos).bind fun listLen _ => ?_
    exact versionsLoop_ensures hlen (by omega) (by omega)
  · refine Ensures.ite (fun _ => ensures_pure trivial) fun hshort => ?_
    refine (ensures_index (by omega)).bind fun major _ => ?_
    exact (ensures_index (by omega)).bind fun minor _ => ensures_pure trivial

/-- A name of printing characters, the brackets of a mark among them. -/
def Printing (name : String) : Prop := ∀ c ∈ name.toList, isAsciiGraphic c = true

theorem printing_markCut {text : String} {actualLen declaredLen : ℕ}
    (h : ∀ c ∈ text.toList, isAsciiGraphic c = true) :
    Printing (markCut actualLen declaredLen text) := by
  have hmark : ∀ c ∈ "[PARTIAL]".toList, isAsciiGraphic c = true := by simp [isAsciiGraphic]
  intro c hc
  rw [markCut] at hc
  split_ifs at hc
  · rw [String.toList_append, List.mem_append] at hc
    exact hc.elim (h c) (hmark c)
  · exact h c hc

theorem parseSniExtensionResilient_ensures (data : List UInt8) :
    Ensures (parseSniExtensionResilient data) fun sni? => ∀ sni, sni? = some sni → Printing sni := by
  refine Ensures.ite (fun _ => ensures_none) fun hshort => ?_
  refine (beAt_ensures (by omega)).bind fun _ _ => ?_
  refine (ensures_index (by omega)).bind fun nameType _ => ?_
  refine Ensures.ite (fun _ => ensures_none) fun _ => ?_
  refine (beAt_ensures (by omega)).bind fun nameLen hname => ?_
  refine Ensures.ite (fun _ => ?_) fun _ => ensures_none
  refine (ensures_add (by omega)).bind fun hostnameEnd hend => ?_
  refine (ensures_slice (by omega) (by omega)).bind fun bytes _ => ensures_pure fun sni hsni => ?_
  obtain ⟨hostname, hhostname, rfl⟩ := Option.map_eq_some_iff.mp hsni
  have hall := List.all_eq_true.mp (Option.filter_eq_some_iff.mp hhostname).2
  refine printing_markCut fun c hc => ?_
  -- the dot is a printing character itself
  rcases Bool.or_eq_true_iff.mp (hall c hc) with hgraphic | hdot
  · exact hgraphic
  · rw [eq_of_beq hdot]
    decide

theorem readProtocol_ensures {offset actualLen protoLen : ℕ} {protocols : List String}
    (hlen : data.length < 2 ^ 63) (hle : offset + actualLen ≤ data.length) :
    Ensures (readProtocol data offset actualLen protoLen protocols) fun _ => True := by
  refine Ensures.ite (fun _ => ?_) fun _ => ensures_pure trivial
  refine (ensures_add (by omega)).bind fun protoEnd hend => ?_
  exact (ensures_slice (by omega) (by omega)).bind fun proto _ => ensures_pure trivial

theorem protocolsLoop_ensures (hlen : data.length < 2 ^ 63) {listEnd rounds offset : ℕ}
    {protocols : List String} (hoffset : offset ≤ data.length)
    (hrounds : data.length - offset < rounds) :
    Ensures (protocolsLoop data listEnd rounds offset protocols) fun _ => True := by
  induction rounds generalizing offset protocols with
  | zero => exact absurd hrounds (Nat.not_lt_zero _)
  | succ rounds ih =>
    rw [protocolsLoop]
    refine Ensures.ite (fun hmore => ?_) fun _ => ensures_pure trivial
    refine (ensures_index hmore.2).bind fun protoLen _ => ?_
    have hproto := protoLen.toNat_lt
    refine (ensures_add (by omega)).bind fun start hstart => ?_
    refine (readProtocol_ensures (by omega) (by omega)).bind fun read _ => ?_
    refine (ensures_add (by omega)).bind fun next hnext => ?_
    exact Ensures.ite (fun _ => ensures_pure trivial) fun hfits => ih (by omega) (by omega)

theorem parseAlpnExtensionResilient_ensures (hlen : data.length < 2 ^ 63) :
    Ensures (parseAlpnExtensionResilient data) fun _ => True := by
  refine Ensures.ite (fun _ => ensures_pure trivial) fun hshort => ?_
  refine (beAt_ensures (by omega)).bind fun alpnLen _ => ?_
  refine (ensures_sub (by omega)).bind fun left hleft => ?_
  refine (ensures_add (by omega)).bind fun listEnd _ => ?_
  exact (protocolsLoop_ensures hlen (by omega) (by omega)).bind fun _ _ => ensures_pure trivial

/-- Extensions other than `server_name` leave the name of a record alone. -/
theorem parseExtension_ensures {extType : ℕ} {extData : List UInt8}
    (hlen : extData.length < 2 ^ 63) (hinfo : info.Names P)
    (hsni : extType = 0x0000 → Ensures (parseSniExtensionResilient extData) fun sni? =>
      ∀ sni, sni? = some sni → P sni) :
    Ensures (parseExtension info isClientHello extType extData) (TlsInfo.Names P) := by
  refine Ensures.ite (fun htype => ?_) fun _ => Ensures.ite (fun _ => ?_) fun _ =>
    Ensures.ite (fun _ => ?_) fun _ => ensures_pure hinfo
  · exact (hsni htype.1).bind fun sni? hsni => ensures_pure (names_or hsni hinfo)
  · exact (parseAlpnExtensionResilient_ensures hlen).bind fun _ _ => ensures_pure hinfo
  · refine (parseSupportedVersionsResilient_ensures hlen isClientHello).bind fun _ _ => ?_
    exact ensures_pure hinfo

/-- What is there of an extension is what is read. -/
theorem readExtension_ensures {start extDataLen extType : ℕ} (hlen : data.length < 2 ^ 63)
    (hle : start + extDataLen ≤ data.length) (hinfo : info.Names P)
    (hsni : extType = 0x0000 →
      Ensures (parseSniExtensionResilient ((data.drop start).take extDataLen)) fun sni? =>
        ∀ sni, sni? = some sni → P sni) :
    Ensures (readExtension data start extDataLen info isClientHello extType)
      (TlsInfo.Names P) := by
  refine Ensures.ite (fun _ => ?_) fun _ => ensures_pure hinfo
  rw [add_eq (by omega), pure_bind', slice_eq (by omega) hle, pure_bind', Nat.add_sub_cancel_left]
  refine parseExtension_ensures ?_ hinfo hsni
  have hcut := List.length_take_le' extDataLen (data.drop start)
  rw [List.length_drop] at hcut
  omega

theorem extensionsLoop_ensures (hlen : data.length < 2 ^ 63) {rounds parsed offset : ℕ}
    (hoffset : offset ≤ data.length) (hparsed : parsed ≤ offset)
    (hrounds : data.length - offset < rounds) (hinfo : info.Names Printing) :
    Ensures (extensionsLoop data isClientHello rounds parsed offset info)
      (TlsInfo.Names Printing) := by
  -- an extension takes four bytes at least, which also bounds their number
  induction rounds generalizing parsed offset info with
  | zero => exact absurd hrounds (Nat.not_lt_zero _)
  | succ rounds ih =>
    rw [extensionsLoop]
    refine (ensures_add (by omega)).bind fun headerEnd hheader => ?_
    refine Ensures.ite (fun hmore => ?_) fun _ => ensures_pure hinfo
    refine (ensures_add (by omega)).bind fun parsed' hparsed' => ?_
    refine Ensures.ite (fun _ => ensures_pure hinfo) fun _ => ?_
    refine (beAt_ensures (by omega)).bind fun extType _ => ?_
    refine (beAt_ensures (by omega)).bind fun extLen hext => ?_
    refine (readExtension_ensures hlen (by omega) hinfo fun _ =>
      parseSniExtensionResilient_ensures _).bind fun info hinfo => ?_
    refine (ensures_add (by omega)).bind fun next hnext => ?_
    refine Ensures.ite (fun _ => ensures_pure hinfo) fun hfits => ?_
    exact ih (by omega) (by omega) (by omega) hinfo

/-- The loop over the extensions ends, and reads none outside the data. -/
theorem parseExtensions_ensures (hlen : data.length < 2 ^ 63) (hinfo : info.Names Printing) :
    Ensures (parseExtensions data info isClientHello) (TlsInfo.Names Printing) :=
  extensionsLoop_ensures hlen (Nat.zero_le _) le_rfl (by omega) hinfo

theorem parseHelloExtensions_ensures (hlen : data.length < 2 ^ 63) {offset : ℕ}
    (hoffset : offset < 2 ^ 63 + 2 ^ 17) (hinfo : info.Names Printing) :
    Ensures (parseHelloExtensions data offset info isClientHello) (TlsInfo.Names Printing) := by
  refine (ensures_add (by omega)).bind fun extStart hstart => ?_
  refine Ensures.ite (fun _ => ensures_pure hinfo) fun hshort => ?_
  refine (beAt_ensures (by omega)).bind fun extensionsLen _ => ?_
  refine Ensures.ite (fun hmore => ?_) fun _ => ensures_pure hinfo
  refine (ensures_add (by omega)).bind fun extEnd hend => ?_
  refine (ensures_slice (by omega) (by omega)).bind fun extensions hext => ?_
  refine Ensures.ite (fun _ => ensures_pure hinfo) fun _ => ?_
  exact parseExtensions_ensures (by omega) hinfo

theorem parseClientHelloTail_ensures (hlen : data.length < 2 ^ 63)
    (hinfo : info.Names Printing) :
    Ensures (parseClientHelloTail data info) (TlsInfo.Names Printing) := by
  refine Ensures.ite (fun _ => ensures_pure hinfo) fun hsession => ?_
  refine (ensures_index (by omega)).bind fun sessionIdLen _ => ?_
  -- the session's length is one byte, and so is that of the compression methods
  have hid := sessionIdLen.toNat_lt
  refine (ensures_add (by omega)).bind fun suites hsuites => ?_
  refine Ensures.ite (fun _ => ensures_pure hinfo) fun _ => ?_
  refine (ensures_add (by omega)).bind fun suitesStart hstart => ?_
  refine Ensures.ite (fun _ => ensures_pure hinfo) fun _ => ?_
  refine (beAt_ensures (by omega)).bind fun cipherSuitesLen hciphers => ?_
  refine (ensures_add (by omega)).bind fun compression hcompression => ?_
  refine Ensures.ite (fun _ => ensures_pure hinfo) fun _ => ?_
  refine Ensures.ite (fun _ => ensures_pure hinfo) fun _ => ?_
  refine (ensures_index (by omega)).bind fun compressionLen _ => ?_
  have hmethods := compressionLen.toNat_lt
  refine (ensures_add (by omega)).bind fun extensions hextensions => ?_
  refine Ensures.ite (fun _ => ensures_pure hinfo) fun _ => ?_
  exact parseHelloExtensions_ensures hlen (by omega) hinfo

theorem parseClientHello_ensures (hlen : data.length < 2 ^ 63) (hinfo : info.Names Printing)
    (recordVersion : Option TlsVersion) :
    Ensures (parseClientHello data info recordVersion) (TlsInfo.Names Printing) := by
  refine Ensures.ite (fun _ => ensures_pure hinfo) fun _ => ?_
  refine (ensures_index (by omega)).bind fun major _ => ?_
  refine (ensures_index (by omega)).bind fun minor _ => ?_
  refine Ensures.ite (fun _ => ensures_pure hinfo) fun _ => ?_
  exact parseClientHelloTail_ensures hlen hinfo

theorem parseServerHello_ensures (hlen : data.length < 2 ^ 63) (hinfo : info.Names Printing) :
    Ensures (parseServerHello data info) (TlsInfo.Names Printing) := by
  refine Ensures.ite (fun _ => ensures_pure hinfo) fun _ => ?_
  refine (ensures_index (by omega)).bind fun major _ => ?_
  refine (ensures_index (by omega)).bind fun minor _ => ?_
  refine Ensures.ite (fun _ => ensures_pure hinfo) fun _ => ?_
  refine Ensures.ite (fun _ => ensures_pure hinfo) fun hsession => ?_
  refine (ensures_index (by omega)).bind fun sessionIdLen _ => ?_
  -- the session's length is one byte, so that the offset stays small
  have hid := sessionIdLen.toNat_lt
  refine (ensures_add (by omega)).bind fun cipherStart hcipher => ?_
  refine Ensures.ite (fun _ => ensures_pure hinfo) fun _ => ?_
  refine (ensures_add (by omega)).bind fun cipherEnd hend => ?_
  refine Ensures.ite (fun _ => ensures_pure hinfo) fun _ => ?_
  refine (beAt_ensures (by omega)).bind fun cipher _ => ?_
  refine Ensures.ite (fun _ => ensures_pure hinfo) fun _ => ?_
  refine (ensures_add (by omega)).bind fun extensions hextensions => ?_
  exact parseHelloExtensions_ensures hlen (by omega) hinfo

theorem parseHandshake_ensures (hlen : data.length < 2 ^ 63) (hheader : 4 ≤ data.length)
    (hinfo : info.Names Printing) (recordVersion : Option TlsVersion) :
    Ensures (parseHandshake data info recordVersion) (TlsInfo.Names Printing) := by
  refine (ensures_index (by omega)).bind fun handshakeType _ => ?_
  refine Ensures.ite (fun _ => ensures_pure hinfo) fun _ => ?_
  refine (beAt_ensures (by omega)).bind fun handshakeLength _ => ?_
  refine Ensures.ite (fun _ => ensures_pure hinfo) fun _ => ?_
  refine (ensures_sub (by omega)).bind fun left hleft => ?_
  refine Ensures.ite (fun _ => ensures_pure hinfo) fun _ => ?_
  refine (ensures_add (by omega)).bind fun handshakeEnd hend => ?_
  have hhello : Ensures (slice data 4 handshakeEnd) fun hello => hello.length < 2 ^ 63 :=
    (ensures_slice (by omega) (by omega)).mono fun hello hhello => by omega
  refine Ensures.ite (fun _ => ?_) fun _ => Ensures.ite (fun _ => ?_) fun _ => ensures_pure hinfo
  · exact hhello.bind fun hello hhello => parseClientHello_ensures hhello hinfo recordVersion
  · exact hhello.bind fun hello hhello => parseServerHello_ensures hhello hinfo

/-- No segment makes the analysis fail, and only names of printing characters are read from it. -/
theorem analyzeHttps_ensures {payload : List UInt8} (hlen : payload.length < 2 ^ 63) :
    Ensures (analyzeHttps payload) fun https? =>
      ∀ https, https? = some https → ∀ info, https.tlsInfo = some info → info.Names Printing := by
  -- the early returns have read no name
  have hnone : ∀ {version : Option TlsVersion},
      { TlsInfo.new with version := version }.Names Printing := by
    intro version name hname
    exact nomatch hname
  have hsome : ∀ {info : TlsInfo}, info.Names Printing →
      Ensures (pure (some (⟨some info⟩ : HttpsInfo))) fun https? =>
        ∀ https, https? = some https → ∀ info, https.tlsInfo = some info →
          info.Names Printing := fun hinfo =>
    ensures_some fun info heq => Option.some.inj heq ▸ hinfo
  refine Ensures.ite (fun _ => ensures_none) fun hheader => ?_
  refine (ensures_index (by omega)).bind fun contentType _ => ?_
  refine (ensures_index (by omega)).bind fun major _ => ?_
  refine (ensures_index (by omega)).bind fun minor _ => ?_
  refine Ensures.ite (fun _ => hsome hnone) fun _ => ?_
  refine (Tls.beAt_ensures (by omega)).bind fun recordLength _ => ?_
  refine Ensures.ite (fun _ => hsome hnone) fun _ => ?_
  refine (ensures_sub (by omega)).bind fun left hleft => ?_
  refine Ensures.ite (fun _ => hsome hnone) fun havailable => ?_
  refine (ensures_add (by omega)).bind fun handshakeEnd hend => ?_
  refine (ensures_slice (by omega) (by omega)).bind fun handshakeData hdata => ?_
  refine (parseHandshake_ensures (by omega) (by omega) hnone _).bind fun info hinfo => ?_
  exact hsome hinfo

/-- Whatever the lengths in a segment say, its analysis ends and reads no byte behind the data. The
segment is any sequence of bytes that a slice can hold (`hlen`): lengths of the record, of the
message, of its lists and its extensions may be beyond the end, or beyond each other. -/
theorem analyzeHttps_returns {payload : List UInt8} (hlen : payload.length < 2 ^ 63) :
    ∃ https?, analyzeHttps payload = pure https? := by
  obtain ⟨https?, hreturns, -⟩ := analyzeHttps_ensures hlen
  exact ⟨https?, hreturns⟩

/-- A Client Hello whose extensions are declared to go on far behind its end. -/
theorem analyzeHttps_returns_truncated :
    ∃ https?, analyzeHttps ([0x16, 3, 1, 0x02, 0x00, 1, 0, 1, 0xFC, 3, 3] ++
      List.replicate 32 0 ++ [0, 0, 2, 0x13, 0x01, 1, 0, 0xFF, 0xFF, 0, 0, 0xFF]) = pure https? :=
  analyzeHttps_returns (by decide)

end Safety

end Https

end RustNet

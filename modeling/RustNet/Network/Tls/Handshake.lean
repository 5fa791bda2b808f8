import RustNet.Foundations.BigEndian
import RustNet.Foundations.Checked
import RustNet.Network.Tls.HostName

/-!
# TLS hello messages

`parse_partial_tls_handshake` and the parsers below it, which read a ClientHello or a ServerHello as
far as its bytes have arrived. The lengths in a message are those that its sender chose; every
access is a checked one, and so is every sum with such a length. Loops have one round more than the
data has bytes, and a loop that would need more stops with a fault. The differences that are only
logged are also among those that the parsers compute.

## Main definitions

* `Tls.parsePartialTlsHandshake`, `Tls.parseTlsExtensions`, `Tls.parseSniExtension`;
* `TlsInfo.Names`: what holds of the server name of a record, if there is one.

## Main results

* `Tls.parseTlsExtensions_ensures`: the loop over the extensions ends, and reads none outside the
  data;
* `Tls.parsePartialTlsHandshake_ensures`: no data makes the parser fail, and only host names, or
  cut-off ones if these are let through, are read from it.
-/

namespace RustNet

/-- `TlsInfo::new`: the record of a handshake of which nothing has been read yet. -/
def TlsInfo.new : TlsInfo where
  version := none
  sni := none
  alpn := []
  cipherSuite := none

/-- The server name of a record, if there is one, satisfies `P`. -/
def TlsInfo.Names (P : String → Prop) (info : TlsInfo) : Prop := ∀ sni, info.sni = some sni → P sni

theorem TlsInfo.Names.mono {P Q : String → Prop} {info : TlsInfo} (h : info.Names P)
    (hPQ : ∀ sni, P sni → Q sni) : info.Names Q := fun sni heq => hPQ sni (h sni heq)

namespace Tls

open Checked

/-- `u16::from_be_bytes` and the like, of the `n` bytes from `start` on. -/
def beAt (data : List UInt8) (start n : ℕ) : Checked ℕ := do
  let bytes ← indices data start n
  return BigEndian.value bytes

section BeAt

variable {data rest : List UInt8} {offset n v k : ℕ}

theorem beAt_eq (h : At data offset (BigEndian.bytes n v ++ rest)) (hv : v < 256 ^ n) :
    beAt data offset n = pure v := by
  have hindices := h.indices
  rw [BigEndian.length_bytes] at hindices
  rw [beAt, hindices, pure_bind', BigEndian.value_bytes, Nat.mod_eq_of_lt hv]

theorem beAt_take (h : At data offset (BigEndian.bytes n v ++ rest)) (hv : v < 256 ^ n)
    (hk : offset + n ≤ (data.take k).length) : beAt (data.take k) offset n = pure v := by
  have hfits : offset + (BigEndian.bytes n v).length ≤ (data.take k).length := by
    rwa [BigEndian.length_bytes]
  exact beAt_eq (h.take_append hfits) hv

theorem beAt_ensures (h : offset + n ≤ data.length) :
    Ensures (beAt data offset n) fun v => v < 256 ^ n := by
  refine (ensures_indices h).bind fun bytes hbytes => ensures_pure ?_
  rw [← hbytes]
  exact BigEndian.value_lt bytes

end BeAt

/-! ## Server names -/

/-- `SniHeader`: the lengths of the list of names and of its first name, as the extension declares
them. -/
structure SniHeader where
  listLen : ℕ
  nameLen : ℕ

/-- `parse_sni_header`: the five bytes in front of a host name, whose length must be between 1 and
253. -/
def parseSniHeader (data : List UInt8) : Checked (Option SniHeader) := do
  if data.length < 5 then return none
  let listLen ← beAt data 0 2
  let nameType ← index data 2
  let nameLen ← beAt data 3 2
  if nameType ≠ 0x00 then return none
  if nameLen = 0 ∨ 253 < nameLen then return none
  return some ⟨listLen, nameLen⟩

/-- `parse_sni_extension`: the host name, if all of it is there. A part of it is only taken where
that is allowed, and marked. -/
def parseSniExtension (data : List UInt8) (allowPartial : Bool) : Checked (Option String) := do
  let some header ← parseSniHeader data | return none
  let hostnameEnd ← add 5 header.nameLen
  if hostnameEnd ≤ data.length then do
    let sniData ← slice data 5 hostnameEnd
    return completeName sniData
  else if allowPartial = true ∧ 5 < data.length then do
    let available ← sliceFrom data 5
    return cutName available
  else return none

/-! ## Other extensions -/

/-- The loop of `parse_alpn_extension`. A protocol that is not UTF-8 is passed over. -/
def alpnLoop (data : List UInt8) (listEnd : ℕ) :
    ℕ → ℕ → List String → Checked (List String)
  | 0, _, _ => throw .endless
  | rounds + 1, offset, protocols => do
    if offset < listEnd ∧ offset < data.length then do
      let protoLen ← index data offset
      let offset ← add offset 1
      let protoEnd ← add offset protoLen.toNat
      if protoEnd ≤ data.length then do
        let proto ← slice data offset protoEnd
        alpnLoop data listEnd rounds protoEnd (protocols ++ (fromUtf8 proto).toList)
      else alpnLoop data listEnd rounds protoEnd protocols
    else return protocols

/-- `parse_alpn_extension`: the protocols of the list that are there in full and are UTF-8, or
nothing when there are none. -/
def parseAlpnExtension (data : List UInt8) : Checked (Option (List String)) := do
  if data.length < 2 then return none
  let alpnLen ← beAt data 0 2
  let left ← sub data.length 2
  let listEnd ← add 2 (min alpnLen left)
  let protocols ← alpnLoop data listEnd (data.length + 1) 2 []
  return if protocols.isEmpty then none else some protocols

/-- The loop of `parse_supported_versions`: whether it returns early. -/
def versionLoop (data : List UInt8) (listEnd : ℕ) : ℕ → ℕ → Checked (Option TlsVersion)
  | 0, _ => throw .endless
  | rounds + 1, offset => do
    let second ← add offset 1
    if second < data.length ∧ offset < listEnd then do
      let major ← index data offset
      let minor ← index data second
      if major = 0x03 ∧ minor = 0x04 then return some .tls13
      let next ← add offset 2
      versionLoop data listEnd rounds next
    else return none

/-- `parse_supported_versions`. QUIC always uses TLS 1.3, also when it is not listed. -/
def parseSupportedVersions (data : List UInt8) (isClient : Bool) : Checked (Option TlsVersion) := do
  if isClient = true then do
    if data.isEmpty = true then return none
    let listLen ← index data 0
    let listEnd ← add 1 listLen.toNat
    let listed ← versionLoop data listEnd (data.length + 1) 1
    return some (listed.getD .tls13)
  else do
    -- what the server selects makes no difference either
    let _selected ← if 2 ≤ data.length then indices data 0 2 else pure []
    return some .tls13

/-! ## Extensions -/

/-- The match on `ext_type`, for an extension that is there in full. -/
def parseTlsExtension (info : TlsInfo) (isClient allowPartial : Bool) (extType : ℕ)
    (extData : List UInt8) : Checked TlsInfo :=
  if extType = 0x0000 ∧ isClient = true then do
    let sni ← parseSniExtension extData allowPartial
    return { info with sni := sni.or info.sni }
  else if extType = 0x0010 then do
    let alpn ← parseAlpnExtension extData
    return { info with alpn := alpn.getD info.alpn }
  else if extType = 0x002b then do
    let version ← parseSupportedVersions extData isClient
    return { info with version := version.or info.version }
  else return info

/-- An extension that is cut off, at the end of the data. -/
def parseCutExtension (data : List UInt8) (info : TlsInfo) (isClient allowPartial : Bool)
    (extType offset headerEnd : ℕ) : Checked TlsInfo := do
  let left ← sub data.length offset
  let availableExtLen ← sub left 4
  if allowPartial = true ∧ extType = 0x0000 ∧ isClient = true ∧ 5 < availableExtLen then do
    let extData ← sliceFrom data headerEnd
    let sni ← parseSniExtension extData true
    return { info with sni := sni.or info.sni }
  else return info

/-- The loop of `parse_tls_extensions`: an extension that is there in full is parsed, and the first
one that is cut off ends the loop with what may be read of it. -/
def extensionsLoop (data : List UInt8) (isClient allowPartial : Bool) :
    ℕ → ℕ → TlsInfo → Checked TlsInfo
  | 0, _, _ => throw .endless
  | rounds + 1, offset, info => do
    let headerEnd ← add offset 4
    if headerEnd ≤ data.length then do
      let extType ← beAt data offset 2
      let extLen ← beAt data (offset + 2) 2
      let extEnd ← add headerEnd extLen
      if data.length < extEnd then
        parseCutExtension data info isClient allowPartial extType offset headerEnd
      else do
        let extData ← slice data headerEnd extEnd
        let info ← parseTlsExtension info isClient allowPartial extType extData
        extensionsLoop data isClient allowPartial rounds extEnd info
    else return info

/-- `parse_tls_extensions`: the extensions from the beginning of the data. A round takes four bytes
at least, so that the rounds cannot run out. -/
def parseTlsExtensions (data : List UInt8) (info : TlsInfo) (isClient allowPartial : Bool) :
    Checked TlsInfo :=
  extensionsLoop data isClient allowPartial (data.length + 1) 0 info

/-! ## Hello messages -/

/-- The end of both hello messages: the extensions, as far as they are there. -/
def parseExtensionsAt (data : List UInt8) (offset : ℕ) (info : TlsInfo)
    (isClient allowPartial : Bool) : Checked TlsInfo := do
  let extStart ← add offset 2
  if data.length < extStart then return info
  let extensionsLen ← beAt data offset 2
  let left ← sub data.length extStart
  let availableExtLen := min left extensionsLen
  if 0 < availableExtLen then do
    let extEnd ← add extStart availableExtLen
    let extensions ← slice data extStart extEnd
    parseTlsExtensions extensions info isClient allowPartial
  else return info

/-- `parse_partial_client_hello`; the version and the random take up 34 bytes. -/
def parsePartialClientHello (data : List UInt8) (info : TlsInfo) (allowPartial : Bool) :
    Checked TlsInfo := do
  if data.length < 34 then return info
  -- the session, the cipher suites and the compression methods are skipped
  if data.length ≤ 34 then return info
  let sessionIdLen ← index data 34
  let offset ← add 34 (1 + sessionIdLen.toNat)
  let suitesStart ← add offset 2
  if data.length < suitesStart then return info
  let cipherSuitesLen ← beAt data offset 2
  let offset ← add offset (2 + cipherSuitesLen)
  if data.length ≤ offset then return info
  let compressionLen ← index data offset
  let offset ← add offset (1 + compressionLen.toNat)
  parseExtensionsAt data offset info true allowPartial

/-- `parse_partial_server_hello`: the cipher suite that was chosen and the extensions. A message
that ends early leaves what has been read so far. -/
def parsePartialServerHello (data : List UInt8) (info : TlsInfo) : Checked TlsInfo := do
  if data.length < 34 then return info
  if data.length ≤ 34 then return info
  let sessionIdLen ← index data 34
  let offset ← add 34 (1 + sessionIdLen.toNat)
  let cipherEnd ← add offset 2
  if data.length < cipherEnd then return info
  let cipher ← beAt data offset 2
  let info := { info with cipherSuite := some (UInt16.ofNat cipher) }
  if data.length ≤ cipherEnd then return info
  -- the compression method is one byte
  let offset ← add cipherEnd 1
  parseExtensionsAt data offset info false false

/-- The end of `parse_partial_tls_handshake`: a record that says nothing is dropped. -/
def usefulInfo (info : TlsInfo) : Option TlsInfo :=
  if info.sni.isSome || !info.alpn.isEmpty || info.version.isSome then some info else none

/-- `parse_partial_tls_handshake`: a hello of either side, as far as it is there. Messages that
declare more than 65,536 bytes and other messages give nothing. -/
def parsePartialTlsHandshake (data : List UInt8) (allowPartial : Bool) :
    Checked (Option TlsInfo) := do
  if data.length < 4 then return none
  let handshakeType ← index data 0
  let handshakeLength ← beAt data 1 3
  let availableData ← sliceFrom data 4
  -- the message as far as it is there
  let parseLength := min handshakeLength availableData.length
  if 65536 < handshakeLength then return none
  if handshakeType = 0x01 then do
    let hello ← sliceTo availableData parseLength
    let info ← parsePartialClientHello hello .new allowPartial
    return usefulInfo info
  else if handshakeType = 0x02 then do
    let hello ← sliceTo availableData parseLength
    let info ← parsePartialServerHello hello .new
    return usefulInfo info
  else return none

/-! ## Safety -/

section Safety

variable {data : List UInt8} {allowPartial isClient : Bool} {info : TlsInfo} {P : String → Prop}

theorem parseSniHeader_ensures (data : List UInt8) :
    Ensures (parseSniHeader data) fun header? => ∀ header, header? = some header →
      5 ≤ data.length ∧ header.nameLen ≤ 253 := by
  refine Ensures.ite (fun _ => ensures_none) fun hshort => ?_
  refine (beAt_ensures (by omega)).bind fun listLen _ => ?_
  refine (ensures_index (by omega)).bind fun nameType _ => ?_
  refine (beAt_ensures (by omega)).bind fun nameLen _ => ?_
  refine Ensures.ite (fun _ => ensures_none) fun _ => ?_
  refine Ensures.ite (fun _ => ensures_none) fun hname => ensures_some ?_
  exact ⟨Nat.not_lt.mp hshort, Nat.not_lt.mp fun hlong => hname (.inr hlong)⟩

/-- Only host names are read from a `server_name` extension, or cut-off ones if these are let
through. -/
theorem parseSniExtension_ensures (data : List UInt8) (allowPartial : Bool) :
    Ensures (parseSniExtension data allowPartial) fun sni? =>
      ∀ sni, sni? = some sni → Surfaced allowPartial sni := by
  refine (parseSniHeader_ensures data).bindOption (fun header hheader => ?_) ensures_none
  refine (ensures_add (by omega)).bind fun hostnameEnd hend => ?_
  refine Ensures.ite (fun hfits => ?_) fun _ => Ensures.ite (fun hcut => ?_) fun _ => ensures_none
  · refine (ensures_slice (by omega) hfits).bind fun sniData _ => ensures_pure fun sni hsni => ?_
    exact surfaced_completeName hsni allowPartial
  · refine (ensures_sliceFrom hcut.2.le).bind fun available _ => ensures_pure fun sni hsni => ?_
    rw [hcut.1]
    exact surfaced_cutName hsni

theorem alpnLoop_ensures (hlen : data.length < 2 ^ 63) {listEnd rounds offset : ℕ}
    {protocols : List String} (hoffset : offset < 2 ^ 63 + 256)
    (hrounds : data.length - offset < rounds) :
    Ensures (alpnLoop data listEnd rounds offset protocols) fun _ => True := by
  induction rounds generalizing offset protocols with
  | zero => exact absurd hrounds (Nat.not_lt_zero _)
  | succ rounds ih =>
    rw [alpnLoop]
    refine Ensures.ite (fun hmore => ?_) fun _ => ensures_pure trivial
    refine (ensures_index hmore.2).bind fun protoLen _ => ?_
    have hproto := protoLen.toNat_lt
    refine (ensures_add (by omega)).bind fun next hnext => ?_
    refine (ensures_add (by omega)).bind fun protoEnd hend => ?_
    refine Ensures.ite (fun hfits => ?_) fun _ => ih (by omega) (by omega)
    exact (ensures_slice (by omega) hfits).bind fun proto _ => ih (by omega) (by omega)

theorem parseAlpnExtension_ensures (hlen : data.length < 2 ^ 63) :
    Ensures (parseAlpnExtension data) fun _ => True := by
  refine Ensures.ite (fun _ => ensures_pure trivial) fun hshort => ?_
  refine (beAt_ensures (by omega)).bind fun alpnLen _ => ?_
  refine (ensures_sub (by omega)).bind fun left hleft => ?_
  refine (ensures_add (by omega)).bind fun listEnd _ => ?_
  exact (alpnLoop_ensures hlen (by omega) (by omega)).bind fun _ _ => ensures_pure trivial

theorem versionLoop_ensures (hlen : data.length < 2 ^ 63) {listEnd rounds offset : ℕ}
    (hoffset : offset ≤ data.length + 1) (hrounds : data.length - offset < rounds) :
    Ensures (versionLoop data listEnd rounds offset) fun _ => True := by
  induction rounds generalizing offset with
  | zero => exact absurd hrounds (Nat.not_lt_zero _)
  | succ rounds ih =>
    rw [versionLoop]
    refine (ensures_add (by omega)).bind fun second hsecond => ?_
    refine Ensures.ite (fun hmore => ?_) fun _ => ensures_pure trivial
    refine (ensures_index (by omega)).bind fun major _ => ?_
    refine (ensures_index hmore.1).bind fun minor _ => ?_
    refine Ensures.ite (fun _ => ensures_pure trivial) fun _ => ?_
    exact (ensures_add (by omega)).bind fun next hnext => ih (by omega) (by omega)

theorem parseSupportedVersions_ensures (hlen : data.length < 2 ^ 63) (isClient : Bool) :
    Ensures (parseSupportedVersions data isClient) fun _ => True := by
  refine Ensures.ite (fun _ => ?_) fun _ => ?_
  · refine Ensures.ite (fun _ => ensures_pure trivial) fun hempty => ?_
    have hpos : 0 < data.length :=
      List.length_pos_of_ne_nil fun hnil => hempty (List.isEmpty_iff.mpr hnil)
    refine (ensures_index hpos).bind fun listLen _ => ?_
    have hlist := listLen.toNat_lt
    refine (ensures_add (by omega)).bind fun listEnd _ => ?_
    exact (versionLoop_ensures hlen (by omega) (by omega)).bind fun _ _ => ensures_pure trivial
  · refine Ensures.ite (fun htwo => ?_) fun _ => ensures_pure trivial
    exact (ensures_indices (by omega)).bind fun _ _ => ensures_pure trivial

/-- A name that is read takes the place of one that is recorded. -/
theorem names_or {sni? : Option String} (hsni : ∀ sni, sni? = some sni → P sni)
    (hinfo : info.Names P) : TlsInfo.Names P { info with sni := sni?.or info.sni } := by
  rcases sni? with _ | sni
  · exact hinfo
  · exact fun _ heq => hsni _ heq

/-- Extensions other than `server_name` leave the name of a record alone. -/
theorem parseTlsExtension_ensures {extType : ℕ} {extData : List UInt8}
    (hlen : extData.length < 2 ^ 63) (hinfo : info.Names P)
    (hsni : extType = 0x0000 → Ensures (parseSniExtension extData allowPartial) fun sni? =>
      ∀ sni, sni? = some sni → P sni) :
    Ensures (parseTlsExtension info isClient allowPartial extType extData) (TlsInfo.Names P) := by
  refine Ensures.ite (fun htype => ?_) fun _ => Ensures.ite (fun _ => ?_) fun _ =>
    Ensures.ite (fun _ => ?_) fun _ => ensures_pure hinfo
  · exact (hsni htype.1).bind fun sni? hsni => ensures_pure (names_or hsni hinfo)
  · exact (parseAlpnExtension_ensures hlen).bind fun _ _ => ensures_pure hinfo
  · exact (parseSupportedVersions_ensures hlen isClient).bind fun _ _ => ensures_pure hinfo

theorem parseCutExtension_ensures {extType offset headerEnd : ℕ} (hend : headerEnd = offset + 4)
    (hle : headerEnd ≤ data.length) (hinfo : info.Names P)
    (hsni : extType = 0x0000 → allowPartial = true →
      Ensures (parseSniExtension (data.drop headerEnd) true) fun sni? =>
        ∀ sni, sni? = some sni → P sni) :
    Ensures (parseCutExtension data info isClient allowPartial extType offset headerEnd)
      (TlsInfo.Names P) := by
  refine (ensures_sub (by omega)).bind fun left hleft => ?_
  refine (ensures_sub (by omega)).bind fun availableExtLen _ => ?_
  refine Ensures.ite (fun hcut => ?_) fun _ => ensures_pure hinfo
  rw [sliceFrom_eq hle, pure_bind']
  exact (hsni hcut.2.1 hcut.1).bind fun sni? hsni => ensures_pure (names_or hsni hinfo)

/-- The loop over the extensions ends, and reads none outside the data. -/
theorem extensionsLoop_ensures (hlen : data.length < 2 ^ 63) {rounds offset : ℕ}
    (hoffset : offset ≤ data.length) (hrounds : data.length - offset < rounds)
    (hinfo : info.Names (Surfaced allowPartial)) :
    Ensures (extensionsLoop data isClient allowPartial rounds offset info)
      (TlsInfo.Names (Surfaced allowPartial)) := by
  -- an extension takes four bytes at least, so the rounds cannot run out
  induction rounds generalizing offset info with
  | zero => exact absurd hrounds (Nat.not_lt_zero _)
  | succ rounds ih =>
    rw [extensionsLoop]
    refine (ensures_add (by omega)).bind fun headerEnd hheader => ?_
    refine Ensures.ite (fun hmore => ?_) fun _ => ensures_pure hinfo
    refine (beAt_ensures (by omega)).bind fun extType _ => ?_
    refine (beAt_ensures (by omega)).bind fun extLen hext => ?_
    refine (ensures_add (by omega)).bind fun extEnd hend => ?_
    refine Ensures.ite (fun _ => ?_) fun hfits => ?_
    -- the first extension that is cut off ends the loop
    · refine parseCutExtension_ensures hheader hmore hinfo fun _ hallow => ?_
      rw [hallow]
      exact parseSniExtension_ensures _ true
    · refine (ensures_slice (by omega) (Nat.not_lt.mp hfits)).bind fun extData hextData => ?_
      refine (parseTlsExtension_ensures (by omega) hinfo fun _ =>
        parseSniExtension_ensures extData allowPartial).bind fun info hinfo => ?_
      exact ih (Nat.not_lt.mp hfits) (by omega) hinfo

theorem parseTlsExtensions_ensures (hlen : data.length < 2 ^ 63)
    (hinfo : info.Names (Surfaced allowPartial)) :
    Ensures (parseTlsExtensions data info isClient allowPartial)
      (TlsInfo.Names (Surfaced allowPartial)) :=
  extensionsLoop_ensures hlen (Nat.zero_le _) (by omega) hinfo

theorem parseExtensionsAt_ensures (hlen : data.length < 2 ^ 63) {offset : ℕ}
    (hoffset : offset < 2 ^ 63 + 2 ^ 17) (hinfo : info.Names (Surfaced allowPartial)) :
    Ensures (parseExtensionsAt data offset info isClient allowPartial)
      (TlsInfo.Names (Surfaced allowPartial)) := by
  refine (ensures_add (by omega)).bind fun extStart hstart => ?_
  refine Ensures.ite (fun _ => ensures_pure hinfo) fun hshort => ?_
  refine (beAt_ensures (by omega)).bind fun extensionsLen _ => ?_
  refine (ensures_sub (by omega)).bind fun left hleft => ?_
  refine Ensures.ite (fun _ => ?_) fun _ => ensures_pure hinfo
  refine (ensures_add (by omega)).bind fun extEnd hend => ?_
  refine (ensures_slice (by omega) (by omega)).bind fun extensions hext => ?_
  exact parseTlsExtensions_ensures (by omega) hinfo

theorem parsePartialClientHello_ensures (hlen : data.length < 2 ^ 63)
    (hinfo : info.Names (Surfaced allowPartial)) :
    Ensures (parsePartialClientHello data info allowPartial)
      (TlsInfo.Names (Surfaced allowPartial)) := by
  refine Ensures.ite (fun _ => ensures_pure hinfo) fun _ => ?_
  refine Ensures.ite (fun _ => ensures_pure hinfo) fun hsession => ?_
  refine (ensures_index (by omega)).bind fun sessionIdLen _ => ?_
  -- lengths of one and two bytes keep all offsets small
  have hid := sessionIdLen.toNat_lt
  refine (ensures_add (by omega)).bind fun suites hsuites => ?_
  refine (ensures_add (by omega)).bind fun suitesStart hstart => ?_
  refine Ensures.ite (fun _ => ensures_pure hinfo) fun _ => ?_
  refine (beAt_ensures (by omega)).bind fun cipherSuitesLen hciphers => ?_
  refine (ensures_add (by omega)).bind fun compression hcompression => ?_
  refine Ensures.ite (fun _ => ensures_pure hinfo) fun _ => ?_
  refine (ensures_index (by omega)).bind fun compressionLen _ => ?_
  have hmethods := compressionLen.toNat_lt
  refine (ensures_add (by omega)).bind fun extensions hextensions => ?_
  exact parseExtensionsAt_ensures hlen (by omega) hinfo

theorem parsePartialServerHello_ensures (hlen : data.length < 2 ^ 63)
    (hinfo : info.Names (Surfaced false)) :
    Ensures (parsePartialServerHello data info) (TlsInfo.Names (Surfaced false)) := by
  refine Ensures.ite (fun _ => ensures_pure hinfo) fun _ => ?_
  refine Ensures.ite (fun _ => ensures_pure hinfo) fun hsession => ?_
  refine (ensures_index (by omega)).bind fun sessionIdLen _ => ?_
  have hid := sessionIdLen.toNat_lt
  refine (ensures_add (by omega)).bind fun cipherStart hcipher => ?_
  refine (ensures_add (by omega)).bind fun cipherEnd hend => ?_
  refine Ensures.ite (fun _ => ensures_pure hinfo) fun _ => ?_
  refine (beAt_ensures (by omega)).bind fun cipher _ => ?_
  refine Ensures.ite (fun _ => ensures_pure hinfo) fun _ => ?_
  refine (ensures_add (by omega)).bind fun extensions hextensions => ?_
  exact parseExtensionsAt_ensures hlen (by omega) hinfo

/-- No data makes the parser fail, and only host names, or cut-off ones if these are let through,
are read from it. -/
theorem parsePartialTlsHandshake_ensures (hlen : data.length < 2 ^ 63) (allowPartial : Bool) :
    Ensures (parsePartialTlsHandshake data allowPartial) fun info? =>
      ∀ info, info? = some info → info.Names (Surfaced allowPartial) := by
  have hnew : ∀ {P}, TlsInfo.new.Names P := fun _ heq => nomatch heq
  -- a record is only returned if it has something in it
  have huseful : ∀ {info : TlsInfo}, info.Names (Surfaced allowPartial) →
      Ensures (pure (usefulInfo info)) fun info? =>
        ∀ info, info? = some info → info.Names (Surfaced allowPartial) := fun {info} hinfo => by
    rw [usefulInfo]
    split_ifs
    · exact ensures_some hinfo
    · exact ensures_none
  refine Ensures.ite (fun _ => ensures_none) fun hshort => ?_
  refine (ensures_index (by omega)).bind fun handshakeType _ => ?_
  refine (beAt_ensures (by omega)).bind fun handshakeLength _ => ?_
  refine (ensures_sliceFrom (by omega)).bind fun availableData havailable => ?_
  refine Ensures.ite (fun _ => ensures_none) fun _ => ?_
  -- a hello of the client, one of the server, and no other message
  have hhello := ensures_sliceTo (Nat.min_le_right handshakeLength availableData.length)
  refine Ensures.ite (fun _ => ?_) fun _ => Ensures.ite (fun _ => ?_) fun _ => ensures_none
  · refine hhello.bind fun hello hhello => ?_
    exact (parsePartialClientHello_ensures (by omega) hnew).bind fun info hinfo => huseful hinfo
  · refine hhello.bind fun hello hhello => ?_
    refine (parsePartialServerHello_ensures (by omega) hnew).bind fun info hinfo => ?_
    exact huseful fun sni heq => (hinfo sni heq).imp_right fun hcut => absurd hcut.1 (by decide)

end Safety

end Tls

end RustNet

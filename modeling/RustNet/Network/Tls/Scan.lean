import RustNet.Network.Tls.Handshake

/-!
# Pattern scans

The searches for TLS structures in bytes that do not start with a hello message: at every position
of the data something that looks like a record, a handshake message or an extension. The first
position that gives anything ends a scan.

A sum that is only an index is not checked for overflow: where it did not fit, the access would
leave the data.

## Main definitions

* `Tls.tryExtractSniGreedy`, `Tls.tryParseUnencryptedCryptoFrames`;
* `Tls.scanFragment`: the scan of `try_reconstruct_sni_from_fragments` over one fragment.

## Main results

* `Tls.tryExtractSniGreedy_ensures`, `Tls.tryParseUnencryptedCryptoFrames_ensures`,
  `Tls.scanFragment_ensures`: no data makes a scan fail, and what it finds may be handed out, cut
  off names only where they are asked for.
-/

namespace RustNet

/-- The record of a server name alone. -/
def TlsInfo.ofSni (sni : String) : TlsInfo := { TlsInfo.new with sni := some sni }

@[simp]
theorem TlsInfo.ofSni_inj {sni sni' : String} : TlsInfo.ofSni sni = .ofSni sni' ↔ sni = sni' :=
  ⟨fun heq => Option.some.inj (congrArg TlsInfo.sni heq), congrArg TlsInfo.ofSni⟩

namespace Tls

open Checked

/-- An extension type with the given second byte stands at `i`; the first one is zero. -/
def extTypeAt (data : List UInt8) (i : ℕ) (low : UInt8) : Checked Bool := do
  let first ← index data i
  if first = 0x00 then do
    let second ← index data (i + 1)
    return decide (second = low)
  else return false

/-! ## The greedy scan -/

/-- One position of `try_extract_sni_greedy`: the type, the lengths and the name of an extension
with a server name, each plausible, stand there. -/
def greedyAt (data : List UInt8) (allowPartial : Bool) (i : ℕ) : Checked (Option String) := do
  let isSni ← extTypeAt data i 0x00
  if isSni = false then return none
  let extStart ← add i 4
  if data.length < extStart then return none
  let extLen ← beAt data (i + 2) 2
  -- the lengths must be plausible before the name is read
  if extLen < 5 ∨ 300 < extLen then return none
  let sniData ← sliceFrom data extStart
  let some header ← parseSniHeader sniData | return none
  if extLen < header.listLen then return none
  let hostnameStart ← add i 9
  let hostnameEnd ← add hostnameStart header.nameLen
  if hostnameEnd ≤ data.length then do
    let hostname ← slice data hostnameStart hostnameEnd
    return completeName hostname
  else if allowPartial = true ∧ hostnameStart < data.length then do
    let available ← sliceFrom data hostnameStart
    return cutName available
  else return none

/-- `try_extract_sni_greedy`: the first position at which an extension with a server name seems to
begin and whose name can be read. -/
def tryExtractSniGreedy (data : List UInt8) (allowPartial : Bool) : Checked (Option String) := do
  if data.length < 9 then return none
  (List.range (data.length - 9)).findSomeM? (greedyAt data allowPartial)

/-! ## Unencrypted data -/

/-- A TLS record with a ClientHello at `offset`. -/
def recordAt (payload : List UInt8) (offset : ℕ) : Checked (Option TlsInfo) := do
  let contentType ← index payload offset
  if contentType ≠ 0x16 ∨ payload.length ≤ offset + 5 then return none
  let major ← index payload (offset + 1)
  let minor ← index payload (offset + 2)
  -- the versions from 1.0 to 1.3
  if major ≠ 0x03 ∨ minor < 0x01 ∨ 0x04 < minor then return none
  let recordLength ← beAt payload (offset + 3) 2
  let recordStart ← add offset 5
  let recordEnd ← add recordStart recordLength
  if payload.length < recordEnd then return none
  let handshakeData ← slice payload recordStart recordEnd
  if handshakeData.isEmpty = true then return none
  let handshakeType ← index handshakeData 0
  -- only a client's hello is read
  if handshakeType ≠ 0x01 then return none
  parsePartialTlsHandshake handshakeData false

/-- A ClientHello without a record at `offset`. -/
def directHandshakeAt (payload : List UInt8) (offset : ℕ) : Checked (Option TlsInfo) := do
  let handshakeType ← index payload offset
  if handshakeType ≠ 0x01 ∨ payload.length ≤ offset + 4 then return none
  let handshakeLength ← beAt payload (offset + 1) 3
  if handshakeLength = 0 ∨ 65536 ≤ handshakeLength then return none
  let bodyStart ← add offset 4
  let messageEnd ← add bodyStart handshakeLength
  if payload.length < messageEnd then return none
  let message ← slice payload offset messageEnd
  parsePartialTlsHandshake message false

/-- A `server_name` extension at `offset` whose lengths agree. -/
def sniExtensionAt (payload : List UInt8) (offset : ℕ) : Checked (Option TlsInfo) := do
  if payload.length ≤ offset + 20 then return none
  let isSni ← extTypeAt payload offset 0x00
  if isSni = false then return none
  let extLen ← beAt payload (offset + 2) 2
  let extStart ← add offset 4
  let extEnd ← add extStart extLen
  if extLen < 5 ∨ 300 < extLen ∨ payload.length < extEnd then return none
  let extData ← slice payload extStart extEnd
  if extData.length < 5 then return none
  let listLen ← beAt extData 0 2
  let sniType ← index extData 2
  let nameLen ← beAt extData 3 2
  -- the list must be of this one name
  if sniType ≠ 0x00 ∨ nameLen = 0 ∨ 253 < nameLen ∨ listLen < 3 ∨ 256 < listLen ∨
      listLen ≠ nameLen + 3 then return none
  let some sni ← parseSniExtension extData false | return none
  return some (TlsInfo.ofSni sni)

/-- An ALPN extension at `offset`. -/
def alpnExtensionAt (payload : List UInt8) (offset : ℕ) : Checked (Option TlsInfo) := do
  if payload.length ≤ offset + 10 then return none
  let isAlpn ← extTypeAt payload offset 0x10
  if isAlpn = false then return none
  let extLen ← beAt payload (offset + 2) 2
  let extStart ← add offset 4
  let extEnd ← add extStart extLen
  if extLen ≤ 2 ∨ payload.length < extEnd then return none
  let extData ← slice payload extStart extEnd
  let some alpn ← parseAlpnExtension extData | return none
  return some { TlsInfo.new with alpn := alpn }

/-- One position of `try_parse_unencrypted_crypto_frames`: what it tries there, in this order. -/
def unencryptedAt (payload : List UInt8) (offset : ℕ) : Checked (Option TlsInfo) :=
  [recordAt, directHandshakeAt, sniExtensionAt, alpnExtensionAt].findSomeM? fun attempt =>
    attempt payload offset

/-- `try_parse_unencrypted_crypto_frames`: the first position at which one of the attempts finds TLS
information in the payload as it is. -/
def tryParseUnencryptedCryptoFrames (payload : List UInt8) : Checked (Option TlsInfo) :=
  (List.range (payload.length - 10)).findSomeM? (unencryptedAt payload)

/-! ## Fragments -/

/-- One position of the scan over a fragment. -/
def fragmentPatternAt (data : List UInt8) (i : ℕ) : Checked (Option String) := do
  let isSni ← extTypeAt data i 0x00
  if isSni = false then return none
  let extLen ← beAt data (i + 2) 2
  if extLen < 5 ∨ 300 < extLen then return none
  let extStart ← add i 4
  let extEnd ← add extStart extLen
  let availableExtData ←
    if extEnd ≤ data.length then slice data extStart extEnd else sliceFrom data extStart
  let some header ← parseSniHeader availableExtData | return none
  if header.listLen < 3 ∨ 256 < header.listLen then return none
  parseSniExtension availableExtData true

/-- The scan of `try_reconstruct_sni_from_fragments` over one fragment. -/
def scanFragment (data : List UInt8) : Checked (Option String) :=
  (List.range (data.length - 10)).findSomeM? (fragmentPatternAt data)

/-! ## Safety -/

section Safety

variable {data payload : List UInt8} {offset : ℕ}

theorem names_ofSni {P : String → Prop} {sni : String} (h : P sni) : (TlsInfo.ofSni sni).Names P :=
  fun _ heq => Option.some.inj heq ▸ h

theorem extTypeAt_ensures {i : ℕ} (h : i + 1 < data.length) (low : UInt8) :
    Ensures (extTypeAt data i low) fun _ => True := by
  refine (ensures_index (by omega)).bind fun first _ => ?_
  refine Ensures.ite (fun _ => ?_) fun _ => ensures_pure trivial
  exact (ensures_index h).bind fun second _ => ensures_pure trivial

theorem greedyAt_ensures (hlen : data.length < 2 ^ 63) (allowPartial : Bool) {i : ℕ}
    (h : i < data.length - 9) :
    Ensures (greedyAt data allowPartial i) fun sni? =>
      ∀ sni, sni? = some sni → Surfaced allowPartial sni := by
  refine (extTypeAt_ensures (by omega) 0x00).bind fun isSni _ => ?_
  refine Ensures.ite (fun _ => ensures_none) fun _ => ?_
  refine (ensures_add (by omega)).bind fun extStart hstart => ?_
  refine Ensures.ite (fun _ => ensures_none) fun hshort => ?_
  refine (beAt_ensures (by omega)).bind fun extLen _ => ?_
  refine Ensures.ite (fun _ => ensures_none) fun _ => ?_
  refine (ensures_sliceFrom (Nat.not_lt.mp hshort)).bind fun sniData _ => ?_
  refine (parseSniHeader_ensures sniData).bindOption (fun header hheader => ?_) ensures_none
  refine Ensures.ite (fun _ => ensures_none) fun _ => ?_
  refine (ensures_add (by omega)).bind fun hostnameStart hname => ?_
  refine (ensures_add (by omega)).bind fun hostnameEnd hend => ?_
  -- the name is there whole, or it is cut off where that is allowed
  refine Ensures.ite (fun hfits => ?_) fun _ => Ensures.ite (fun hcut => ?_) fun _ => ensures_none
  · refine (ensures_slice (by omega) hfits).bind fun hostname _ => ensures_pure fun sni hsni => ?_
    exact surfaced_completeName hsni allowPartial
  · refine (ensures_sliceFrom hcut.2.le).bind fun available _ => ensures_pure fun sni hsni => ?_
    rw [hcut.1]
    exact surfaced_cutName hsni

theorem tryExtractSniGreedy_ensures (hlen : data.length < 2 ^ 63) (allowPartial : Bool) :
    Ensures (tryExtractSniGreedy data allowPartial) fun sni? =>
      ∀ sni, sni? = some sni → Surfaced allowPartial sni := by
  refine Ensures.ite (fun _ => ensures_none) fun _ => ?_
  exact ensures_findSomeM fun i hi => greedyAt_ensures hlen allowPartial (List.mem_range.mp hi)

theorem recordAt_ensures (hlen : payload.length < 2 ^ 63) (h : offset < payload.length) :
    Ensures (recordAt payload offset) fun info? =>
      ∀ info, info? = some info → info.Names (Surfaced false) := by
  refine (ensures_index h).bind fun contentType _ => ?_
  refine Ensures.ite (fun _ => ensures_none) fun htype => ?_
  refine (ensures_index (by omega)).bind fun major _ => ?_
  refine (ensures_index (by omega)).bind fun minor _ => ?_
  refine Ensures.ite (fun _ => ensures_none) fun _ => ?_
  refine (beAt_ensures (by omega)).bind fun recordLength _ => ?_
  refine (ensures_add (by omega)).bind fun recordStart hstart => ?_
  refine (ensures_add (by omega)).bind fun recordEnd hend => ?_
  refine Ensures.ite (fun _ => ensures_none) fun hfits => ?_
  refine (ensures_slice (by omega) (Nat.not_lt.mp hfits)).bind fun handshakeData hdata => ?_
  refine Ensures.ite (fun _ => ensures_none) fun hempty => ?_
  -- the record holds a message whose type can be read
  have hpos : 0 < handshakeData.length :=
    List.length_pos_of_ne_nil fun hnil => hempty (List.isEmpty_iff.mpr hnil)
  refine (ensures_index hpos).bind fun handshakeType _ => ?_
  refine Ensures.ite (fun _ => ensures_none) fun _ => ?_
  exact parsePartialTlsHandshake_ensures (by omega) false

theorem directHandshakeAt_ensures (hlen : payload.length < 2 ^ 63) (h : offset < payload.length) :
    Ensures (directHandshakeAt payload offset) fun info? =>
      ∀ info, info? = some info → info.Names (Surfaced false) := by
  refine (ensures_index h).bind fun handshakeType _ => ?_
  refine Ensures.ite (fun _ => ensures_none) fun htype => ?_
  refine (beAt_ensures (by omega)).bind fun handshakeLength _ => ?_
  refine Ensures.ite (fun _ => ensures_none) fun _ => ?_
  refine (ensures_add (by omega)).bind fun bodyStart hstart => ?_
  refine (ensures_add (by omega)).bind fun messageEnd hend => ?_
  refine Ensures.ite (fun _ => ensures_none) fun hfits => ?_
  refine (ensures_slice (by omega) (Nat.not_lt.mp hfits)).bind fun message hmessage => ?_
  exact parsePartialTlsHandshake_ensures (by omega) false

theorem sniExtensionAt_ensures (hlen : payload.length < 2 ^ 63) :
    Ensures (sniExtensionAt payload offset) fun info? =>
      ∀ info, info? = some info → info.Names (Surfaced false) := by
  refine Ensures.ite (fun _ => ensures_none) fun hshort => ?_
  refine (extTypeAt_ensures (by omega) 0x00).bind fun isSni _ => ?_
  refine Ensures.ite (fun _ => ensures_none) fun _ => ?_
  refine (beAt_ensures (by omega)).bind fun extLen _ => ?_
  refine (ensures_add (by omega)).bind fun extStart hstart => ?_
  refine (ensures_add (by omega)).bind fun extEnd hend => ?_
  refine Ensures.ite (fun _ => ensures_none) fun hfits => ?_
  refine (ensures_slice (by omega) (by omega)).bind fun extData hdata => ?_
  refine Ensures.ite (fun _ => ensures_none) fun _ => ?_
  -- the extension is long enough for the header of the list
  refine (beAt_ensures (by omega)).bind fun listLen _ => ?_
  refine (ensures_index (by omega)).bind fun sniType _ => ?_
  refine (beAt_ensures (by omega)).bind fun nameLen _ => ?_
  refine Ensures.ite (fun _ => ensures_none) fun _ => ?_
  refine (parseSniExtension_ensures extData false).bindOption (fun sni hsni => ?_) ensures_none
  exact ensures_some (names_ofSni hsni)

theorem alpnExtensionAt_ensures (hlen : payload.length < 2 ^ 63) :
    Ensures (alpnExtensionAt payload offset) fun info? =>
      ∀ info, info? = some info → info.Names (Surfaced false) := by
  refine Ensures.ite (fun _ => ensures_none) fun hshort => ?_
  refine (extTypeAt_ensures (by omega) 0x10).bind fun isAlpn _ => ?_
  refine Ensures.ite (fun _ => ensures_none) fun _ => ?_
  refine (beAt_ensures (by omega)).bind fun extLen _ => ?_
  refine (ensures_add (by omega)).bind fun extStart hstart => ?_
  refine (ensures_add (by omega)).bind fun extEnd hend => ?_
  refine Ensures.ite (fun _ => ensures_none) fun hfits => ?_
  refine (ensures_slice (by omega) (by omega)).bind fun extData hdata => ?_
  -- what it yields has no server name
  refine (parseAlpnExtension_ensures (by omega)).bind fun alpn? _ => ?_
  rcases alpn? with _ | alpn
  · exact ensures_none
  · exact ensures_some fun _ heq => nomatch heq

theorem tryParseUnencryptedCryptoFrames_ensures (hlen : payload.length < 2 ^ 63) :
    Ensures (tryParseUnencryptedCryptoFrames payload) fun info? =>
      ∀ info, info? = some info → info.Names (Surfaced false) := by
  refine ensures_findSomeM fun offset hoffset => ensures_findSomeM fun attempt hattempt => ?_
  have h : offset < payload.length := by
    have := List.mem_range.mp hoffset
    omega
  simp only [List.mem_cons, List.not_mem_nil, or_false] at hattempt
  rcases hattempt with rfl | rfl | rfl | rfl
  · exact recordAt_ensures hlen h
  · exact directHandshakeAt_ensures hlen h
  · exact sniExtensionAt_ensures hlen
  · exact alpnExtensionAt_ensures hlen

theorem fragmentPatternAt_ensures (hlen : data.length < 2 ^ 63) {i : ℕ}
    (h : i < data.length - 10) :
    Ensures (fragmentPatternAt data i) fun sni? =>
      ∀ sni, sni? = some sni → Surfaced true sni := by
  -- the name is read from what the fragment has of the extension
  have hparse : ∀ available : List UInt8, Ensures
      (do
        let some header ← parseSniHeader available | return none
        if header.listLen < 3 ∨ 256 < header.listLen then return none
        parseSniExtension available true)
      fun sni? => ∀ sni, sni? = some sni → Surfaced true sni := fun available =>
    (parseSniHeader_ensures available).bindOption (fun header _ =>
      Ensures.ite (fun _ => ensures_none) fun _ => parseSniExtension_ensures available true)
      ensures_none
  refine (extTypeAt_ensures (by omega) 0x00).bind fun isSni _ => ?_
  refine Ensures.ite (fun _ => ensures_none) fun _ => ?_
  refine (beAt_ensures (by omega)).bind fun extLen _ => ?_
  refine Ensures.ite (fun _ => ensures_none) fun _ => ?_
  refine (ensures_add (by omega)).bind fun extStart hstart => ?_
  refine (ensures_add (by omega)).bind fun extEnd hend => ?_
  refine Ensures.ite (fun hfits => ?_) fun _ => ?_
  · exact (ensures_slice (by omega) hfits).bind fun available _ => hparse available
  · exact (ensures_sliceFrom (by omega)).bind fun available _ => hparse available

theorem scanFragment_ensures (hlen : data.length < 2 ^ 63) :
    Ensures (scanFragment data) fun sni? => ∀ sni, sni? = some sni → Surfaced true sni :=
  ensures_findSomeM fun _ hi => fragmentPatternAt_ensures hlen (List.mem_range.mp hi)

end Safety

/-- The greedy scan finds a name at one of its positions. -/
theorem tryExtractSniGreedy_eq_some_iff {data : List UInt8} {allowPartial : Bool} {name : String} :
    tryExtractSniGreedy data allowPartial = pure (some name) ↔
      ∃ i, FindsAt (List.range (data.length - 9)) (greedyAt data allowPartial) i name := by
  rw [tryExtractSniGreedy]
  split_ifs with hshort
  · refine iff_of_false (fun h => nomatch pure_inj.mp h) ?_
    rintro ⟨i, hfinds⟩
    have hi := List.mem_range.mp hfinds.mem
    omega
  · exact findSomeM_eq_some_iff

end Tls

end RustNet

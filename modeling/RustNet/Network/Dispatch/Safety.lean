import RustNet.Network.BitTorrent.Dht
import RustNet.Network.Dhcp.Options
import RustNet.Network.Mqtt.Analysis
import RustNet.Network.Snmp.Analysis
import RustNet.Network.Stun.Analysis

/-!
# The lengths of DHCP, MQTT, SNMP, STUN and the DHT

These analyses follow lengths that the sender of a packet chose. None of them reads behind the
packet or goes on for ever, whatever the lengths say: each loop moves its offset forward and stops
at the end of the data, so that it takes no more rounds than there are bytes.

## Main results

* `Dhcp.analyzeDhcp_ensures`, `Mqtt.isMqttPacket_ensures`, `Snmp.analyzeSnmp_ensures`,
  `Stun.analyzeStun_ensures`, `BitTorrent.analyzeUdpBittorrent_ensures`: no packet makes the
  analysis fail.
-/

namespace RustNet

open Checked

/-! ## DHCP -/

namespace Dhcp

variable {options payload : List UInt8}

theorem readOption_ensures {optCode optLen : UInt8} {optData : List UInt8}
    (h : optData.length = optLen.toNat) (found : Found) :
    Ensures (readOption optCode optLen optData found) fun _ => True := by
  refine Ensures.ite (fun htype => ?_) fun _ => ?_
  · have hlen : 1 ≤ optLen.toNat := UInt8.le_iff_toNat_le.mp htype.2
    exact (ensures_index (by omega)).bind fun _ _ => ensures_pure trivial
  · exact Ensures.ite (fun _ => ensures_pure trivial) fun _ => ensures_pure trivial

/-- Each round of the loop reads one byte at least. -/
theorem optionsLoop_ensures (hlen : options.length < 2 ^ 63) {rounds offset : ℕ}
    (hoffset : offset ≤ options.length) (hrounds : options.length - offset < rounds)
    (found : Found) : Ensures (optionsLoop options rounds offset found) fun _ => True := by
  -- the rounds that are left are more than the bytes that are left
  induction rounds generalizing offset found with
  | zero => exact absurd hrounds (Nat.not_lt_zero _)
  | succ rounds ih =>
    rw [optionsLoop]
    refine Ensures.ite (fun hlt => ?_) fun _ => ensures_pure trivial
    refine (ensures_index hlt).bind fun optCode _ => ?_
    refine Ensures.ite (fun _ => ensures_pure trivial) fun _ => ?_
    refine (ensures_add (by omega)).bind fun lenAt hlenAt => ?_
    refine Ensures.ite (fun _ => ih (by omega) (by omega) found) fun _ => ?_
    refine Ensures.ite (fun _ => ensures_pure trivial) fun hmore => ?_
    refine (ensures_index (by omega)).bind fun optLen _ => ?_
    -- the length is one byte, so that the sums stay small
    have hbyte := optLen.toNat_lt
    refine (ensures_add (by omega)).bind fun dataStart hstart => ?_
    refine (ensures_add (by omega)).bind fun dataEnd hend => ?_
    refine Ensures.ite (fun _ => ensures_pure trivial) fun hfits => ?_
    refine (ensures_slice (by omega) (by omega)).bind fun optData hdata => ?_
    refine (readOption_ensures (by omega) found).bind fun found _ => ?_
    exact ih (by omega) (by omega) found

theorem formatMac_ensures {bytes : List UInt8} (h : bytes.length = 6) :
    Ensures (formatMac bytes) fun _ => True :=
  (ensures_indices (by omega)).bind fun _ _ => ensures_pure trivial

/-- No packet makes the analysis fail. -/
theorem analyzeDhcp_ensures (hlen : payload.length < 2 ^ 63) :
    Ensures (analyzeDhcp payload) fun _ => True := by
  refine Ensures.ite (fun _ => ensures_pure trivial) fun hshort => ?_
  have hsize : 240 ≤ payload.length := Nat.le_of_not_lt hshort
  refine (ensures_slice (by decide) hsize).bind fun cookie _ => ?_
  refine Ensures.ite (fun _ => ensures_pure trivial) fun _ => ?_
  refine (ensures_slice (by decide) (by omega)).bind fun chaddr hchaddr => ?_
  refine (formatMac_ensures hchaddr).bind fun clientMac _ => ?_
  refine (ensures_sliceFrom hsize).bind fun options hoptions => ?_
  refine Ensures.bind (p := fun _ => True) ?_ fun parsed _ => ensures_pure trivial
  refine (optionsLoop_ensures (by omega) (Nat.zero_le _) (by omega) _).bind fun _ _ => ?_
  exact ensures_pure trivial

end Dhcp

/-! ## MQTT -/

namespace Mqtt

variable {payload : List UInt8}

theorem hasMqttProtocolName_ensures (hlen : payload.length < 2 ^ 63) :
    Ensures (hasMqttProtocolName payload) fun _ => True := by
  refine Ensures.ite (fun _ => ensures_pure trivial) fun _ => ?_
  refine (decodeRemainingLength_ensures (by decide)).bind fun decoded hdecoded => ?_
  -- a remaining length takes four bytes at most, so that no offset wraps around
  have hwidth : (decoded.getD (0, 1)).2 ≤ 4 := by
    cases decoded with
    | none => exact Nat.succ_le_succ (Nat.zero_le 3)
    | some d => exact (hdecoded d rfl).2
  refine (ensures_add (by omega)).bind fun varStart hvar => ?_
  refine (ensures_add (by omega)).bind fun nameStart hname => ?_
  refine Ensures.ite (fun _ => ensures_pure trivial) fun hstart => ?_
  refine (Tls.beAt_ensures (by omega)).bind fun nameLen hnameLen => ?_
  refine (ensures_add (by omega)).bind fun nameEnd hend => ?_
  refine Ensures.ite (fun _ => ensures_pure trivial) fun hfits => ?_
  exact (ensures_slice (by omega) (by omega)).bind fun _ _ => ensures_pure trivial

/-- No payload makes the test fail. -/
theorem isMqttPacket_ensures (hlen : payload.length < 2 ^ 63) :
    Ensures (isMqttPacket payload) fun _ => True := by
  refine Ensures.ite (fun _ => ensures_pure trivial) fun hshort => ?_
  refine (ensures_index (by omega)).bind fun first _ => ?_
  refine Ensures.ite (fun _ => ensures_pure trivial) fun _ => ?_
  refine Ensures.ite (fun _ => ensures_pure trivial) fun _ => ?_
  refine (decodeRemainingLength_ensures (by decide)).bindOption (fun d hd => ?_)
    (ensures_pure trivial)
  refine (ensures_add (by omega)).bind fun total htotal => ?_
  refine (ensures_add (by omega)).bind fun limit hlimit => ?_
  refine Ensures.ite (fun _ => ensures_pure trivial) fun _ => ?_
  exact Ensures.ite (fun _ => hasMqttProtocolName_ensures hlen) fun _ => ensures_pure trivial

end Mqtt

/-! ## SNMP -/

namespace Snmp

variable {data payload : List UInt8} {offset : ℕ}

/-- A length takes up as many bytes as are read of it, and is that of a word of 32 bits. -/
theorem parseBerLength_ensures (data : List UInt8) :
    Ensures (parseBerLength data) fun read? => ∀ read, read? = some read →
      read.1 < 2 ^ 32 ∧ read.2 ≤ 5 ∧ read.2 ≤ data.length := by
  refine Ensures.ite (fun _ => ensures_none) fun hne => ?_
  have hpos : 0 < data.length :=
    List.length_pos_iff.mpr fun h => hne (List.isEmpty_iff.mpr h)
  refine (ensures_index hpos).bind fun first _ => ?_
  have hbyte := first.toNat_lt
  refine Ensures.ite (fun _ => ensures_some ⟨by omega, Nat.succ_le_succ (Nat.zero_le 4), hpos⟩)
    fun _ => ?_
  refine Ensures.ite (fun _ => ensures_none) fun _ => ?_
  refine Ensures.ite (fun _ => ensures_none) fun hfits => ?_
  rw [not_or, Nat.not_lt, Nat.not_lt] at hfits
  refine (ensures_indices hfits.2).bind fun octets hoctets => ensures_some ⟨?_, by omega, hfits.2⟩
  -- the guard lets four octets pass at most
  calc BigEndian.value octets < 256 ^ octets.length := BigEndian.value_lt octets
    _ ≤ 256 ^ 4 := Nat.pow_le_pow_right (by decide) (by omega)
    _ = 2 ^ 32 := by decide

/-- What is behind a community lies within the packet. -/
theorem parseCommunity_ensures (hlen : payload.length < 2 ^ 63) (h : offset ≤ payload.length) :
    Ensures (parseCommunity payload offset) fun read? => ∀ read, read? = some read →
      read.2 ≤ payload.length := by
  refine Ensures.ite (fun _ => ensures_some h) fun hmore => ?_
  refine (ensures_index (by omega)).bind fun tag _ => ?_
  refine Ensures.ite (fun _ => ensures_some h) fun _ => ?_
  refine (ensures_add (by omega)).bind fun lengthAt hlengthAt => ?_
  refine (ensures_sliceFrom (by omega)).bind fun behind hbehind => ?_
  refine (parseBerLength_ensures behind).bindOption (fun read hread => ?_) ensures_none
  refine (ensures_add (by omega)).bind fun start hstart => ?_
  refine (ensures_add (by omega)).bind fun stop hstop => ?_
  refine Ensures.ite (fun _ => ensures_some (by omega)) fun hfits => ?_
  refine (ensures_slice (by omega) (by omega)).bind fun communityBytes _ => ?_
  exact ensures_some (Nat.le_of_not_lt hfits)

theorem analyzeBody_ensures (hlen : payload.length < 2 ^ 63) (h : offset ≤ payload.length)
    (version : SnmpVersion) : Ensures (analyzeBody payload offset version) fun _ => True := by
  have hcommunity : Ensures (communityOf payload offset version) fun read? =>
      ∀ read, read? = some read → read.2 ≤ payload.length :=
    Ensures.ite (fun _ => parseCommunity_ensures hlen h) fun _ => ensures_some h
  refine hcommunity.bindOption (fun read hread => ?_) (ensures_pure trivial)
  exact (ensures_sliceFrom hread).bind fun _ _ => ensures_pure trivial

theorem analyzeVersion_ensures (hlen : payload.length < 2 ^ 63) :
    Ensures (analyzeVersion payload offset) fun _ => True := by
  refine Ensures.ite (fun _ => ensures_pure trivial) fun hmore => ?_
  refine (ensures_index (by omega)).bind fun tag _ => ?_
  refine Ensures.ite (fun _ => ensures_pure trivial) fun _ => ?_
  refine (ensures_add (by omega)).bind fun lengthAt hlengthAt => ?_
  refine (ensures_sliceFrom (by omega)).bind fun behind hbehind => ?_
  refine (parseBerLength_ensures behind).bindOption (fun read hread => ?_) (ensures_pure trivial)
  refine (ensures_add (by omega)).bind fun start hstart => ?_
  refine (ensures_add (by omega)).bind fun stop hstop => ?_
  refine Ensures.ite (fun _ => ensures_pure trivial) fun hfits => ?_
  refine (ensures_slice (by omega) (by omega)).bind fun number _ => ?_
  cases parseVersion number with
  | none => exact ensures_pure trivial
  | some version => exact analyzeBody_ensures hlen (Nat.le_of_not_lt hfits) version

/-- No packet makes the analysis fail. -/
theorem analyzeSnmp_ensures (hlen : payload.length < 2 ^ 63) :
    Ensures (analyzeSnmp payload) fun _ => True := by
  refine Ensures.ite (fun _ => ensures_pure trivial) fun hshort => ?_
  have hsize : 10 ≤ payload.length := Nat.le_of_not_lt hshort
  refine (ensures_index (by omega)).bind fun tag _ => ?_
  refine Ensures.ite (fun _ => ensures_pure trivial) fun _ => ?_
  refine (ensures_sliceFrom (by omega)).bind fun behind hbehind => ?_
  refine (parseBerLength_ensures behind).bindOption (fun read hread => ?_) (ensures_pure trivial)
  refine (ensures_add (by omega)).bind fun offset hoffset => ?_
  refine (ensures_add (by omega)).bind fun stop hstop => ?_
  refine Ensures.ite (fun _ => ensures_pure trivial) fun hfits => ?_
  exact analyzeVersion_ensures hlen

end Snmp

/-! ## STUN -/

namespace Stun

open Tls (beAt_ensures)

variable {payload : List UInt8}

/-- Each round of the loop moves forward by an attribute header at least. The padding of the last
attribute may reach behind the message. -/
theorem attributesLoop_ensures (hlen : payload.length < 2 ^ 63) {attrsEnd rounds offset : ℕ}
    (hend : attrsEnd ≤ payload.length) (hoffset : offset ≤ attrsEnd + 3)
    (hrounds : attrsEnd + 3 < offset + rounds) :
    Ensures (attributesLoop payload attrsEnd rounds offset) fun _ => True := by
  -- a padded length may lead three bytes behind the end, and no further
  induction rounds generalizing offset with
  | zero => exact absurd hrounds (by omega)
  | succ rounds ih =>
    rw [attributesLoop]
    refine (ensures_add (by omega)).bind fun headerEnd hheader => ?_
    refine Ensures.ite (fun hmore => ?_) fun _ => ensures_pure trivial
    refine (beAt_ensures (by omega)).bind fun attrType _ => ?_
    refine (beAt_ensures (by omega)).bind fun attrLength hlength => ?_
    refine (ensures_add (by omega)).bind fun valueEnd hvalue => ?_
    refine Ensures.ite (fun _ => ensures_pure trivial) fun hfits => ?_
    refine Ensures.ite (fun _ => ?_) fun _ => ?_
    · refine (ensures_add (by omega)).bind fun textEnd htext => ?_
      exact (ensures_slice (by omega) (by omega)).bind fun _ _ => ensures_pure trivial
    · refine (ensures_add (by omega)).bind fun next hnext => ?_
      exact ih (by omega) (by omega)

theorem isLikelyStun_ensures (payload : List UInt8) :
    Ensures (isLikelyStun payload) fun _ => True := by
  refine Ensures.ite (fun _ => ensures_pure trivial) fun hshort => ?_
  have hsize : 20 ≤ payload.length := Nat.le_of_not_lt hshort
  refine (ensures_index (by omega)).bind fun first _ => ?_
  refine Ensures.ite (fun _ => ensures_pure trivial) fun _ => ?_
  exact (beAt_ensures (by omega)).bind fun _ _ => ensures_pure trivial

/-- No packet makes the analysis fail, and only what looks like STUN is read. -/
theorem analyzeStun_ensures (hlen : payload.length < 2 ^ 63) :
    Ensures (analyzeStun payload) fun info? =>
      ∀ info, info? = some info → isLikelyStun payload = pure true := by
  unfold analyzeStun isLikelyStun
  refine Ensures.ite (fun _ => ensures_none) fun hshort => ?_
  rw [if_neg hshort]
  -- the test and the analysis read the same bytes
  have hsize : 20 ≤ payload.length := Nat.le_of_not_lt hshort
  obtain ⟨first, hfirst, -⟩ := ensures_index (show 0 < payload.length by omega)
  obtain ⟨cookie, hcookie, -⟩ := beAt_ensures (show 4 + 4 ≤ payload.length by omega)
  rw [hfirst, pure_bind', pure_bind', hcookie, pure_bind', pure_bind']
  refine Ensures.ite (fun _ => ensures_none) fun hbits => ?_
  refine Ensures.ite (fun _ => ensures_none) fun hmagic => ?_
  rw [if_neg hbits, decide_eq_true (not_not.mp hmagic)]
  refine (beAt_ensures (by omega)).bind fun messageLength hlength => ?_
  refine Ensures.ite (fun _ => ensures_none) fun _ => ?_
  have hheader : stunHeaderSize = 20 := rfl
  refine (ensures_add (by omega)).bind fun messageEnd hend => ?_
  refine Ensures.ite (fun _ => ensures_none) fun hfits => ?_
  refine (ensures_index (by omega)).bind fun second _ => ?_
  refine (ensures_slice (by decide) hsize).bind fun transactionId _ => ?_
  -- the attributes end inside the payload
  have hsoftware : Ensures (parseSoftwareAttribute payload messageLength) fun _ => True :=
    (ensures_add (by omega)).bind fun attrsEnd hattrs =>
      attributesLoop_ensures hlen (by omega) (by omega) (by omega)
  exact hsoftware.bind fun _ _ => ensures_some rfl

end Stun

/-! ## The DHT and uTP -/

namespace BitTorrent

open Search (findSubsequence add_length_le_of_findSubsequence)
open Tls (beAt_ensures)

variable {payload : List UInt8}

/-- The digits end within the payload. -/
theorem digitsEnd_ensures (hlen : payload.length < 2 ^ 63) {rounds lenEnd : ℕ}
    (hend : lenEnd ≤ payload.length) (hrounds : payload.length - lenEnd < rounds) :
    Ensures (digitsEnd payload rounds lenEnd) fun stop =>
      lenEnd ≤ stop ∧ stop ≤ payload.length := by
  induction rounds generalizing lenEnd with
  | zero => exact absurd hrounds (Nat.not_lt_zero _)
  | succ rounds ih =>
    rw [digitsEnd]
    refine Ensures.ite (fun hlt => ?_) fun _ => ensures_pure ⟨le_rfl, hend⟩
    refine (ensures_index hlt).bind fun digit _ => ?_
    refine Ensures.ite (fun _ => ?_) fun _ => ensures_pure ⟨le_rfl, hend⟩
    refine (ensures_add (by omega)).bind fun next hnext => ?_
    exact (ih (by omega) (by omega)).mono fun stop hstop => by omega

theorem extractDhtMethod_ensures (hlen : payload.length < 2 ^ 63) :
    Ensures (extractDhtMethod payload) fun _ => True := by
  unfold extractDhtMethod
  cases hfound : findSubsequence payload methodKey with
  | none => exact ensures_pure trivial
  | some pos =>
    -- the key was found whole
    have hpos : pos + 3 ≤ payload.length := add_length_le_of_findSubsequence hfound
    refine (ensures_add (by omega)).bind fun after hafter => ?_
    refine Ensures.ite (fun _ => ensures_pure trivial) fun hmore => ?_
    refine (digitsEnd_ensures hlen (by omega) (by omega)).bind fun lenEnd hend => ?_
    refine Ensures.ite (fun _ => ensures_pure trivial) fun hdigits => ?_
    refine (ensures_index (by omega)).bind fun colon _ => ?_
    refine Ensures.ite (fun _ => ensures_pure trivial) fun _ => ?_
    refine (ensures_slice hend.1 hend.2).bind fun lenStr _ => ?_
    cases parseLength lenStr with
    | none => exact ensures_pure trivial
    | some strLen =>
      refine Ensures.ite (fun _ => ensures_pure trivial) fun hshort => ?_
      -- a longer method is passed over before its end is computed
      have hmax : strLen ≤ 64 := Nat.le_of_not_lt hshort
      refine (ensures_add (by omega)).bind fun strStart hstart => ?_
      refine (ensures_add (by omega)).bind fun strEnd hstrEnd => ?_
      refine Ensures.ite (fun _ => ensures_pure trivial) fun hfits => ?_
      exact (ensures_slice (by omega) (by omega)).bind fun _ _ => ensures_pure trivial

theorem dhtMethodOf_ensures (hlen : payload.length < 2 ^ 63) (msgTypeChar : UInt8) :
    Ensures (dhtMethodOf payload msgTypeChar) fun _ => True := by
  refine Ensures.ite (fun _ => extractDhtMethod_ensures hlen) fun _ => ?_
  exact Ensures.ite (fun _ => ensures_pure trivial) fun _ => ensures_pure trivial

/-- What is taken for a DHT message begins with a `d`. -/
theorem analyzeDht_ensures (hlen : payload.length < 2 ^ 63) :
    Ensures (analyzeDht payload) fun info? => ∀ info, info? = some info →
      info.protocolType = .dht ∧ payload.head? = some 0x64 := by
  refine Ensures.ite (fun _ => ensures_none) fun hshort => ?_
  -- the payload is not empty, and its first byte opens a dictionary
  obtain ⟨b, rest, rfl⟩ := List.exists_cons_of_ne_nil (l := payload) (by rintro rfl; simp at hshort)
  rw [(At.start (b :: rest)).index, pure_bind']
  refine Ensures.ite (fun _ => ensures_none) fun hfirst => ?_
  refine (ensures_sub (by omega)).bind fun lastAt hlastAt => ?_
  refine (ensures_index (by omega)).bind fun last _ => ?_
  refine Ensures.ite (fun _ => ensures_none) fun _ => ?_
  cases hfound : findSubsequence (b :: rest) typeKey with
  | none => exact ensures_none
  | some pos =>
    have hpos : pos + 5 ≤ (b :: rest).length := add_length_le_of_findSubsequence hfound
    refine (ensures_add (by omega)).bind fun typeEnd htypeEnd => ?_
    refine Ensures.ite (fun _ => ensures_none) fun hfits => ?_
    refine (ensures_add (by omega)).bind fun typeAt htypeAt => ?_
    refine (ensures_index (by omega)).bind fun msgTypeChar _ => ?_
    refine Ensures.ite (fun _ => ensures_none) fun _ => ?_
    refine (dhtMethodOf_ensures hlen msgTypeChar).bind fun dhtMethod _ => ensures_some ⟨rfl, ?_⟩
    rw [List.head?_cons, not_not.mp hfirst]

/-- What is taken for uTP is of version 1. -/
theorem analyzeUtp_ensures (payload : List UInt8) :
    Ensures (analyzeUtp payload) fun info? => ∀ info, info? = some info →
      info.protocolType = .utp ∧ ∃ b, payload.head? = some b ∧ b &&& 0x0F = 1 := by
  refine Ensures.ite (fun _ => ensures_none) fun hshort => ?_
  have hsize : 20 ≤ payload.length := Nat.le_of_not_lt hshort
  refine (ensures_index (by omega)).bind fun first hfirst => ?_
  refine (ensures_index (by omega)).bind fun extension _ => ?_
  refine Ensures.ite (fun _ => ensures_none) fun hversion => ?_
  refine Ensures.ite (fun _ => ensures_none) fun _ => ?_
  refine Ensures.ite (fun _ => ensures_none) fun _ => ?_
  refine (beAt_ensures (by omega)).bind fun wndSize _ => ?_
  refine Ensures.ite (fun _ => ensures_none) fun _ => ensures_some ⟨rfl, first, ?_, ?_⟩
  · rw [List.head?_eq_getElem?, List.getElem?_eq_getElem (by omega), hfirst]
  · exact not_not.mp hversion

/-- No packet makes the analysis fail. -/
theorem analyzeUdpBittorrent_ensures (hlen : payload.length < 2 ^ 63) :
    Ensures (analyzeUdpBittorrent payload) fun info? => ∀ info, info? = some info →
      info.protocolType = .dht ∧ payload.head? = some 0x64 ∨
        info.protocolType = .utp ∧ ∃ b, payload.head? = some b ∧ b &&& 0x0F = 1 := by
  refine (analyzeDht_ensures hlen).bindOption (fun info hinfo => ensures_some (.inl hinfo)) ?_
  exact (analyzeUtp_ensures payload).mono fun info? hinfo info heq => .inr (hinfo info heq)

end BitTorrent

end RustNet

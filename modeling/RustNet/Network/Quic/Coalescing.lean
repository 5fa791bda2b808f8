import RustNet.Network.Quic.LongHeader

/-!
# Coalesced packets

A datagram of several packets: packets with a long header that carry a Length, and possibly one with
a short header, which takes up the rest. `parse_quic_packet` combines the records of the packets.
`merge_quic_packet_info` leaves out the CONNECTION_CLOSE and the CRYPTO flag of every packet but the
first, and of the reassemblers it keeps the first one; `merge_quic_info`, which combines the records
of datagrams, takes over all three.

## Main definitions

* `Quic.CoalescedPackets`: the packets of a datagram;
* `Quic.KeepsPackets`: the record of the datagram has what the record of any packet alone has;
* `Quic.SaidFirst`: what the packets say is said by the packets that are kept.

## Main results

* `Quic.parseQuicPacket_bytes`: the record of the datagram in terms of those of its packets;
* `Quic.keepsPackets_iff`: exactly when nothing is lost.
-/

namespace RustNet.Quic

open Checked

/-! ## Datagrams -/

/-- A packet with a short header takes up the rest of its datagram. -/
structure ShortPacket where
  firstByte : UInt8
  rest : List UInt8
  short_form : firstByte &&& 0x80 = 0
  fixed_bit : firstByte &&& 0x40 ≠ 0

namespace ShortPacket

/-- The bytes of a packet. -/
def encode (p : ShortPacket) : List UInt8 := p.firstByte :: p.rest

/-- The record of the packet. -/
def info (p : ShortPacket) : QuicInfo :=
  { QuicInfo.new 0 with
    packetType := .oneRtt
    connectionState := .connected
    connectionId := p.rest.take 8 }

end ShortPacket

/-- The packets of a datagram; only the last one may do without a Length. -/
structure CoalescedPackets where
  long : List LongPacket
  short : Option ShortPacket
  carriesLength : ∀ p ∈ long, p.CarriesLength

namespace CoalescedPackets

/-- The packets one by one. -/
def packets (d : CoalescedPackets) : List (List UInt8) :=
  d.long.map LongPacket.encode ++ d.short.toList.map ShortPacket.encode

/-- The datagram as it is captured: its packets one behind the other, with nothing between them. -/
def bytes (d : CoalescedPackets) : List UInt8 := d.packets.flatten

end CoalescedPackets

/-! ## The records of the packets -/

section Records

variable [DeepPacketInspection] [QuicCrypto]

theorem parsePacket_short (p : ShortPacket) :
    parsePacket p.encode = pure (some p.info, p.encode.length) := by
  have hstart : At p.encode 0 (p.firstByte :: p.rest) := At.start _
  have hpos : p.encode.length = p.rest.length + 1 := rfl
  have hnotLong : ¬ p.firstByte &&& 0x80 ≠ 0 := not_not_intro p.short_form
  unfold parsePacket parseShortHeaderPacket
  have hne : ¬ p.encode.isEmpty := Bool.false_ne_true
  rw [hstart.index, pure_bind', if_neg hnotLong, if_neg hne]
  -- eight bytes are taken for a connection ID, or all there are
  by_cases hlen : 9 ≤ p.encode.length
  · have hslice : slice p.encode 1 9 = pure (p.rest.take 8) := slice_eq (by decide) hlen
    rw [if_pos hlen, hslice]
    rfl
  · have htake : p.rest.take 8 = p.rest := List.take_of_length_le (by omega)
    rw [if_neg hlen, hstart.next.sliceFrom, ShortPacket.info, htake]
    rfl

namespace CoalescedPackets

/-- The records of the packets. -/
def infos (d : CoalescedPackets) : List QuicInfo :=
  d.long.map LongPacket.info ++ d.short.toList.map ShortPacket.info

end CoalescedPackets

variable {payload : List UInt8} {offset : ℕ} {combined : Option QuicInfo}

/-- The loop combines the records of as many packets as it counts. -/
theorem parsePackets_packets (packets : ℕ) {long : List LongPacket} {short : Option ShortPacket}
    (h : At payload offset (long.map LongPacket.encode ++
      short.toList.map ShortPacket.encode).flatten) :
    parsePackets payload packets offset combined =
      pure (((long.map LongPacket.info ++ short.toList.map ShortPacket.info).take packets).foldl
        (fun combined info => combineInfo combined (some info)) combined) := by
  induction packets generalizing long offset combined with
  | zero => rfl
  | succ packets ih =>
    rcases long with _ | ⟨p, long⟩
    · rcases short with _ | p
      · exact parsePackets_nil h
      · have hshort : At payload offset p.encode := List.append_nil p.encode ▸ h
        have hpos : p.encode.length ≠ 0 := Nat.succ_ne_zero _
        -- nothing is left behind a short header
        rw [parsePackets_cons hshort (parsePacket_short p), if_neg hpos,
          parsePackets_nil hshort.finish]
        show _ = pure (([p.info].take (packets + 1)).foldl _ combined)
        rw [List.take_succ_cons, List.take_nil]
        rfl
    · have hlong : At payload offset (p.encode ++ (long.map LongPacket.encode ++
          short.toList.map ShortPacket.encode).flatten) := h
      rw [parsePackets_encode hlong, ih hlong.skip]
      rfl

theorem parseQuicPacket_bytes (d : CoalescedPackets) :
    parseQuicPacket d.bytes =
      pure ((d.infos.take 10).foldl (fun combined info => combineInfo combined (some info)) none) :=
  parsePackets_packets 10 (At.start d.bytes)

theorem parseQuicPacket_long (p : LongPacket) :
    parseQuicPacket p.encode = pure (some p.info) := by
  have hstart : At p.encode 0 (p.encode ++ []) := (List.append_nil p.encode).symm ▸ At.start _
  rw [parseQuicPacket, parsePackets_encode hstart, parsePackets_nil hstart.skip]
  rfl

theorem parseQuicPacket_short (p : ShortPacket) :
    parseQuicPacket p.encode = pure (some p.info) := by
  have hstart : At p.encode 0 p.encode := At.start _
  have hpos : p.encode.length ≠ 0 := Nat.succ_ne_zero _
  rw [parseQuicPacket, parsePackets_cons hstart (parsePacket_short p), if_neg hpos,
    parsePackets_nil hstart.finish]
  rfl

/-- What the packets say alone. -/
theorem forall_packets_iff (d : CoalescedPackets) (P : QuicInfo → Prop) :
    (∀ packet ∈ d.packets, ∀ info, parseQuicPacket packet = pure (some info) → P info) ↔
      ∀ info ∈ d.infos, P info := by
  have halone : ∀ {packet : List UInt8} {info : QuicInfo},
      parseQuicPacket packet = pure (some info) →
        ((∀ i, parseQuicPacket packet = pure (some i) → P i) ↔ P info) := by
    intro packet info hparse
    refine ⟨fun h => h info hparse, fun h i hi => ?_⟩
    rw [hparse] at hi
    exact Option.some.inj (Except.ok.inj hi) ▸ h
  simp only [CoalescedPackets.packets, CoalescedPackets.infos, List.mem_append, List.mem_map,
    or_imp, forall_and, forall_exists_index, and_imp, forall_apply_eq_imp_iff₂,
    halone (parseQuicPacket_long _), halone (parseQuicPacket_short _)]

end Records

/-! ## What the combination keeps -/

/-- The reassembler holds a byte of the stream at `o`. -/
def Collected (info : QuicInfo) (o : ℕ) : Prop :=
  ∃ r, info.cryptoReassembler = some r ∧ Fragments.CoveredAt r.fragments o

/-- `whole` has what `info` has. -/
structure Keeps (whole info : QuicInfo) : Prop where
  close : info.connectionClose.isSome → whole.connectionClose.isSome
  crypto : info.hasCryptoFrame → whole.hasCryptoFrame
  connectionId : info.connectionId ≠ [] → whole.connectionId ≠ []
  collected : ∀ o, Collected info o → Collected whole o

/-- What some packet says is said by the packets that the combination takes it from: a close and a
CRYPTO frame from the first packet, the stream from the first reassembler, and a connection ID from
any of the packets that are counted. -/
structure SaidFirst (infos : List QuicInfo) : Prop where
  close : ∀ i ∈ infos, i.connectionClose.isSome →
    ∀ first ∈ infos.head?, first.connectionClose.isSome
  crypto : ∀ i ∈ infos, i.hasCryptoFrame → ∀ first ∈ infos.head?, first.hasCryptoFrame
  connectionId : ∀ i ∈ infos, i.connectionId ≠ [] → ∃ j ∈ infos.take 10, j.connectionId ≠ []
  collected : ∀ i ∈ infos, ∀ o, Collected i o →
    ∃ r, (infos.take 10).findSome? (·.cryptoReassembler) = some r ∧
      Fragments.CoveredAt r.fragments o

/-! ### Fields of the combination -/

section Combination

variable (first : QuicInfo) (rest : List QuicInfo)

theorem foldl_combineInfo :
    rest.foldl (fun combined info => combineInfo combined (some info)) (some first) =
      some (rest.foldl mergeQuicPacketInfoInto first) := by
  induction rest generalizing first with
  | nil => rfl
  | cons info rest ih => exact ih (mergeQuicPacketInfoInto first info)

theorem foldl_merge_connectionClose :
    (rest.foldl mergeQuicPacketInfoInto first).connectionClose = first.connectionClose := by
  induction rest generalizing first with
  | nil => rfl
  | cons info rest ih => exact ih (mergeQuicPacketInfoInto first info)

theorem foldl_merge_hasCryptoFrame :
    (rest.foldl mergeQuicPacketInfoInto first).hasCryptoFrame = first.hasCryptoFrame := by
  induction rest generalizing first with
  | nil => rfl
  | cons info rest ih => exact ih (mergeQuicPacketInfoInto first info)

theorem foldl_merge_cryptoReassembler :
    (rest.foldl mergeQuicPacketInfoInto first).cryptoReassembler =
      (first :: rest).findSome? (·.cryptoReassembler) := by
  induction rest generalizing first with
  | nil => rcases h : first.cryptoReassembler <;> simp [h]
  | cons info rest ih =>
    have hmerge : (mergeQuicPacketInfoInto first info).cryptoReassembler =
        first.cryptoReassembler.or info.cryptoReassembler := rfl
    rw [List.foldl_cons, ih, List.findSome?_cons, List.findSome?_cons, List.findSome?_cons, hmerge]
    rcases first.cryptoReassembler with _ | r <;> rfl

theorem mergeQuicPacketInfoInto_connectionId_ne_nil (existing new : QuicInfo) :
    (mergeQuicPacketInfoInto existing new).connectionId ≠ [] ↔
      existing.connectionId ≠ [] ∨ new.connectionId ≠ [] := by
  show (if existing.connectionId.isEmpty && !new.connectionId.isEmpty then new.connectionId
    else existing.connectionId) ≠ [] ↔ _
  rcases existing.connectionId with _ | ⟨b, id⟩
  · rcases new.connectionId with _ | ⟨c, id⟩ <;> simp
  · simp

theorem foldl_merge_connectionId_ne_nil :
    (rest.foldl mergeQuicPacketInfoInto first).connectionId ≠ [] ↔
      ∃ i ∈ first :: rest, i.connectionId ≠ [] := by
  induction rest generalizing first with
  | nil => simp
  | cons info rest ih =>
    rw [List.foldl_cons, ih]
    simp only [List.exists_mem_cons_iff, mergeQuicPacketInfoInto_connectionId_ne_nil, or_assoc]

end Combination

section Datagram

variable [DeepPacketInspection] [QuicCrypto]

/-- The record of the datagram has what the record of any packet alone has. -/
def KeepsPackets (d : CoalescedPackets) : Prop :=
  ∀ packet ∈ d.packets, ∀ info, parseQuicPacket packet = pure (some info) →
    ∃ whole, parseQuicPacket d.bytes = pure (some whole) ∧ Keeps whole info

omit [DeepPacketInspection] [QuicCrypto] in
/-- What the first packets have, in terms of the combination of them. -/
theorem collected_foldl_iff (first : QuicInfo) (rest : List QuicInfo) (o : ℕ) :
    Collected (rest.foldl mergeQuicPacketInfoInto first) o ↔
      ∃ r, (first :: rest).findSome? (·.cryptoReassembler) = some r ∧
        Fragments.CoveredAt r.fragments o := by
  rw [Collected, foldl_merge_cryptoReassembler]

/-- The first packet takes in what is merged from the others. -/
theorem parseQuicPacket_bytes_cons {d : CoalescedPackets} {first : QuicInfo}
    {rest : List QuicInfo} (h : d.infos = first :: rest) :
    parseQuicPacket d.bytes = pure (some ((rest.take 9).foldl mergeQuicPacketInfoInto first)) := by
  rw [parseQuicPacket_bytes, h, List.take_succ_cons, List.foldl_cons]
  exact congrArg pure (foldl_combineInfo first (rest.take 9))

/-- The combination loses nothing exactly if what some packet says is said by the packets that the
combination takes it from. The packets are any that a datagram can hold one behind the other, all
but the last with a Length, and what each says is what the parser reports of it alone. -/
theorem keepsPackets_iff (d : CoalescedPackets) : KeepsPackets d ↔ SaidFirst d.infos := by
  rw [KeepsPackets, forall_packets_iff]
  rcases hinfos : d.infos with _ | ⟨first, rest⟩
  · exact iff_of_true (fun _ h => absurd h List.not_mem_nil)
      ⟨fun _ h => absurd h List.not_mem_nil, fun _ h => absurd h List.not_mem_nil,
        fun _ h => absurd h List.not_mem_nil, fun _ h => absurd h List.not_mem_nil⟩
  have htake : (first :: rest).take 10 = first :: rest.take 9 := List.take_succ_cons
  have hid := foldl_merge_connectionId_ne_nil first (rest.take 9)
  rw [parseQuicPacket_bytes_cons hinfos]
  constructor
  · intro h
    have hkeeps : ∀ i ∈ first :: rest,
        Keeps ((rest.take 9).foldl mergeQuicPacketInfoInto first) i := by
      intro i hi
      obtain ⟨whole, hwhole, hkeeps⟩ := h i hi
      rwa [← Option.some.inj (Except.ok.inj hwhole)] at hkeeps
    -- the close and the CRYPTO flag of the combination are those of the first packet
    refine ⟨fun i hi hclose f hf => ?_, fun i hi hcrypto f hf => ?_, fun i hi hne => ?_,
      fun i hi o ho => ?_⟩
    · rw [← Option.some.inj hf, ← foldl_merge_connectionClose first (rest.take 9)]
      exact (hkeeps i hi).close hclose
    · rw [← Option.some.inj hf, ← foldl_merge_hasCryptoFrame first (rest.take 9)]
      exact (hkeeps i hi).crypto hcrypto
    · rw [htake]
      exact hid.mp ((hkeeps i hi).connectionId hne)
    · rw [htake]
      exact (collected_foldl_iff _ _ o).mp ((hkeeps i hi).collected o ho)
  · intro h i hi
    -- the combination of the first ten packets is the record of the datagram
    refine ⟨_, rfl, fun hclose => ?_, fun hcrypto => ?_, fun hne => ?_, fun o ho => ?_⟩
    · rw [foldl_merge_connectionClose]
      exact h.close i hi hclose first rfl
    · rw [foldl_merge_hasCryptoFrame]
      exact h.crypto i hi hcrypto first rfl
    · have hsaid := h.connectionId i hi hne
      rw [htake] at hsaid
      exact hid.mpr hsaid
    · have hsaid := h.collected i hi o ho
      rw [htake] at hsaid
      exact (collected_foldl_iff _ _ o).mpr hsaid

end Datagram

/-! ### Two Initial packets -/

/-- The destination connection ID of both packets. -/
def sampleDcid : ConnectionId := ⟨BigEndian.bytes 8 0x8394c8f03e515708, by decide⟩

/-- The Initial secret for the connection ID. -/
def sampleInitialSecret : List UInt8 :=
  BigEndian.bytes 32 0x7db5df06e7a69e432496adedb00851923595221596ae2ae9fb8115c1e9ed0a44

/-- The key that protects the payloads of the client. -/
def sampleKey : List UInt8 := BigEndian.bytes 16 0x1f369613dd76d5467730efcbe3b1a22d

/-- The key that protects the headers of the client. -/
def sampleHeaderKey : List UInt8 := BigEndian.bytes 16 0x9f50449e04a0e810283a1e9933adedd2

/-- The secret of the client. -/
def sampleSecret : List UInt8 :=
  BigEndian.bytes 32 0xc00cf151ca5be075ed0ebfb5c80323c42d6b7db67881289af4008f1f6c357aea

/-- What is expanded for the client, and to what. -/
def sampleKeys : List ((List UInt8 × List UInt8) × List UInt8) :=
  [((sampleInitialSecret, buildHkdfLabel (byteString "client in") [] 32), sampleSecret),
    ((sampleSecret, buildHkdfLabel (byteString "quic key") [] 16), sampleKey),
    ((sampleSecret, buildHkdfLabel (byteString "quic iv") [] 12),
      BigEndian.bytes 12 0xfa044b2f42a3fd3b46fb255c),
    ((sampleSecret, buildHkdfLabel (byteString "quic hp") [] 16), sampleHeaderKey)]

/-- The samples of the two packets with their masks. -/
def sampleMasks : List ((List UInt8 × List UInt8) × List UInt8) :=
  [((sampleHeaderKey, BigEndian.bytes 16 0x6348909385e9eb6de05d0c26f9036d55),
      BigEndian.bytes 16 0xde07e23fae70cb5661ce705c5ef80697),
    ((sampleHeaderKey, BigEndian.bytes 16 0xbd1b87c2ce3a4bc3dadba0dd3ba98fd9),
      BigEndian.bytes 16 0x2207247520f0787b8bc6198fdcd26b57)]

/-- The nonces, headers and ciphertexts of the two packets with the payloads: PING and PADDING in
the first one, CRYPTO and CONNECTION_CLOSE in the second. -/
def samplePayloads : List ((List UInt8 × List UInt8 × List UInt8 × List UInt8) × List UInt8) :=
  [((sampleKey, BigEndian.bytes 12 0xfa044b2f42a3fd3b46fb255c,
        BigEndian.bytes 18 0xc000000001088394c8f03e51570800001400,
        BigEndian.bytes 19 0x41b4116348909385e9eb6de05d0c26f9036d55),
      [0x01, 0x00, 0x00]),
    ((sampleKey, BigEndian.bytes 12 0xfa044b2f42a3fd3b46fb255d,
        BigEndian.bytes 18 0xc000000001088394c8f03e51570800001901,
        BigEndian.bytes 24 0x6c3aaabd1b87c2ce3a4bc3dadba0dd3ba98fd9c80f3b120e),
      [0x06, 0x00, 0x01, 0x01, 0x1c, 0x00, 0x00, 0x00])]

theorem length_getD_filter {n : ℕ} {default : List UInt8} (bytes? : Option (List UInt8))
    (h : default.length = n) :
    ((bytes?.filter fun bytes => bytes.length = n).getD default).length = n := by
  rcases bytes? with _ | bytes
  · exact h
  · rw [Option.filter_some]
    split_ifs with hlength
    · exact of_decide_eq_true hlength
    · exact h

/-- The primitives on the two packets. -/
@[reducible]
def sampleCrypto : QuicCrypto where
  extract salt secret :=
    if salt = initialSaltV1 ∧ secret = sampleDcid.bytes then sampleInitialSecret else []
  expand prk info len := (sampleKeys.lookup (prk, info)).filter fun okm => okm.length = len
  encryptBlock key block :=
    ((sampleMasks.lookup (key, block)).filter fun mask => mask.length = 16).getD block
  openInPlace key nonce aad ciphertext :=
    (samplePayloads.lookup (key, nonce, aad, ciphertext)).filter fun plaintext =>
      plaintext.length + 16 = ciphertext.length
  expand_length h := of_decide_eq_true (Option.filter_eq_some_iff.mp h).2
  encryptBlock_length _ h := length_getD_filter _ h
  openInPlace_length h := of_decide_eq_true (Option.filter_eq_some_iff.mp h).2

/-- A protected Initial packet of the client. -/
def sampleInitial (firstByte : UInt8) (body : LengthPrefixed) (hlong : firstByte &&& 0x80 ≠ 0)
    (htype : longPacketType firstByte 1 = .initial) : LongPacket where
  firstByte := firstByte
  version := ⟨0, 0, 0, 1⟩
  dcid := sampleDcid
  scid := ⟨[], Nat.zero_le _⟩
  token := some .empty
  body := body
  long_form := hlong
  token_isSome := iff_of_true rfl htype

/-- The packet with the PING. -/
def pingInitial : LongPacket :=
  sampleInitial 0xce ⟨⟨20, .one, by decide⟩,
    BigEndian.bytes 20 0x0741b4116348909385e9eb6de05d0c26f9036d55, rfl⟩ (by decide) (by decide)

/-- The packet with the CRYPTO frame and the CONNECTION_CLOSE. -/
def closeInitial : LongPacket :=
  sampleInitial 0xc2 ⟨⟨25, .one, by decide⟩,
    BigEndian.bytes 25 0x066c3aaabd1b87c2ce3a4bc3dadba0dd3ba98fd9c80f3b120e, rfl⟩
    (by decide) (by decide)

/-- Both packets in one datagram. -/
def twoInitials : CoalescedPackets where
  long := [pingInitial, closeInitial]
  short := none
  carriesLength :=
    List.forall_mem_cons.mpr ⟨.inl rfl, List.forall_mem_singleton.mpr (.inl rfl)⟩

/-- The CONNECTION_CLOSE is lost. -/
theorem not_keepsPackets_twoInitials :
    letI : DeepPacketInspection := .silent
    letI : QuicCrypto := sampleCrypto
    ¬ KeepsPackets twoInitials := by
  let _ : DeepPacketInspection := .silent
  let _ : QuicCrypto := sampleCrypto
  intro hkeeps
  have hping : pingInitial.info.connectionClose.isSome = false := by decide +kernel
  have hclose : closeInitial.info.connectionClose.isSome = true := by decide +kernel
  have hmem : closeInitial.encode ∈ twoInitials.packets := List.mem_cons_of_mem _ List.mem_cons_self
  -- the second packet alone has the close, so the combination would have to have it
  obtain ⟨whole, hwhole, hkept⟩ := hkeeps _ hmem _ (parseQuicPacket_long closeInitial)
  have hinfos : twoInitials.infos = [pingInitial.info, closeInitial.info] := rfl
  have hcombined : parseQuicPacket twoInitials.bytes =
      pure (some (mergeQuicPacketInfoInto pingInitial.info closeInitial.info)) :=
    parseQuicPacket_bytes_cons hinfos
  have hinfo : mergeQuicPacketInfoInto pingInitial.info closeInitial.info = whole :=
    Option.some.inj (Except.ok.inj (hcombined.symm.trans hwhole))
  have hsome := hkept.close hclose
  rw [← hinfo] at hsome
  exact absurd (hping.symm.trans hsome) Bool.false_ne_true

end RustNet.Quic

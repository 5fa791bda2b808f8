import RustNet.Network.Parser.Internet

/-!
# IPv6 extension headers

Extension headers as the senders write them, and what the walk over them makes of a chain. Three
kinds of headers give their length in three units; `ExtensionHeader` carries the proof that the
length field is the right one for the bytes that follow, so a malformed header cannot be built.

## Main results

* `parseIpv6ExtensionHeaders_encodeChain`: the walk takes a well-formed chain off and goes on
  behind it as if the packet started there;
* `exists_encodeChain_of_walk`: what the walk takes off is such a chain;
* `parseIpv6_encodeChain`: a chain in front of the transport header changes the packet length and
  nothing else, for framed and raw packets.
-/

namespace RustNet

/-! ## The walk, from any offset -/

section Walk

variable {nextHeader next : UInt8} {data : List UInt8} {offset headerLen : ℕ}

/-- A round of the walk reads the data from the offset on. -/
theorem extensionHeaderAt_eq_drop :
    extensionHeaderAt nextHeader data offset =
      extensionHeaderAt nextHeader (data.drop offset) 0 := by
  have hlt : ∀ k, data.length < offset + (k + 1) ↔ (data.drop offset).length < 0 + (k + 1) := by
    intro k
    rw [List.length_drop]
    omega
  unfold extensionHeaderAt
  simp only [hlt, List.getElem_drop, Nat.zero_add, Nat.add_zero]

/-- The walk returns where the round at `offset` does. -/
theorem parseIpv6ExtensionHeaders_of_none (h : extensionHeaderAt nextHeader data offset = none) :
    parseIpv6ExtensionHeaders nextHeader data offset = (nextHeader, offset) := by
  rw [parseIpv6ExtensionHeaders]
  split
  · rfl
  · next heq => rw [h] at heq; cases heq

/-- The walk goes on behind a header, also at the end of the data, where the source returns at
once: there is nothing left to read. -/
theorem parseIpv6ExtensionHeaders_of_some
    (h : extensionHeaderAt nextHeader data offset = some (next, headerLen)) :
    parseIpv6ExtensionHeaders nextHeader data offset =
      parseIpv6ExtensionHeaders next data (offset + headerLen) := by
  rw [parseIpv6ExtensionHeaders]
  split
  · next heq => rw [h] at heq; cases heq
  · next heq =>
    obtain ⟨rfl, rfl⟩ := Prod.mk.inj (Option.some.inj (h.symm.trans heq))
    split
    · rfl
    -- at the end of the data no further header is read
    · refine (parseIpv6ExtensionHeaders_of_none ?_).symm
      apply Option.eq_none_iff_forall_ne_some.mpr
      rintro ⟨next', headerLen'⟩ hsome
      have := (extensionHeaderAt_pos hsome).2
      omega

/-- The walk from an offset on is the walk over the data from there. -/
theorem parseIpv6ExtensionHeaders_eq_drop :
    parseIpv6ExtensionHeaders nextHeader data offset =
      (parseIpv6ExtensionHeaders nextHeader (data.drop offset) 0).map id (offset + ·) := by
  -- both walks read the same header and go on at a place that is nearer to the end of the data
  induction hk : data.length - offset using Nat.strong_induction_on
    generalizing nextHeader data offset with
  | _ k ih =>
  cases hround : extensionHeaderAt nextHeader data offset with
  | none =>
    rw [parseIpv6ExtensionHeaders_of_none hround]
    rw [extensionHeaderAt_eq_drop] at hround
    rw [parseIpv6ExtensionHeaders_of_none hround]
    rfl
  | some header =>
    obtain ⟨next, headerLen⟩ := header
    have hpos := extensionHeaderAt_pos hround
    rw [parseIpv6ExtensionHeaders_of_some hround]
    rw [extensionHeaderAt_eq_drop] at hround
    rw [parseIpv6ExtensionHeaders_of_some hround, Nat.zero_add]
    rw [ih (data.length - (offset + headerLen)) (by omega) rfl,
      ih ((data.drop offset).length - headerLen) (by rw [List.length_drop]; omega) rfl,
      List.drop_drop]
    simp only [Prod.map, id, Nat.add_assoc]

end Walk

/-! ## Headers on the wire -/

/-- The extension headers that count their length in words of eight bytes. -/
inductive OptionsKind
  | hopByHop | routing | destinationOptions
deriving DecidableEq

/-- An extension header. What follows the next-header byte and the length byte is as long as the
length byte says. -/
inductive ExtensionHeader
  /-- Options and routing headers: eight-byte words, the first not counted. -/
  | options (kind : OptionsKind) (hdrExtLen : UInt8) (body : List UInt8)
      (length_eq : 2 + body.length = (hdrExtLen.toNat + 1) * 8)
  /-- An authentication header: four-byte words, the first two not counted. -/
  | authentication (payloadLen : UInt8) (body : List UInt8)
      (length_eq : 2 + body.length = (payloadLen.toNat + 2) * 4)
  /-- A fragment header: eight bytes, without a length byte. -/
  | fragment (reserved : UInt8) (offsetAndFlags : UInt16) (identification : Vector UInt8 4)

namespace ExtensionHeader

/-- The next-header number that announces the header. -/
def number : ExtensionHeader → UInt8
  | options .hopByHop .. => 0
  | options .routing .. => 43
  | options .destinationOptions .. => 60
  | authentication .. => 51
  | fragment .. => 44

/-- The header's bytes, with the number of the header behind it. -/
def encode (next : UInt8) : ExtensionHeader → List UInt8
  | options _ hdrExtLen body _ => next :: hdrExtLen :: body
  | authentication payloadLen body _ => next :: payloadLen :: body
  | fragment reserved offsetAndFlags identification =>
    next :: reserved :: (offsetAndFlags >>> 8).toUInt8 :: offsetAndFlags.toUInt8 ::
      identification.toList

/-- The header's length in bytes. -/
def length : ExtensionHeader → ℕ
  | options _ _ body _ => 2 + body.length
  | authentication _ body _ => 2 + body.length
  | fragment .. => 8

/-- The fragment offset, zero outside a fragment header. -/
def fragmentOffset : ExtensionHeader → UInt16
  | fragment _ offsetAndFlags _ => offsetAndFlags >>> 3
  | _ => 0

@[simp]
theorem length_encode (header : ExtensionHeader) (next : UInt8) :
    (header.encode next).length = header.length := by
  cases header <;> simp [encode, length]
  all_goals omega

/-- A round of the walk reads a header's successor and length off its bytes. -/
theorem extensionHeaderAt_encode (header : ExtensionHeader) (next : UInt8) (rest : List UInt8) :
    extensionHeaderAt header.number (header.encode next ++ rest) 0 =
      some (next, header.length) := by
  cases header with
  | options kind hdrExtLen body length_eq =>
    have hkind : number (.options kind hdrExtLen body length_eq) = 0 ∨
        number (.options kind hdrExtLen body length_eq) = 43 ∨
        number (.options kind hdrExtLen body length_eq) = 60 := by
      cases kind <;> simp [number]
    rw [extensionHeaderAt, if_pos hkind, dif_neg (by simp [encode])]
    simp [encode, length, length_eq]
  | authentication payloadLen body length_eq =>
    simp [extensionHeaderAt, number, encode, length, length_eq]
  | fragment reserved offsetAndFlags identification =>
    rw [extensionHeaderAt, if_neg (by simp [number]), if_pos (by rfl),
      dif_neg (by simp [encode])]
    simp [encode, length]

/-- The walk takes a header off and goes on behind it as if the data started there. -/
theorem parseIpv6ExtensionHeaders_encode (header : ExtensionHeader) (next : UInt8)
    (rest : List UInt8) :
    parseIpv6ExtensionHeaders header.number (header.encode next ++ rest) 0 =
      (parseIpv6ExtensionHeaders next rest 0).map id (header.length + ·) := by
  have hdrop : (header.encode next ++ rest).drop header.length = rest := by
    rw [← header.length_encode next, List.drop_left]
  rw [parseIpv6ExtensionHeaders_of_some (header.extensionHeaderAt_encode next rest), Nat.zero_add,
    parseIpv6ExtensionHeaders_eq_drop, hdrop]

/-- Where a round of the walk finds a header that lies in the data, a header was written. -/
theorem exists_of_extensionHeaderAt {nextHeader next : UInt8} {data : List UInt8} {headerLen : ℕ}
    (h : extensionHeaderAt nextHeader data 0 = some (next, headerLen))
    (hlen : headerLen ≤ data.length) :
    ∃ header : ExtensionHeader, header.number = nextHeader ∧ header.length = headerLen ∧
      data = header.encode next ++ data.drop headerLen := by
  have hlen2 := (extensionHeaderAt_pos h).2
  rcases data with _ | ⟨b0, _ | ⟨b1, rest⟩⟩
  · simp at hlen2
  · simp at hlen2
  · -- two bytes, then as many as the length says
    have hsplit (k : ℕ) (hk : 2 ≤ k) :
        b0 :: b1 :: rest = (b0 :: b1 :: rest.take (k - 2)) ++ (b0 :: b1 :: rest).drop k := by
      obtain ⟨m, rfl⟩ := Nat.exists_eq_add_of_le' hk
      simp
    have htake (k : ℕ) (hk : 2 ≤ k) (hle : k ≤ (b0 :: b1 :: rest).length) :
        2 + (rest.take (k - 2)).length = k := by
      rw [List.length_take]
      simp only [List.length_cons] at hle
      omega
    unfold extensionHeaderAt at h
    split_ifs at h with hoptions _ hfragment hlen8 hauthentication
    -- three kinds with options, in units of eight bytes
    · obtain ⟨rfl, rfl⟩ := Prod.mk.inj (Option.some.inj h)
      have hbody := htake _ (by omega) hlen
      obtain ⟨kind, hkind⟩ : ∃ kind, number (.options kind b1 _ hbody) = nextHeader := by
        rcases hoptions with rfl | rfl | rfl
        · exact ⟨.hopByHop, rfl⟩
        · exact ⟨.routing, rfl⟩
        · exact ⟨.destinationOptions, rfl⟩
      exact ⟨.options kind b1 _ hbody, hkind, hbody, hsplit _ (by omega)⟩
    -- a fragment header has eight bytes
    · obtain ⟨rfl, rfl⟩ := Prod.mk.inj (Option.some.inj h)
      rcases rest with _ | ⟨b2, _ | ⟨b3, rest⟩⟩
      · simp at hlen8
      · simp at hlen8
      · have hid : (rest.take 4).length = 4 := by
          rw [List.length_take]
          simp only [List.length_cons] at hlen8
          omega
        refine ⟨.fragment b1 (be16 b2 b3) ⟨(rest.take 4).toArray, by simpa using hid⟩,
          hfragment.symm, rfl, ?_⟩
        simp [encode]
    -- an authentication header is counted in units of four
    · obtain ⟨rfl, rfl⟩ := Prod.mk.inj (Option.some.inj h)
      have hbody := htake _ (by omega) hlen
      exact ⟨.authentication b1 _ hbody, hauthentication.symm, hbody, hsplit _ (by omega)⟩

end ExtensionHeader

/-! ## Chains -/

/-- The number in front of a chain that ends at the transport header of protocol `last`. -/
def firstNumber (last : UInt8) : List ExtensionHeader → UInt8
  | [] => last
  | header :: _ => header.number

/-- A chain's bytes, each header announcing the next. -/
def encodeChain (last : UInt8) : List ExtensionHeader → List UInt8
  | [] => []
  | header :: chain => header.encode (firstNumber last chain) ++ encodeChain last chain

/-- A chain's length in bytes. -/
def chainLength (chain : List ExtensionHeader) : ℕ := (chain.map ExtensionHeader.length).sum

@[simp]
theorem length_encodeChain (last : UInt8) (chain : List ExtensionHeader) :
    (encodeChain last chain).length = chainLength chain := by
  induction chain with
  | nil => rfl
  | cons header chain ih =>
    rw [encodeChain, List.length_append, ExtensionHeader.length_encode, ih]
    rfl

/-- The walk takes a well-formed chain off and goes on behind it as if the data started there. -/
theorem parseIpv6ExtensionHeaders_encodeChain (last : UInt8) (chain : List ExtensionHeader)
    (rest : List UInt8) :
    parseIpv6ExtensionHeaders (firstNumber last chain) (encodeChain last chain ++ rest) 0 =
      (parseIpv6ExtensionHeaders last rest 0).map id (chainLength chain + ·) := by
  induction chain with
  | nil => simp [firstNumber, encodeChain, chainLength, Prod.map]
  | cons header chain ih =>
    rw [firstNumber, encodeChain, List.append_assoc, header.parseIpv6ExtensionHeaders_encode, ih]
    simp [Prod.map, chainLength, Nat.add_assoc]

/-- What the walk takes off inside the data is a well-formed chain. -/
theorem exists_encodeChain_of_walk {nextHeader last : UInt8} {data : List UInt8} {offset : ℕ}
    (h : parseIpv6ExtensionHeaders nextHeader data 0 = (last, offset))
    (hoffset : offset ≤ data.length) :
    ∃ chain, nextHeader = firstNumber last chain ∧
      data = encodeChain last chain ++ data.drop offset := by
  induction hk : data.length using Nat.strong_induction_on
    generalizing nextHeader data offset with
  | _ k ih =>
  rcases hround : extensionHeaderAt nextHeader data 0 with _ | ⟨next, headerLen⟩
  · rw [parseIpv6ExtensionHeaders_of_none hround] at h
    obtain ⟨rfl, rfl⟩ := Prod.mk.inj h
    exact ⟨[], rfl, rfl⟩
  · rw [parseIpv6ExtensionHeaders_of_some hround, Nat.zero_add,
      parseIpv6ExtensionHeaders_eq_drop] at h
    rcases hrest : parseIpv6ExtensionHeaders next (data.drop headerLen) 0 with ⟨last', offset'⟩
    rw [hrest, Prod.map_apply, id_eq, Prod.mk.injEq] at h
    obtain ⟨rfl, rfl⟩ := h
    have hpos := (extensionHeaderAt_pos hround).1
    -- the header first, then the chain found behind it
    obtain ⟨header, rfl, rfl, hdata⟩ :=
      ExtensionHeader.exists_of_extensionHeaderAt hround (by omega)
    have hlen : (data.drop header.length).length = data.length - header.length :=
      List.length_drop
    obtain ⟨chain, rfl, hchain⟩ := ih _ (by omega) hrest (by omega) rfl
    refine ⟨header :: chain, rfl, ?_⟩
    rw [encodeChain, List.append_assoc, ← List.drop_drop, ← hchain]
    exact hdata

/-! ## IPv6 packets -/

/-- An IPv6 header, less the payload length and the next-header number. -/
structure Ipv6Header where
  versionAndClass : UInt8
  classAndFlow : UInt8
  flow : UInt16
  hopLimit : UInt8
  src : Vector UInt8 16
  dst : Vector UInt8 16
  version_eq : versionAndClass >>> 4 = 6

/-- The bytes of an IPv6 header. -/
def Ipv6Header.encode (header : Ipv6Header) (payloadLength : UInt16) (nextHeader : UInt8) :
    List UInt8 :=
  [header.versionAndClass, header.classAndFlow, (header.flow >>> 8).toUInt8, header.flow.toUInt8,
    (payloadLength >>> 8).toUInt8, payloadLength.toUInt8, nextHeader, header.hopLimit] ++
    (header.src.toList ++ header.dst.toList)

/-- The addresses of an IPv6 header, with the length of its packet. -/
def Ipv6Header.params (header : Ipv6Header) (packetLen : UInt64) (processName : Option String)
    (processId : Option UInt32) : TransportParams where
  srcIp := ipv6At header.src.toList 0 (by simp)
  dstIp := ipv6At header.dst.toList 0 (by simp)
  packetLen := packetLen
  processName := processName
  processId := processId

theorem Ipv6Header.length_encode (header : Ipv6Header) (payloadLength : UInt16)
    (nextHeader : UInt8) : (header.encode payloadLength nextHeader).length = 40 := by
  simp [Ipv6Header.encode]

/-- The walk hands on what lies behind the chain it took off. -/
theorem Datagram.ofIpv6_encode (linkLen : ℕ) (header : Ipv6Header) (payloadLength : UInt16)
    (nextHeader : UInt8) (payload : List UInt8) (processName : Option String)
    (processId : Option UInt32) :
    Datagram.ofIpv6 linkLen (header.encode payloadLength nextHeader ++ payload) processName
        processId =
      some
        { protocolNum := (parseIpv6ExtensionHeaders nextHeader payload 0).1
          transportData := payload.drop (parseIpv6ExtensionHeaders nextHeader payload 0).2
          params := header.params (UInt64.ofNat (linkLen + 40 + payloadLength.toNat)) processName
            processId } := by
  have hlen := header.length_encode payloadLength nextHeader
  rw [Datagram.ofIpv6, dif_neg (by rw [List.length_append]; omega)]
  rw [if_neg (by simp [Ipv6Header.encode, header.version_eq])]
  have hdrop : (header.encode payloadLength nextHeader ++ payload).drop 40 = payload := by
    rw [← hlen, List.drop_left]
  have hsrc : ipv6At (header.encode payloadLength nextHeader ++ payload) 8
      (by rw [List.length_append]; omega) = ipv6At header.src.toList 0 (by simp) := by
    simp [ipv6At, Ipv6Header.encode]
  have hdst : ipv6At (header.encode payloadLength nextHeader ++ payload) 24
      (by rw [List.length_append]; omega) = ipv6At header.dst.toList 0 (by simp) := by
    simp [ipv6At, Ipv6Header.encode]
  -- the clamp on the walk's offset makes no difference to `drop`
  have hclamp (k : ℕ) : payload.drop (min k payload.length) = payload.drop k := by
    rcases le_total k payload.length with hk | hk
    · rw [min_eq_left hk]
    · rw [min_eq_right hk, List.drop_length, List.drop_eq_nil_of_le hk]
  simp only [hdrop, hsrc, hdst, hclamp]
  simp [Ipv6Header.encode, Ipv6Header.params, be16_bytes]

/-- Behind a chain, the packet is handed on as if it had none. -/
theorem Datagram.ofIpv6_encodeChain (linkLen : ℕ) (header : Ipv6Header) (payloadLength : UInt16)
    (last : UInt8) (chain : List ExtensionHeader) (rest : List UInt8)
    (processName : Option String) (processId : Option UInt32) :
    Datagram.ofIpv6 linkLen
        (header.encode payloadLength (firstNumber last chain) ++ (encodeChain last chain ++ rest))
        processName processId =
      some
        { protocolNum := (parseIpv6ExtensionHeaders last rest 0).1
          transportData := rest.drop (parseIpv6ExtensionHeaders last rest 0).2
          params := header.params (UInt64.ofNat (linkLen + 40 + payloadLength.toNat)) processName
            processId } := by
  -- what lies `k` bytes behind the chain's end
  have hbehind (k : ℕ) :
      (encodeChain last chain ++ rest).drop (chainLength chain + k) = rest.drop k := by
    rw [← length_encodeChain last chain, ← List.drop_drop, List.drop_left]
  rw [Datagram.ofIpv6_encode, parseIpv6ExtensionHeaders_encodeChain]
  simp only [Prod.map, id, hbehind]

section

variable [DeepPacketInspection]

/-- A chain in front of the transport header makes the packet longer and changes nothing else. The
chain is any sequence of well-formed extension headers that fits into the payload length (`hfit`);
the header, what comes behind the chain and the link header are any. Both copies of the IPv6 parser
are meant, the one behind a link header and the raw one. -/
theorem PacketParser.parseIpv6_encodeChain (parser : PacketParser) (linkHeader : List UInt8)
    (header : Ipv6Header) (chain : List ExtensionHeader) (transportNum : UInt8)
    (transportData : List UInt8) (payloadLength : UInt16)
    (hfit : payloadLength.toNat + chainLength chain < 65536) (processName : Option String)
    (processId : Option UInt32) :
    let plain := header.encode payloadLength transportNum ++ transportData
    let chained :=
      header.encode (payloadLength + UInt16.ofNat (chainLength chain))
          (firstNumber transportNum chain) ++
        (encodeChain transportNum chain ++ transportData)
    let n := UInt64.ofNat (chainLength chain)
    parser.parseIpv6PacketInner (linkHeader ++ chained) linkHeader.length processName processId =
        (parser.parseIpv6PacketInner (linkHeader ++ plain) linkHeader.length processName
          processId).map (·.lengthen n) ∧
      parser.parseRawIpv6Packet chained processName processId =
        (parser.parseRawIpv6Packet plain processName processId).map (·.lengthen n) := by
  intro plain chained n
  -- the payload length counts the chain, and `hfit` keeps the sum from wrapping
  have hlen : (payloadLength + UInt16.ofNat (chainLength chain)).toNat =
      payloadLength.toNat + chainLength chain := by
    rw [UInt16.toNat_add, UInt16.toNat_ofNat']
    omega
  have hpacketLen (linkLen : ℕ) :
      UInt64.ofNat (linkLen + 40 + (payloadLength + UInt16.ofNat (chainLength chain)).toNat) =
        UInt64.ofNat (linkLen + 40 + payloadLength.toNat) + n := by
    rw [hlen, ← Nat.add_assoc, UInt64.ofNat_add]
  have hdatagram (linkLen : ℕ) :
      Datagram.ofIp .v6 linkLen chained processName processId =
        (Datagram.ofIp .v6 linkLen plain processName processId).map (·.lengthen n) := by
    show Datagram.ofIpv6 _ _ _ _ = (Datagram.ofIpv6 _ _ _ _).map _
    rw [Datagram.ofIpv6_encodeChain, Datagram.ofIpv6_encode, hpacketLen]
    rfl
  have hparse (linkLen : ℕ) :
      parser.parseIp .v6 linkLen chained processName processId =
        (parser.parseIp .v6 linkLen plain processName processId).map (·.lengthen n) := by
    rw [parseIp, hdatagram, parseIp]
    cases Datagram.ofIp .v6 linkLen plain processName processId with
    | none => rfl
    | some d => exact parser.parseTransport_lengthen .v6 d
  constructor
  · rw [parseIpv6PacketInner, parseIpv6PacketInner, List.drop_left, List.drop_left, hparse]
  · rw [parseRawIpv6Packet, parseRawIpv6Packet, hparse]

end

/-- An IPv6 header from `2001:db8::1` to `2001:db8::2`. -/
def sampleIpv6Header : Ipv6Header where
  versionAndClass := 0x60
  classAndFlow := 0
  flow := 0
  hopLimit := 64
  src := #v[0x20, 0x01, 0x0d, 0xb8, 0, 0, 0, 0, 0, 0, 0, 0, 0, 0, 0, 1]
  dst := #v[0x20, 0x01, 0x0d, 0xb8, 0, 0, 0, 0, 0, 0, 0, 0, 0, 0, 0, 2]
  version_eq := by decide

/-- A header of each unit of length: 8, 8 and 12 bytes. -/
def sampleChain : List ExtensionHeader :=
  [.options .hopByHop 0 (List.replicate 6 0) (by decide), .fragment 0 0 #v[0, 0, 0, 1],
    .authentication 1 (List.replicate 10 0) (by decide)]

/-- A TCP segment behind the three headers parses as it does alone, in a packet longer by 28. -/
theorem sampleChain_lengthens :
    letI : DeepPacketInspection := .silent
    let tcp := (sampleSegment 1 2 40000 80 0x02).drop 20
    ∃ p, (sampleParser 229).parseRawIpv6Packet (sampleIpv6Header.encode 20 6 ++ tcp) none none =
        some p ∧
      (sampleParser 229).parseRawIpv6Packet
          (sampleIpv6Header.encode 48 0 ++ (encodeChain 6 sampleChain ++ tcp)) none none =
        some (p.lengthen 28) := by
  have hplain :
      letI : DeepPacketInspection := .silent
      ((sampleParser 229).parseRawIpv6Packet (sampleIpv6Header.encode 20 6 ++
        (sampleSegment 1 2 40000 80 0x02).drop 20) none none).isSome := by
    decide +kernel
  have hchained := (@PacketParser.parseIpv6_encodeChain .silent (sampleParser 229) []
    sampleIpv6Header sampleChain 6 ((sampleSegment 1 2 40000 80 0x02).drop 20) 20 (by decide) none
    none).2
  obtain ⟨p, hp⟩ := Option.isSome_iff_exists.mp hplain
  refine ⟨p, hp, ?_⟩
  rw [hp] at hchained
  exact hchained

end RustNet

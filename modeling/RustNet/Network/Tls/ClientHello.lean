import RustNet.Network.Tls.Scan

/-!
# ClientHello messages

The bytes of a ClientHello, and what the parsers read from the front part of one: its server name,
the start of it with a mark, or nothing. From the whole message they read the server name.

## Main definitions

* `Tls.HelloMessage`: a message with any extensions;
* `Tls.ClientHello`: a message with one `server_name` extension, whose name is a host name;
* `Tls.ClientHello.encode`: its bytes;
* `Tls.IsRealName`: a name without a mark that is the one of the message.

## Main results

* `Tls.ClientHello.parsePartialTlsHandshake_take`: what is read from the front part of a message, and
  from the whole;
* `Tls.fragmentPatternAt_real`, `Tls.greedyAt_real`: a scan that hits the `server_name` extension of a
  message reads no other name.
-/

namespace RustNet

namespace Tls

open Checked

/-! ## Messages -/

/-- An extension of a hello message. -/
structure Extension where
  type : ℕ
  content : List UInt8
  type_lt : type < 256 ^ 2
  length_lt : content.length < 256 ^ 2

/-- The bytes of an extension. -/
def Extension.encode (e : Extension) : List UInt8 :=
  BigEndian.bytes 2 e.type ++ (BigEndian.bytes 2 e.content.length ++ e.content)

/-- The content of a `server_name` extension: a host name, and entries of other types behind it. -/
def serverNameList (sni : String) (otherNames : List UInt8) : List UInt8 :=
  BigEndian.bytes 2 (3 + (nameBytes sni).length + otherNames.length) ++
    (0x00 :: (BigEndian.bytes 2 (nameBytes sni).length ++ (nameBytes sni ++ otherNames)))

/-- The bytes of some extensions. -/
def encodeExtensions (extensions : List Extension) : List UInt8 := extensions.flatMap Extension.encode

/-- A ClientHello with any extensions. -/
structure HelloMessage where
  version : Vector UInt8 2
  random : Vector UInt8 32
  sessionId : List UInt8
  cipherSuites : List UInt8
  compressionMethods : List UInt8
  extensions : List Extension
  sessionId_length_lt : sessionId.length < 256
  cipherSuites_length_lt : cipherSuites.length < 256 ^ 2
  compressionMethods_length_lt : compressionMethods.length < 256
  extensions_length_lt : (encodeExtensions extensions).length < 256 ^ 2

namespace HelloMessage

variable (message : HelloMessage)

/-- What follows the random: the session, the cipher suites, the compression methods and the
extensions, each behind its length. -/
def tail : List UInt8 :=
  UInt8.ofNat message.sessionId.length :: (message.sessionId ++
    (BigEndian.bytes 2 message.cipherSuites.length ++ (message.cipherSuites ++
      (UInt8.ofNat message.compressionMethods.length :: (message.compressionMethods ++
        (BigEndian.bytes 2 (encodeExtensions message.extensions).length ++
          encodeExtensions message.extensions))))))

/-- The message without its header. -/
def body : List UInt8 := message.version.toList ++ message.random.toList ++ message.tail

/-- The message: its type, the three bytes of its length and its body. -/
def encode : List UInt8 := 0x01 :: (BigEndian.bytes 3 message.body.length ++ message.body)

/-- Where the extensions start in the body. -/
def extensionsStart : ℕ :=
  34 + (1 + message.sessionId.length) + (2 + message.cipherSuites.length) +
    (1 + message.compressionMethods.length) + 2

/-- Where the parts of the body stand. -/
theorem at_body :
    At message.body 34 message.tail ∧
      (∃ rest, At message.body (34 + (1 + message.sessionId.length))
        (BigEndian.bytes 2 message.cipherSuites.length ++ rest)) ∧
      (∃ rest, At message.body
        (34 + (1 + message.sessionId.length) + (2 + message.cipherSuites.length))
          (UInt8.ofNat message.compressionMethods.length :: rest)) ∧
      At message.body (34 + (1 + message.sessionId.length) + (2 + message.cipherSuites.length) +
          (1 + message.compressionMethods.length))
        (BigEndian.bytes 2 (encodeExtensions message.extensions).length ++
          encodeExtensions message.extensions) ∧
      At message.body message.extensionsStart (encodeExtensions message.extensions) := by
  have htail : At message.body (0 + 34) message.tail :=
    (At.start message.body).skip_of_length (by simp)
  have hciphers := htail.next_skip
  have hcompression := hciphers.skip_skip (BigEndian.length_bytes 2 _)
  have hextensions := hcompression.next_skip
  exact ⟨htail, ⟨_, hciphers⟩, ⟨_, hcompression⟩, hextensions,
    hextensions.skip_of_length (BigEndian.length_bytes 2 _)⟩

theorem length_body :
    message.body.length = message.extensionsStart + (encodeExtensions message.extensions).length :=
  message.at_body.2.2.2.2.length_eq

theorem length_body_lt : message.body.length < 2 ^ 18 := by
  have hsession := message.sessionId_length_lt
  have hciphers := message.cipherSuites_length_lt
  have hmethods := message.compressionMethods_length_lt
  have hextensions := message.extensions_length_lt
  rw [length_body, extensionsStart]
  omega

theorem length_encode : message.encode.length = 4 + message.body.length := by
  rw [encode, List.length_cons, List.length_append, BigEndian.length_bytes]
  omega

theorem at_encode :
    At message.encode 1 (BigEndian.bytes 3 message.body.length ++ message.body) ∧
      At message.encode 4 message.body := by
  have hlength := (At.start message.encode).next
  exact ⟨hlength, hlength.skip_of_length (BigEndian.length_bytes 3 _)⟩

end HelloMessage

/-- A ClientHello with one `server_name` extension, among any others. -/
structure ClientHello where
  version : Vector UInt8 2
  random : Vector UInt8 32
  sessionId : List UInt8
  cipherSuites : List UInt8
  compressionMethods : List UInt8
  before : List Extension
  sni : String
  otherNames : List UInt8
  after : List Extension
  sessionId_length_lt : sessionId.length < 256
  cipherSuites_length_lt : cipherSuites.length < 256 ^ 2
  compressionMethods_length_lt : compressionMethods.length < 256
  before_type_ne : ∀ e ∈ before, e.type ≠ 0
  after_type_ne : ∀ e ∈ after, e.type ≠ 0
  valid : isValidHostname sni = true
  names_length_lt : (serverNameList sni otherNames).length < 256 ^ 2
  extensions_length_lt : (encodeExtensions before).length +
    (4 + (serverNameList sni otherNames).length + (encodeExtensions after).length) < 256 ^ 2

namespace ClientHello

variable (hello : ClientHello)

/-- The `server_name` extension: the list of names with the host name in front. -/
def sniExtension : Extension where
  type := 0
  content := serverNameList hello.sni hello.otherNames
  type_lt := by decide
  length_lt := hello.names_length_lt

@[simp]
theorem sniExtension_type : hello.sniExtension.type = 0 := rfl

@[simp]
theorem sniExtension_content :
    hello.sniExtension.content = serverNameList hello.sni hello.otherNames := rfl

/-- All extensions, in their order. -/
def extensions : List Extension := hello.before ++ hello.sniExtension :: hello.after

/-- What follows the random: the session, the cipher suites, the compression methods and the
extensions, each behind its length. -/
def tail : List UInt8 :=
  UInt8.ofNat hello.sessionId.length :: (hello.sessionId ++
    (BigEndian.bytes 2 hello.cipherSuites.length ++ (hello.cipherSuites ++
      (UInt8.ofNat hello.compressionMethods.length :: (hello.compressionMethods ++
        (BigEndian.bytes 2 (encodeExtensions hello.extensions).length ++
          encodeExtensions hello.extensions))))))

/-- The message without its header. -/
def body : List UInt8 := hello.version.toList ++ hello.random.toList ++ hello.tail

/-- The message: its type, the three bytes of its length and its body. -/
def encode : List UInt8 := 0x01 :: (BigEndian.bytes 3 hello.body.length ++ hello.body)

/-- Where the extensions start in the body. -/
def extensionsStart : ℕ :=
  34 + (1 + hello.sessionId.length) + (2 + hello.cipherSuites.length) +
    (1 + hello.compressionMethods.length) + 2

/-- Where the `server_name` extension starts in the message. -/
def sniOffset : ℕ := 4 + hello.extensionsStart + (encodeExtensions hello.before).length

end ClientHello

/-! ## The server name -/

/-- A name without a mark is `sni`. -/
def IsRealName (sni name : String) : Prop := isPartialSni name = false → name = sni

section Name

variable {sni : String} {otherNames rest : List UInt8} {k : ℕ} {allowPartial : Bool}

theorem isRealName_cutName {bytes : List UInt8} {name : String} (h : cutName bytes = some name) :
    IsRealName sni name := by
  obtain ⟨cut, -, rfl⟩ := Option.map_eq_some_iff.mp h
  exact fun hpartial => absurd hpartial (by rw [isPartialSni_markPartialSni]; decide)

theorem length_serverNameList (sni : String) (otherNames : List UInt8) :
    (serverNameList sni otherNames).length =
      5 + (nameBytes sni).length + otherNames.length := by
  simp only [serverNameList, List.length_append, List.length_cons, BigEndian.length_bytes]
  omega

/-- What stands at the start of the content: the lengths, and the name behind them. -/
theorem at_serverNameList {data : List UInt8} {offset : ℕ}
    (h : At data offset (serverNameList sni otherNames ++ rest)) :
    At data offset (BigEndian.bytes 2 (3 + (nameBytes sni).length + otherNames.length) ++
        (0x00 :: (BigEndian.bytes 2 (nameBytes sni).length ++
          (nameBytes sni ++ (otherNames ++ rest))))) ∧
      At data (offset + 2) (0x00 :: (BigEndian.bytes 2 (nameBytes sni).length ++
        (nameBytes sni ++ (otherNames ++ rest)))) ∧
      At data (offset + 3) (BigEndian.bytes 2 (nameBytes sni).length ++
        (nameBytes sni ++ (otherNames ++ rest))) ∧
      At data (offset + 5) (nameBytes sni ++ (otherNames ++ rest)) := by
  have hlist : At data offset (BigEndian.bytes 2 (3 + (nameBytes sni).length + otherNames.length) ++
      (0x00 :: (BigEndian.bytes 2 (nameBytes sni).length ++
        (nameBytes sni ++ (otherNames ++ rest))))) := by
    simpa only [serverNameList, List.append_assoc, List.cons_append] using h
  have htype := hlist.skip_of_length (BigEndian.length_bytes 2 _)
  have hlength := htype.next
  exact ⟨hlist, htype, hlength, hlength.skip_of_length (BigEndian.length_bytes 2 _)⟩

theorem parseSniHeader_take (hvalid : isValidHostname sni = true)
    (hlt : (serverNameList sni otherNames).length < 256 ^ 2)
    (hk : 5 ≤ ((serverNameList sni otherNames ++ rest).take k).length) :
    parseSniHeader ((serverNameList sni otherNames ++ rest).take k) =
      pure (some ⟨3 + (nameBytes sni).length + otherNames.length, (nameBytes sni).length⟩) := by
  obtain ⟨hlist, htype, hname, -⟩ :=
    at_serverNameList (At.start (serverNameList sni otherNames ++ rest))
  have hsize := length_nameBytes_of_valid hvalid
  rw [length_serverNameList] at hlt
  rw [parseSniHeader, if_neg (by omega), beAt_take hlist (by omega) (by omega), pure_bind',
    htype.index_take (by omega), pure_bind', beAt_take hname (by omega) (by omega), pure_bind',
    if_neg (by decide), if_neg (by omega)]

theorem parseSniHeader_take_list (hvalid : isValidHostname sni = true)
    (hlt : (serverNameList sni otherNames).length < 256 ^ 2)
    (hk : 5 ≤ ((serverNameList sni otherNames).take k).length) :
    parseSniHeader ((serverNameList sni otherNames).take k) =
      pure (some ⟨3 + (nameBytes sni).length + otherNames.length, (nameBytes sni).length⟩) := by
  rw [← List.append_nil (serverNameList sni otherNames)] at hk ⊢
  exact parseSniHeader_take hvalid hlt hk

/-- Once the name is there it is read. -/
theorem parseSniExtension_take_of_le (hvalid : isValidHostname sni = true)
    (hlt : (serverNameList sni otherNames).length < 256 ^ 2)
    (hk : 5 + (nameBytes sni).length ≤ ((serverNameList sni otherNames).take k).length)
    (allowPartial : Bool) :
    parseSniExtension ((serverNameList sni otherNames).take k) allowPartial = pure (some sni) := by
  have hat : At (serverNameList sni otherNames) 0 (serverNameList sni otherNames ++ []) := by
    rw [List.append_nil]
    exact At.start _
  obtain ⟨-, -, -, hname⟩ := at_serverNameList hat
  have hsize := length_nameBytes_of_valid hvalid
  have hslice := hname.slice_take (k := k) (by omega)
  rw [Nat.zero_add] at hslice
  rw [parseSniExtension, parseSniHeader_take_list hvalid hlt (by omega), pure_bind']
  dsimp only
  rw [add_eq (by omega), pure_bind', if_pos hk, hslice, pure_bind', completeName_nameBytes hvalid]

/-- From the front part of a `server_name` extension the name is read, the start of it with a mark,
or nothing. -/
theorem parseSniExtension_take (hvalid : isValidHostname sni = true)
    (hlt : (serverNameList sni otherNames).length < 256 ^ 2) (k : ℕ) (allowPartial : Bool) :
    Ensures (parseSniExtension ((serverNameList sni otherNames).take k) allowPartial) fun name? =>
      ∀ name, name? = some name → IsRealName sni name := by
  by_cases hfits : 5 + (nameBytes sni).length ≤ ((serverNameList sni otherNames).take k).length
  · rw [parseSniExtension_take_of_le hvalid hlt hfits allowPartial]
    exact ensures_some fun _ => rfl
  -- the data ends in the name, or before it
  · have hsize := length_nameBytes_of_valid hvalid
    rw [parseSniExtension]
    by_cases hshort : ((serverNameList sni otherNames).take k).length < 5
    · rw [parseSniHeader, if_pos hshort]
      exact ensures_none
    · rw [parseSniHeader_take_list hvalid hlt (Nat.not_lt.mp hshort), pure_bind']
      dsimp only
      rw [add_eq (by omega), pure_bind', if_neg hfits]
      refine Ensures.ite (fun hcut => ?_) fun _ => ensures_none
      exact (ensures_sliceFrom hcut.2.le).bind fun available _ =>
        ensures_pure fun name hname => isRealName_cutName hname

theorem parseSniExtension_serverNameList (hvalid : isValidHostname sni = true)
    (hlt : (serverNameList sni otherNames).length < 256 ^ 2) (allowPartial : Bool) :
    parseSniExtension (serverNameList sni otherNames) allowPartial = pure (some sni) := by
  have hlen := length_serverNameList sni otherNames
  have hall : 5 + (nameBytes sni).length ≤
      ((serverNameList sni otherNames).take (serverNameList sni otherNames).length).length := by
    rw [List.take_length]
    omega
  have htake := parseSniExtension_take_of_le hvalid hlt hall allowPartial
  rwa [List.take_length] at htake

end Name

/-! ## Extensions -/

section Extensions

variable {sni : String} {otherNames data : List UInt8} {extensions : List Extension} {info : TlsInfo}
  {allowPartial : Bool} {k offset rounds : ℕ}

/-- Where an extension starts: its type, its length and its content. -/
theorem at_extension {e : Extension} {rest : List UInt8} (h : At data offset (e.encode ++ rest)) :
    At data offset (BigEndian.bytes 2 e.type ++
        (BigEndian.bytes 2 e.content.length ++ (e.content ++ rest))) ∧
      At data (offset + 2) (BigEndian.bytes 2 e.content.length ++ (e.content ++ rest)) ∧
      At data (offset + 4) (e.content ++ rest) := by
  have htype : At data offset (BigEndian.bytes 2 e.type ++
      (BigEndian.bytes 2 e.content.length ++ (e.content ++ rest))) := by
    simpa only [Extension.encode, List.append_assoc] using h
  have hlength := htype.skip_of_length (BigEndian.length_bytes 2 _)
  exact ⟨htype, hlength, hlength.skip_of_length (BigEndian.length_bytes 2 _)⟩

/-- The `server_name` extension sets the name, and no other does. -/
theorem parseTlsExtension_sni {e : Extension} (hvalid : isValidHostname sni = true)
    (he : e.type = 0 → e.content = serverNameList sni otherNames) :
    Ensures (parseTlsExtension info true allowPartial e.type e.content) fun info' =>
      info'.sni = if e.type = 0 then some sni else info.sni := by
  have hlen : e.content.length < 2 ^ 63 := e.length_lt.trans (by decide)
  refine Ensures.ite (fun htype => ?_) fun hother => ?_
  · have hlt := e.length_lt
    rw [he htype.1] at hlt ⊢
    rw [parseSniExtension_serverNameList hvalid hlt, if_pos htype.1]
    exact ensures_pure rfl
  -- the protocols, the versions and all other extensions leave the name
  · rw [if_neg fun htype => hother ⟨htype, rfl⟩]
    refine Ensures.ite (fun _ => ?_) fun _ => Ensures.ite (fun _ => ?_) fun _ => ensures_pure rfl
    · exact (parseAlpnExtension_ensures hlen).bind fun _ _ => ensures_pure rfl
    · exact (parseSupportedVersions_ensures hlen true).bind fun _ _ => ensures_pure rfl

/-- The loop over the front part of some extensions reads no name but that of the `server_name`
extension, and reads that one if nothing is cut off. -/
theorem extensionsLoop_take (hvalid : isValidHostname sni = true)
    (hextensions : ∀ e ∈ extensions, e.type = 0 → e.content = serverNameList sni otherNames)
    (hat : At data offset (encodeExtensions extensions)) (hlen : data.length < 2 ^ 63)
    (hrounds : (data.take k).length - offset < rounds) (hinfo : info.Names (IsRealName sni)) :
    Ensures (extensionsLoop (data.take k) true allowPartial rounds offset info) fun info' =>
      info'.Names (IsRealName sni) ∧
        (data.length ≤ k → (info.sni = some sni ∨ ∃ e ∈ extensions, e.type = 0) →
          info'.sni = some sni) := by
  induction extensions generalizing offset rounds info with
  | nil =>
    -- the loop has come to the end of the data
    have hend : data.length = offset := hat.length_eq
    obtain ⟨rounds, rfl⟩ := Nat.exists_eq_succ_of_ne_zero (Nat.ne_zero_of_lt hrounds)
    have hcut := List.length_take (i := k) (l := data)
    rw [extensionsLoop, add_eq (by omega), pure_bind', if_neg (by omega)]
    refine ensures_pure ⟨hinfo, fun _ hname => hname.resolve_right ?_⟩
    rintro ⟨e, he, -⟩
    exact absurd he List.not_mem_nil
  | cons e extensions ih =>
    rw [List.forall_mem_cons] at hextensions
    rw [encodeExtensions, List.flatMap_cons] at hat
    obtain ⟨htype, hlength, hcontent⟩ := at_extension hat
    have hrest := hcontent.skip
    have hsize := hrest.length_eq
    have hcut := List.length_take (i := k) (l := data)
    have hfits := e.length_lt
    obtain ⟨rounds, rfl⟩ := Nat.exists_eq_succ_of_ne_zero (Nat.ne_zero_of_lt hrounds)
    rw [extensionsLoop, add_eq (by omega), pure_bind']
    by_cases hheader : offset + 4 ≤ (data.take k).length
    · rw [if_pos hheader, beAt_take htype e.type_lt (by omega), pure_bind',
        beAt_take hlength e.length_lt (by omega), pure_bind', add_eq (by omega), pure_bind']
      refine Ensures.ite (fun hshort => ?_) fun hfull => ?_
      · -- the cut is in this extension
        refine (parseCutExtension_ensures rfl hheader hinfo fun hzero _ => ?_).mono
          fun info' hinfo' => ⟨hinfo', fun hall => absurd hall (by omega)⟩
        rw [(hcontent.take (k := k) (by omega)).drop_eq,
          List.take_append_of_le_length (by omega), hextensions.1 hzero]
        exact parseSniExtension_take hvalid (hextensions.1 hzero ▸ e.length_lt) _ true
      · rw [hcontent.slice_take (by omega), pure_bind']
        refine (parseTlsExtension_sni hvalid hextensions.1).bind fun info' hinfo' => ?_
        have hnames : info'.Names (IsRealName sni) := by
          intro name hname
          rw [hinfo'] at hname
          split_ifs at hname
          · exact fun _ => (Option.some.inj hname).symm
          · exact hinfo name hname
        -- the name has been read, or is in one of the extensions to come
        refine (ih hextensions.2 hrest (by omega) hnames).mono fun info'' h => ⟨h.1, fun hall hname =>
          h.2 hall ?_⟩
        rw [hinfo']
        split_ifs with hzero
        · exact .inl rfl
        · refine hname.imp_right ?_
          rintro ⟨e', he', hzero'⟩
          have hlater := (List.mem_cons.mp he').resolve_left fun heq => hzero (heq ▸ hzero')
          exact ⟨e', hlater, hzero'⟩
    · rw [if_neg hheader]
      exact ensures_pure ⟨hinfo, fun hall => absurd hheader (by omega)⟩

theorem parseTlsExtensions_nil : parseTlsExtensions [] info true allowPartial = pure info := by
  rw [parseTlsExtensions, List.length_nil, extensionsLoop, add_eq (by decide), pure_bind',
    if_neg (by decide)]

/-- What the parser of a hello message takes for its extensions. -/
theorem parseExtensionsAt_take {bytes : List UInt8}
    (h : At data offset (BigEndian.bytes 2 bytes.length ++ bytes)) (hlt : bytes.length < 256 ^ 2)
    (hoffset : offset < 2 ^ 62) :
    parseExtensionsAt (data.take k) offset info true allowPartial =
      parseTlsExtensions (bytes.take (k - (offset + 2))) info true allowPartial := by
  have hbytes := h.skip_of_length (BigEndian.length_bytes 2 _)
  have hcut := List.length_take (i := k) (l := data)
  have hlen := hbytes.length_eq
  rw [parseExtensionsAt, add_eq (by omega), pure_bind']
  by_cases hshort : (data.take k).length < offset + 2
  · rw [if_pos hshort, Nat.sub_eq_zero_of_le (by omega), List.take_zero, parseTlsExtensions_nil]
  · rw [if_neg hshort, beAt_take h hlt (by omega), pure_bind', sub_eq (by omega), pure_bind']
    -- the extensions may be cut off, or not begin at all
    by_cases hempty : 0 < min ((data.take k).length - (offset + 2)) bytes.length
    · rw [if_pos hempty, add_eq (by omega), pure_bind', slice_eq (by omega) (by omega), pure_bind',
        (hbytes.take (k := k) (by omega)).drop_eq, List.take_of_length_le]
      rw [List.length_take]
      omega
    · have hnone : bytes.take (k - (offset + 2)) = [] := by
        rw [List.take_eq_nil_iff, ← List.length_eq_zero_iff]
        omega
      rw [if_neg hempty, hnone, parseTlsExtensions_nil]

end Extensions

/-! ## Hello messages -/

namespace ClientHello

variable (hello : ClientHello) {k : ℕ} {allowPartial : Bool} {info : TlsInfo}

theorem length_encodeExtensions_lt : (encodeExtensions hello.extensions).length < 256 ^ 2 := by
  have hlt := hello.extensions_length_lt
  simp only [encodeExtensions, extensions, List.flatMap_append, List.flatMap_cons, sniExtension,
    Extension.encode, List.length_append, BigEndian.length_bytes] at hlt ⊢
  omega

/-- The message as one with any extensions. -/
def toMessage : HelloMessage where
  version := hello.version
  random := hello.random
  sessionId := hello.sessionId
  cipherSuites := hello.cipherSuites
  compressionMethods := hello.compressionMethods
  extensions := hello.extensions
  sessionId_length_lt := hello.sessionId_length_lt
  cipherSuites_length_lt := hello.cipherSuites_length_lt
  compressionMethods_length_lt := hello.compressionMethods_length_lt
  extensions_length_lt := hello.length_encodeExtensions_lt

/-- Where the parts of the body stand. -/
theorem at_body :
    At hello.body 34 hello.tail ∧
      (∃ rest, At hello.body (34 + (1 + hello.sessionId.length))
        (BigEndian.bytes 2 hello.cipherSuites.length ++ rest)) ∧
      (∃ rest, At hello.body (34 + (1 + hello.sessionId.length) + (2 + hello.cipherSuites.length))
        (UInt8.ofNat hello.compressionMethods.length :: rest)) ∧
      At hello.body (34 + (1 + hello.sessionId.length) + (2 + hello.cipherSuites.length) +
          (1 + hello.compressionMethods.length))
        (BigEndian.bytes 2 (encodeExtensions hello.extensions).length ++
          encodeExtensions hello.extensions) ∧
      At hello.body hello.extensionsStart (encodeExtensions hello.extensions) :=
  hello.toMessage.at_body

theorem length_body :
    hello.body.length = hello.extensionsStart + (encodeExtensions hello.extensions).length :=
  hello.toMessage.length_body

theorem length_body_lt : hello.body.length < 2 ^ 18 := hello.toMessage.length_body_lt

/-- The front part of the body is read as the front part of its extensions. -/
theorem parsePartialClientHello_take :
    parsePartialClientHello (hello.body.take k) info allowPartial =
      parseTlsExtensions ((encodeExtensions hello.extensions).take (k - hello.extensionsStart)) info
        true allowPartial := by
  obtain ⟨hsession, ⟨_, hciphers⟩, ⟨_, hcompression⟩, hlengths, -⟩ := hello.at_body
  have hcut := List.length_take (i := k) (l := hello.body)
  have hbody := hello.length_body
  have hid := hello.sessionId_length_lt
  have hsuites := hello.cipherSuites_length_lt
  have hmethods := hello.compressionMethods_length_lt
  have hstart : hello.extensionsStart = 34 + (1 + hello.sessionId.length) +
    (2 + hello.cipherSuites.length) + (1 + hello.compressionMethods.length) + 2 := rfl
  -- data that ends before the extensions gives nothing
  have hearly : k ≤ hello.extensionsStart →
      parseTlsExtensions ((encodeExtensions hello.extensions).take (k - hello.extensionsStart)) info
        true allowPartial = pure info := fun hle => by
    rw [Nat.sub_eq_zero_of_le hle, List.take_zero, parseTlsExtensions_nil]
  rw [parsePartialClientHello]
  -- the cut may be in the random, behind it, or in one of the three parts that follow
  by_cases hrandom : (hello.body.take k).length < 34
  · rw [if_pos hrandom, hearly (by omega)]
  by_cases hsessionAt : (hello.body.take k).length ≤ 34
  · rw [if_neg hrandom, if_pos hsessionAt, hearly (by omega)]
  rw [if_neg hrandom, if_neg hsessionAt, hsession.index_take (by omega), pure_bind',
    UInt8.toNat_ofNat_of_lt' hid, add_eq (by omega), pure_bind', add_eq (by omega), pure_bind']
  by_cases hsuitesAt : (hello.body.take k).length < 34 + (1 + hello.sessionId.length) + 2
  · rw [if_pos hsuitesAt, hearly (by omega)]
  rw [if_neg hsuitesAt, beAt_take hciphers hsuites (by omega), pure_bind', add_eq (by omega),
    pure_bind']
  by_cases hmethodsAt : (hello.body.take k).length ≤
      34 + (1 + hello.sessionId.length) + (2 + hello.cipherSuites.length)
  · rw [if_pos hmethodsAt, hearly (by omega)]
  rw [if_neg hmethodsAt, hcompression.index_take (by omega), pure_bind',
    UInt8.toNat_ofNat_of_lt' hmethods, add_eq (by omega), pure_bind',
    parseExtensionsAt_take hlengths hello.length_encodeExtensions_lt (by omega)]
  rfl

theorem length_encode : hello.encode.length = 4 + hello.body.length :=
  hello.toMessage.length_encode

theorem at_encode :
    At hello.encode 1 (BigEndian.bytes 3 hello.body.length ++ hello.body) ∧
      At hello.encode 4 hello.body :=
  hello.toMessage.at_encode

theorem at_sniOffset : At hello.encode hello.sniOffset
    (hello.sniExtension.encode ++ encodeExtensions hello.after) := by
  have hextensions : At hello.encode (4 + hello.extensionsStart)
      (encodeExtensions hello.before ++
        (hello.sniExtension.encode ++ encodeExtensions hello.after)) := by
    refine ⟨?_, ?_⟩
    · rw [length_encode, length_body]
      omega
    · rw [← List.drop_drop, hello.at_encode.2.drop_eq, hello.at_body.2.2.2.2.drop_eq, extensions,
        encodeExtensions, List.flatMap_append, List.flatMap_cons]
      rfl
  exact hextensions.skip

/-- Only the `server_name` extension has its type. -/
theorem content_of_type_eq_zero {e : Extension} (he : e ∈ hello.extensions) (htype : e.type = 0) :
    e.content = serverNameList hello.sni hello.otherNames := by
  rw [extensions, List.mem_append, List.mem_cons] at he
  rcases he with hbefore | rfl | hafter
  · exact absurd htype (hello.before_type_ne e hbefore)
  · rfl
  · exact absurd htype (hello.after_type_ne e hafter)

/-- From the front part of a message the server name is read, the start of it with a mark, or
nothing; from the whole, if it is not too long, the server name. -/
theorem parsePartialTlsHandshake_take (k : ℕ) (allowPartial : Bool) :
    Ensures (parsePartialTlsHandshake (hello.encode.take k) allowPartial) fun info? =>
      (∀ info, info? = some info → info.Names (IsRealName hello.sni)) ∧
        (hello.encode.length ≤ k → hello.body.length ≤ 65536 →
          ∃ info, info? = some info ∧ info.sni = some hello.sni) := by
  obtain ⟨hlength, hbody⟩ := hello.at_encode
  have hcut := List.length_take (i := k) (l := hello.encode)
  have hencode := hello.length_encode
  have hlt := hello.length_body_lt
  have hlen := hello.length_body
  have hnew : TlsInfo.new.Names (IsRealName hello.sni) := fun _ heq => nomatch heq
  -- finding nothing is right unless a message that is not too long is there in full
  have hnone : (hello.encode.length ≤ k → 65536 < hello.body.length) →
      Ensures (pure none) fun info? : Option TlsInfo =>
        (∀ info, info? = some info → info.Names (IsRealName hello.sni)) ∧
          (hello.encode.length ≤ k → hello.body.length ≤ 65536 →
            ∃ info, info? = some info ∧ info.sni = some hello.sni) := fun hlong =>
    ensures_pure ⟨(fun _ heq => nomatch heq), fun hall hshort => absurd (hlong hall) (by omega)⟩
  rw [parsePartialTlsHandshake]
  refine Ensures.ite (fun hshort => hnone fun _ => by omega) fun hheader => ?_
  rw [(At.start hello.encode).index_take (by omega), pure_bind', beAt_take hlength (by omega)
    (by omega), pure_bind', hbody.sliceFrom_take (by omega), pure_bind']
  refine Ensures.ite (fun hlong => hnone fun _ => hlong) fun _ => ?_
  rw [if_pos rfl, Nat.min_eq_right (List.length_take_le' _ _), sliceTo_eq le_rfl, pure_bind',
    List.take_length, parsePartialClientHello_take]
  refine (extensionsLoop_take hello.valid (fun e he => hello.content_of_type_eq_zero he)
    (At.start _) (lt_trans hello.length_encodeExtensions_lt (by decide)) (by omega)
    hnew).bind fun info hinfo => ?_
  have hsni : TlsInfo.new.sni = some hello.sni ∨ ∃ e ∈ hello.extensions, e.type = 0 :=
    .inr ⟨hello.sniExtension, List.mem_append_right _ List.mem_cons_self, rfl⟩
  rw [usefulInfo]
  split_ifs with huseful
  · refine ensures_pure ⟨fun info' heq => Option.some.inj heq ▸ hinfo.1, fun hall _ => ?_⟩
    exact ⟨info, rfl, hinfo.2 (by omega) hsni⟩
  -- a record with a name is useful
  · refine ensures_pure ⟨(fun _ heq => nomatch heq), fun hall _ => absurd ?_ huseful⟩
    rw [hinfo.2 (by omega) hsni]
    rfl

end ClientHello

/-! ## Scans that hit the extension -/

section Hit

variable {hello : ClientHello} {data rest : List UInt8} {allowPartial : Bool} {i k : ℕ}

theorem extTypeAt_sni (h : At data i (hello.sniExtension.encode ++ rest))
    (hk : i + 1 < (data.take k).length) : extTypeAt (data.take k) i 0x00 = pure true := by
  have hfirst := (at_extension h).1
  have htype : BigEndian.bytes 2 0 = [0x00, 0x00] := by decide
  rw [ClientHello.sniExtension_type, htype, List.cons_append, List.cons_append] at hfirst
  rw [extTypeAt, hfirst.index_take (by omega), pure_bind', if_pos rfl, hfirst.next.index_take hk,
    pure_bind']
  rfl

/-- The scan over a fragment reads no other name at the `server_name` extension. -/
theorem fragmentPatternAt_real (h : At data i (hello.sniExtension.encode ++ rest))
    (hlen : data.length < 2 ^ 63) (hi : i < (data.take k).length - 10) :
    Ensures (fragmentPatternAt (data.take k) i) fun name? =>
      ∀ name, name? = some name → IsRealName hello.sni name := by
  obtain ⟨-, hlength, hcontent⟩ := at_extension h
  have hcut := List.length_take (i := k) (l := data)
  have hfits := hello.sniExtension.length_lt
  have hparse : Ensures (parseSniExtension (hello.sniExtension.content.take (k - (i + 4))) true)
      fun name? => ∀ name, name? = some name → IsRealName hello.sni name :=
    parseSniExtension_take hello.valid hello.names_length_lt _ true
  rw [fragmentPatternAt, extTypeAt_sni h (by omega), pure_bind', if_neg (by decide),
    beAt_take hlength hfits (by omega), pure_bind']
  refine Ensures.ite (fun _ => ensures_none) fun _ => ?_
  rw [add_eq (by omega), pure_bind', add_eq (by omega), pure_bind']
  -- what is read behind the header is the content, as far as the fragment has it
  by_cases hend : i + 4 + hello.sniExtension.content.length ≤ (data.take k).length
  · rw [if_pos hend, hcontent.slice_take hend, pure_bind']
    rw [List.take_of_length_le (by omega)] at hparse
    exact (parseSniHeader_ensures _).bindOption
      (fun _ _ => Ensures.ite (fun _ => ensures_none) fun _ => hparse) ensures_none
  · have hbehind := hcontent.length_eq
    rw [List.length_append] at hbehind
    rw [if_neg hend, hcontent.sliceFrom_take (by omega), pure_bind',
      List.take_append_of_le_length (by omega)]
    exact (parseSniHeader_ensures _).bindOption
      (fun _ _ => Ensures.ite (fun _ => ensures_none) fun _ => hparse) ensures_none

/-- The greedy scan reads no other name at the `server_name` extension. -/
theorem greedyAt_real (h : At data i (hello.sniExtension.encode ++ rest))
    (hlen : data.length < 2 ^ 63) (hi : i < (data.take k).length - 9) :
    Ensures (greedyAt (data.take k) allowPartial i) fun name? =>
      ∀ name, name? = some name → IsRealName hello.sni name := by
  obtain ⟨-, hlength, hcontent⟩ := at_extension h
  obtain ⟨-, -, -, hname⟩ := at_serverNameList hcontent
  have hcut := List.length_take (i := k) (l := data)
  have hfits := hello.sniExtension.length_lt
  have hsize := length_nameBytes_of_valid hello.valid
  rw [greedyAt, extTypeAt_sni h (by omega), pure_bind', if_neg (by decide), add_eq (by omega),
    pure_bind', if_neg (by omega), beAt_take hlength hfits (by omega), pure_bind']
  refine Ensures.ite (fun _ => ensures_none) fun _ => ?_
  have hfive : 5 ≤ ((serverNameList hello.sni hello.otherNames ++ rest).take (k - (i + 4))).length := by
    have hend := hcontent.length_eq
    rw [hello.sniExtension_content] at hend
    rw [List.length_take]
    omega
  rw [hcontent.sliceFrom_take (by omega), pure_bind', hello.sniExtension_content,
    parseSniHeader_take hello.valid hello.names_length_lt hfive, pure_bind']
  dsimp only
  refine Ensures.ite (fun _ => ensures_none) fun _ => ?_
  rw [add_eq (by omega), pure_bind', add_eq (by omega), pure_bind']
  by_cases hend : i + 9 + (nameBytes hello.sni).length ≤ (data.take k).length
  · rw [if_pos hend, hname.slice_take hend, pure_bind', completeName_nameBytes hello.valid]
    exact ensures_some fun _ => rfl
  -- the name is cut off, and what is there of it is a prefix
  · rw [if_neg hend]
    refine Ensures.ite (fun hshort => ?_) fun _ => ensures_none
    exact (ensures_sliceFrom hshort.2.le).bind fun available _ =>
      ensures_pure fun name hname => isRealName_cutName hname

end Hit

end Tls

end RustNet

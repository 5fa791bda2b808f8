import RustNet.Network.Https.Analysis
import RustNet.Network.Tls.ClientHello

/-!
# Records that are cut off

A ClientHello in one TLS record, of which the first TCP segment brings the front part. Wherever it
is cut, the analysis reports the server name, the start of it with a mark, or none.

## Main definitions

* `Https.HelloRecord`: a ClientHello in one record;
* `Https.IsCutOf`: a name that is the whole of another one, or the start of it with a mark.

## Main results

* `Https.parseSniExtensionResilient_take`: what is read from the front part of a `server_name`
  extension;
* `Https.HelloRecord.analyzeHttps_take`, `Https.HelloRecord.analyzeHttps_append`: what the analysis
  of the front part of a record comes down to, and that of the whole;
* `Https.HelloRecord.analyzeHttps_names`: the names it reports.
-/

namespace RustNet

namespace Https

open Checked
open Tls (beAt_take Extension HelloMessage encodeExtensions serverNameList length_serverNameList
  at_serverNameList at_extension)

/-! ## Names that are cut off -/

/-- A name is all of `sni`, or the start of it with the mark. -/
def IsCutOf (sni name : String) : Prop :=
  name = sni ∨ ∃ cut rest, rest ≠ "" ∧ sni = cut ++ rest ∧ name = cut ++ "[PARTIAL]"

section Names

variable {sni text : String} {otherNames : List UInt8} {k actualLen : ℕ}

/-- A text of which `actualLen` bytes are there is marked unless these are all. -/
theorem isCutOf_markCut (htext : graphicText ((nameBytes sni).take actualLen) = some text)
    (hle : actualLen ≤ (nameBytes sni).length) :
    IsCutOf sni (markCut actualLen (nameBytes sni).length text) := by
  have hbytes := nameBytes_of_fromUtf8 (Option.filter_eq_some_iff.mp htext).1
  have hlen := congrArg List.length hbytes
  rw [List.length_take] at hlen
  rw [markCut]
  -- less than the name is there, and marked, or all of it
  split_ifs with hcut
  · right
    obtain ⟨rest, hrest⟩ := exists_append_of_prefix (hbytes ▸ List.take_prefix actualLen _)
    refine ⟨text, rest, ?_, hrest, rfl⟩
    rintro rfl
    rw [String.append_empty] at hrest
    rw [hrest] at hlen hcut
    omega
  · left
    rw [List.take_of_length_le (by omega)] at hbytes
    exact nameBytes_inj.mp hbytes

/-- What is read from the front part of a `server_name` extension. -/
theorem parseSniExtensionResilient_take (hlt : (serverNameList sni otherNames).length < 256 ^ 2)
    (hactual : actualLen =
      min (nameBytes sni).length (((serverNameList sni otherNames).take k).length - 5)) :
    parseSniExtensionResilient ((serverNameList sni otherNames).take k) =
      pure (if 0 < actualLen then
        (graphicText ((nameBytes sni).take actualLen)).map
          (markCut actualLen (nameBytes sni).length)
      else none) := by
  have hat : At (serverNameList sni otherNames) 0 (serverNameList sni otherNames ++ []) := by
    rw [List.append_nil]
    exact At.start _
  obtain ⟨hlist, htype, hlength, hname⟩ := at_serverNameList hat
  have hlistLen := length_serverNameList sni otherNames
  have hcut := List.length_take (i := k) (l := serverNameList sni otherNames)
  rw [parseSniExtensionResilient]
  -- without the five bytes before the name nothing is read
  by_cases hshort : ((serverNameList sni otherNames).take k).length < 5
  · rw [if_pos hshort, if_neg (by omega)]
  rw [if_neg hshort, beAt_take hlist (by omega) (by omega), pure_bind', htype.index_take (by omega),
    pure_bind', if_neg (by decide), beAt_take hlength (by omega) (by omega), pure_bind']
  dsimp only
  rw [← hactual]
  by_cases hempty : 0 < actualLen
  · -- the bytes of the name that are there
    have hslice : slice ((serverNameList sni otherNames).take k) 5 (5 + actualLen) =
        pure ((nameBytes sni).take actualLen) := by
      rw [slice_eq (by omega) (by omega), (hname.take (k := k) (by omega)).drop_eq,
        Nat.add_sub_cancel_left, List.take_take, List.take_append_of_le_length (by omega),
        Nat.min_eq_left (by omega)]
    rw [if_pos hempty, if_pos hempty, add_eq (by omega), pure_bind', hslice, pure_bind']
  · rw [if_neg hempty, if_neg hempty]

theorem parseSniExtensionResilient_isCutOf
    (hlt : (serverNameList sni otherNames).length < 256 ^ 2) (k : ℕ) :
    Ensures (parseSniExtensionResilient ((serverNameList sni otherNames).take k)) fun name? =>
      ∀ name, name? = some name → IsCutOf sni name := by
  rw [parseSniExtensionResilient_take hlt rfl]
  split_ifs
  · refine ensures_pure fun name hname => ?_
    obtain ⟨text, htext, rfl⟩ := Option.map_eq_some_iff.mp hname
    exact isCutOf_markCut htext (Nat.min_le_left _ _)
  · exact ensures_none

/-- From the whole extension a name that can be printed is read. -/
theorem parseSniExtensionResilient_serverNameList (hpos : 0 < (nameBytes sni).length)
    (hgraphic : graphicText (nameBytes sni) = some sni)
    (hlt : (serverNameList sni otherNames).length < 256 ^ 2) :
    parseSniExtensionResilient (serverNameList sni otherNames) = pure (some sni) := by
  have hlist := length_serverNameList sni otherNames
  have hall : (nameBytes sni).length = min (nameBytes sni).length
      (((serverNameList sni otherNames).take (serverNameList sni otherNames).length).length - 5) := by
    rw [List.take_length]
    omega
  have htake := parseSniExtensionResilient_take hlt hall
  rwa [List.take_length, if_pos hpos, List.take_length, hgraphic, Option.map_some, markCut,
    if_neg (Nat.lt_irrefl _)] at htake

end Names

/-! ## Extensions that are cut off -/

section Extensions

variable {sni : String} {otherNames data : List UInt8} {extensions : List Extension}
  {info : TlsInfo} {k offset parsed rounds : ℕ}

/-- The loop over the front part of some extensions reads the name of the `server_name` extension or
the start of it with a mark, if any. -/
theorem extensionsLoop_take
    (hextensions : ∀ e ∈ extensions, e.type = 0 → e.content = serverNameList sni otherNames)
    (hat : At data offset (encodeExtensions extensions)) (hlen : data.length < 2 ^ 63)
    (hparsed : parsed ≤ offset) (hrounds : (data.take k).length - offset < rounds)
    (hinfo : info.Names (IsCutOf sni)) :
    Ensures (extensionsLoop (data.take k) true rounds parsed offset info)
      (TlsInfo.Names (IsCutOf sni)) := by
  have hcut := List.length_take (i := k) (l := data)
  induction extensions generalizing offset parsed rounds info with
  | nil =>
    -- the loop has come to the end of the data
    have hend : data.length = offset := hat.length_eq
    obtain ⟨rounds, rfl⟩ := Nat.exists_eq_succ_of_ne_zero (Nat.ne_zero_of_lt hrounds)
    rw [extensionsLoop, add_eq (by omega), pure_bind', if_neg (by omega)]
    exact ensures_pure hinfo
  | cons e extensions ih =>
    rw [List.forall_mem_cons] at hextensions
    rw [encodeExtensions, List.flatMap_cons] at hat
    obtain ⟨htype, hlength, hcontent⟩ := at_extension hat
    have hrest := hcontent.skip
    have hsize := hrest.length_eq
    have hfits := e.length_lt
    obtain ⟨rounds, rfl⟩ := Nat.exists_eq_succ_of_ne_zero (Nat.ne_zero_of_lt hrounds)
    rw [extensionsLoop, add_eq (by omega), pure_bind']
    refine Ensures.ite (fun hheader => ?_) fun _ => ensures_pure hinfo
    rw [add_eq (by omega), pure_bind']
    refine Ensures.ite (fun _ => ensures_pure hinfo) fun _ => ?_
    rw [beAt_take htype e.type_lt (by omega), pure_bind', beAt_take hlength e.length_lt (by omega),
      pure_bind']
    -- what is there of the extension is the front part of its content
    refine (readExtension_ensures (by omega) (by omega) hinfo fun hzero => ?_).bind
      fun info' hinfo' => ?_
    · rw [(hcontent.take (k := k) (by omega)).drop_eq, List.take_take,
        List.take_append_of_le_length (by omega), hextensions.1 hzero]
      exact parseSniExtensionResilient_isCutOf (hextensions.1 hzero ▸ e.length_lt) _
    · rw [add_eq (by omega), pure_bind']
      refine Ensures.ite (fun _ => ensures_pure hinfo') fun _ => ?_
      rw [← Nat.add_assoc]
      exact ih hextensions.2 hrest (by omega) (by omega) hinfo'

theorem parseExtensions_nil : parseExtensions [] info true = pure info := by
  rw [parseExtensions, List.length_nil, extensionsLoop, add_eq (by decide), pure_bind',
    if_neg (by decide)]

/-- What the parser of a hello message takes for its extensions. -/
theorem parseHelloExtensions_take {bytes : List UInt8}
    (h : At data offset (BigEndian.bytes 2 bytes.length ++ bytes)) (hlt : bytes.length < 256 ^ 2)
    (hoffset : offset < 2 ^ 62) :
    parseHelloExtensions (data.take k) offset info true =
      parseExtensions (bytes.take (k - (offset + 2))) info true := by
  have hbytes := h.skip_of_length (BigEndian.length_bytes 2 _)
  have hcut := List.length_take (i := k) (l := data)
  have hlen := hbytes.length_eq
  rw [parseHelloExtensions, add_eq (by omega), pure_bind']
  by_cases hshort : (data.take k).length < offset + 2
  · rw [if_pos hshort, Nat.sub_eq_zero_of_le (by omega), List.take_zero, parseExtensions_nil]
  rw [if_neg hshort, beAt_take h hlt (by omega), pure_bind']
  -- the extensions may be cut off, or not begin at all
  by_cases hempty : offset + 2 < (data.take k).length
  · have hthere : bytes.take (k - (offset + 2)) ≠ [] := by
      rw [← List.length_pos_iff, List.length_take]
      omega
    have hslice : slice (data.take k) (offset + 2)
        (min (data.take k).length (offset + 2 + bytes.length)) =
          pure (bytes.take (k - (offset + 2))) := by
      rw [slice_eq (by omega) (by omega), (hbytes.take (k := k) (by omega)).drop_eq,
        List.take_of_length_le]
      rw [List.length_take]
      omega
    rw [if_pos hempty, add_eq (by omega), pure_bind', hslice, pure_bind', if_neg]
    rwa [List.isEmpty_iff]
  · have hnone : bytes.take (k - (offset + 2)) = [] := by
      rw [List.take_eq_nil_iff, ← List.length_eq_zero_iff]
      omega
    rw [if_neg hempty, hnone, parseExtensions_nil]

end Extensions

/-! ## Messages that are cut off -/

/-- The version that two bytes stand for. -/
def versionOf : List UInt8 → Option TlsVersion
  | [major, minor] => versionFromBytes major minor
  | _ => none

section Messages

variable (message : HelloMessage) {info : TlsInfo} {k : ℕ}

/-- Behind the version and the random, the front part of the body is read as the front part of its
extensions. -/
theorem parseClientHelloTail_take :
    parseClientHelloTail (message.body.take k) info =
      parseExtensions ((encodeExtensions message.extensions).take (k - message.extensionsStart)) info
        true := by
  obtain ⟨hsession, ⟨_, hciphers⟩, ⟨_, hcompression⟩, hlengths, -⟩ := message.at_body
  have hcut := List.length_take (i := k) (l := message.body)
  have hbody := message.length_body
  have hid := message.sessionId_length_lt
  have hsuites := message.cipherSuites_length_lt
  have hmethods := message.compressionMethods_length_lt
  have hstart : message.extensionsStart = 34 + (1 + message.sessionId.length) +
    (2 + message.cipherSuites.length) + (1 + message.compressionMethods.length) + 2 := rfl
  -- data that ends before the extensions gives nothing
  have hearly : k ≤ message.extensionsStart →
      parseExtensions ((encodeExtensions message.extensions).take (k - message.extensionsStart)) info
        true = pure info := fun hle => by
    rw [Nat.sub_eq_zero_of_le hle, List.take_zero, parseExtensions_nil]
  rw [parseClientHelloTail]
  by_cases hsessionAt : (message.body.take k).length ≤ 34
  · rw [if_pos hsessionAt, hearly (by omega)]
  rw [if_neg hsessionAt, hsession.index_take (by omega), pure_bind',
    UInt8.toNat_ofNat_of_lt' hid, add_eq (by omega), pure_bind']
  by_cases hsuitesAt : (message.body.take k).length ≤ 34 + (1 + message.sessionId.length)
  · rw [if_pos hsuitesAt, hearly (by omega)]
  rw [if_neg hsuitesAt, add_eq (by omega), pure_bind']
  by_cases hsuitesEnd : (message.body.take k).length < 34 + (1 + message.sessionId.length) + 2
  · rw [if_pos hsuitesEnd, hearly (by omega)]
  rw [if_neg hsuitesEnd, beAt_take hciphers hsuites (by omega), pure_bind', add_eq (by omega),
    pure_bind']
  by_cases hmethodsAt : (message.body.take k).length ≤
      34 + (1 + message.sessionId.length) + (2 + message.cipherSuites.length)
  · rw [if_pos hmethodsAt, hearly (by omega)]
  rw [if_neg hmethodsAt, if_neg hmethodsAt, hcompression.index_take (by omega), pure_bind',
    UInt8.toNat_ofNat_of_lt' hmethods, add_eq (by omega), pure_bind']
  by_cases hextensionsAt : (message.body.take k).length ≤ 34 + (1 + message.sessionId.length) +
      (2 + message.cipherSuites.length) + (1 + message.compressionMethods.length)
  · rw [if_pos hextensionsAt, hearly (by omega)]
  rw [if_neg hextensionsAt,
    parseHelloExtensions_take hlengths message.extensions_length_lt (by omega)]
  rfl

/-- Once the version is there, the front part of a message is read as the front part of its
extensions. -/
theorem parseClientHello_take (recordVersion : Option TlsVersion) :
    parseClientHello (message.body.take k) info recordVersion =
      if (message.body.take k).length < 2 then pure info
      else parseExtensions ((encodeExtensions message.extensions).take (k - message.extensionsStart))
        { info with version := (versionOf message.version.toList).or recordVersion } true := by
  have hcut := List.length_take (i := k) (l := message.body)
  have hstart : 34 ≤ message.extensionsStart := by
    rw [HelloMessage.extensionsStart]
    omega
  obtain ⟨major, minor, hversion⟩ := List.length_eq_two.mp message.version.length_toList
  have hfront : message.body = major :: minor :: (message.random.toList ++ message.tail) := by
    rw [HelloMessage.body, hversion, List.append_assoc]
    rfl
  have hbody : At message.body 0 (major :: minor :: (message.random.toList ++ message.tail)) :=
    ⟨Nat.zero_le _, hfront⟩
  rw [parseClientHello]
  by_cases hshort : (message.body.take k).length < 2
  · rw [if_pos hshort, if_pos hshort]
  rw [if_neg hshort, if_neg hshort, hbody.index_take (by omega), pure_bind',
    hbody.next.index_take (by omega), pure_bind', hversion]
  dsimp only
  -- a cut in the random leaves no extensions
  by_cases hrandom : (message.body.take k).length < 34
  · have hlen := message.length_body
    rw [if_pos hrandom, Nat.sub_eq_zero_of_le (by omega), List.take_zero, parseExtensions_nil]
    rfl
  · rw [if_neg hrandom, parseClientHelloTail_take]
    rfl

/-- The front part of a message that is not too long is read as the front part of its body. -/
theorem parseHandshake_take (hfits : message.encode.length ≤ 2 ^ 14)
    (hheader : 4 ≤ (message.encode.take k).length) (recordVersion : Option TlsVersion) :
    parseHandshake (message.encode.take k) info recordVersion =
      parseClientHello (message.body.take (k - 4)) info recordVersion := by
  obtain ⟨hlength, hbody⟩ := message.at_encode
  have hcut := List.length_take (i := k) (l := message.encode)
  have hencode := message.length_encode
  rw [parseHandshake, (At.start message.encode).index_take (by omega), pure_bind', if_neg (by decide),
    beAt_take hlength (by omega) (by omega), pure_bind', if_neg (by omega), sub_eq (by omega),
    pure_bind']
  dsimp only
  -- an empty message returns early, as the parser of the hello would
  by_cases hempty : min ((message.encode.take k).length - 4) message.body.length = 0
  · have hnone : message.body.take (k - 4) = [] := by
      rw [List.take_eq_nil_iff, ← List.length_eq_zero_iff]
      omega
    rw [if_pos hempty, hnone]
    rfl
  · have hslice : slice (message.encode.take k) 4
        (4 + min ((message.encode.take k).length - 4) message.body.length) =
          pure (message.body.take (k - 4)) := by
      rw [slice_eq (by omega) (by omega), (hbody.take (k := k) (by omega)).drop_eq,
        List.take_of_length_le]
      rw [List.length_take]
      omega
    rw [if_neg hempty, add_eq (by omega), pure_bind', if_pos rfl, hslice, pure_bind']

end Messages

/-- A ClientHello in one record. If it has a `server_name` extension, then with the name `sni`. -/
structure HelloRecord where
  message : HelloMessage
  major : UInt8
  minor : UInt8
  fits : message.encode.length ≤ 2 ^ 14
  sni : String
  otherNames : List UInt8
  sni_content : ∀ e ∈ message.extensions, e.type = 0 → e.content = serverNameList sni otherNames

namespace HelloRecord

variable (record : HelloRecord)

/-- The bytes of a record. -/
def encode : List UInt8 :=
  0x16 :: record.major :: record.minor ::
    (BigEndian.bytes 2 record.message.encode.length ++ record.message.encode)

/-- The version of the record layer. -/
def recordVersion : Option TlsVersion := versionFromBytes record.major record.minor

variable {record} {rest : List UInt8} {k : ℕ}

theorem at_encode :
    At (record.encode ++ rest) 3 (BigEndian.bytes 2 record.message.encode.length ++
        (record.message.encode ++ rest)) ∧
      At (record.encode ++ rest) 5 (record.message.encode ++ rest) := by
  have hall := At.start (record.encode ++ rest)
  rw [encode, List.cons_append, List.cons_append, List.cons_append, List.append_assoc] at hall
  have hlength := hall.next.next.next
  exact ⟨hlength, hlength.skip_of_length (BigEndian.length_bytes 2 _)⟩

/-- Of the front part of a record, whatever follows it, the front part of the message is read. -/
theorem analyzeHttps_take (hheader : 5 ≤ ((record.encode ++ rest).take k).length) :
    analyzeHttps ((record.encode ++ rest).take k) =
      parseClientHello (record.message.body.take (k - 9))
          { TlsInfo.new with version := record.recordVersion } record.recordVersion >>=
        fun info => pure (some ⟨some info⟩) := by
  obtain ⟨hlength, hmessage⟩ := @at_encode record rest
  have hcut := List.length_take (i := k) (l := record.encode ++ rest)
  have hall := hmessage.length_eq
  have hfits := record.fits
  have hencode := record.message.length_encode
  have htype := At.start (record.encode ++ rest)
  have hsum : (record.message.encode ++ rest).length = record.message.encode.length + rest.length :=
    List.length_append
  rw [analyzeHttps, if_neg (by omega), htype.index_take (by omega), pure_bind',
    htype.next.index_take (by omega), pure_bind', htype.next.next.index_take (by omega),
    pure_bind', if_neg (by simp), beAt_take hlength (by omega) (by omega), pure_bind',
    if_neg (by omega), sub_eq (by omega), pure_bind']
  dsimp only
  -- a cut in the header of the message leaves nothing of its body
  by_cases hshort : min (((record.encode ++ rest).take k).length - 5) record.message.encode.length < 4
  · have hnone : record.message.body.take (k - 9) = [] := by
      rw [List.take_eq_nil_iff]
      omega
    rw [if_pos hshort, hnone]
    rfl
  · have hslice : slice ((record.encode ++ rest).take k) 5
        (5 + min (((record.encode ++ rest).take k).length - 5) record.message.encode.length) =
          pure (record.message.encode.take (k - 5)) := by
      rw [slice_eq (by omega) (by omega), (hmessage.take (k := k) (by omega)).drop_eq,
        Nat.add_sub_cancel_left, List.take_take, List.take_append_of_le_length (by omega),
        pure_inj, List.take_eq_take_iff]
      omega
    rw [if_neg hshort, add_eq (by omega), pure_bind', hslice, pure_bind',
      parseHandshake_take _ hfits (by rw [List.length_take]; omega), Nat.sub_sub]
    rfl

/-- Of a record that is there in full, whatever follows it, all extensions are read. -/
theorem analyzeHttps_append (record : HelloRecord) (rest : List UInt8) :
    analyzeHttps (record.encode ++ rest) =
      parseExtensions (encodeExtensions record.message.extensions)
          { TlsInfo.new with
            version := (versionOf record.message.version.toList).or record.recordVersion } true >>=
        fun info => pure (some ⟨some info⟩) := by
  obtain ⟨-, hmessage⟩ := @at_encode record rest
  have hencode := record.message.length_encode
  have hbody := record.message.length_body
  have hrandom := record.message.at_body.1.le_length
  have hall := hmessage.length_eq
  have hsum : (record.message.encode ++ rest).length =
      record.message.encode.length + rest.length := List.length_append
  -- the whole payload is a cut of itself that cuts nothing off
  have hwhole : (record.encode ++ rest).take (record.encode ++ rest).length =
      record.encode ++ rest := List.take_length
  have hversion : ¬ (record.message.body.take ((record.encode ++ rest).length - 9)).length < 2 := by
    rw [List.length_take]
    omega
  have hheader : 5 ≤ ((record.encode ++ rest).take (record.encode ++ rest).length).length := by
    rw [hwhole]
    omega
  have htake := analyzeHttps_take hheader
  rwa [hwhole, parseClientHello_take, if_neg hversion, List.take_of_length_le (by omega)] at htake

/-- **Wherever a record is cut**, the analysis reports its server name, the start of it with a mark,
or none. The record holds one ClientHello and is cut behind any number of bytes, also inside a
length or inside the name. -/
theorem analyzeHttps_names (record : HelloRecord) (k : ℕ) :
    Ensures (analyzeHttps (record.encode.take k)) fun https? =>
      ∀ https, https? = some https → ∀ info, https.tlsInfo = some info →
        info.Names (IsCutOf record.sni) := by
  have hrecord := List.append_nil record.encode
  by_cases hheader : (record.encode.take k).length < 5
  · rw [analyzeHttps, if_pos hheader]
    exact ensures_none
  rw [← hrecord] at hheader ⊢
  rw [analyzeHttps_take (Nat.not_lt.mp hheader), parseClientHello_take]
  have hnone : ∀ {version : Option TlsVersion},
      { TlsInfo.new with version := version }.Names (IsCutOf record.sni) := by
    intro version name hname
    exact nomatch hname
  have hextensions := record.message.extensions_length_lt
  -- without the version nothing is read, and behind it only the extensions have a name
  have hnames : Ensures
      (if (record.message.body.take (k - 9)).length < 2 then
        pure { TlsInfo.new with version := record.recordVersion }
      else
        parseExtensions ((encodeExtensions record.message.extensions).take
            (k - 9 - record.message.extensionsStart))
          { TlsInfo.new with
            version := (versionOf record.message.version.toList).or record.recordVersion } true)
      (TlsInfo.Names (IsCutOf record.sni)) := by
    refine Ensures.ite (fun _ => ensures_pure hnone) fun _ => ?_
    exact extensionsLoop_take record.sni_content (At.start _) (by omega) le_rfl (by omega) hnone
  exact hnames.bind fun info hinfo => ensures_some fun info' heq => Option.some.inj heq ▸ hinfo

end HelloRecord

end Https

end RustNet

import Mathlib.Data.List.MinMax
import Mathlib.Data.List.Nodup
import RustNet.Network.Https.Truncation

/-!
# What a ClientHello offers

A ClientHello in one record names its server and offers protocols and versions, in extensions of any
order. The analysis of a TCP segment that starts with the record finds all three; the parser for
QUIC, which is written apart from it, finds the same name and the same protocols in the message.

## Main definitions

* `Https.Offer`: a ClientHello in one record, with what its extensions offer;
* `Https.Offer.alpn`, `Https.Offer.highestVersion`: the protocols that are texts, and the highest
  version.

## Main results

* `Https.Offer.parsers_read`: what both parsers read;
* `Https.Offer.not_listsProtocols_greaseOffer`: protocol names that are no texts are left out.
-/

namespace RustNet

namespace Https

open Checked
open Tls (beAt_eq Extension ClientHello encodeExtensions serverNameList at_extension)

/-! ## Contents of extensions -/

/-- The name of a protocol in a client's offer, whose length is written in one byte and is not
zero. -/
structure ProtocolName where
  bytes : List UInt8
  length_pos : 0 < bytes.length
  length_lt : bytes.length < 256

/-- A protocol name behind its length. -/
def ProtocolName.encode (name : ProtocolName) : List UInt8 :=
  UInt8.ofNat name.bytes.length :: name.bytes

/-- The bytes of some protocol names. -/
def encodeNames (names : List ProtocolName) : List UInt8 := names.flatMap ProtocolName.encode

/-- The protocol names that are UTF-8, as texts. -/
def namesAsTexts (names : List ProtocolName) : List String :=
  names.filterMap fun name => fromUtf8 name.bytes

/-- The content of an ALPN extension. -/
def protocolNameList (names : List ProtocolName) : List UInt8 :=
  BigEndian.bytes 2 (encodeNames names).length ++ encodeNames names

/-- The bytes of some versions. -/
def encodeVersions (versions : List (UInt8 × UInt8)) : List UInt8 :=
  versions.flatMap fun version => [version.1, version.2]

/-- The TLS versions among some versions. -/
def knownVersions (versions : List (UInt8 × UInt8)) : List TlsVersion :=
  versions.filterMap fun version => versionFromBytes version.1 version.2

/-- The content of a `supported_versions` extension. -/
def versionList (versions : List (UInt8 × UInt8)) : List UInt8 :=
  UInt8.ofNat (encodeVersions versions).length :: encodeVersions versions

/-- A ClientHello in one record, with the protocols and the versions in its extensions, if there are
such extensions. -/
structure Offer where
  hello : ClientHello
  major : UInt8
  minor : UInt8
  fits : hello.encode.length ≤ 2 ^ 14
  protocols : Option (List ProtocolName)
  supportedVersions : Option (List (UInt8 × UInt8))
  types_nodup : (hello.extensions.map Extension.type).Nodup
  extensions_length_le : hello.extensions.length ≤ 100
  protocols_content : (hello.extensions.find? fun e => e.type == 0x0010).map Extension.content =
    protocols.map protocolNameList
  versions_content : (hello.extensions.find? fun e => e.type == 0x002b).map Extension.content =
    supportedVersions.map versionList
  versions_length_lt : ∀ versions ∈ supportedVersions, (encodeVersions versions).length < 256

namespace Offer

variable (offer : Offer)

/-- The record that carries the offer: its bytes, and the server name and the other names that it
holds. -/
def record : HelloRecord where
  message := offer.hello.toMessage
  major := offer.major
  minor := offer.minor
  fits := offer.fits
  sni := offer.hello.sni
  otherNames := offer.hello.otherNames
  sni_content _ he := offer.hello.content_of_type_eq_zero he

/-- The bytes of the record. -/
def encode : List UInt8 := offer.record.encode

/-- The protocols that are offered, as far as they are texts. -/
def alpn : List String := namesAsTexts (offer.protocols.getD [])

/-- The TLS versions that are offered: without a `supported_versions` extension the message's own. -/
def versions : List TlsVersion :=
  offer.supportedVersions.elim (versionOf offer.hello.version.toList).toList knownVersions

/-- The highest version that is offered, if any is a TLS version. -/
def highestVersion : Option TlsVersion := offer.versions.argmax versionToPriority

/-- What counts as the version of a message that offers no TLS version. -/
def fallbackVersion : Option TlsVersion :=
  (versionOf offer.hello.version.toList).or offer.record.recordVersion

end Offer

/-! ## Names -/

section Names

variable {sni : String} {otherNames : List UInt8}

theorem isAsciiGraphic_of_isHostnameChar {c : Char} (h : isHostnameChar c = true) :
    isAsciiGraphic c = true := by
  have hclasses : (((65 ≤ c.toNat ∧ c.toNat ≤ 90 ∨ 97 ≤ c.toNat ∧ c.toNat ≤ 122) ∨
      48 ≤ c.toNat ∧ c.toNat ≤ 57) ∨ c = '.') ∨ c = '-' := by
    have hbounds : ((((decide (65 ≤ c.val ∧ c.val ≤ 90) || (decide (97 ≤ c.val) &&
        decide (c.val ≤ 122))) || (decide (48 ≤ c.val) && decide (c.val ≤ 57))) || c == '.') ||
        c == '-') = true := h
    simpa [UInt32.le_iff_toNat_le] using hbounds
  rw [isAsciiGraphic, decide_eq_true_iff]
  rcases hclasses with (halphanumeric | rfl) | rfl
  · omega
  · decide
  · decide

/-- A host name can be printed. -/
theorem graphicText_nameBytes (hvalid : isValidHostname sni = true) :
    graphicText (nameBytes sni) = some sni := by
  rw [graphicText, fromUtf8_nameBytes, Option.filter_some, if_pos]
  apply List.all_eq_true.mpr
  intro c hc
  rw [isAsciiGraphic_of_isHostnameChar (isHostnameChar_of_valid hvalid c hc), Bool.true_or]

theorem parseSniExtensionResilient_of_valid (hvalid : isValidHostname sni = true)
    (hlt : (serverNameList sni otherNames).length < 256 ^ 2) :
    parseSniExtensionResilient (serverNameList sni otherNames) = pure (some sni) := by
  have hsize := length_nameBytes_of_valid hvalid
  exact parseSniExtensionResilient_serverNameList (by omega) (graphicText_nameBytes hvalid) hlt

end Names

/-! ## Protocols -/

section Protocols

variable {data : List UInt8} {offset rounds : ℕ} {names : List ProtocolName} {read : List String}

/-- The first of some protocol names, and the others behind it. -/
theorem at_protocolName {name : ProtocolName}
    (h : At data offset (encodeNames (name :: names))) :
    At data offset (UInt8.ofNat name.bytes.length :: (name.bytes ++ encodeNames names)) ∧
      At data (offset + 1) (name.bytes ++ encodeNames names) ∧
      At data (offset + 1 + name.bytes.length) (encodeNames names) := by
  rw [encodeNames, List.flatMap_cons] at h
  have hlength : At data offset
      (UInt8.ofNat name.bytes.length :: (name.bytes ++ encodeNames names)) := h
  exact ⟨hlength, hlength.next, hlength.next.skip⟩

theorem namesAsTexts_cons (name : ProtocolName) (names : List ProtocolName) :
    namesAsTexts (name :: names) = (fromUtf8 name.bytes).toList ++ namesAsTexts names := by
  rw [namesAsTexts, namesAsTexts, List.filterMap_eq_flatMap_toList,
    List.filterMap_eq_flatMap_toList, List.flatMap_cons]

theorem eq_nil_of_encodeNames (h : encodeNames names = []) : names = [] := by
  apply List.eq_nil_iff_forall_not_mem.mpr
  intro name hname
  exact List.cons_ne_nil _ _ (List.flatMap_eq_nil_iff.mp h name hname)

theorem protocolsLoop_encodeNames (hat : At data offset (encodeNames names))
    (hlen : data.length < 2 ^ 63) (hrounds : data.length - offset < rounds) :
    protocolsLoop data data.length rounds offset read = pure (read ++ namesAsTexts names) := by
  induction names generalizing offset rounds read with
  | nil =>
    have hend : data.length = offset := hat.length_eq
    obtain ⟨rounds, rfl⟩ := Nat.exists_eq_succ_of_ne_zero (Nat.ne_zero_of_lt hrounds)
    rw [protocolsLoop, if_neg (by omega), namesAsTexts, List.filterMap_nil, List.append_nil]
  | cons name names ih =>
    obtain ⟨hlength, hname, hrest⟩ := at_protocolName hat
    have hpos := name.length_pos
    have hall := hrest.length_eq
    obtain ⟨rounds, rfl⟩ := Nat.exists_eq_succ_of_ne_zero (Nat.ne_zero_of_lt hrounds)
    -- the name is there in full, so that it is not marked as cut
    have hactual : min name.bytes.length
        (min (data.length - (offset + 1)) (data.length - (offset + 1))) = name.bytes.length := by
      omega
    have hmark : markCut name.bytes.length name.bytes.length = id := by
      ext text : 1
      rw [markCut, if_neg (Nat.lt_irrefl _), id]
    rw [protocolsLoop, if_pos (by omega), hlength.index, pure_bind', add_eq (by omega), pure_bind',
      UInt8.toNat_ofNat_of_lt' name.length_lt]
    dsimp only
    rw [hactual, readProtocol, if_pos hpos, add_eq (by omega), pure_bind', hname.slice, pure_bind',
      hmark, Option.map_id, id, pure_bind', pure_bind', namesAsTexts_cons,
      ← List.append_assoc]
    by_cases hlast : data.length ≤ offset + 1 + name.bytes.length
    · -- behind the last name the loop does not go on
      have hnil : encodeNames names = [] := List.eq_nil_of_length_eq_zero (by omega)
      rw [if_pos hlast, eq_nil_of_encodeNames hnil, namesAsTexts, List.filterMap_nil,
        List.append_nil]
    · rw [if_neg hlast, ih hrest (by omega)]

/-- Texts, if there are any. -/
def someTexts (texts : List String) : Option (List String) :=
  if texts.isEmpty = true then none else some texts

theorem filter_someTexts (texts : List String) :
    ((someTexts texts).filter fun texts => !texts.isEmpty) = someTexts texts := by
  rw [someTexts]
  split_ifs with hempty
  · rfl
  · rw [Option.filter_some, if_pos (Bool.not_eq_true' _ ▸ Bool.eq_false_iff.mpr hempty)]

/-- The content of an ALPN extension: the length of the list, and the list up to the end. -/
theorem at_protocolNameList (names : List ProtocolName) :
    At (protocolNameList names) 0
        (BigEndian.bytes 2 (encodeNames names).length ++ encodeNames names) ∧
      At (protocolNameList names) 2 (encodeNames names) ∧
      2 + min (encodeNames names).length ((protocolNameList names).length - 2) =
        (protocolNameList names).length := by
  have hlength : At (protocolNameList names) 0
      (BigEndian.bytes 2 (encodeNames names).length ++ encodeNames names) := At.start _
  have hnames := hlength.skip_of_length (BigEndian.length_bytes 2 _)
  have hall := hnames.length_eq
  exact ⟨hlength, hnames, by omega⟩

/-- What is read from an ALPN extension. -/
theorem parseAlpnExtensionResilient_protocolNameList
    (hlt : (protocolNameList names).length < 256 ^ 2) :
    parseAlpnExtensionResilient (protocolNameList names) =
      pure (someTexts (namesAsTexts names)) := by
  obtain ⟨hlength, hnames, hend⟩ := at_protocolNameList names
  have hall := hnames.length_eq
  rw [parseAlpnExtensionResilient, if_neg (by omega), beAt_eq hlength (by omega), pure_bind',
    sub_eq (by omega), pure_bind', add_eq (by omega), pure_bind', hend,
    protocolsLoop_encodeNames hnames (by omega) (by omega), pure_bind', List.nil_append]
  rfl

/-- The parser for QUIC reads the same protocols. -/
theorem alpnLoop_encodeNames (hat : At data offset (encodeNames names))
    (hlen : data.length < 2 ^ 63) (hrounds : data.length - offset < rounds) :
    Tls.alpnLoop data data.length rounds offset read = pure (read ++ namesAsTexts names) := by
  induction names generalizing offset rounds read with
  | nil =>
    have hend : data.length = offset := hat.length_eq
    -- each round reads one name, and a name takes at least a byte
    obtain ⟨rounds, rfl⟩ := Nat.exists_eq_succ_of_ne_zero (Nat.ne_zero_of_lt hrounds)
    rw [Tls.alpnLoop, if_neg (by omega), namesAsTexts, List.filterMap_nil, List.append_nil]
  | cons name names ih =>
    obtain ⟨hlength, hname, hrest⟩ := at_protocolName hat
    have hall := hrest.length_eq
    obtain ⟨rounds, rfl⟩ := Nat.exists_eq_succ_of_ne_zero (Nat.ne_zero_of_lt hrounds)
    rw [Tls.alpnLoop, if_pos (by omega), hlength.index, pure_bind', add_eq (by omega), pure_bind',
      UInt8.toNat_ofNat_of_lt' name.length_lt, add_eq (by omega), pure_bind', if_pos (by omega),
      hname.slice, pure_bind', ih hrest (by omega), namesAsTexts_cons, List.append_assoc]

theorem parseAlpnExtension_protocolNameList (hlt : (protocolNameList names).length < 256 ^ 2) :
    Tls.parseAlpnExtension (protocolNameList names) = pure (someTexts (namesAsTexts names)) := by
  obtain ⟨hlength, hnames, hend⟩ := at_protocolNameList names
  have hall := hnames.length_eq
  rw [Tls.parseAlpnExtension, if_neg (by omega), beAt_eq hlength (by omega), pure_bind',
    sub_eq (by omega), pure_bind', add_eq (by omega), pure_bind', hend,
    alpnLoop_encodeNames hnames (by omega) (by omega), pure_bind', List.nil_append]
  rfl

end Protocols

/-! ## Versions -/

section Versions

variable {data : List UInt8} {offset rounds listLen : ℕ} {done : List TlsVersion}
  {versions : List (UInt8 × UInt8)}

/-- The higher of the highest version so far and the next one. -/
theorem argmax_append (done : List TlsVersion) (version : TlsVersion) :
    (done ++ [version]).argmax versionToPriority =
      some (higherVersion (done.argmax versionToPriority) version) := by
  rw [List.argmax_concat]
  rcases done.argmax versionToPriority with _ | best
  · rfl
  · exact (apply_ite some _ _ _).symm

theorem versionsLoop_encodeVersions (hat : At data offset (encodeVersions versions))
    (hlist : 1 + listLen = data.length) (hlen : data.length < 2 ^ 63)
    (hrounds : data.length - offset < rounds) :
    versionsLoop data listLen rounds offset (done.argmax versionToPriority) =
      pure ((done ++ knownVersions versions).argmax versionToPriority) := by
  induction versions generalizing offset rounds done with
  | nil =>
    have hend : data.length = offset := hat.length_eq
    obtain ⟨rounds, rfl⟩ := Nat.exists_eq_succ_of_ne_zero (Nat.ne_zero_of_lt hrounds)
    rw [versionsLoop, add_eq (by omega), pure_bind', if_neg (by omega), knownVersions,
      List.filterMap_nil, List.append_nil]
  | cons version versions ih =>
    have hmajor : At data offset (version.1 :: version.2 :: encodeVersions versions) := hat
    have hrest := hmajor.next.next
    have hall := hrest.length_eq
    obtain ⟨rounds, rfl⟩ := Nat.exists_eq_succ_of_ne_zero (Nat.ne_zero_of_lt hrounds)
    -- the best version so far is the highest of those that have been read
    have hbest : ((versionFromBytes version.1 version.2).map
        (higherVersion (done.argmax versionToPriority))).or (done.argmax versionToPriority) =
          (done ++ (versionFromBytes version.1 version.2).toList).argmax versionToPriority := by
      rcases versionFromBytes version.1 version.2 with _ | known
      · rw [Option.toList_none, List.append_nil]
        rfl
      · exact (argmax_append done known).symm
    have hknown : knownVersions (version :: versions) =
        (versionFromBytes version.1 version.2).toList ++ knownVersions versions := by
      rw [knownVersions, knownVersions, List.filterMap_eq_flatMap_toList,
        List.filterMap_eq_flatMap_toList, List.flatMap_cons]
    rw [versionsLoop, add_eq (by omega), pure_bind', if_pos (by omega), hmajor.index, pure_bind',
      hmajor.next.index, pure_bind', add_eq (by omega), pure_bind', hbest, ih hrest (by omega),
      hknown, List.append_assoc]

/-- What is read from a `supported_versions` extension is the highest version in it. -/
theorem parseSupportedVersionsResilient_versionList
    (hlt : (encodeVersions versions).length < 256) :
    parseSupportedVersionsResilient (versionList versions) true =
      pure ((knownVersions versions).argmax versionToPriority) := by
  have hlength := At.start (versionList versions)
  have hversions := hlength.next
  have hall := hversions.length_eq
  rw [parseSupportedVersionsResilient, if_pos rfl, versionList, List.isEmpty_cons, if_neg (by decide),
    ← versionList, hlength.index, pure_bind', UInt8.toNat_ofNat_of_lt' hlt]
  exact @versionsLoop_encodeVersions _ _ _ _ [] _ hversions (by omega) (by omega) (by omega)

end Versions

/-! ## Extensions -/

/-- A field that extensions of a type set to `new`: it is set, or such an extension is to come. -/
def Pending {α : Type} (type : ℕ) (old new value : α) (rest : List Extension) : Prop :=
  value = new ∨ value = old ∧ ∃ e ∈ rest, e.type = type

section Pending

variable {α : Type} {type : ℕ} {old new value value' : α} {e : Extension} {rest : List Extension}

/-- An extension of the type sets the field, and no other changes it. -/
theorem Pending.step (h : Pending type old new value (e :: rest))
    (hset : e.type = type → value = new ∨ value = old → value' = new)
    (hkeep : e.type ≠ type → value' = value) : Pending type old new value' rest := by
  by_cases htype : e.type = type
  · exact .inl (hset htype (h.imp_right And.left))
  · rw [hkeep htype]
    refine h.imp_right fun hcome => ⟨hcome.1, ?_⟩
    obtain ⟨e', he', htype'⟩ := hcome.2
    refine ⟨e', (List.mem_cons.mp he').resolve_left ?_, htype'⟩
    rintro rfl
    exact htype htype'

theorem Pending.done (h : Pending type old new value []) : value = new := by
  apply h.resolve_right
  rintro ⟨-, e, he, -⟩
  exact absurd he List.not_mem_nil

/-- A type that occurs once at most leads to its extension. -/
theorem find?_type {extensions : List Extension} (hnodup : (extensions.map Extension.type).Nodup)
    (he : e ∈ extensions) : extensions.find? (fun e' => e'.type == e.type) = some e := by
  have hsome : (extensions.find? fun e' => e'.type == e.type).isSome = true :=
    List.find?_isSome.mpr ⟨e, he, beq_self_eq_true e.type⟩
  obtain ⟨e', hfound⟩ := Option.isSome_iff_exists.mp hsome
  have hbeq := List.find?_some hfound
  have htype : e'.type = e.type := eq_of_beq hbeq
  rw [hfound, List.inj_on_of_nodup_map hnodup (List.mem_of_find?_eq_some hfound) he htype]

end Pending

section Loops

variable {data : List UInt8} {extensions : List Extension} {info : TlsInfo}
  {offset parsed rounds : ℕ} {allowPartial : Bool} {I : TlsInfo → List Extension → Prop}

theorem parseExtension_nil (info : TlsInfo) (type : ℕ) :
    parseExtension info true type [] = pure info := by
  rw [parseExtension]
  split_ifs
  · rfl
  · rfl
  · rfl
  · rfl

/-- An extension that is there in full is parsed, also when it is empty. -/
theorem readExtension_content {e : Extension} {rest : List UInt8}
    (h : At data offset (e.content ++ rest)) (hlen : data.length < 2 ^ 63) :
    readExtension data offset e.content.length info true e.type =
      parseExtension info true e.type e.content := by
  have hend := h.skip.length_eq
  rw [readExtension]
  by_cases hempty : 0 < e.content.length
  · rw [if_pos hempty, add_eq (by omega), pure_bind', h.slice, pure_bind']
  · have hnil : e.content = [] := List.eq_nil_of_length_eq_zero (by omega)
    rw [if_neg hempty, hnil, parseExtension_nil]

/-- What every extension keeps is kept by the loop over up to 100 of them. -/
theorem extensionsLoop_run (hstep : ∀ info e rest, I info (e :: rest) →
      Ensures (parseExtension info true e.type e.content) fun info' => I info' rest)
    (hat : At data offset (encodeExtensions extensions)) (hlen : data.length < 2 ^ 63)
    (hparsed : parsed + extensions.length ≤ 100) (hrounds : data.length - offset < rounds)
    (h : I info extensions) :
    Ensures (extensionsLoop data true rounds parsed offset info) fun info' => I info' [] := by
  induction extensions generalizing offset parsed rounds info with
  | nil =>
    have hend : data.length = offset := hat.length_eq
    obtain ⟨rounds, rfl⟩ := Nat.exists_eq_succ_of_ne_zero (Nat.ne_zero_of_lt hrounds)
    rw [extensionsLoop, add_eq (by omega), pure_bind', if_neg (by omega)]
    exact ensures_pure h
  | cons e extensions ih =>
    rw [encodeExtensions, List.flatMap_cons] at hat
    rw [List.length_cons] at hparsed
    obtain ⟨htype, hlength, hcontent⟩ := at_extension hat
    have hrest := hcontent.skip
    have hsize := hrest.length_eq
    have hfits := e.length_lt
    have hmax : ¬ maxTlsExtensions < parsed + 1 := by
      rw [maxTlsExtensions]
      omega
    obtain ⟨rounds, rfl⟩ := Nat.exists_eq_succ_of_ne_zero (Nat.ne_zero_of_lt hrounds)
    rw [extensionsLoop, add_eq (by omega), pure_bind', if_pos (by omega), add_eq (by omega),
      pure_bind', if_neg hmax, beAt_eq htype e.type_lt, pure_bind', beAt_eq hlength e.length_lt,
      pure_bind']
    -- all that is declared is there, and the count has not reached the maximum
    dsimp only
    rw [Nat.min_eq_left (by omega), readExtension_content hcontent hlen]
    refine (hstep info e extensions h).bind fun info' hinfo' => ?_
    rw [add_eq (by omega), pure_bind', if_neg (by omega), ← Nat.add_assoc]
    exact ih hrest (by omega) (by omega) hinfo'

/-- What every extension keeps is kept by the loop of the parser for QUIC. -/
theorem tlsExtensionsLoop_run (hstep : ∀ info e rest, I info (e :: rest) →
      Ensures (Tls.parseTlsExtension info true allowPartial e.type e.content) fun info' =>
        I info' rest)
    (hat : At data offset (encodeExtensions extensions)) (hlen : data.length < 2 ^ 63)
    (hrounds : data.length - offset < rounds) (h : I info extensions) :
    Ensures (Tls.extensionsLoop data true allowPartial rounds offset info) fun info' =>
      I info' [] := by
  induction extensions generalizing offset rounds info with
  | nil =>
    have hend : data.length = offset := hat.length_eq
    obtain ⟨rounds, rfl⟩ := Nat.exists_eq_succ_of_ne_zero (Nat.ne_zero_of_lt hrounds)
    rw [Tls.extensionsLoop, add_eq (by omega), pure_bind', if_neg (by omega)]
    exact ensures_pure h
  | cons e extensions ih =>
    rw [encodeExtensions, List.flatMap_cons] at hat
    obtain ⟨htype, hlength, hcontent⟩ := at_extension hat
    have hrest := hcontent.skip
    have hsize := hrest.length_eq
    have hfits := e.length_lt
    obtain ⟨rounds, rfl⟩ := Nat.exists_eq_succ_of_ne_zero (Nat.ne_zero_of_lt hrounds)
    -- type and length are there, and the content has the length
    rw [Tls.extensionsLoop, add_eq (by omega), pure_bind', if_pos (by omega),
      beAt_eq htype e.type_lt, pure_bind', beAt_eq hlength e.length_lt, pure_bind',
      add_eq (by omega), pure_bind', if_neg (by omega), hcontent.slice, pure_bind']
    refine (hstep info e extensions h).bind fun info' hinfo' => ?_
    exact ih hrest (by omega) hinfo'

end Loops

/-! ## Both parsers -/

namespace Offer

variable (offer : Offer) {e : Extension} {info info' : TlsInfo} {rest : List Extension}
  {allowPartial : Bool}

theorem exists_protocols (he : e ∈ offer.hello.extensions) (htype : e.type = 0x0010) :
    ∃ names, offer.protocols = some names ∧ e.content = protocolNameList names := by
  have hcontent := offer.protocols_content
  rw [← htype, find?_type offer.types_nodup he] at hcontent
  obtain ⟨names, hnames, heq⟩ := Option.map_eq_some_iff.mp hcontent.symm
  exact ⟨names, hnames, heq.symm⟩

theorem exists_versions (he : e ∈ offer.hello.extensions) (htype : e.type = 0x002b) :
    ∃ versions, offer.supportedVersions = some versions ∧ e.content = versionList versions := by
  have hcontent := offer.versions_content
  rw [← htype, find?_type offer.types_nodup he] at hcontent
  obtain ⟨versions, hversions, heq⟩ := Option.map_eq_some_iff.mp hcontent.symm
  exact ⟨versions, hversions, heq.symm⟩

theorem exists_extension {type : ℕ} {content : List UInt8}
    (h : (offer.hello.extensions.find? fun e => e.type == type).map Extension.content =
      some content) : ∃ e ∈ offer.hello.extensions, e.type = type := by
  obtain ⟨e, hfound, -⟩ := Option.map_eq_some_iff.mp h
  have hbeq := List.find?_some hfound
  exact ⟨e, List.mem_of_find?_eq_some hfound, eq_of_beq hbeq⟩

/-- What a parser makes of the name and the protocols on reading an extension. -/
structure Reads (e : Extension) (info info' : TlsInfo) : Prop where
  sni : info'.sni = if e.type = 0x0000 then some offer.hello.sni else info.sni
  alpn : info'.alpn = if e.type = 0x0010 then (someTexts offer.alpn).getD info.alpn else info.alpn

/-- The name and the protocols have been read, or their extensions are to come. -/
structure Reading (info : TlsInfo) (rest : List Extension) : Prop where
  mem : ∀ e ∈ rest, e ∈ offer.hello.extensions
  sni : Pending 0x0000 none (some offer.hello.sni) info.sni rest
  alpn : Pending 0x0010 [] offer.alpn info.alpn rest

/-- The version has been read, or its extension is to come. -/
def VersionPending (info : TlsInfo) (rest : List Extension) : Prop :=
  Pending 0x002b offer.fallbackVersion (offer.highestVersion.or offer.fallbackVersion) info.version
    rest

variable {offer}

theorem Reading.step (h : offer.Reading info (e :: rest)) (he : offer.Reads e info info') :
    offer.Reading info' rest := by
  refine ⟨fun e' he' => h.mem e' (List.mem_cons_of_mem e he'), ?_, ?_⟩
  · refine h.sni.step (fun htype _ => ?_) fun htype => ?_
    · rw [he.sni, if_pos htype]
    · rw [he.sni, if_neg htype]
  · refine h.alpn.step (fun htype hvalue => ?_) fun htype => ?_
    · rw [he.alpn]
      rw [if_pos htype, someTexts]
      split_ifs with hempty
      -- no protocol is a text, and the list stays empty
      · rw [List.isEmpty_iff.mp hempty] at hvalue ⊢
        exact hvalue.elim id id
      · rfl
    · rw [he.alpn, if_neg htype]

/-- The message's own extensions are read as they were written. -/
theorem parseExtension_ensures_reads (he : e ∈ offer.hello.extensions) :
    Ensures (parseExtension info true e.type e.content) fun info' =>
      offer.Reads e info info' ∧
        info'.version = if e.type = 0x002b then offer.highestVersion.or info.version
          else info.version := by
  -- the types are tried in order: the server name, the protocols, the versions
  have hlt := e.length_lt
  refine Ensures.ite (fun htype => ?_) fun hsni => Ensures.ite (fun htype => ?_) fun halpn =>
    Ensures.ite (fun htype => ?_) fun hversions => ensures_pure ?_
  · rw [offer.hello.content_of_type_eq_zero he htype.1] at hlt ⊢
    rw [parseSniExtensionResilient_of_valid offer.hello.valid hlt]
    exact ensures_pure ⟨⟨(if_pos htype.1).symm, (if_neg (by omega)).symm⟩,
      (if_neg (by omega)).symm⟩
  · obtain ⟨names, hnames, hcontent⟩ := offer.exists_protocols he htype
    have halpn : offer.alpn = namesAsTexts names := by rw [alpn, hnames, Option.getD_some]
    rw [hcontent] at hlt ⊢
    rw [parseAlpnExtensionResilient_protocolNameList hlt, ← halpn]
    refine ensures_pure ⟨⟨(if_neg (by omega)).symm, ?_⟩, (if_neg (by omega)).symm⟩
    rw [if_pos htype, filter_someTexts]
  · obtain ⟨versions, hversions, hcontent⟩ := offer.exists_versions he htype
    have hhighest : offer.highestVersion = (knownVersions versions).argmax versionToPriority := by
      rw [highestVersion, Offer.versions, hversions, Option.elim_some]
    rw [hcontent, parseSupportedVersionsResilient_versionList
      (offer.versions_length_lt versions hversions), ← hhighest]
    exact ensures_pure ⟨⟨(if_neg (by omega)).symm, (if_neg (by omega)).symm⟩,
      (if_pos htype).symm⟩
  -- other types change nothing
  · refine ⟨⟨(if_neg fun hzero => hsni ⟨hzero, rfl⟩).symm, ?_⟩, (if_neg hversions).symm⟩
    exact (if_neg halpn).symm

/-- The parser for QUIC reads the name and the protocols the same way. -/
theorem parseTlsExtension_ensures_reads (he : e ∈ offer.hello.extensions) :
    Ensures (Tls.parseTlsExtension info true allowPartial e.type e.content) fun info' =>
      offer.Reads e info info' := by
  -- the types are tried in order: the server name, the protocols, the versions
  have hlt := e.length_lt
  have hlen : e.content.length < 2 ^ 63 := e.length_lt.trans (by decide)
  refine Ensures.ite (fun htype => ?_) fun hsni => Ensures.ite (fun htype => ?_) fun halpn =>
    Ensures.ite (fun htype => ?_) fun _ => ensures_pure ?_
  · rw [offer.hello.content_of_type_eq_zero he htype.1] at hlt ⊢
    rw [Tls.parseSniExtension_serverNameList offer.hello.valid hlt]
    exact ensures_pure ⟨(if_pos htype.1).symm, (if_neg (by omega)).symm⟩
  · obtain ⟨names, hnames, hcontent⟩ := offer.exists_protocols he htype
    have halpn : offer.alpn = namesAsTexts names := by rw [alpn, hnames, Option.getD_some]
    rw [hcontent] at hlt ⊢
    rw [parseAlpnExtension_protocolNameList hlt, ← halpn]
    exact ensures_pure ⟨(if_neg (by omega)).symm, (if_pos htype).symm⟩
  -- the versions are not part of the reading
  · refine (Tls.parseSupportedVersions_ensures hlen true).bind fun _ _ => ensures_pure ?_
    exact ⟨(if_neg (by omega)).symm, (if_neg (by omega)).symm⟩
  · exact ⟨(if_neg fun hzero => hsni ⟨hzero, rfl⟩).symm, (if_neg halpn).symm⟩

/-- Before the first extension nothing has been read. -/
theorem reading_extensions (hsni : info.sni = none) (halpn : info.alpn = []) :
    offer.Reading info offer.hello.extensions := by
  refine ⟨fun _ he => he, .inr ⟨hsni, offer.hello.sniExtension, ?_, rfl⟩, ?_⟩
  · exact List.mem_append_right _ List.mem_cons_self
  · have hcontent := offer.protocols_content
    rcases hprotocols : offer.protocols with _ | names
    · rw [halpn, alpn, hprotocols]
      exact .inl rfl
    · rw [hprotocols] at hcontent
      exact .inr ⟨halpn, offer.exists_extension hcontent⟩

theorem versionPending_extensions (hversion : info.version = offer.fallbackVersion) :
    offer.VersionPending info offer.hello.extensions := by
  have hcontent := offer.versions_content
  rcases hversions : offer.supportedVersions with _ | versions
  -- the message's own version is offered, and counts
  · have hhighest : offer.highestVersion = versionOf offer.hello.version.toList := by
      rw [highestVersion, Offer.versions, hversions, Option.elim_none]
      rcases versionOf offer.hello.version.toList with _ | version
      · rfl
      · rfl
    left
    rw [hversion, hhighest, fallbackVersion]
    rcases versionOf offer.hello.version.toList with _ | version
    · rfl
    · rfl
  · rw [hversions] at hcontent
    exact .inr ⟨hversion, offer.exists_extension hcontent⟩

theorem VersionPending.step (h : offer.VersionPending info (e :: rest))
    (he : info'.version = if e.type = 0x002b then offer.highestVersion.or info.version
      else info.version) : offer.VersionPending info' rest := by
  refine Pending.step h (fun htype hvalue => ?_) fun htype => ?_
  · rw [he, if_pos htype]
    rcases hvalue with hnew | hold
    · rw [hnew, ← Option.or_assoc, Option.or_self]
    · rw [hold]
  · rw [he, if_neg htype]

variable (offer)

/-- All that the analysis reads from the extensions. -/
theorem parseExtensions_ensures_reading (hsni : info.sni = none) (halpn : info.alpn = [])
    (hversion : info.version = offer.fallbackVersion) :
    Ensures (parseExtensions (encodeExtensions offer.hello.extensions) info true) fun info' =>
      info'.sni = some offer.hello.sni ∧ info'.alpn = offer.alpn ∧
        info'.version = offer.highestVersion.or offer.fallbackVersion := by
  have hlt := offer.hello.length_encodeExtensions_lt
  have hmax := offer.extensions_length_le
  refine Ensures.mono (extensionsLoop_run
    (I := fun info rest => offer.Reading info rest ∧ offer.VersionPending info rest) ?_ (At.start _)
    (by omega) (by omega) (by omega) ?_) fun info' h => ?_
  · intro info e rest h
    refine (parseExtension_ensures_reads (h.1.mem e List.mem_cons_self)).mono fun info' he => ?_
    exact ⟨h.1.step he.1, h.2.step he.2⟩
  · exact ⟨reading_extensions hsni halpn, versionPending_extensions hversion⟩
  · exact ⟨h.1.sni.done, h.1.alpn.done, h.2.done⟩

/-- All that the parser for QUIC reads from them. -/
theorem parseTlsExtensions_ensures_reading (allowPartial : Bool) :
    Ensures (Tls.parseTlsExtensions (encodeExtensions offer.hello.extensions) .new true
        allowPartial) fun info =>
      info.sni = some offer.hello.sni ∧ info.alpn = offer.alpn := by
  have hlt := offer.hello.length_encodeExtensions_lt
  refine Ensures.mono (tlsExtensionsLoop_run (I := fun info rest => offer.Reading info rest) ?_
    (At.start _) (by omega) (by omega) ?_) fun info' h => ?_
  · intro info e rest h
    exact (parseTlsExtension_ensures_reads (h.mem e List.mem_cons_self)).mono fun info' he =>
      h.step he
  · exact reading_extensions rfl rfl
  · exact ⟨h.sni.done, h.alpn.done⟩

/-- The analysis of a segment that starts with the record. -/
theorem analyzeHttps_ensures_reading (rest : List UInt8) :
    Ensures (analyzeHttps (offer.encode ++ rest)) fun https? =>
      ∃ info, https? = some ⟨some info⟩ ∧ info.sni = some offer.hello.sni ∧
        info.alpn = offer.alpn ∧ info.version = offer.highestVersion.or offer.fallbackVersion := by
  rw [encode, HelloRecord.analyzeHttps_append]
  refine (offer.parseExtensions_ensures_reading rfl rfl rfl).bind fun info hinfo => ?_
  exact ensures_pure ⟨info, rfl, hinfo⟩

/-- The parser for QUIC on the message. -/
theorem parsePartialTlsHandshake_ensures_reading (allowPartial : Bool) :
    Ensures (Tls.parsePartialTlsHandshake offer.hello.encode allowPartial) fun info? =>
      ∃ info, info? = some info ∧ info.sni = some offer.hello.sni ∧ info.alpn = offer.alpn := by
  obtain ⟨hlength, hbody⟩ := offer.hello.at_encode
  have hfits := offer.fits
  have hencode := offer.hello.length_encode
  have hlen := offer.hello.length_body
  -- nothing of the message is cut off
  have hclient := @ClientHello.parsePartialClientHello_take offer.hello offer.hello.body.length
    allowPartial .new
  rw [List.take_length, List.take_of_length_le (by omega)] at hclient
  rw [Tls.parsePartialTlsHandshake, if_neg (by omega), (At.start offer.hello.encode).index,
    pure_bind', beAt_eq hlength (by omega), pure_bind', hbody.sliceFrom, pure_bind']
  dsimp only
  rw [if_neg (by omega), if_pos rfl, Nat.min_self, sliceTo_eq le_rfl, pure_bind', List.take_length,
    hclient]
  refine (offer.parseTlsExtensions_ensures_reading allowPartial).bind fun info hinfo => ?_
  refine ensures_pure ⟨info, if_pos ?_, hinfo⟩
  rw [hinfo.1]
  rfl

/-- Both parsers read the server name and the protocols, as far as these are texts; the analysis of
the segment also reads the highest version. An offer is a ClientHello in one record with a host
name, any protocols and any versions, among other extensions of other types; anything may follow in
the segment. A protocol that is not UTF-8 is left out of the list by both. -/
theorem parsers_read (offer : Offer) (rest : List UInt8) (allowPartial : Bool) :
    (∃ info, analyzeHttps (offer.encode ++ rest) = pure (some ⟨some info⟩) ∧
      info.sni = some offer.hello.sni ∧ info.alpn = offer.alpn ∧
      info.version = offer.highestVersion.or offer.fallbackVersion) ∧
    ∃ info, Tls.parsePartialTlsHandshake offer.hello.encode allowPartial = pure (some info) ∧
      info.sni = some offer.hello.sni ∧ info.alpn = offer.alpn := by
  obtain ⟨_, hhttps, info, rfl, hinfo⟩ := offer.analyzeHttps_ensures_reading rest
  obtain ⟨_, hquic, info', rfl, hinfo'⟩ :=
    offer.parsePartialTlsHandshake_ensures_reading allowPartial
  exact ⟨⟨info, hhttps, hinfo⟩, info', hquic, hinfo'⟩

/-! ## Names that are no texts -/

/-- The protocols that are offered, name by name. -/
def ListsProtocols (alpn : List String) : Prop :=
  alpn.map nameBytes = (offer.protocols.getD []).map ProtocolName.bytes

/-- A reserved protocol name, which is not UTF-8. -/
def greaseName : ProtocolName where
  bytes := [0xFA, 0xFA]
  length_pos := by decide
  length_lt := by decide

/-- A message that offers a reserved protocol name in front of `h2`, and a reserved version in front
of two others. -/
def greaseHello : ClientHello where
  version := Vector.replicate 2 0x03
  random := Vector.replicate 32 0x80
  sessionId := List.replicate 32 0x01
  cipherSuites := [0x13, 0x02, 0x13, 0x01]
  compressionMethods := [0x01, 0x00]
  before := [{
    type := 0x0010
    content := [0x00, 0x06, 0x02, 0xFA, 0xFA, 0x02, 0x68, 0x32]
    type_lt := by decide
    length_lt := by decide }]
  sni := "example.com"
  otherNames := []
  after := [{
    type := 0x002b
    content := [0x06, 0x3A, 0x3A, 0x03, 0x03, 0x03, 0x04]
    type_lt := by decide
    length_lt := by decide }]
  sessionId_length_lt := by decide
  cipherSuites_length_lt := by decide
  compressionMethods_length_lt := by decide
  before_type_ne := by decide
  after_type_ne := by decide
  valid := by decide +kernel
  names_length_lt := by decide +kernel
  extensions_length_lt := by decide +kernel

/-- The message in a record. -/
def greaseOffer : Offer where
  hello := greaseHello
  major := 0x03
  minor := 0x01
  fits := by decide +kernel
  protocols := some [greaseName, ⟨[0x68, 0x32], by decide, by decide⟩]
  supportedVersions := some [(0x3A, 0x3A), (0x03, 0x03), (0x03, 0x04)]
  types_nodup := by decide
  extensions_length_le := by decide
  protocols_content := by decide +kernel
  versions_content := by decide +kernel
  versions_length_lt := by decide

example : greaseOffer.highestVersion = some .tls13 := by decide

/-- Of the two protocols only `h2` is read. -/
theorem not_listsProtocols_greaseOffer :
    ¬ ∃ info, analyzeHttps greaseOffer.encode = pure (some ⟨some info⟩) ∧
      greaseOffer.ListsProtocols info.alpn := by
  rintro ⟨info, hinfo, hlists⟩
  obtain ⟨_, hhttps, info', rfl, -, halpn, -⟩ := greaseOffer.analyzeHttps_ensures_reading []
  rw [List.append_nil, hinfo, pure_inj] at hhttps
  obtain rfl : info = info' := by simpa using hhttps
  rw [ListsProtocols, halpn] at hlists
  exact absurd (congrArg List.length hlists) (by decide +kernel)

end Offer

end Https

end RustNet

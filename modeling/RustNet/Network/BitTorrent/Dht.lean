import Mathlib.Data.FinEnum
import RustNet.Foundations.Bencode
import RustNet.Foundations.Search
import RustNet.Network.Ftp.Analysis
import RustNet.Network.Tls.Handshake

/-!
# DHT messages

`analyze_udp_bittorrent` takes a payload for a message of the distributed hash table if it looks
like a bencoded dictionary with a message type, and for uTP if the values of its header are likely.
A dictionary is not parsed: the message type is what stands behind the first `1:y1:` of the payload,
and the method of a query what stands behind the first `1:q`, at most 64 bytes of UTF-8.

## Main definitions

* `BitTorrent.analyzeDht`, `BitTorrent.analyzeUdpBittorrent`: the analysis;
* `BitTorrent.Krpc`: queries, responses and errors as bencoded dictionaries;
* `BitTorrent.Krpc.Clear`: what is searched for does not occur in front of the keys.

## Main results

* `BitTorrent.extractDhtMethod_eq`: the string behind the first `1:q` is read;
* `BitTorrent.Krpc.analyzeUdpBittorrent_encode`: the type and the method of a clear message are
  reported.
-/

namespace RustNet

namespace BitTorrent

open Checked
open Search (findSubsequence findSubsequence_eq FirstAt)
open Bencode (Value encodeBytes natBytes)
open Tls (beAt)

/-! ## Analysis -/

/-- `UTP_HEADER_LEN`: a shorter packet is no uTP. -/
def utpHeaderLen : ℕ := 20

/-- `MAX_DHT_METHOD_LEN`: a longer method is not reported. -/
def maxDhtMethodLen : ℕ := 64

/-- `1:y1:`, the key of the message type and the length of its value. -/
def typeKey : List UInt8 := [0x31, 0x3A, 0x79, 0x31, 0x3A]

/-- `1:q`, the key of the method. -/
def methodKey : List UInt8 := [0x31, 0x3A, 0x71]

/-- The loop of `extract_dht_method`: where the digits of the length end. -/
def digitsEnd (payload : List UInt8) : ℕ → ℕ → Checked ℕ
  | 0, _ => throw .endless
  | rounds + 1, lenEnd => do
    if lenEnd < payload.length then do
      let digit ← index payload lenEnd
      if isAsciiDigit digit then do
        let next ← add lenEnd 1
        digitsEnd payload rounds next
      else return lenEnd
    else return lenEnd

/-- `str::parse` of the digits of a length. -/
def parseLength (digits : List UInt8) : Option ℕ :=
  (fromUtf8 digits).bind fun text => Text.fromStrRadix 10 64 text.toList

/-- `extract_dht_method`: the string behind the first `1:q` in the payload, wherever that stands. -/
def extractDhtMethod (payload : List UInt8) : Checked (Option String) := do
  match findSubsequence payload methodKey with
  | none => return none
  | some pos => do
    let after ← add pos 3
    if payload.length ≤ after then return none
    -- a round for each byte, and one for the end
    let lenEnd ← digitsEnd payload (payload.length + 1) after
    if lenEnd = after ∨ payload.length ≤ lenEnd then return none
    -- digits, and something behind them
    let colon ← index payload lenEnd
    if colon ≠ 0x3A then return none
    let lenStr ← slice payload after lenEnd
    match parseLength lenStr with
    | none => return none
    | some strLen => do
      if maxDhtMethodLen < strLen then return none
      let strStart ← add lenEnd 1
      let strEnd ← add strStart strLen
      if payload.length < strEnd then return none
      let method ← slice payload strStart strEnd
      return fromUtf8 method

/-- What is reported of a DHT message. -/
def dhtInfo (dhtMethod : Option String) : BitTorrentInfo :=
  ⟨.dht, none, none, dhtMethod, false, false, false⟩

/-- The choice of `dht_method` by the type of the message. -/
def dhtMethodOf (payload : List UInt8) (msgTypeChar : UInt8) : Checked (Option String) :=
  if msgTypeChar = 0x71 then extractDhtMethod payload
  else if msgTypeChar = 0x72 then pure (some "response")
  else pure (some "error")

/-- `analyze_dht`: a dictionary by its first and last byte, whose type is behind the first `1:y` in
it. -/
def analyzeDht (payload : List UInt8) : Checked (Option BitTorrentInfo) := do
  if payload.length < 10 then return none
  let first ← index payload 0
  -- a dictionary, from its `d` to its `e`
  if first ≠ 0x64 then return none
  let lastAt ← sub payload.length 1
  let last ← index payload lastAt
  if last ≠ 0x65 then return none
  match findSubsequence payload typeKey with
  | none => return none
  | some pos => do
    let typeEnd ← add pos 6
    if payload.length < typeEnd then return none
    let typeAt ← add pos 5
    let msgTypeChar ← index payload typeAt
    -- a query, a response or an error
    if msgTypeChar ≠ 0x71 ∧ msgTypeChar ≠ 0x72 ∧ msgTypeChar ≠ 0x65 then return none
    let dhtMethod ← dhtMethodOf payload msgTypeChar
    return some (dhtInfo dhtMethod)

/-- `analyze_utp`: by the fields of its header, each of which has few values. -/
def analyzeUtp (payload : List UInt8) : Checked (Option BitTorrentInfo) := do
  if payload.length < utpHeaderLen then return none
  let firstByte ← index payload 0
  let version := firstByte &&& 0x0F
  let pktType := (firstByte >>> 4) &&& 0x0F
  let extension ← index payload 1
  if version ≠ 1 then return none
  if 4 < pktType then return none
  if 2 < extension then return none
  let wndSize ← beAt payload 12 4
  -- a packet that resets may have no window
  if pktType ≠ 3 ∧ wndSize = 0 then return none
  return some ⟨.utp, none, none, none, false, false, false⟩

/-- `analyze_udp_bittorrent`: a message of the distributed hash table, or else a packet of uTP. -/
def analyzeUdpBittorrent (payload : List UInt8) : Checked (Option BitTorrentInfo) := do
  match ← analyzeDht payload with
  | some info => return some info
  | none => analyzeUtp payload

/-! ## Messages -/

/-- The kinds of messages of the protocol. A query names its method. -/
inductive Kind
  | query (method : List UInt8)
  | response
  | error

namespace Kind

/-- The value of the key `y`. -/
def byte : Kind → UInt8
  | query _ => 0x71
  | response => 0x72
  | error => 0x65

/-- How a message is reported: a query by its method, if that is a text of 64 bytes at most. -/
def reported : Kind → Option String
  | query method => if method.length ≤ maxDhtMethodLen then fromUtf8 method else none
  | response => some "response"
  | error => some "error"

end Kind

/-- A message: a dictionary with a type and, for a query, a method. The other entries, among them
the transaction and the arguments, are any values. -/
structure Krpc where
  entries : List (List UInt8 × Value)
  kind : Kind
  sorted : (Value.dict entries).Sorted
  type_mem : ([0x79], Value.bytes [kind.byte]) ∈ entries
  method_mem : ∀ method, kind = .query method → ([0x71], Value.bytes method) ∈ entries

namespace Krpc

/-- The bytes of a message. -/
def encode (message : Krpc) : List UInt8 := (Value.dict message.entries).encode

/-- What is searched for does not occur in front of the keys it is searched for. -/
def Clear (message : Krpc) : Prop :=
  FirstAt message.encode typeKey (Bencode.keyOffset message.entries [0x79]) ∧
    ∀ method, message.kind = .query method →
      FirstAt message.encode methodKey (Bencode.keyOffset message.entries [0x71])

end Krpc

/-! ## What is read -/

section Reading

variable {payload rest : List UInt8} {offset : ℕ}

/-- The digits of a number are read as the number. -/
theorem parseLength_natBytes {n : ℕ} (h : n < 2 ^ 64) : parseLength (natBytes n) = some n := by
  have hascii : ∀ b ∈ natBytes n, b < 0x80 := fun b hb =>
    UInt8.lt_of_le_of_lt (Bencode.mem_natBytes hb).2 (by decide)
  have htext : (asciiText (natBytes n)).toList = Nat.toDigits 10 n := by
    rw [asciiText, String.toList_ofList, Bencode.toDigits_natBytes]
  rw [parseLength, fromUtf8_ascii hascii, Option.bind_some, htext, Text.fromStrRadix_toDigits h]

/-- The loop stops behind the digits. -/
theorem digitsEnd_eq (hlen : payload.length < 2 ^ 63) {digits : List UInt8} {stop : UInt8}
    {rounds : ℕ} (hdigits : ∀ b ∈ digits, 0x30 ≤ b ∧ b ≤ 0x39) (hstop : isAsciiDigit stop = false)
    (h : At payload offset (digits ++ stop :: rest)) (hrounds : digits.length < rounds) :
    digitsEnd payload rounds offset = pure (offset + digits.length) := by
  induction digits generalizing offset rounds with
  -- the byte behind the digits ends the loop
  | nil =>
    obtain ⟨rounds, rfl⟩ := Nat.exists_eq_add_of_le' (show 1 ≤ rounds by omega)
    have hat : At payload offset (stop :: rest) := h
    have hsize := hat.length_eq
    rw [List.length_cons] at hsize
    rw [digitsEnd, if_pos (by omega), hat.index, pure_bind', hstop, if_neg Bool.false_ne_true]
    rfl
  -- each digit takes a round
  | cons digit digits ih =>
    obtain ⟨rounds, rfl⟩ := Nat.exists_eq_add_of_le' (show 1 ≤ rounds by omega)
    obtain ⟨hdigit, hmore⟩ := List.forall_mem_cons.mp hdigits
    have hat : At payload offset (digit :: (digits ++ stop :: rest)) := h
    have hsize := hat.length_eq
    rw [List.length_cons] at hsize hrounds ⊢
    rw [digitsEnd, if_pos (by omega), hat.index, pure_bind', isAsciiDigit, decide_eq_true hdigit,
      if_pos rfl, add_eq (by omega), pure_bind', ih hmore hat.next (by omega), Nat.add_assoc,
      Nat.add_comm 1]

/-- The string behind the first `1:q` is read. -/
theorem extractDhtMethod_eq {method : List UInt8} (hlen : payload.length < 2 ^ 63)
    (hfound : findSubsequence payload methodKey = some offset)
    (h : At payload offset (methodKey ++ (encodeBytes method ++ rest))) :
    extractDhtMethod payload =
      pure (if method.length ≤ maxDhtMethodLen then fromUtf8 method else none) := by
  -- behind the key come the digits, the colon and the text
  have hdigits : At payload (offset + 3)
      (natBytes method.length ++ 0x3A :: (method ++ rest)) := by
    have h' := h.skip
    rwa [encodeBytes, List.append_assoc] at h'
  have hcolon := hdigits.skip
  have htext := hcolon.next
  have hsize := htext.length_eq
  have hdigitsPos := List.length_pos_iff.mpr (Bencode.natBytes_ne_nil method.length)
  have hloop := digitsEnd_eq hlen (fun b hb => Bencode.mem_natBytes hb) rfl hdigits
    (show _ < payload.length + 1 by omega)
  rw [List.length_append] at hsize
  rw [extractDhtMethod, hfound]
  simp only []
  rw [add_eq (by omega), pure_bind', if_neg (by omega), hloop, pure_bind', if_neg (by omega),
    hcolon.index, pure_bind', if_neg (by decide), hdigits.slice, pure_bind',
    parseLength_natBytes (by omega)]
  simp only []
  by_cases hshort : method.length ≤ maxDhtMethodLen
  -- what is read lies in the payload, so that only the limit can refuse it
  · rw [if_neg (by omega), add_eq (by omega), pure_bind', add_eq (by omega), pure_bind',
      if_neg (by omega), htext.slice, pure_bind', if_pos hshort]
  · rw [if_pos (by omega), if_neg hshort]

/-- The byte behind the first `1:y1:` is taken for the type. -/
theorem analyzeDht_eq {msgType : UInt8} {middle : List UInt8} (hlen : payload.length < 2 ^ 63)
    (hten : 10 ≤ payload.length) (hdict : payload = 0x64 :: (middle ++ [0x65]))
    (hfound : findSubsequence payload typeKey = some offset)
    (h : At payload offset (typeKey ++ msgType :: rest))
    (htype : msgType = 0x71 ∨ msgType = 0x72 ∨ msgType = 0x65) :
    analyzeDht payload = dhtMethodOf payload msgType >>= fun dhtMethod =>
      pure (some (dhtInfo dhtMethod)) := by
  have hfirst : At payload 0 (0x64 :: (middle ++ [0x65])) := hdict ▸ At.start payload
  -- the `e` at the end closes the dictionary
  have hlast : At payload (payload.length - 1) [0x65] := by
    have hend := hfirst.next.skip
    rwa [Nat.zero_add, Nat.add_comm, ← show payload.length - 1 = middle.length + 1 by
      rw [hdict, List.length_cons, List.length_append, List.length_singleton]; omega] at hend
  have hchar : At payload (offset + 5) (msgType :: rest) := h.skip
  have hsize := hchar.length_eq
  rw [List.length_cons] at hsize
  rw [analyzeDht, if_neg (by omega), hfirst.index, pure_bind', if_neg (by decide),
    sub_eq (by omega), pure_bind', hlast.index, pure_bind', if_neg (by decide), hfound]
  simp only []
  rw [add_eq (by omega), pure_bind', if_neg (by omega), add_eq (by omega), pure_bind',
    hchar.index, pure_bind', if_neg]
  rintro ⟨hq, hr, he⟩
  exact htype.elim hq fun h => h.elim hr he

end Reading

/-! ## Messages are reported -/

namespace Krpc

variable {message : Krpc}

/-- A clear message around its type. -/
theorem Clear.type (hclear : message.Clear) : ∃ offset rest,
    findSubsequence message.encode typeKey = some offset ∧
      At message.encode offset (typeKey ++ message.kind.byte :: rest) := by
  obtain ⟨front, rest, hencode, hfront⟩ := Bencode.encode_dict message.sorted message.type_mem
  have hkey : message.encode = front ++ (typeKey ++ message.kind.byte :: rest) := by
    rw [encode, hencode, Value.encode, encodeBytes, encodeBytes, List.length_singleton,
      List.length_singleton]
    rfl
  have hfirst := hclear.1
  rw [hkey, ← hfront] at hfirst
  refine ⟨front.length, rest, ?_, ?_⟩
  · rw [hkey, findSubsequence_eq hfirst]
  · rw [hkey, ← Nat.zero_add front.length]
    exact (At.start _).skip

/-- A clear query around its method. -/
theorem Clear.method (hclear : message.Clear) {method : List UInt8}
    (hkind : message.kind = .query method) : ∃ offset rest,
    findSubsequence message.encode methodKey = some offset ∧
      At message.encode offset (methodKey ++ (encodeBytes method ++ rest)) := by
  obtain ⟨front, rest, hencode, hfront⟩ :=
    Bencode.encode_dict message.sorted (message.method_mem method hkind)
  have hkey : message.encode = front ++ (methodKey ++ (encodeBytes method ++ rest)) := hencode
  have hfirst := hclear.2 method hkind
  rw [hkey, ← hfront] at hfirst
  refine ⟨front.length, rest, ?_, ?_⟩
  · rw [hkey, findSubsequence_eq hfirst]
  · rw [hkey, ← Nat.zero_add front.length]
    exact (At.start _).skip

/-- What is reported of a clear message is its type and its method. -/
theorem Clear.dhtMethodOf (hclear : message.Clear) (hlen : message.encode.length < 2 ^ 63) :
    BitTorrent.dhtMethodOf message.encode message.kind.byte = pure message.kind.reported := by
  rcases hkind : message.kind with method | _ | _
  · obtain ⟨offset, rest, hfound, hat⟩ := hclear.method hkind
    exact extractDhtMethod_eq hlen hfound hat
  · rfl
  · rfl

/-- A clear message is accepted unless it is too short. -/
theorem Clear.analyzeDht (hclear : message.Clear) (hlen : message.encode.length < 2 ^ 63)
    (hten : 10 ≤ message.encode.length) :
    BitTorrent.analyzeDht message.encode = pure (some (dhtInfo message.kind.reported)) := by
  obtain ⟨offset, rest, hfound, hat⟩ := hclear.type
  have htype : message.kind.byte = 0x71 ∨ message.kind.byte = 0x72 ∨ message.kind.byte = 0x65 := by
    rcases message.kind with method | _ | _ <;> simp [Kind.byte]
  rw [analyzeDht_eq hlen hten (by rw [encode, Value.encode]) hfound hat htype,
    hclear.dhtMethodOf hlen, pure_bind']

/-- What is accepted has ten bytes. -/
theorem ten_le_of_accepted {payload : List UInt8} {info : BitTorrentInfo}
    (h : BitTorrent.analyzeDht payload = pure (some info)) : 10 ≤ payload.length := by
  by_contra hshort
  rw [BitTorrent.analyzeDht, if_pos (by omega)] at h
  simp [pure, Except.pure] at h

/-- The type and the method of a clear message that is accepted are reported, whatever its other
entries are. The message is a bencoded dictionary that a packet can hold (`hlen`) and the gate of
the analysis lets through (`haccepted`). The keys are searched for as bytes and not parsed, so they
can be found in a value that comes first; in a message that is `Clear` (`hclear`) they are not. -/
theorem analyzeUdpBittorrent_encode (message : Krpc) (hlen : message.encode.length < 2 ^ 63)
    (hclear : message.Clear)
    (haccepted : ∃ info, BitTorrent.analyzeDht message.encode = pure (some info)) :
    analyzeUdpBittorrent message.encode = pure (some (dhtInfo message.kind.reported)) := by
  obtain ⟨info, hinfo⟩ := haccepted
  rw [analyzeUdpBittorrent, hclear.analyzeDht hlen (ten_le_of_accepted hinfo), pure_bind']

/-- A query of the node `id`. -/
def ofQuery (id method : List UInt8) : Krpc where
  entries := [([0x61], .dict [([0x69, 0x64], .bytes id)]), ([0x71], .bytes method),
    ([0x74], .bytes [0x61, 0x61]), ([0x79], .bytes [0x71])]
  kind := .query method
  sorted := by
    simp only [Value.Sorted, Bencode.SortedEntries, Bencode.SortedEntry]
    simp
    decide
  type_mem := by simp [Kind.byte]
  method_mem := by simp

/-- The query `ping` of the node with this identifier. -/
def ping (id : List UInt8) : Krpc := ofQuery id [0x70, 0x69, 0x6E, 0x67]

theorem analyzeUdpBittorrent_ping :
    analyzeUdpBittorrent (ping (List.replicate 20 0x61)).encode =
      pure (some (dhtInfo (some "ping"))) :=
  analyzeUdpBittorrent_encode (ping (List.replicate 20 0x61)) (by decide +kernel)
    ⟨by decide +kernel, fun _ _ => by decide +kernel⟩ ⟨_, rfl⟩

/-- A method of 65 bytes is not reported, and what an identifier holds may be reported as the
method. -/
theorem analyzeUdpBittorrent_misread :
    (¬ ∀ (message : Krpc) (method : String), message.kind = .query (nameBytes method) →
      (∃ info, BitTorrent.analyzeDht message.encode = pure (some info)) →
      analyzeUdpBittorrent message.encode = pure (some (dhtInfo (some method)))) ∧
    analyzeUdpBittorrent (ping ([0x31, 0x3A, 0x71, 0x34, 0x3A, 0x65, 0x76, 0x69, 0x6C] ++
      List.replicate 11 0x61)).encode = pure (some (dhtInfo (some "evil"))) := by
  refine ⟨fun hclaim => ?_, rfl⟩
  -- the first byte over the limit
  have hbytes : nameBytes (asciiText (List.replicate 65 0x61)) = List.replicate 65 0x61 :=
    nameBytes_asciiText fun b hb => List.eq_of_mem_replicate hb ▸ by decide
  have hreported := hclaim (ofQuery (List.replicate 20 0x61) (List.replicate 65 0x61))
    (asciiText (List.replicate 65 0x61)) (congrArg Kind.query hbytes.symm) ⟨dhtInfo none, rfl⟩
  have hnone : analyzeUdpBittorrent
      (ofQuery (List.replicate 20 0x61) (List.replicate 65 0x61)).encode =
        pure (some (dhtInfo none)) := rfl
  have hinfo := Option.some.inj (Except.ok.inj (hnone.symm.trans hreported))
  exact nomatch congrArg BitTorrentInfo.dhtMethod hinfo

end Krpc

end BitTorrent

end RustNet

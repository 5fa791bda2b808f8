import RustNet.Network.Dns.Offsets
import RustNet.Network.Parser.Encapsulation

/-!
# Encoded messages

A DNS message as a sender writes it: questions with names that are written out, answers whose names
may end in a pointer, and whatever follows. The analysis finds the first question and the addresses
among the first answers.

## Main definitions

* `Dns.Label`, `Dns.QName`, `Dns.OwnerName`: labels, and the names of questions and answers;
* `Dns.Question`, `Dns.Answer`, `Dns.Message`, with their encodings.

## Main results

* `Dns.parseQuestion_of_at`, `Dns.recordsLoop_of_at`: a question and a list of answers are read from
  their encodings;
* `Dns.analyzeDns_encode`: what the analysis finds in an encoded message.
-/

namespace RustNet

namespace Dns

open Checked Encapsulation

/-! ## Names -/

/-- A label: a text of between 1 and 63 bytes. -/
structure Label where
  text : String
  ne_empty : text ≠ ""
  length_le : (nameBytes text).length ≤ 63

/-- The bytes of a label's text. -/
def Label.bytes (label : Label) : List UInt8 := nameBytes label.text

/-- A label behind its length. -/
def Label.encode (label : Label) : List UInt8 := UInt8.ofNat label.bytes.length :: label.bytes

/-- The text of labels: joined by dots. -/
def joined (labels : List Label) : String := ".".intercalate (labels.map Label.text)

/-- The name of a question: at most 253 bytes with the dots. -/
structure QName where
  labels : List Label
  size_le : (joined labels).utf8ByteSize ≤ 253

/-- The text of a name; the root has none. -/
def QName.text (name : QName) : Option String :=
  if name.labels = [] then none else some (joined name.labels)

/-- How the name of an answer ends: written out, or with a pointer to an earlier part. -/
inductive Ending
  | root
  | pointer (target : ℕ) (target_lt : target < 2 ^ 14)

/-- The bytes of an ending. -/
def Ending.encode : Ending → List UInt8
  | root => [0]
  | pointer target _ => BigEndian.bytes 2 (0xC000 + target)

/-- The name of an answer. -/
structure OwnerName where
  labels : List Label
  ending : Ending

/-- The labels of a name, and its ending. -/
def encodeName (labels : List Label) (ending : Ending) : List UInt8 :=
  labels.flatMap Label.encode ++ ending.encode

/-! ## Messages -/

/-- A question: the name that is asked for, its type and its class. -/
structure Question where
  name : QName
  qtype : UInt16
  qclass : UInt16

/-- The bytes of a question: the name ends at the root, type and class follow. -/
def Question.encode (q : Question) : List UInt8 :=
  encodeName q.name.labels .root ++ (be16Bytes q.qtype ++ be16Bytes q.qclass)

/-- An answer record of any type. -/
structure Answer where
  name : OwnerName
  atype : UInt16
  aclass : UInt16
  ttl : UInt32
  rdata : List UInt8
  length_lt : rdata.length < 2 ^ 16

namespace Answer

/-- The fields between the name and the data. -/
def fields (a : Answer) : List UInt8 :=
  be16Bytes a.atype ++ (be16Bytes a.aclass ++ (BigEndian.bytes 4 a.ttl.toNat ++
    be16Bytes (UInt16.ofNat a.rdata.length)))

/-- The bytes of an answer: its name, which may end at a pointer, the fixed fields, and the data. -/
def encode (a : Answer) : List UInt8 :=
  encodeName a.name.labels a.name.ending ++ (a.fields ++ a.rdata)

/-- The address of an A record of length 4, or of an AAAA record of length 16. -/
def address (a : Answer) : Option IpAddr :=
  if a.atype = 1 ∧ a.rdata.length = 4 then some (.v4 (.fromOctets a.rdata))
  else if a.atype = 28 ∧ a.rdata.length = 16 then some (.v6 (.fromOctets a.rdata))
  else none

end Answer

/-- A message, with what follows its answers as bytes. -/
structure Message where
  id : UInt16
  flags : UInt16
  questions : List Question
  answers : List Answer
  nscount : UInt16
  arcount : UInt16
  rest : List UInt8
  questions_lt : questions.length < 2 ^ 16
  answers_lt : answers.length < 2 ^ 16

namespace Message

/-- The QR bit of the flags, which tells a response from a query. -/
def isResponse (m : Message) : Bool := m.flags &&& 0x8000 != 0

/-- What follows the header: the questions, the answers, and what else the message has. -/
def body (m : Message) : List UInt8 :=
  m.questions.flatMap Question.encode ++ (m.answers.flatMap Answer.encode ++ m.rest)

/-- The bytes of a message: the header, whose counts are those of the lists, and the body. -/
def encode (m : Message) : List UInt8 :=
  be16Bytes m.id ++ (be16Bytes m.flags ++ (be16Bytes (UInt16.ofNat m.questions.length) ++
    (be16Bytes (UInt16.ofNat m.answers.length) ++ (be16Bytes m.nscount ++
      (be16Bytes m.arcount ++ m.body)))))

/-- What is to be found in a message. -/
def info (m : Message) : DnsInfo where
  queryName := m.questions.head?.bind fun q => q.name.text
  queryType := m.questions.head?.map fun q => queryTypeOf q.qtype
  responseIps :=
    if m.isResponse then ((m.answers.take 64).filterMap Answer.address).take 16 else []
  isResponse := m.isResponse

end Message

/-! ## Reading names -/

section Read

variable {payload rest : List UInt8} {offset stop : ℕ}

theorem getElem?_of_at {b : UInt8} (h : At payload offset (b :: rest)) :
    payload[offset]? = some b := by
  rw [← List.head?_drop, h.drop_eq, List.head?_cons]

theorem be16At_of_at {x : UInt16} (h : At payload offset (be16Bytes x ++ rest)) :
    be16At payload offset = pure x := by
  have hhigh : At payload offset ((x >>> 8).toUInt8 :: x.toUInt8 :: rest) := h
  rw [be16At, hhigh.index, pure_bind', hhigh.next.index, pure_bind', be16_bytes]

theorem Label.toNat_length (label : Label) :
    (UInt8.ofNat label.bytes.length).toNat = label.bytes.length :=
  UInt8.toNat_ofNat_of_lt' (Nat.lt_of_le_of_lt label.length_le (by decide))

theorem Label.length_ne_zero (label : Label) : UInt8.ofNat label.bytes.length ≠ 0 := by
  intro h
  have hzero : label.bytes.length = 0 := by
    rw [← label.toNat_length, h]
    rfl
  exact label.ne_empty (String.utf8ByteSize_eq_zero_iff.mp hzero)

theorem Label.length_and (label : Label) : UInt8.ofNat label.bytes.length &&& 0xC0 = 0 := by
  have hbits : ∀ n < 64, UInt8.ofNat n &&& 0xC0 = 0 := by decide
  exact hbits _ (Nat.lt_succ_of_le label.length_le)

/-- An ending is a name without labels. -/
theorem nameAt_ending {ending : Ending} (h : At payload offset (ending.encode ++ rest)) :
    NameAt payload offset [] (offset + ending.encode.length) := by
  cases ending with
  | root => exact .root (getElem?_of_at h)
  | pointer target target_lt =>
    have hbits : ∀ n < 64, UInt8.ofNat (192 + n) &&& 0xC0 = 0xC0 := by decide
    have hhigh : (0xC000 + target) / 256 ^ 1 = 192 + target / 256 := by omega
    have hlen := h.length_eq
    rw [List.length_append, Ending.encode, BigEndian.length_bytes] at hlen
    refine .pointer (getElem?_of_at h) ?_ (by omega)
    rw [hhigh]
    exact hbits _ (by omega)

/-- An encoded name is a name. -/
theorem nameAt_of_at {labels : List Label} {ending : Ending}
    (h : At payload offset (encodeName labels ending ++ rest)) :
    NameAt payload offset (labels.map Label.bytes) (offset + (encodeName labels ending).length) := by
  induction labels generalizing offset with
  | nil => exact nameAt_ending h
  | cons label labels ih =>
    have hlabel : At payload offset (UInt8.ofNat label.bytes.length ::
        (label.bytes ++ (encodeName labels ending ++ rest))) := by
      rw [encodeName, List.flatMap_cons, List.append_assoc, List.append_assoc, Label.encode] at h
      rwa [encodeName, List.append_assoc]
    have hrest := hlabel.next_skip
    -- the rest of the name is where the first label ends
    have htail := ih hrest
    have hbytes : (payload.drop (offset + 1)).take label.bytes.length = label.bytes := by
      rw [hlabel.next.drop_eq, List.take_left]
    have hstop : offset + (encodeName (label :: labels) ending).length =
        offset + (1 + label.bytes.length) + (encodeName labels ending).length := by
      rw [encodeName, List.flatMap_cons, List.append_assoc, ← encodeName, List.length_append,
        Label.encode, List.length_cons]
      omega
    have hfits := hrest.le_length
    rw [← label.toNat_length] at hfits htail hbytes
    -- the lengths as the bytes give them
    have hname := NameAt.label (getElem?_of_at hlabel) label.length_ne_zero label.length_and hfits
      htail
    rwa [hbytes, label.toNat_length, ← hstop] at hname

/-! ## The text of a name -/

theorem pushLabel_of_ne_empty {name : String} (h : name ≠ "") (label : Label) :
    pushLabel name label.bytes = name ++ "." ++ label.text := by
  rw [pushLabel, if_neg (fun hempty => h (String.isEmpty_iff.mp hempty)), Label.bytes,
    fromUtf8_nameBytes, Option.getD_some]

theorem foldl_pushLabel {name : String} (h : name ≠ "") (labels : List Label) :
    (labels.map Label.bytes).foldl pushLabel name =
      ".".intercalate (name :: labels.map Label.text) := by
  induction labels generalizing name with
  | nil => exact String.intercalate_singleton.symm
  | cons label labels ih =>
    have hne : name ++ "." ++ label.text ≠ "" := fun hempty =>
      label.ne_empty (String.append_eq_empty_iff.mp hempty).2
    rw [List.map_cons, List.foldl_cons, pushLabel_of_ne_empty h, ih hne, List.map_cons,
      String.intercalate_cons_append, String.intercalate_cons_cons]

theorem pushLabel_empty (label : Label) : pushLabel "" label.bytes = label.text := by
  have hempty : "".isEmpty = true := rfl
  rw [pushLabel, if_pos hempty, Label.bytes, fromUtf8_nameBytes, Option.getD_some,
    String.empty_append]

theorem nameText_cons (label : Label) (labels : List Label) :
    nameText ((label :: labels).map Label.bytes) =
      (labels.map Label.bytes).foldl pushLabel label.text := by
  rw [nameText, List.map_cons, List.foldl_cons, pushLabel_empty]

/-- The text that is collected from a name are its labels, joined by dots. -/
theorem nameText_map_bytes (labels : List Label) :
    nameText (labels.map Label.bytes) = joined labels := by
  rcases labels with _ | ⟨label, labels⟩
  · exact String.intercalate_nil.symm
  · rw [nameText_cons, foldl_pushLabel label.ne_empty]
    rfl

theorem joined_eq_empty_iff {labels : List Label} : joined labels = "" ↔ labels = [] := by
  constructor
  · rcases labels with _ | ⟨label, labels⟩
    · exact fun _ => rfl
    · intro h
      rw [← nameText_map_bytes, nameText_cons] at h
      have hsize := size_le_foldl_pushLabel (labels.map Label.bytes) label.text
      rw [h] at hsize
      exact absurd (String.utf8ByteSize_eq_zero_iff.mp (Nat.le_zero.mp hsize)) label.ne_empty
  · rintro rfl
    exact String.intercalate_nil

theorem QName.text_eq (name : QName) :
    (if (joined name.labels).isEmpty then none else some (joined name.labels)) = name.text := by
  rw [QName.text]
  refine if_congr ?_ rfl rfl
  rw [String.isEmpty_iff, joined_eq_empty_iff]

/-! ## Reading questions -/

/-- A question is read from its encoding. -/
theorem parseQuestion_of_at (hlen : payload.length < 2 ^ 63) {q : Question}
    (h : At payload offset (q.encode ++ rest)) :
    parseQuestion payload offset =
      pure ⟨q.name.text, some (queryTypeOf q.qtype), offset + q.encode.length⟩ := by
  rw [Question.encode, List.append_assoc, List.append_assoc] at h
  have hname := nameAt_of_at h
  have htype := h.skip
  have hend := htype.skip.skip.le_length
  have hempty : "".utf8ByteSize ≤ maxDnsNameLen := Nat.zero_le _
  -- the name is short enough to be read whole
  obtain ⟨parsed, hloop, hparsed, -⟩ :=
    labelsLoop_of_nameAt hname hlen hempty (Nat.lt_succ_of_le (Nat.sub_le _ offset))
  have htext := nameText_map_bytes q.name.labels
  rw [nameText] at htext
  rw [htext] at hparsed
  obtain rfl := hparsed q.name.size_le
  have hencode : q.encode.length = (encodeName q.name.labels .root).length + 4 :=
    List.length_append
  rw [length_be16Bytes, length_be16Bytes] at hend
  rw [parseQuestion, hloop, pure_bind']
  dsimp only
  rw [add_eq (by omega), pure_bind', if_pos (by omega), be16At_of_at htype, pure_bind', pure_bind',
    saturatingAdd_eq (by omega), hencode, q.name.text_eq, Nat.add_assoc]

theorem Question.length_encode_pos (q : Question) : 0 < q.encode.length := by
  rw [Question.encode, List.length_append, List.length_append, length_be16Bytes]
  omega

/-- Behind the first question, the questions are only gone over. -/
theorem questionsLoop_of_at (hlen : payload.length < 2 ^ 63) {questions : List Question}
    {rounds i : ℕ} {parsed : ParsedQuestion} (hi : i ≠ 0)
    (h : At payload parsed.offset (questions.flatMap Question.encode ++ rest))
    (hrounds : payload.length - parsed.offset < rounds) :
    questionsLoop payload (i + questions.length) rounds i parsed =
      pure { parsed with
        offset := parsed.offset + (questions.flatMap Question.encode).length } := by
  -- only the first question is kept, so that the loop moves the offset alone
  induction questions generalizing rounds i parsed with
  | nil =>
    obtain ⟨rounds, rfl⟩ := Nat.exists_eq_succ_of_ne_zero (Nat.ne_zero_of_lt hrounds)
    rw [questionsLoop, List.length_nil, Nat.add_zero, if_neg (Nat.lt_irrefl i)]
    rfl
  | cons q questions ih =>
    rw [List.flatMap_cons, List.append_assoc] at h
    have hq := q.length_encode_pos
    have hend := h.skip.le_length
    obtain ⟨rounds, rfl⟩ := Nat.exists_eq_succ_of_ne_zero (Nat.ne_zero_of_lt hrounds)
    have hcount : i + (q :: questions).length = i + 1 + questions.length := by
      rw [List.length_cons]
      omega
    rw [questionsLoop, if_pos (by rw [hcount]; omega), parseQuestion_of_at hlen h, pure_bind']
    dsimp only
    rw [if_neg hi, if_neg (Nat.not_lt.mpr hend), hcount,
      ih i.succ_ne_zero h.skip (by dsimp only; omega), List.flatMap_cons, List.length_append,
      Nat.add_assoc]

/-- The questions of a message are read from their encodings. -/
theorem parseQuestions_of_at (hlen : payload.length < 2 ^ 63) {questions : List Question}
    (hcount : questions.length < 2 ^ 16)
    (h : At payload 12 (questions.flatMap Question.encode ++ rest)) :
    parseQuestionsStartingAtHeader payload (UInt16.ofNat questions.length) =
      pure ⟨questions.head?.bind fun q => q.name.text,
        questions.head?.map fun q => queryTypeOf q.qtype,
        12 + (questions.flatMap Question.encode).length⟩ := by
  rw [parseQuestionsStartingAtHeader, UInt16.toNat_ofNat_of_lt' hcount]
  -- the first question gives the name and the type
  rcases questions with _ | ⟨q, questions⟩
  · rw [questionsLoop, List.length_nil, if_neg (Nat.lt_irrefl 0)]
    rfl
  · rw [List.flatMap_cons, List.append_assoc] at h
    have hq := q.length_encode_pos
    have hend := h.skip.le_length
    rw [questionsLoop, List.length_cons, if_pos (Nat.succ_pos _), parseQuestion_of_at hlen h,
      pure_bind']
    dsimp only
    have hnext : At payload (ParsedQuestion.mk q.name.text (some (queryTypeOf q.qtype))
        (12 + q.encode.length)).offset (questions.flatMap Question.encode ++ rest) := h.skip
    rw [if_pos rfl, if_neg (Nat.not_lt.mpr hend), Nat.add_comm questions.length, Nat.zero_add,
      questionsLoop_of_at hlen one_ne_zero hnext (by dsimp only; omega), List.flatMap_cons,
      List.length_append, Nat.add_assoc]
    rfl

/-! ## Reading answers -/

/-- The fields of an answer are read behind its name. -/
theorem recordAt_of_at (hlen : payload.length < 2 ^ 63) {a : Answer}
    (h : At payload offset (a.fields ++ (a.rdata ++ rest))) :
    recordAt payload offset =
      pure (some (a.rdata.length, offset + (a.fields ++ a.rdata).length)) := by
  have hrdata := h.skip.skip
  have hlength : a.fields.length = 10 := by
    simp only [Answer.fields, List.length_append, length_be16Bytes, BigEndian.length_bytes]
  have hend := hrdata.le_length
  rw [Answer.fields, List.append_assoc, List.append_assoc, List.append_assoc] at h
  -- the length of the data is the last of the fixed fields
  have hrdlength : At payload (offset + 8)
      (be16Bytes (UInt16.ofNat a.rdata.length) ++ (a.rdata ++ rest)) := by
    have hbytes : (BigEndian.bytes 4 a.ttl.toNat).length = 4 := BigEndian.length_bytes _ _
    have hskip := h.skip.skip.skip
    rwa [length_be16Bytes, length_be16Bytes, hbytes, Nat.add_assoc, Nat.add_assoc] at hskip
  rw [hlength] at hend
  rw [recordAt, checkedAdd_eq (by omega)]
  dsimp only
  rw [if_neg (by omega), be16At_of_at hrdlength, pure_bind', UInt16.toNat_ofNat_of_lt' a.length_lt,
    checkedAdd_eq (by omega)]
  dsimp only
  rw [if_neg (by omega), List.length_append, hlength, Nat.add_assoc]

theorem recordAddress_of_at {a : Answer} (h : At payload offset (a.rdata ++ rest)) :
    recordAddress payload a.atype a.rdata.length offset (offset + a.rdata.length) =
      pure a.address := by
  rw [recordAddress, Answer.address, h.slice]
  split_ifs
  · rfl
  · rfl
  · rfl

/-- The step of the loop over the answers. -/
theorem recordsLoop_succ_of_at (hlen : payload.length < 2 ^ 63) {a : Answer}
    (h : At payload offset (a.encode ++ rest)) (n : ℕ) (ips : List IpAddr) :
    ∃ stop, At payload stop rest ∧ recordsLoop payload (n + 1) offset ips =
      recordsLoop payload n stop
        (if ips.length < maxResponseIpsPerPacket then ips ++ a.address.toList else ips) := by
  rw [Answer.encode, List.append_assoc] at h
  -- the cursor behind the name, behind the ten bytes of fields and behind the data
  have hname := (skipDnsName_eq_some_iff hlen).mpr ⟨_, nameAt_of_at h⟩
  have hfields := h.skip
  have hlength : a.fields.length = 10 := by
    simp only [Answer.fields, List.length_append, length_be16Bytes, BigEndian.length_bytes]
  have htype := hfields
  rw [Answer.fields, List.append_assoc, List.append_assoc] at htype
  rw [List.append_assoc] at hfields
  have hrecord := recordAt_of_at hlen hfields
  have hrdata := hfields.skip
  have hrest := hrdata.skip
  rw [hlength] at hrdata hrest
  refine ⟨_, hrest, ?_⟩
  rw [recordsLoop, hname, pure_bind']
  dsimp only
  rw [hrecord, pure_bind']
  dsimp only
  rw [be16At_of_at htype, pure_bind', List.length_append, hlength, ← Nat.add_assoc,
    recordAddress_of_at hrdata, pure_bind']
  split_ifs
  · rfl
  · rfl

/-- One more address is collected unless there are sixteen already. -/
theorem take_collected {ips : List IpAddr} {address : Option IpAddr} {more : List IpAddr}
    (hips : ips.length ≤ maxResponseIpsPerPacket) :
    ((if ips.length < maxResponseIpsPerPacket then ips ++ address.toList else ips) ++
      more).take maxResponseIpsPerPacket =
        (ips ++ (address.toList ++ more)).take maxResponseIpsPerPacket := by
  split_ifs with hroom
  · rw [List.append_assoc]
  · have hfull : ips.length = maxResponseIpsPerPacket := by omega
    rw [← hfull, List.take_left, List.take_left]

/-- The first answers are read from their encodings, and their addresses are collected up to the
sixteenth. -/
theorem recordsLoop_of_at (hlen : payload.length < 2 ^ 63) {answers : List Answer} {n : ℕ}
    {ips : List IpAddr} (hn : n ≤ answers.length)
    (h : At payload offset (answers.flatMap Answer.encode ++ rest))
    (hips : ips.length ≤ maxResponseIpsPerPacket) :
    Ensures (recordsLoop payload n offset ips) fun walked =>
      walked.2 = (ips ++ (answers.take n).filterMap Answer.address).take maxResponseIpsPerPacket := by
  induction n generalizing answers offset ips with
  | zero =>
    rw [List.take_zero, List.filterMap_nil, List.append_nil, List.take_of_length_le hips]
    exact ensures_pure rfl
  | succ n ih =>
    rcases answers with _ | ⟨a, answers⟩
    · exact absurd hn (Nat.not_succ_le_zero n)
    rw [List.flatMap_cons, List.append_assoc] at h
    obtain ⟨stop, hrest, hstep⟩ := recordsLoop_succ_of_at hlen h n ips
    have hmore : ((a :: answers).take (n + 1)).filterMap Answer.address =
        a.address.toList ++ (answers.take n).filterMap Answer.address := by
      rw [List.take_succ_cons, List.filterMap_eq_flatMap_toList, List.filterMap_eq_flatMap_toList,
        List.flatMap_cons]
    -- what is collected stays within the limit
    have hcollected : (if ips.length < maxResponseIpsPerPacket then ips ++ a.address.toList
        else ips).length ≤ maxResponseIpsPerPacket := by
      split_ifs with hroom
      · rw [List.length_append]
        exact (Nat.add_le_add_left Option.length_toList_le _).trans hroom
      · exact hips
    rw [hstep, hmore, ← take_collected hips]
    exact ih (Nat.le_of_succ_le_succ hn) hrest hcollected

end Read

/-! ## Reading messages -/

/-- The header is read from the first twelve bytes, and the questions follow. -/
theorem dnsHeaderCounts_encode (m : Message) :
    dnsHeaderCounts m.encode = pure (some ⟨m.isResponse, UInt16.ofNat m.questions.length,
        UInt16.ofNat m.answers.length, m.arcount⟩) ∧
      At m.encode 12 m.body := by
  have hid : At m.encode 0 m.encode := .start _
  have hflags : At m.encode 2 _ := hid.skip
  have hquestions : At m.encode 4 _ := hflags.skip
  have hanswers : At m.encode 6 _ := hquestions.skip
  have hauthorities : At m.encode 8 _ := hanswers.skip
  have hadditional : At m.encode 10 _ := hauthorities.skip
  have hbody : At m.encode 12 m.body := hadditional.skip
  refine ⟨?_, hbody⟩
  rw [dnsHeaderCounts, if_neg (Nat.not_lt.mpr hbody.le_length), be16At_of_at hflags, pure_bind',
    be16At_of_at hquestions, pure_bind', be16At_of_at hanswers, pure_bind',
    be16At_of_at hadditional, pure_bind']
  rfl

/-- **The analysis undoes the encoding.** It finds the first question, and for a response the
addresses of the first sixty-four answers, up to the sixteenth. A message is one that can be sent:
its names are made of labels, and those of an answer end or go on at a pointer; its counts fit their
fields. Its length is one that a slice can have (`hlen`). -/
theorem analyzeDns_encode (m : Message) (hlen : m.encode.length < 2 ^ 63) :
    analyzeDns m.encode = pure (some m.info) := by
  obtain ⟨hheader, hbody⟩ := dnsHeaderCounts_encode m
  have hquestions := parseQuestions_of_at hlen m.questions_lt hbody
  have hcount : (UInt16.ofNat m.answers.length).toNat = m.answers.length :=
    UInt16.toNat_ofNat_of_lt' m.answers_lt
  have hnone : ([] : List IpAddr).length ≤ maxResponseIpsPerPacket := Nat.zero_le _
  -- the walk over the answers stops at its two bounds
  obtain ⟨walked, hwalk, hips⟩ :=
    recordsLoop_of_at hlen (Nat.min_le_left m.answers.length maxAnswersToParse) hbody.skip hnone
  have htake : m.answers.take (min m.answers.length maxAnswersToParse) = m.answers.take 64 := by
    rw [List.take_eq_take_iff, Nat.min_comm m.answers.length, Nat.min_assoc, Nat.min_self]
    rfl
  rw [htake, List.nil_append, maxResponseIpsPerPacket] at hips
  rw [analyzeDns, hheader, pure_bind']
  dsimp only
  rw [hquestions, pure_bind', hcount, walkAAaaaRecords]
  dsimp only
  rw [hwalk, Message.info]
  split_ifs
  · rw [pure_bind', hips]
  · rfl

/-! ## A response -/

/-- The name `example.com`, in two labels. -/
def exampleName : QName where
  labels := [⟨"example", by decide, by decide⟩, ⟨"com", by decide, by decide⟩]
  size_le := by decide

/-- The answer to a question for its address, with a pointer to the name of the question. -/
def exampleResponse : Message where
  id := 1
  flags := 0x8180
  questions := [⟨exampleName, 1, 1⟩]
  answers := [⟨⟨[], .pointer 12 (by decide)⟩, 1, 1, 300, [192, 0, 2, 1], by decide⟩]
  nscount := 0
  arcount := 0
  rest := []
  questions_lt := by decide
  answers_lt := by decide

theorem analyzeDns_encode_exampleResponse :
    exampleResponse.encode.length < 2 ^ 63 ∧
      analyzeDns exampleResponse.encode =
        pure (some ⟨some "example.com", some .A, [.v4 (.new 192 0 2 1)], true⟩) := by
  have hlen : exampleResponse.encode.length < 2 ^ 63 := by decide +kernel
  have hinfo : exampleResponse.info =
      ⟨some "example.com", some .A, [.v4 (.new 192 0 2 1)], true⟩ := by rfl
  rw [← hinfo]
  exact ⟨hlen, analyzeDns_encode exampleResponse hlen⟩

end Dns

end RustNet

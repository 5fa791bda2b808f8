import Mathlib.Data.Char
import Mathlib.Data.FinEnum
import RustNet.Foundations.Offsets
import RustNet.Network.Http.Heads

/-!
# SSDP messages

An SSDP message is read like the head of an HTTP message, by its lines. Its first line says what
kind of message it is. Its service type is the value of the first header named `ST` or `NT`, in any
letter case, that is not blank.

## Main definitions

* `Ssdp.analyzeSsdp`: the analysis;
* `Ssdp.Message`: a start line and headers.

## Main results

* `Ssdp.Message.analyzeSsdp_encode`: what is reported of a message.
-/

namespace RustNet

namespace Ssdp

open Http (eqIgnoreAsciiCase)

/-! ## Parsing -/

/-- `MIN_SSDP_SIZE`: shorter payloads are not read as a message. -/
def minSsdpSize : ℕ := 10

/-- The method that a first line begins with. -/
def methodOf (firstLine : List Char) : Option SsdpMethod :=
  if "M-SEARCH".toList.isPrefixOf firstLine then some .mSearch
  else if "NOTIFY".toList.isPrefixOf firstLine then some .notify
  else if "HTTP/1.1 200".toList.isPrefixOf firstLine || "HTTP/1.0 200".toList.isPrefixOf firstLine
    then some .response
  else none

/-- The value behind a name, if it is not blank. -/
def nonblank (value : List Char) : Option String :=
  if Text.trim value = [] then none else some (String.ofList (Text.trim value))

/-- The body of the loop over the headers. A line is cut behind its third byte, should a character
end there. -/
def serviceTypeOf (line : List Char) : Option String :=
  match Offsets.split Char.utf8Size 3 line with
  | none => none
  | some (front, value) =>
    if eqIgnoreAsciiCase front "st:".toList || eqIgnoreAsciiCase front "nt:".toList then
      nonblank value
    else none

/-- `analyze_ssdp`: the first twenty bytes are ASCII and all are UTF-8; the method is in the first
line, and the type of the service in the first header that has one. -/
def analyzeSsdp (payload : List UInt8) : Option SsdpInfo :=
  if payload.length < minSsdpSize then none
  else if !(payload.take 20).all (· < 0x80) then none
  else do
    let text ← fromUtf8 payload
    let lines := Text.lines text.toList
    let firstLine ← lines.head?
    let method ← methodOf firstLine
    return ⟨method, lines.tail.findSome? serviceTypeOf⟩

/-! ## Messages -/

/-- What a start line begins with. -/
inductive Start
  | mSearch | notify | ok11 | ok10

/-- The characters of a start. -/
def Start.chars : Start → List Char
  | mSearch => "M-SEARCH".toList
  | notify => "NOTIFY".toList
  | ok11 => "HTTP/1.1 200".toList
  | ok10 => "HTTP/1.0 200".toList

/-- How a start is reported. -/
def Start.method : Start → SsdpMethod
  | mSearch => .mSearch
  | notify => .notify
  | ok11 | ok10 => .response

/-- A header: a name without a colon, and a value. -/
structure Header where
  name : List Char
  value : List Char
  colon_notMem : ':' ∉ name
  name_break : '\n' ∉ name
  value_break : '\n' ∉ value

/-- A message: a start line and headers. -/
structure Message where
  start : Start
  target : List Char
  headers : List Header
  target_break : '\n' ∉ target

/-- The line of a header. -/
def Header.line (header : Header) : List Char := header.name ++ ':' :: header.value

/-- The name of a header is `name`, in upper or lower case. -/
def Header.Named (header : Header) (name : String) : Prop :=
  eqIgnoreAsciiCase header.name name.toList = true

instance (header : Header) (name : String) : Decidable (header.Named name) :=
  inferInstanceAs (Decidable (_ = true))

/-- What a header says about the service. -/
def Header.serviceType (header : Header) : Option String :=
  if header.Named "st" ∨ header.Named "nt" then nonblank header.value else none

namespace Message

/-- The lines of a message. -/
def lines (m : Message) : List (List Char) :=
  (m.start.chars ++ m.target) :: (m.headers.map Header.line ++ [[]])

/-- The bytes of a message. -/
def encode (m : Message) : List UInt8 :=
  nameBytes (String.ofList (Text.unlines (m.lines.map (· ++ ['\r']))))

/-- What a message says: its method, and the type of the service in the first header that has
one. -/
def info (m : Message) : SsdpInfo := ⟨m.start.method, m.headers.findSome? Header.serviceType⟩

end Message

/-! ## Names -/

section Names

variable {c : Char} {front name : List Char}

/-- A letter of a name in upper case is a letter, and nothing else changes. -/
theorem toLower_cases (c : Char) :
    c.toLower = c ∨ c.toNat < 128 ∧ 97 ≤ c.toLower.toNat ∧ c.toLower.toNat ≤ 122 := by
  unfold Char.toLower
  split_ifs with hupper
  · have hlow : 65 ≤ c.val.toNat := UInt32.le_iff_toNat_le.mp hupper.1
    have hhigh : c.val.toNat ≤ 90 := UInt32.le_iff_toNat_le.mp hupper.2
    have hsum : (c.val + ('a'.val - 'A'.val)).toNat = c.val.toNat + 32 := by
      rw [UInt32.toNat_add]
      exact Nat.mod_eq_of_lt (by omega : c.val.toNat + 32 < 2 ^ 32)
    refine .inr ⟨Nat.lt_of_le_of_lt hhigh (by decide), ?_, ?_⟩
    · exact Nat.le_trans (by omega) hsum.ge
    · exact Nat.le_trans hsum.le (by omega)
  · exact .inl rfl

theorem toLower_eq_colon_iff : c.toLower = ':' ↔ c = ':' := by
  rcases toLower_cases c with hsame | ⟨-, hlow, -⟩
  · rw [hsame]
  · refine iff_of_false (fun h => ?_) fun h => ?_
    · rw [h] at hlow
      exact absurd hlow (by decide)
    · rw [h] at hlow
      exact absurd hlow (by decide)

theorem utf8Size_of_toLower (h : c.toLower.toNat < 128) : c.utf8Size = 1 := by
  have hascii : c.toNat < 128 := by
    rcases toLower_cases c with hsame | ⟨hascii, -⟩
    · exact hsame ▸ h
    · exact hascii
  exact Char.utf8Size_eq_one_iff.mpr (UInt32.le_iff_toNat_le.mpr (Nat.le_of_lt_succ hascii))

/-- What a name takes up is what its letters are. -/
theorem extent_of_eqIgnoreAsciiCase {known : List Char}
    (hknown : ∀ c ∈ known, c.toLower.toNat < 128) (h : eqIgnoreAsciiCase name known = true) :
    Offsets.extent Char.utf8Size name = known.length := by
  have hmap := beq_iff_eq.mp h
  have hlength : name.length = known.length := by simpa using congrArg List.length hmap
  rw [Offsets.extent_eq_length, hlength]
  intro c hc
  apply utf8Size_of_toLower
  have hmem : c.toLower ∈ known.map Char.toLower := hmap ▸ List.mem_map_of_mem hc
  obtain ⟨d, hd, heq⟩ := List.mem_map.mp hmem
  exact heq ▸ hknown d hd

/-- A name and its colon are matched together. -/
theorem eqIgnoreAsciiCase_colon {known : List Char} :
    eqIgnoreAsciiCase (name ++ [':']) (known ++ [':']) = eqIgnoreAsciiCase name known := by
  simp [eqIgnoreAsciiCase]

/-- What is matched with a name and its colon is such a name and a colon. -/
theorem exists_of_eqIgnoreAsciiCase_colon {known : List Char} (hknown : ':' ∉ known)
    (h : eqIgnoreAsciiCase front (known ++ [':']) = true) :
    ∃ name, front = name ++ [':'] ∧ ':' ∉ name ∧ eqIgnoreAsciiCase name known = true := by
  have hmap : front.map Char.toLower = (known ++ [':']).map Char.toLower := beq_iff_eq.mp h
  rw [List.map_append, List.map_eq_append_iff] at hmap
  obtain ⟨name, colon, rfl, hname, hcolon⟩ := hmap
  obtain ⟨c, hc, hlower⟩ := List.map_eq_singleton_iff.mp hcolon
  obtain rfl := toLower_eq_colon_iff.mp hlower
  refine ⟨name, congrArg _ hc, fun hmem => hknown ?_, beq_iff_eq.mpr hname⟩
  have hmem' : (':' : Char).toLower ∈ known.map Char.toLower := hname ▸ List.mem_map_of_mem hmem
  obtain ⟨d, hd, heq⟩ := List.mem_map.mp hmem'
  exact toLower_eq_colon_iff.mp heq ▸ hd

end Names

/-! ## What is read -/

theorem methodOf_start (start : Start) (target : List Char) :
    methodOf (start.chars ++ target) = some start.method := by
  cases start <;> rfl

/-- The line of a header is cut behind its name. -/
theorem split_line {header : Header} {known : String} (hknown : known = "st" ∨ known = "nt")
    (h : header.Named known) :
    Offsets.split Char.utf8Size 3 header.line = some (header.name ++ [':'], header.value) := by
  have hletters : ∀ a b : Char, a.toLower.toNat < 128 → b.toLower.toNat < 128 →
      ∀ c ∈ [a, b], c.toLower.toNat < 128 := fun a b ha hb =>
    List.forall_mem_cons.mpr ⟨ha, List.forall_mem_singleton.mpr hb⟩
  -- the cut is behind three bytes: a known name has two, in any case, and the colon one
  have hextent : Offsets.extent Char.utf8Size header.name = 2 := by
    rcases hknown with rfl | rfl
    · exact extent_of_eqIgnoreAsciiCase (hletters 's' 't' (by decide) (by decide)) h
    · exact extent_of_eqIgnoreAsciiCase (hletters 'n' 't' (by decide) (by decide)) h
  refine (Offsets.split_eq_some_iff Char.utf8Size_pos).mpr ⟨?_, ?_⟩
  · rw [Header.line, List.append_assoc]
    rfl
  · rw [Offsets.extent_append, hextent]
    rfl

/-- What the loop takes from a header. -/
theorem serviceTypeOf_line (header : Header) :
    serviceTypeOf header.line = header.serviceType := by
  unfold Header.serviceType
  split_ifs with hnamed
  · have hsplit : Offsets.split Char.utf8Size 3 header.line =
        some (header.name ++ [':'], header.value) :=
      hnamed.elim (split_line (.inl rfl)) (split_line (.inr rfl))
    have hfront : (eqIgnoreAsciiCase (header.name ++ [':']) "st:".toList ||
        eqIgnoreAsciiCase (header.name ++ [':']) "nt:".toList) = true :=
      Bool.or_eq_true_iff.mpr
        (hnamed.imp eqIgnoreAsciiCase_colon.trans eqIgnoreAsciiCase_colon.trans)
    rw [serviceTypeOf, hsplit]
    exact if_pos hfront
  · rw [serviceTypeOf]
    cases hsplit : Offsets.split Char.utf8Size 3 header.line with
    | none => rfl
    | some parts =>
      obtain ⟨front, value⟩ := parts
      -- only the name and its colon would be matched
      refine if_neg fun hfront => hnamed ?_
      obtain ⟨hline, -⟩ := (Offsets.split_eq_some_iff Char.utf8Size_pos).mp hsplit
      have hname (known : List Char) (hknown : ':' ∉ known)
          (hfront : eqIgnoreAsciiCase front (known ++ [':']) = true) :
          eqIgnoreAsciiCase header.name known = true := by
        obtain ⟨name, rfl, hcolon, hname⟩ := exists_of_eqIgnoreAsciiCase_colon hknown hfront
        rw [List.append_assoc] at hline
        exact (Text.eq_of_separator_append header.colon_notMem hcolon hline).1 ▸ hname
      exact (Bool.or_eq_true_iff.mp hfront).imp (hname _ (by decide)) (hname _ (by decide))

/-- A character takes up one byte at least. -/
theorem length_le_nameBytes (text : List Char) :
    text.length ≤ (nameBytes (String.ofList text)).length := by
  induction text with
  | nil => exact Nat.zero_le _
  | cons c text ih =>
    have hsize : (nameBytes (String.singleton c)).length = c.utf8Size :=
      String.utf8ByteSize_singleton
    have hpos := c.utf8Size_pos
    rw [String.ofList_cons, nameBytes_append, List.length_append, List.length_cons, hsize]
    omega

namespace Message

variable (m : Message)

theorem break_notMem_lines : ∀ line ∈ m.lines, '\n' ∉ line := by
  rw [lines, List.forall_mem_cons, List.forall_mem_append, List.forall_mem_singleton,
    List.mem_append, not_or]
  refine ⟨⟨?_, m.target_break⟩, fun line hline => ?_, List.not_mem_nil⟩
  · cases m.start <;> decide
  · obtain ⟨header, -, rfl⟩ := List.mem_map.mp hline
    rw [Header.line, List.mem_append, List.mem_cons, not_or, not_or]
    exact ⟨header.name_break, by decide, header.value_break⟩

/-- The text of a message is cut into its lines. -/
theorem lines_text : Text.lines (Text.unlines (m.lines.map (· ++ ['\r']))) = m.lines := by
  have hbreak : ∀ line ∈ m.lines.map (· ++ ['\r']), '\n' ∉ line := by
    intro text htext
    obtain ⟨line, hline, rfl⟩ := List.mem_map.mp htext
    rw [List.mem_append, not_or]
    exact ⟨m.break_notMem_lines line hline, by decide⟩
  have hstrip (line : List Char) : (Text.stripReturn ∘ (· ++ ['\r'])) line = line := by
    rw [Function.comp_apply, Text.stripReturn, List.getLast?_concat, if_pos rfl,
      List.dropLast_concat]
  have hlines := Text.lines_unlines_append hbreak []
  rw [List.append_nil, List.map_map] at hlines
  rw [hlines, List.map_congr_left fun line _ => hstrip line, List.map_id']
  exact List.append_nil _

/-- The headers of a message are searched for a service type; the empty line has none. -/
theorem findSome_lines :
    m.lines.tail.findSome? serviceTypeOf = m.headers.findSome? Header.serviceType := by
  rw [lines, List.tail_cons, List.findSome?_append, List.findSome?_map]
  have hheaders : serviceTypeOf ∘ Header.line = Header.serviceType := funext serviceTypeOf_line
  rw [hheaders]
  exact Option.or_none

/-- A message is not too short: its start line and the empty line have ten characters. -/
theorem length_encode : minSsdpSize ≤ m.encode.length := by
  have hstart : 6 ≤ m.start.chars.length := by
    cases m.start <;> decide
  have hlength : 10 ≤ (Text.unlines (m.lines.map (· ++ ['\r']))).length := by
    simp only [lines, List.map_cons, List.map_append, List.map_nil, Text.unlines,
      List.flatMap_cons, List.flatMap_append, List.flatMap_nil, List.length_append,
      List.length_cons, List.length_nil]
    omega
  exact hlength.trans (length_le_nameBytes _)

/-- **What is reported of a message.** The kind that its start line has, and the first service type
that is not blank, unless one of its first twenty bytes is not ASCII. -/
theorem analyzeSsdp_encode : analyzeSsdp m.encode =
    if (m.encode.take 20).all (· < 0x80) then some m.info else none := by
  rw [analyzeSsdp, if_neg (Nat.not_lt.mpr m.length_encode)]
  cases (m.encode.take 20).all (· < 0x80) with
  | false => rfl
  | true =>
    have htext : fromUtf8 m.encode =
        some (String.ofList (Text.unlines (m.lines.map (· ++ ['\r'])))) := fromUtf8_nameBytes _
    simp only [Bool.not_true, Bool.false_eq_true, if_false, if_true, htext, String.toList_ofList,
      m.lines_text, m.findSome_lines, Option.bind_eq_bind, Option.bind_some]
    rw [lines, List.head?_cons, Option.bind_some, methodOf_start]
    rfl

end Message

end Ssdp

end RustNet

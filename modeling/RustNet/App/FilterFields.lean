import RustNet.App.Filter

/-!
# Filters on a field

A word `keyword:value` is about one field of a connection. Each field has its texts, two for
`port:` and at most one for the others, and a filter on a field matches if its value accepts one
of them.

Of the engine for texts two things are assumed here: what lower case is for ASCII, and that it
does not depend on slashes around a text.

## Main definitions

* `FilterField`, with its keywords and its texts in a connection;
* `FilterField.accepts`: whether a value accepts a text of the field.

## Main results

* `ConnectionFilter.matches_keyword_iff`: a filter on a field matches a connection if its value,
  in lower case, accepts a text of the field.
-/

namespace RustNet

open TextEngine

/-- The fields that a filter can be about. -/
inductive FilterField
  | port
  | sourcePort
  | destinationPort
  | sourceIp
  | destinationIp
  | protocol
  | process
  | service
  | sni
  | application
  | state
deriving DecidableEq

namespace FilterField

/-- The keywords of a field. -/
def keywords : FilterField → List String
  | port => ["port"]
  | sourcePort => ["sport", "srcport", "source-port"]
  | destinationPort => ["dport", "dstport", "dest-port", "destination-port"]
  | sourceIp => ["src", "source"]
  | destinationIp => ["dst", "dest", "destination"]
  | protocol => ["proto", "protocol"]
  | process => ["process", "proc"]
  | service => ["service", "svc"]
  | sni => ["sni", "host", "hostname"]
  | application => ["app", "application"]
  | state => ["state"]

/-- The three fields that are numbers. -/
def isPort : FilterField → Bool
  | port | sourcePort | destinationPort => true
  | _ => false

end FilterField

/-- The texts of a field, with the wall clock showing `wall`. -/
def NamedConnection.fieldTexts (conn : NamedConnection) (wall : SystemTime) :
    FilterField → List String
  | .port => [toString conn.localAddr.port.toNat, toString conn.remoteAddr.port.toNat]
  | .sourcePort => [toString conn.localAddr.port.toNat]
  | .destinationPort => [toString conn.remoteAddr.port.toNat]
  | .sourceIp => [conn.localAddr.ip.display]
  | .destinationIp => [conn.remoteAddr.ip.display]
  | .protocol => [conn.protocol.display]
  | .process => conn.processName.toList
  | .service => conn.serviceName.toList
  | .sni => (conn.dpiInfo.bind fun info => info.application.hostName).toList
  | .application => (conn.dpiInfo.map fun info => info.application.display).toList
  | .state => [conn.state wall]

/-- A text without whitespace, which `split_whitespace` leaves in one piece. -/
def OneWord (text : String) : Prop := ∀ c ∈ text.toList, Text.isWhitespace c = false

instance (text : String) : Decidable (OneWord text) :=
  decidable_of_iff (text.toList.all fun c => !Text.isWhitespace c) (by simp [OneWord])

/-- All characters are of ASCII. -/
def IsAscii (text : String) : Prop := ∀ c ∈ text.toList, c.toNat < 128

instance (text : String) : Decidable (IsAscii text) :=
  decidable_of_iff (text.toList.all fun c => decide (c.toNat < 128)) (by simp [IsAscii])

/-- What lower case does to ASCII, and to a text between slashes. -/
class LawfulTextEngine [TextEngine] : Prop where
  toLowercase_ascii : ∀ text : String, IsAscii text →
    (toLowercase text).toList = text.toList.map Char.toLower
  /-- A slash is no letter, and is not passed over on the way to one. -/
  toLowercase_slashes : ∀ text : String, toLowercase ("/" ++ text ++ "/") =
    "/" ++ toLowercase text ++ "/"

theorem toList_slashes (text : String) :
    ("/" ++ text ++ "/").toList = '/' :: (text.toList ++ ['/']) := by
  rw [String.toList_append, String.toList_append]
  rfl

/-- Lower case for ASCII alone is a case of it. -/
theorem LawfulTextEngine.of_ascii [TextEngine]
    (h : ∀ text : String, toLowercase text = String.ofList (text.toList.map Char.toLower)) :
    LawfulTextEngine := by
  refine ⟨fun text _ => ?_, fun text => ?_⟩
  · rw [h, String.toList_ofList]
  · apply String.toList_inj.mp
    rw [h, h, String.toList_ofList, toList_slashes, toList_slashes, String.toList_ofList,
      List.map_cons, List.map_append]
    rfl

section Fields

variable [TextEngine] {field : FilterField} {keyword value text : String} {conn : NamedConnection}
  {wall : SystemTime}

namespace FilterField

/-- The criterion of a value. -/
def criterion (value : String) : FilterField → FilterCriteria
  | port => .port (parsePortMatch value)
  | sourcePort => .sourcePort (parsePortMatch value)
  | destinationPort => .destinationPort (parsePortMatch value)
  | sourceIp => .sourceIp (parseFilterValue value)
  | destinationIp => .destinationIp (parseFilterValue value)
  | protocol => .protocol (parseFilterValue value)
  | process => .process (parseFilterValue value)
  | service => .service (parseFilterValue value)
  | sni => .sni (parseFilterValue value)
  | application => .application (parseFilterValue value)
  | state => .state (parseFilterValue value)

theorem keywordCriterion_of_mem (h : keyword ∈ field.keywords) (value : String) :
    keywordCriterion keyword value = some (field.criterion value) := by
  cases field <;> simp only [keywords, List.mem_cons, List.not_mem_nil, or_false] at h <;>
    rcases h with rfl | rfl | rfl | rfl <;> rfl

omit [TextEngine] in
/-- A keyword is of lower-case letters and dashes. -/
theorem all_of_mem_keywords (h : keyword ∈ field.keywords) :
    keyword.toList.all (fun c => c.isLower || c == '-') = true := by
  revert keyword
  cases field <;> decide +kernel

omit [TextEngine] in
theorem toLower_eq_self {c : Char} (h : c.toNat < 65 ∨ 90 < c.toNat) : c.toLower = c := by
  refine dif_neg ?_
  rintro ⟨hlow, hhigh⟩
  have hlow' : 65 ≤ c.toNat := UInt32.le_iff_toNat_le.mp hlow
  have hhigh' : c.toNat ≤ 90 := UInt32.le_iff_toNat_le.mp hhigh
  omega

omit [TextEngine] in
theorem plain_of_mem_keywords (h : keyword ∈ field.keywords) {c : Char} (hc : c ∈ keyword.toList) :
    c.toNat < 128 ∧ c.toLower = c ∧ c ≠ ':' ∧ Text.isWhitespace c = false := by
  -- the keywords are of small letters and hyphens
  have hplain := List.all_eq_true.mp (all_of_mem_keywords h) c hc
  rw [Bool.or_eq_true, beq_iff_eq] at hplain
  rcases hplain with hlower | rfl
  · -- the letters are between 97 and 122
    have hbounds : (decide (97 ≤ c.val) && decide (c.val ≤ 122)) = true := hlower
    rw [Bool.and_eq_true, decide_eq_true_iff, decide_eq_true_iff] at hbounds
    have hlow : 97 ≤ c.toNat := UInt32.le_iff_toNat_le.mp hbounds.1
    have hhigh : c.toNat ≤ 122 := UInt32.le_iff_toNat_le.mp hbounds.2
    refine ⟨by omega, toLower_eq_self (by omega), ?_, ?_⟩
    · rintro rfl
      exact absurd hlow (by decide)
    · simp only [Text.isWhitespace, Bool.or_eq_false_iff, decide_eq_false_iff_not,
        List.contains_eq_mem, List.mem_cons, List.not_mem_nil, or_false]
      omega
  · decide

theorem toLowercase_keyword [LawfulTextEngine] (h : keyword ∈ field.keywords) :
    toLowercase keyword = keyword := by
  apply String.toList_inj.mp
  rw [LawfulTextEngine.toLowercase_ascii keyword fun c hc => (plain_of_mem_keywords h hc).1]
  calc keyword.toList.map Char.toLower
      = keyword.toList.map id := List.map_congr_left fun c hc => (plain_of_mem_keywords h hc).2.1
    _ = keyword.toList := List.map_id _

/-- Whether what a value of `port:` stands for accepts the text of a port. -/
def portAccepts (text : String) : PortMatch → Bool
  | .exact n => text == toString n.toNat
  | .substring needle => Text.contains text.toList needle.toList
  | .regex re => isMatch re text

/-- Whether a value accepts a text of the field. -/
def accepts (field : FilterField) (value text : String) : Bool :=
  if field.isPort then portAccepts text (parsePortMatch value)
  else matchText text (parseFilterValue value)

theorem matchPort_eq (port : UInt16) (value : PortMatch) :
    matchPort port value = portAccepts (toString port.toNat) value := by
  cases value with
  | exact n =>
    rw [matchPort, portAccepts, Bool.eq_iff_iff, beq_iff_eq, beq_iff_eq]
    constructor
    · rintro rfl
      rfl
    -- two numbers with the same digits are the same
    · intro h
      have hdigits : Nat.toDigits 10 port.toNat = Nat.toDigits 10 n.toNat := by
        simpa [Nat.toString_eq_repr, Nat.repr, String.ofList_inj] using h
      exact UInt16.toNat_inj.mp (Text.toDigits_inj hdigits)
  | substring text => rfl
  | regex re => rfl

/-- A criterion holds if its value accepts a text of the field. -/
theorem holds_criterion_iff :
    (field.criterion value).holds conn wall = true ↔
      ∃ text ∈ conn.fieldTexts wall field, field.accepts value text = true := by
  cases field <;>
    simp [criterion, FilterCriteria.holds, NamedConnection.fieldTexts, accepts, isPort,
      matchPort_eq, Option.any_eq_true]

end FilterField

namespace ConnectionFilter

/-- A filter on a field is one word. -/
theorem parse_keyword [LawfulTextEngine] (hkeyword : keyword ∈ field.keywords)
    (hvalue : OneWord value) :
    parse (keyword ++ ":" ++ value) = ⟨[field.criterion (toLowercase value)]⟩ := by
  have hplain := fun c => FilterField.plain_of_mem_keywords hkeyword (c := c)
  have hchars : (keyword ++ ":" ++ value).toList = keyword.toList ++ ':' :: value.toList := by
    rw [String.toList_append, String.toList_append, List.append_assoc]
    rfl
  -- there is no whitespace to cut at, and the first colon is the one behind the keyword
  have hwords : queryWords (keyword ++ ":" ++ value) = [keyword ++ ":" ++ value] := by
    rw [queryWords, Text.splitWhitespace_word ⟨(keyword ++ ":" ++ value).toList, ?_, ?_⟩,
      List.map_singleton, String.ofList_toList]
    · simp [hchars]
    · intro c hc
      rw [hchars, List.mem_append, List.mem_cons] at hc
      rcases hc with hc | rfl | hc
      · exact (hplain c hc).2.2.2
      · decide
      · exact hvalue c hc
  have hcut : splitOnceColon (keyword ++ ":" ++ value) = some (keyword, value) := by
    have hne : ∀ c ∈ keyword.toList, (decide (c ≠ ':')) = true := fun c hc =>
      decide_eq_true (hplain c hc).2.2.1
    rw [splitOnceColon, hchars, if_pos (by simp), List.takeWhile_append_of_pos hne,
      List.dropWhile_append_of_pos hne]
    simp
  rw [parse_eq, hwords, List.map_singleton, parseCriterion, hcut]
  simp only [FilterField.toLowercase_keyword hkeyword,
    FilterField.keywordCriterion_of_mem hkeyword, Option.getD_some]

/-- A filter on a field matches if its value, in lower case, accepts a text of the field. -/
theorem matches_keyword_iff [LawfulTextEngine] (hkeyword : keyword ∈ field.keywords)
    (hvalue : OneWord value) :
    (parse (keyword ++ ":" ++ value)).«matches» conn wall = true ↔
      ∃ text ∈ conn.fieldTexts wall field, field.accepts (toLowercase value) text = true := by
  rw [parse_keyword hkeyword hvalue, matches_iff]
  simp only [List.mem_singleton, forall_eq]
  exact FilterField.holds_criterion_iff

end ConnectionFilter

end Fields

end RustNet

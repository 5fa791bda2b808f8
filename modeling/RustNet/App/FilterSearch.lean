import Mathlib.Data.String.Basic
import RustNet.App.FilterFields
import RustNet.Network.Types.Display

/-!
# A search in all fields

A word without a keyword is searched for in the texts of a connection. Most fields are among them,
or are part of one: an address has the port behind it. The state is not, and a port with zeros in
front is a number to `port:` and a text to the search.

## Main definitions

* `IsLiteral`: a text that is no regular expression;
* `Uncovered`: a field that the search does not cover has the text;
* `Occurs`: one of the texts of the search has it.

## Main results

* `occurs_of_accepts`: every field but the state is covered, up to zeros in front of a number;
* `anyField_iff`: a search finds what a filter on a field does, exactly if what it does not cover
  occurs elsewhere too.
-/

namespace RustNet

open TextEngine

/-! ## Parts of a text -/

theorem Text.contains_iff {haystack needle : List Char} :
    Text.contains haystack needle = true ↔ needle <:+: haystack := by
  rw [Text.contains, List.any_eq_true, List.infix_iff_prefix_suffix]
  simp only [List.mem_tails, List.isPrefixOf_iff_prefix]
  exact exists_congr fun tail => and_comm

/-! ## The texts of addresses -/

theorem isAscii_toString (n : ℕ) : IsAscii (toString n) := Text.only_toString (by decide) n

/-- The text of a socket address is that of the address, with the port behind it. -/
theorem SocketAddr.exists_display_eq (addr : SocketAddr) :
    ∃ before sep : String,
      addr.display = before ++ addr.ip.display ++ sep ++ toString addr.port.toNat := by
  obtain ⟨ip, port⟩ := addr
  cases ip with
  | v4 ip => exact ⟨"", ":", rfl⟩
  | v6 ip => exact ⟨"[", "]:", rfl⟩

/-! ## Texts with a needle -/

section Search

variable [TextEngine] {conn : NamedConnection} {wall : SystemTime} {field : FilterField}
  {addr : SocketAddr} {text needle name : String}

/-- No regular expression that the engine accepts. -/
def IsLiteral (text : String) : Prop :=
  ∀ pattern ∈ slashed (toLowercase text),
    compile pattern = none ∧ compile ("(?i)" ++ pattern) = none

/-- The text in lower case has the needle. -/
def Has (text needle : String) : Prop :=
  Text.contains (toLowercase text).toList needle.toList = true

/-- One of the texts of the search has the needle. -/
def Occurs (conn : NamedConnection) (needle : String) : Prop := ∃ text ∈ conn.texts, Has text needle

/-- The needle is a number with zeros in front, and the port. -/
def Padded (port : UInt16) (needle : String) : Prop :=
  needle.toList.all Char.isDigit = true ∧
    Text.fromStrRadix 10 16 needle.toList = some port.toNat ∧ needle ≠ toString port.toNat

/-- The state has the needle, or it is a port with zeros in front. -/
def Uncovered (conn : NamedConnection) (wall : SystemTime) (needle : String) : Prop :=
  Has (conn.state wall) needle ∨ Padded conn.localAddr.port needle ∨
    Padded conn.remoteAddr.port needle

theorem parseFilterValue_of_isLiteral (h : IsLiteral text) :
    parseFilterValue (toLowercase text) = .literal (toLowercase text) := by
  rw [parseFilterValue]
  cases hslashed : slashed (toLowercase text) with
  | none => rfl
  | some pattern =>
    simp only [(h pattern hslashed).2]

omit [TextEngine] in
theorem fromStrRadix_lt {radix bits n : ℕ} {s : List Char}
    (h : Text.fromStrRadix radix bits s = some n) : n < 2 ^ bits := by
  unfold Text.fromStrRadix at h
  dsimp only at h
  split_ifs at h
  · exact of_decide_eq_true (Option.filter_eq_some_iff.mp h).2
  · exact of_decide_eq_true (Option.filter_eq_some_iff.mp h).2

/-- A port that a literal accepts has it in its text, unless that has zeros in front. -/
theorem contains_of_portAccepts (h : IsLiteral text) {port : UInt16}
    (haccepts : FilterField.portAccepts (toString port.toNat) (parsePortMatch (toLowercase text)) =
      true) :
    Text.contains (toString port.toNat).toList (toLowercase text).toList = true ∨
      Padded port (toLowercase text) := by
  rw [parsePortMatch] at haccepts
  cases hslashed : slashed (toLowercase text) with
  | some pattern =>
    -- a pattern that is not accepted is a text with slashes
    rw [hslashed] at haccepts
    simp only [(h pattern hslashed).1] at haccepts
    exact Or.inl haccepts
  | none =>
    rw [hslashed] at haccepts
    dsimp only at haccepts
    split_ifs at haccepts with hdigits
    · cases hn : Text.fromStrRadix 10 16 (toLowercase text).toList with
      | none =>
        -- a number that is no port is a text
        rw [hn] at haccepts
        exact Or.inl haccepts
      | some n =>
        -- the numbers are equal, so that the texts differ in zeros in front at most
        rw [hn] at haccepts
        have heq : toString port.toNat = toString (UInt16.ofNat n).toNat := beq_iff_eq.mp haccepts
        have hport : port.toNat = n := by
          rw [UInt16.toNat_ofNat_of_lt' (fromStrRadix_lt hn), Nat.toString_eq_repr,
            Nat.toString_eq_repr] at heq
          refine Text.toDigits_inj ?_
          rw [← Nat.toList_repr, heq, Nat.toList_repr]
        by_cases hself : toLowercase text = toString port.toNat
        · rw [hself]
          exact Or.inl (Text.contains_iff.mpr List.infix_rfl)
        · exact Or.inr ⟨hdigits, hport ▸ hn, hself⟩
    · exact Or.inl haccepts

/-- A port with zeros in front is accepted. -/
theorem portAccepts_of_padded {port : UInt16} (h : Padded port needle) :
    FilterField.portAccepts (toString port.toNat) (parsePortMatch needle) = true := by
  obtain ⟨hdigits, hport, -⟩ := h
  -- it does not start with a slash
  have hslashed : slashed needle = none := by
    rw [slashed, if_neg]
    rintro ⟨hhead, -⟩
    have := List.all_eq_true.mp hdigits '/' (List.mem_of_head? hhead)
    exact absurd this (by decide)
  rw [parsePortMatch, hslashed]
  simp only [if_pos hdigits, hport, FilterField.portAccepts, UInt16.ofNat_toNat, beq_self_eq_true]

/-! ## What the search covers -/

section Covered

variable [LawfulTextEngine]

/-- Lower case keeps the parts of an ASCII text. -/
theorem Has.of_infix {part : String} (hascii : IsAscii text) (hpart : part.toList <:+: text.toList)
    (h : Has part needle) : Has text needle := by
  have hascii' : IsAscii part := fun c hc => hascii c (hpart.subset hc)
  rw [Has, Text.contains_iff] at h ⊢
  rw [LawfulTextEngine.toLowercase_ascii part hascii'] at h
  rw [LawfulTextEngine.toLowercase_ascii text hascii]
  exact h.trans (hpart.map Char.toLower)

omit [TextEngine] [LawfulTextEngine] in
theorem isAscii_display (addr : SocketAddr) : IsAscii addr.display :=
  addr.only_display (by decide) (by decide) (by decide) (by decide) (by decide)

/-- The text of an address is part of that with its port. -/
theorem has_display_of_ip (h : Has addr.ip.display needle) : Has addr.display needle := by
  apply h.of_infix (isAscii_display addr)
  obtain ⟨before, sep, hdisplay⟩ := addr.exists_display_eq
  exact ⟨before.toList, sep.toList ++ (toString addr.port.toNat).toList, by
    rw [hdisplay]
    simp only [String.toList_append, List.append_assoc]⟩

/-- So is the text of the port. -/
theorem has_display_of_port
    (h : Text.contains (toString addr.port.toNat).toList needle.toList = true) :
    Has addr.display needle := by
  -- digits have no case, so that the lowered text is the text
  have hdigits : (toString addr.port.toNat).toList.map Char.toLower =
      (toString addr.port.toNat).toList := by
    calc _ = (toString addr.port.toNat).toList.map id := List.map_congr_left fun c hc => by
          rw [Text.toList_toString] at hc
          have hdigit := Nat.isDigit_of_mem_toDigits (by decide) (by decide) hc
          rw [Char.isDigit, Bool.and_eq_true, decide_eq_true_iff, decide_eq_true_iff] at hdigit
          have hhigh : c.toNat ≤ 57 := UInt32.le_iff_toNat_le.mp hdigit.2
          exact FilterField.toLower_eq_self (by omega)
      _ = _ := List.map_id _
  -- the port ends the address as it is displayed
  have hport : Has (toString addr.port.toNat) needle := by
    rw [Has, LawfulTextEngine.toLowercase_ascii _ (isAscii_toString _), hdigits]
    exact h
  apply hport.of_infix (isAscii_display addr)
  obtain ⟨before, sep, hdisplay⟩ := addr.exists_display_eq
  rw [hdisplay, String.toList_append]
  exact (List.suffix_append _ _).isInfix

omit [LawfulTextEngine] in
/-- The name that `sni:` looks at is one of the texts. -/
theorem mem_texts_of_hostName {application : ApplicationProtocol}
    (h : application.hostName = some name) : name ∈ application.texts := by
  cases application with
  | https info =>
    obtain ⟨tls, htls, hsni⟩ := Option.bind_eq_some_iff.mp h
    simp [ApplicationProtocol.texts, htls, TlsInfo.texts, hsni]
  | quic info =>
    obtain ⟨tls, htls, hsni⟩ := Option.bind_eq_some_iff.mp h
    simp [ApplicationProtocol.texts, htls, TlsInfo.texts, hsni]
  | http info =>
    have hhost : info.host = some name := h
    simp [ApplicationProtocol.texts, hhost]
  | _ => cases h

/-- A port that a literal accepts occurs in the text of its address, or has zeros in front. -/
theorem occurs_of_portAccepts (hliteral : IsLiteral needle) (haddr : addr.display ∈ conn.texts)
    (haccepts : FilterField.portAccepts (toString addr.port.toNat)
      (parsePortMatch (toLowercase needle)) = true) :
    Occurs conn (toLowercase needle) ∨ Padded addr.port (toLowercase needle) :=
  (contains_of_portAccepts hliteral haccepts).imp_left fun hcontains =>
    ⟨addr.display, haddr, has_display_of_port hcontains⟩

omit [LawfulTextEngine] in
theorem accepts_iff_has (hliteral : IsLiteral needle) (hport : field.isPort = false) :
    field.accepts (toLowercase needle) text = true ↔ Has text (toLowercase needle) := by
  rw [FilterField.accepts, hport, parseFilterValue_of_isLiteral hliteral]
  rfl

omit [LawfulTextEngine] in
theorem localAddr_mem_texts (conn : NamedConnection) : conn.localAddr.display ∈ conn.texts := by
  simp [NamedConnection.texts]

omit [LawfulTextEngine] in
theorem remoteAddr_mem_texts (conn : NamedConnection) : conn.remoteAddr.display ∈ conn.texts := by
  simp [NamedConnection.texts]

/-- What a literal finds in a field occurs in a text of the search, or is not covered. -/
theorem occurs_of_accepts (hliteral : IsLiteral needle)
    (hmem : text ∈ conn.fieldTexts wall field)
    (haccepts : field.accepts (toLowercase needle) text = true) :
    Occurs conn (toLowercase needle) ∨ Uncovered conn wall (toLowercase needle) := by
  cases field with
  -- the texts of ports and addresses are part of one that the search looks at
  | port =>
    simp only [NamedConnection.fieldTexts, List.mem_cons, List.not_mem_nil, or_false] at hmem
    rcases hmem with rfl | rfl
    · exact (occurs_of_portAccepts hliteral (localAddr_mem_texts conn) haccepts).imp_right
        fun h => Or.inr (Or.inl h)
    · exact (occurs_of_portAccepts hliteral (remoteAddr_mem_texts conn) haccepts).imp_right
        fun h => Or.inr (Or.inr h)
  | sourcePort =>
    rw [List.mem_singleton.mp hmem] at haccepts
    exact (occurs_of_portAccepts hliteral (localAddr_mem_texts conn) haccepts).imp_right
      fun h => Or.inr (Or.inl h)
  | destinationPort =>
    rw [List.mem_singleton.mp hmem] at haccepts
    exact (occurs_of_portAccepts hliteral (remoteAddr_mem_texts conn) haccepts).imp_right
      fun h => Or.inr (Or.inr h)
  | sourceIp =>
    rw [List.mem_singleton.mp hmem] at haccepts
    exact Or.inl ⟨_, localAddr_mem_texts conn,
      has_display_of_ip ((accepts_iff_has hliteral rfl).mp haccepts)⟩
  | destinationIp =>
    rw [List.mem_singleton.mp hmem] at haccepts
    exact Or.inl ⟨_, remoteAddr_mem_texts conn,
      has_display_of_ip ((accepts_iff_has hliteral rfl).mp haccepts)⟩
  -- the search looks at these as they are
  | protocol =>
    rw [List.mem_singleton.mp hmem] at haccepts
    exact Or.inl ⟨_, by simp [NamedConnection.texts], (accepts_iff_has hliteral rfl).mp haccepts⟩
  | process =>
    have hname : conn.processName = some text := Option.mem_toList.mp hmem
    exact Or.inl ⟨text, by simp [NamedConnection.texts, hname],
      (accepts_iff_has hliteral rfl).mp haccepts⟩
  | service =>
    have hname : conn.serviceName = some text := Option.mem_toList.mp hmem
    exact Or.inl ⟨text, by simp [NamedConnection.texts, hname],
      (accepts_iff_has hliteral rfl).mp haccepts⟩
  | sni =>
    obtain ⟨info, hinfo, hname⟩ := Option.bind_eq_some_iff.mp (Option.mem_toList.mp hmem)
    have htext : text ∈ conn.texts := by
      simp [NamedConnection.texts, hinfo, mem_texts_of_hostName hname]
    exact Or.inl ⟨text, htext, (accepts_iff_has hliteral rfl).mp haccepts⟩
  | application =>
    obtain ⟨info, hinfo, rfl⟩ := Option.map_eq_some_iff.mp (Option.mem_toList.mp hmem)
    exact Or.inl ⟨_, by simp [NamedConnection.texts, hinfo],
      (accepts_iff_has hliteral rfl).mp haccepts⟩
  -- and not at this one
  | state =>
    rw [List.mem_singleton.mp hmem] at haccepts
    exact Or.inr (Or.inl ((accepts_iff_has hliteral rfl).mp haccepts))

/-! ## Filters and searches -/

/-- A word without a keyword is searched for. -/
theorem matches_search_iff (hword : OneWord needle) (hcolon : ':' ∉ needle.toList)
    (hliteral : IsLiteral needle) :
    (ConnectionFilter.parse needle).«matches» conn wall = true ↔
      Occurs conn (toLowercase needle) := by
  rw [ConnectionFilter.matches_parse_iff]
  rcases eq_or_ne needle "" with rfl | hne
  · -- nothing is searched for, and it is found everywhere
    have hlower : (toLowercase "").toList = [] := by
      rw [LawfulTextEngine.toLowercase_ascii "" (by decide)]
      rfl
    refine iff_of_true (fun word hmem => ?_) ⟨_, localAddr_mem_texts conn, ?_⟩
    · cases hmem
    · rw [Has, hlower, Text.contains_iff]
      exact List.nil_infix
  -- the query is a single word without a field's name
  · have hwords : queryWords needle = [needle] := by
      rw [queryWords, Text.splitWhitespace_word
        ⟨needle.toList, fun h => hne (String.toList_eq_nil_iff.mp h), hword⟩, List.map_singleton,
        String.ofList_toList]
    rw [hwords]
    simp only [List.mem_singleton, forall_eq, parseCriterion, splitOnceColon, if_neg hcolon,
      parseFilterValue_of_isLiteral hliteral, FilterCriteria.holds, List.any_eq_true]
    rfl

/-- A field of the connection matches the text. -/
def AnyField (conn : NamedConnection) (wall : SystemTime) (needle : String) : Prop :=
  ∃ field : FilterField, ∃ keyword ∈ field.keywords,
    (ConnectionFilter.parse (keyword ++ ":" ++ needle)).«matches» conn wall = true

/-- **A search finds what a filter on a field does, exactly if what it does not cover occurs
elsewhere too.** A search looks at no state of a connection, and for a port only as it is printed.

The needle is one word (`hword`) without a colon (`hcolon`), so that it is searched for and not
parsed as a filter on a field, and is not a regular expression between slashes (`hliteral`). -/
theorem anyField_iff (conn : NamedConnection) (wall : SystemTime) (needle : String)
    (hword : OneWord needle) (hcolon : ':' ∉ needle.toList) (hliteral : IsLiteral needle) :
    (AnyField conn wall needle →
        (ConnectionFilter.parse needle).«matches» conn wall = true) ↔
      (Uncovered conn wall (toLowercase needle) → Occurs conn (toLowercase needle)) := by
  rw [matches_search_iff hword hcolon hliteral]
  constructor
  · intro h huncovered
    have hfield : ∀ (field : FilterField) (keyword : String) {text : String},
        keyword ∈ field.keywords → text ∈ conn.fieldTexts wall field →
        field.accepts (toLowercase needle) text = true → Occurs conn (toLowercase needle) :=
      fun field keyword _ hkeyword hmem haccepts =>
        h ⟨field, keyword, hkeyword, (ConnectionFilter.matches_keyword_iff hkeyword hword).mpr
          ⟨_, hmem, haccepts⟩⟩
    -- each of the three is found by a filter on its field
    rcases huncovered with hstate | hlocal | hremote
    · exact hfield .state "state" (by decide) (List.mem_singleton.mpr rfl)
        ((accepts_iff_has hliteral rfl).mpr hstate)
    · exact hfield .sourcePort "sport" (by decide) (List.mem_singleton.mpr rfl)
        (portAccepts_of_padded hlocal)
    · exact hfield .destinationPort "dport" (by decide) (List.mem_singleton.mpr rfl)
        (portAccepts_of_padded hremote)
  · rintro h ⟨field, keyword, hkeyword, hmatches⟩
    obtain ⟨text, hmem, haccepts⟩ :=
      (ConnectionFilter.matches_keyword_iff hkeyword hword).mp hmatches
    rcases occurs_of_accepts hliteral hmem haccepts with hoccurs | huncovered
    · exact hoccurs
    · exact h huncovered

end Covered

end Search

theorem lawful_plain : letI : TextEngine := .plain; LawfulTextEngine :=
  @LawfulTextEngine.of_ascii .plain fun _ => rfl

theorem anyField_iff_https :
    letI : TextEngine := .plain
    (AnyField sampleNamedConnection ⟨0⟩ "https" →
        (ConnectionFilter.parse "https").«matches» sampleNamedConnection ⟨0⟩ = true) ↔
      (Uncovered sampleNamedConnection ⟨0⟩ (toLowercase "https") →
        Occurs sampleNamedConnection (toLowercase "https")) := by
  let _ : TextEngine := .plain
  have : LawfulTextEngine := lawful_plain
  exact anyField_iff sampleNamedConnection ⟨0⟩ "https" (by decide +kernel) (by decide +kernel)
    fun _ _ => ⟨rfl, rfl⟩

/-- The state of an established connection is not found by a search for it. -/
theorem not_anyField :
    letI : TextEngine := .plain
    ¬ (AnyField sampleNamedConnection ⟨0⟩ "established" →
      (ConnectionFilter.parse "established").«matches» sampleNamedConnection ⟨0⟩ = true) := by
  let _ : TextEngine := .plain
  intro h
  have hmatches := h ⟨.state, "state", by decide, by decide +kernel⟩
  exact absurd hmatches (by decide +kernel)

end RustNet

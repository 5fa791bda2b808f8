import RustNet.App.FilterFields

/-!
# Regular expressions in a filter

`field:/p/` is to match where `p` does, with letters taken for the same in upper and lower case.
The whole query is cut at whitespace, and the value is put into lower case before the pattern is
compiled: what is matched is another pattern, where the case of a letter in `p` is more than that
of a letter in the text. `\D`, what is no digit, becomes `\d`.

## Main definitions

* `FiltersBy`: a filter on a field matches where a regular expression matches a text of the field;
* `loweredAccepts`: what the pattern in lower case accepts;
* `KeepsMeaning`: it accepts the texts of the field that the pattern does.

## Main results

* `filtersBy_iff`: a filter matches where its pattern does if the pattern is one word that keeps
  its meaning in lower case, and of one word only then.
-/

namespace RustNet

open TextEngine

section Regex

variable [TextEngine]

/-- The filter `keyword:/pattern/` matches the connections with a text of the field that the pattern
matches, if the engine accepts it. -/
def FiltersBy (field : FilterField) (keyword pattern : String) : Prop :=
  ∀ re ∈ compile ("(?i)" ++ pattern), ∀ (conn : NamedConnection) (wall : SystemTime),
    (ConnectionFilter.parse (keyword ++ ":/" ++ pattern ++ "/")).«matches» conn wall = true ↔
      ∃ text ∈ conn.fieldTexts wall field, isMatch re text = true

/-- What stands in front of a pattern. The text of a port has no letters. -/
def FilterField.flags (field : FilterField) : String := if field.isPort then "" else "(?i)"

/-- Whether the pattern in lower case accepts a text of the field: as it is compiled for the
field, or, where it is empty or is not accepted by the engine, as the text with the slashes. -/
def loweredAccepts (field : FilterField) (pattern text : String) : Bool :=
  let lowered := toLowercase pattern
  match if lowered = "" then none else compile (field.flags ++ lowered) with
  | some re => isMatch re text
  | none =>
    Text.contains (if field.isPort then text else toLowercase text).toList
      ("/" ++ lowered ++ "/").toList

/-- In lower case the pattern accepts the texts of the field that it matches as it is. -/
def KeepsMeaning (field : FilterField) (pattern : String) : Prop :=
  ∀ re ∈ compile ("(?i)" ++ pattern), ∀ (conn : NamedConnection) (wall : SystemTime),
    ∀ text ∈ conn.fieldTexts wall field, loweredAccepts field pattern text = isMatch re text

/-! ## A value between slashes -/

variable {field : FilterField} {keyword pattern text : String} {re : Regex}

omit [TextEngine] in
theorem slashed_slashes (pattern : String) :
    slashed ("/" ++ pattern ++ "/") = if pattern = "" then none else some pattern := by
  have hsize : ("/" ++ pattern ++ "/").utf8ByteSize = 1 + pattern.utf8ByteSize + 1 := by
    rw [String.utf8ByteSize_append, String.utf8ByteSize_append]
    rfl
  rw [slashed, toList_slashes, hsize]
  by_cases hempty : pattern = ""
  · subst hempty
    rfl
  · have hlast : ('/' :: (pattern.toList ++ ['/'])).getLast? = some '/' := by
      rw [← List.cons_append, List.getLast?_concat]
    have hpos : 0 < pattern.utf8ByteSize :=
      Nat.pos_of_ne_zero fun h => hempty (String.utf8ByteSize_eq_zero_iff.mp h)
    rw [if_neg hempty, if_pos ⟨rfl, hlast, by omega⟩, List.tail_cons, List.dropLast_concat,
      String.ofList_toList]

theorem parsePortMatch_slashes (pattern : String) :
    parsePortMatch ("/" ++ pattern ++ "/") =
      match if pattern = "" then none else compile pattern with
      | some re => .regex re
      | none => .substring ("/" ++ pattern ++ "/") := by
  rw [parsePortMatch, slashed_slashes]
  by_cases hempty : pattern = ""
  · subst hempty
    rfl
  · cases hcompiled : compile pattern with
    | none => simp [hempty, hcompiled]
    | some re => simp [hempty, hcompiled]

theorem parseFilterValue_slashes (pattern : String) :
    parseFilterValue ("/" ++ pattern ++ "/") =
      match if pattern = "" then none else compile ("(?i)" ++ pattern) with
      | some re => .regex re
      | none => .literal ("/" ++ pattern ++ "/") := by
  rw [parseFilterValue, slashed_slashes]
  by_cases hempty : pattern = ""
  · subst hempty
    rfl
  · cases hcompiled : compile ("(?i)" ++ pattern) with
    | none => simp [hempty, hcompiled]
    | some re => simp [hempty, hcompiled]

/-- A value between slashes accepts what the pattern between them does. -/
theorem accepts_slashes (field : FilterField) (pattern text : String) :
    field.accepts ("/" ++ toLowercase pattern ++ "/") text = loweredAccepts field pattern text := by
  simp only [FilterField.accepts, loweredAccepts, FilterField.flags, parsePortMatch_slashes,
    parseFilterValue_slashes]
  cases field.isPort with
  | true =>
    simp only [if_true, String.empty_append]
    generalize (if toLowercase pattern = "" then none else compile (toLowercase pattern)) = compiled
    cases compiled <;> rfl
  | false =>
    simp only [Bool.false_eq_true, if_false]
    generalize (if toLowercase pattern = "" then none
      else compile ("(?i)" ++ toLowercase pattern)) = compiled
    cases compiled <;> rfl

/-! ## When a filter matches where its pattern does -/

variable [LawfulTextEngine]

/-- A filter with a pattern of one word matches where the pattern in lower case accepts a text. -/
theorem matches_regex_iff (hkeyword : keyword ∈ field.keywords) (hword : OneWord pattern)
    (conn : NamedConnection) (wall : SystemTime) :
    (ConnectionFilter.parse (keyword ++ ":/" ++ pattern ++ "/")).«matches» conn wall = true ↔
      ∃ text ∈ conn.fieldTexts wall field, loweredAccepts field pattern text = true := by
  have hquery : keyword ++ ":/" ++ pattern ++ "/" = keyword ++ ":" ++ ("/" ++ pattern ++ "/") := by
    simp only [String.append_assoc]
    rfl
  -- the slashes are no whitespace either
  have hvalue : OneWord ("/" ++ pattern ++ "/") := by
    intro c hc
    rw [toList_slashes, List.mem_cons, List.mem_append, List.mem_singleton] at hc
    rcases hc with rfl | hc | rfl
    · decide
    · exact hword c hc
    · decide
  rw [hquery, ConnectionFilter.matches_keyword_iff hkeyword hvalue,
    LawfulTextEngine.toLowercase_slashes]
  simp only [accepts_slashes]

omit [TextEngine] [LawfulTextEngine] in
/-- Every text of a field is the only one, in some connection. -/
theorem exists_fieldTexts_iff {conn : NamedConnection} {wall : SystemTime}
    (htext : text ∈ conn.fieldTexts wall field) :
    ∃ conn' : NamedConnection, ∀ p : String → Prop,
      (∃ text' ∈ conn'.fieldTexts wall field, p text') ↔ p text := by
  cases field with
  | port =>
    -- the two ports are the same
    simp only [NamedConnection.fieldTexts, List.mem_cons, List.not_mem_nil, or_false] at htext
    rcases htext with rfl | rfl
    · exact ⟨{ conn with remoteAddr := conn.localAddr }, by simp [NamedConnection.fieldTexts]⟩
    · exact ⟨{ conn with localAddr := conn.remoteAddr }, by simp [NamedConnection.fieldTexts]⟩
  | application =>
    obtain ⟨info, hinfo, rfl⟩ :
        ∃ info, conn.dpiInfo = some info ∧ info.application.display = text := by
      simpa [NamedConnection.fieldTexts] using htext
    exact ⟨conn, by simp [NamedConnection.fieldTexts, hinfo]⟩
  | _ => exact ⟨conn, by simp_all [NamedConnection.fieldTexts]⟩

/-- **A filter matches where its pattern does if the pattern is one word that keeps its meaning in
lower case, and of one word only then.** The query is lowered before it is parsed and split at
blanks, so a pattern with a blank in it never reaches the engine whole. `hkeyword` says that the
keyword is one of the field. -/
theorem filtersBy_iff (field : FilterField) (keyword pattern : String)
    (hkeyword : keyword ∈ field.keywords) :
    (OneWord pattern ∧ KeepsMeaning field pattern → FiltersBy field keyword pattern) ∧
      (OneWord pattern → FiltersBy field keyword pattern → KeepsMeaning field pattern) := by
  constructor
  · rintro ⟨hword, hmeaning⟩ re hre conn wall
    rw [matches_regex_iff hkeyword hword]
    refine exists_congr fun text => and_congr_right fun htext => ?_
    rw [hmeaning re hre conn wall text htext]
  · -- a connection with that text alone tells what the filter makes of it
    intro hword hfilters re hre conn wall text htext
    obtain ⟨conn', honly⟩ := exists_fieldTexts_iff htext
    have hiff := hfilters re hre conn' wall
    rw [matches_regex_iff hkeyword hword, honly, honly] at hiff
    exact Bool.eq_iff_iff.mpr hiff

end Regex

/-! ## An engine with two patterns -/

/-- Lower case for ASCII, and the patterns for a digit and for what is none. -/
@[reducible]
def TextEngine.digits : TextEngine where
  toLowercase text := String.ofList (text.toList.map Char.toLower)
  Regex := Bool
  compile pattern :=
    if pattern = "(?i)\\d" ∨ pattern = "\\d" then some true
    else if pattern = "(?i)\\D" ∨ pattern = "\\D" then some false
    else none
  isMatch digit text := text.toList.any fun c => c.isDigit == digit

theorem lawful_digits : letI : TextEngine := .digits; LawfulTextEngine :=
  @LawfulTextEngine.of_ascii .digits fun _ => rfl

theorem filtersBy_iff_digit :
    letI : TextEngine := .digits
    (OneWord "\\d" ∧ KeepsMeaning .process "\\d" → FiltersBy .process "process" "\\d") ∧
      (OneWord "\\d" → FiltersBy .process "process" "\\d" → KeepsMeaning .process "\\d") := by
  let _ : TextEngine := .digits
  have : LawfulTextEngine := lawful_digits
  exact filtersBy_iff .process "process" "\\d" (by decide)

/-- A process with no digit in its name is not found by the pattern for what is none. -/
theorem not_filtersBy :
    letI : TextEngine := .digits
    ¬ FiltersBy .process "process" "\\D" := by
  let _ : TextEngine := .digits
  intro h
  have hmatches := (h false rfl
    { sampleNamedConnection with processName := some "ssh" } ⟨0⟩).mpr (by decide +kernel)
  exact absurd hmatches (by decide +kernel)

end RustNet

import Mathlib.Data.Char
import Mathlib.Data.FinEnum
import RustNet.Foundations.Search
import RustNet.Network.Ftp.Analysis
import RustNet.Network.Http.Analysis

/-!
# HTTP heads

The head of a message is a request line or a status line, field lines, and an empty line. Their
parts carry the proofs that they are made of the characters that the grammar allows. A method is one
of those that are known to the analysis.

## Main definitions

* `Http.RequestLine`, `Http.StatusLine`, `Http.Field`, `Http.Head`: heads;
* `Http.Head.info`: what a head says;
* `Http.Head.Plain`: the heads that are read as they are.

## Main results

* `Http.parseHeaders_fields`: the last values of the two names are kept;
* `Http.Head.analyzeHttp_eq`: what is reported of a head;
* `Http.Head.analyzeHttp_encode_iff`: the heads that are reported as they are.
-/

namespace RustNet

namespace Http

/-! ## Characters -/

/-- A visible character of ASCII, which is what the tokens and the targets of a message's head are
made of. -/
def IsVchar (b : UInt8) : Prop := 0x21 ≤ b ∧ b ≤ 0x7E

/-- A blank or a tab. -/
def IsBlank (b : UInt8) : Prop := b = 0x20 ∨ b = 0x09

/-- A visible character, or a byte that is not in ASCII. -/
def IsFieldVchar (b : UInt8) : Prop := IsVchar b ∨ 0x80 ≤ b

/-- The characters of a token other than letters and digits. -/
def tokenSymbols : List UInt8 :=
  [0x21, 0x23, 0x24, 0x25, 0x26, 0x27, 0x2A, 0x2B, 0x2D, 0x2E, 0x5E, 0x5F, 0x60, 0x7C, 0x7E]

/-- A character of a token. -/
def IsTchar (b : UInt8) : Prop :=
  isAsciiAlphabetic b = true ∨ isAsciiDigit b = true ∨ b ∈ tokenSymbols

/-- What a line is made of. -/
def IsText (b : UInt8) : Prop := IsBlank b ∨ IsFieldVchar b

instance : DecidablePred IsVchar := fun b => inferInstanceAs (Decidable (0x21 ≤ b ∧ b ≤ 0x7E))

instance : DecidablePred IsBlank := fun b => inferInstanceAs (Decidable (b = 0x20 ∨ b = 0x09))

instance : DecidablePred IsFieldVchar := fun b =>
  inferInstanceAs (Decidable (IsVchar b ∨ 0x80 ≤ b))

instance : DecidablePred IsTchar := fun b =>
  inferInstanceAs
    (Decidable (isAsciiAlphabetic b = true ∨ isAsciiDigit b = true ∨ b ∈ tokenSymbols))

instance : DecidablePred IsText := fun b => inferInstanceAs (Decidable (IsBlank b ∨ IsFieldVchar b))

/-! ## Heads -/

/-- The versions of a head. -/
inductive Version
  | http10 | http11

namespace Version

/-- The name of a version. -/
def name : Version → String
  | http10 => "HTTP/1.0"
  | http11 => "HTTP/1.1"

/-- How a version is reported. -/
def reported : Version → HttpVersion
  | http10 => .http10
  | http11 => .http11

end Version

/-- A request line, of a method that is known. -/
structure RequestLine where
  method : String
  target : List UInt8
  version : Version
  method_mem : method ∈ httpMethods
  target_ne_nil : target ≠ []
  target_vchar : ∀ b ∈ target, IsVchar b

/-- A status line. The reason phrase may be empty. -/
structure StatusLine where
  version : Version
  code : ℕ
  reason : List UInt8
  code_lt : code < 1000
  reason_text : ∀ b ∈ reason, IsText b

/-- A field line: a name, and a value with blanks around it. -/
structure Field where
  name : List UInt8
  before : List UInt8
  value : List UInt8
  behind : List UInt8
  name_ne_nil : name ≠ []
  name_tchar : ∀ b ∈ name, IsTchar b
  before_blank : ∀ b ∈ before, IsBlank b
  value_text : ∀ b ∈ value, IsText b
  value_head : ∀ b ∈ value.head?, IsFieldVchar b
  value_last : ∀ b ∈ value.getLast?, IsFieldVchar b
  behind_blank : ∀ b ∈ behind, IsBlank b

/-- The first line of a head. -/
inductive StartLine
  | request (line : RequestLine)
  | status (line : StatusLine)

/-- The head of a message. -/
structure Head where
  start : StartLine
  fields : List Field

/-! ## Bytes -/

/-- The digits of a status code. -/
def codeDigits (code : ℕ) : List UInt8 :=
  [code / 100, code / 10 % 10, code % 10].map fun d => UInt8.ofNat (0x30 + d)

/-- The bytes of a first line. -/
def StartLine.bytes : StartLine → List UInt8
  | request line =>
    nameBytes line.method ++ 0x20 :: (line.target ++ 0x20 :: nameBytes line.version.name)
  | status line =>
    nameBytes line.version.name ++ 0x20 :: (codeDigits line.code ++ 0x20 :: line.reason)

/-- The bytes of a field line. -/
def Field.bytes (field : Field) : List UInt8 :=
  field.name ++ 0x3A :: (field.before ++ (field.value ++ field.behind))

namespace Head

/-- The lines of a head. -/
def lines (head : Head) : List (List UInt8) :=
  head.start.bytes :: (head.fields.map Field.bytes ++ [[]])

/-- The bytes of a head. -/
def encode (head : Head) : List UInt8 := head.lines.flatMap fun line => line ++ [0x0D, 0x0A]

end Head

/-! ## What a head says -/

/-- What a first line says. -/
def StartLine.info : StartLine → HttpInfo
  | request line =>
    ⟨line.version.reported, some line.method, none, some (asciiText line.target), none, none⟩
  | status line => ⟨line.version.reported, none, none, none, some (UInt16.ofNat line.code), none⟩

/-- The value of a field if it has the name, in upper or lower case. -/
def Field.valueOf (name : String) (field : Field) : Option (List UInt8) :=
  if eqIgnoreAsciiCase (asciiChars field.name) name.toList then some field.value else none

namespace Head

/-- The value of a name: the last one, should there be several. -/
def fieldValue (head : Head) (name : String) : Option (List UInt8) :=
  (head.fields.filterMap (Field.valueOf name)).getLast?

/-- What a head says: its first line, and the values of two of the names as text. -/
def info (head : Head) : HttpInfo :=
  { head.start.info with
    host := (head.fieldValue "host").map fun value => String.ofList (fromUtf8Lossy value)
    userAgent := (head.fieldValue "user-agent").map fun value =>
      String.ofList (fromUtf8Lossy value) }

end Head

/-- The reason phrase of a status line is not made of whitespace only. -/
def StartLine.Plain : StartLine → Prop
  | request _ => True
  | status line => ∃ c ∈ fromUtf8Lossy line.reason, Text.isWhitespace c = false

/-- There is a reason phrase, and the values that are kept have no whitespace around them. -/
def Head.Plain (head : Head) : Prop :=
  head.start.Plain ∧ ∀ name ∈ ["host", "user-agent"], ∀ value ∈ head.fieldValue name,
    Text.Unpadded (fromUtf8Lossy value)

/-! ## Text -/

section Text

variable {b : UInt8} {bytes : List UInt8}

/-- The character of a visible byte. -/
theorem char_of_vchar : ∀ b : UInt8, IsVchar b →
    Text.isWhitespace (Char.ofNat b.toNat) = false ∧ (Char.ofNat b.toNat = ':' → b = 0x3A) := by
  decide +kernel

theorem isWhitespace_of_blank (h : IsBlank b) :
    Text.isWhitespace (Char.ofNat b.toNat) = true := by
  rcases h with rfl | rfl <;> decide

theorem isVchar_of_tchar (h : IsTchar b) : IsVchar b := by
  have hsymbols : ∀ b ∈ tokenSymbols, IsVchar b := by simp [tokenSymbols, IsVchar]
  simp only [IsTchar, isAsciiAlphabetic, isAsciiDigit, Bool.or_eq_true, decide_eq_true_eq] at h
  rcases h with (h | h) | h | h
  -- letters, digits and the other characters
  · exact ⟨UInt8.le_trans (by decide) h.1, UInt8.le_trans h.2 (by decide)⟩
  · exact ⟨UInt8.le_trans (by decide) h.1, UInt8.le_trans h.2 (by decide)⟩
  · exact ⟨UInt8.le_trans (by decide) h.1, UInt8.le_trans h.2 (by decide)⟩
  · exact hsymbols b h

theorem tchar_ne_colon (h : IsTchar b) : Char.ofNat b.toNat ≠ ':' := by
  intro hcolon
  rw [(char_of_vchar b (isVchar_of_tchar h)).2 hcolon] at h
  exact absurd h (by decide)

theorem IsVchar.lt (h : IsVchar b) : b < 0x80 := UInt8.lt_of_le_of_lt h.2 (by decide)

theorem IsBlank.lt (h : IsBlank b) : b < 0x80 := by
  rcases h with rfl | rfl <;> decide

theorem isText_of_vchar (h : IsVchar b) : IsText b := Or.inr (Or.inl h)

theorem not_isText_break : ¬ IsText 0x0A := by decide

/-- A word of visible characters. -/
def wordOfVchar (bytes : List UInt8) (hne : bytes ≠ []) (h : ∀ b ∈ bytes, IsVchar b) :
    Text.Word where
  chars := asciiChars bytes
  chars_ne_nil := mt List.map_eq_nil_iff.mp hne
  not_isWhitespace := by
    intro c hc
    obtain ⟨b, hb, rfl⟩ := List.mem_map.mp hc
    exact (char_of_vchar b (h b hb)).1

theorem whitespace_of_blank (h : ∀ b ∈ bytes, IsBlank b) :
    ∀ c ∈ asciiChars bytes, Text.isWhitespace c = true := by
  intro c hc
  obtain ⟨b, hb, rfl⟩ := List.mem_map.mp hc
  exact isWhitespace_of_blank (h b hb)

/-- There is no line break in the text of a line. -/
theorem break_notMem (h : ∀ b ∈ bytes, IsText b) : '\n' ∉ fromUtf8Lossy bytes := by
  intro hbreak
  have hmem : (0x0A : UInt8) ∈ bytes := mem_of_mem_fromUtf8Lossy hbreak (by decide) (by decide)
  exact not_isText_break (h _ hmem)

/-- The text of some lines is made of the texts of the lines. -/
theorem fromUtf8Lossy_lines (ls : List (List UInt8)) (body : List UInt8) :
    fromUtf8Lossy ((ls.flatMap fun line => line ++ [0x0D, 0x0A]) ++ body) =
      Text.unlines (ls.map fun line => fromUtf8Lossy line ++ ['\r']) ++ fromUtf8Lossy body := by
  induction ls with
  | nil => rfl
  | cons line ls ih =>
    rw [List.flatMap_cons, List.append_assoc, List.append_assoc, List.cons_append,
      fromUtf8Lossy_cut (by decide), List.cons_append, List.nil_append,
      fromUtf8Lossy_ascii_cons (by decide), ih, List.map_cons, Text.unlines_cons]
    simp only [List.append_assoc, List.cons_append, List.nil_append]
    rfl

/-- Lines that end in a carriage return and a line break are cut where they were put together. -/
theorem lines_fromUtf8Lossy {ls : List (List UInt8)} (h : ∀ line ∈ ls, ∀ b ∈ line, IsText b)
    (body : List UInt8) :
    Text.lines (fromUtf8Lossy ((ls.flatMap fun line => line ++ [0x0D, 0x0A]) ++ body)) =
      ls.map fromUtf8Lossy ++ Text.lines (fromUtf8Lossy body) := by
  have hbreak : ∀ line ∈ ls.map (fun line => fromUtf8Lossy line ++ ['\r']), '\n' ∉ line := by
    intro text htext
    obtain ⟨line, hline, rfl⟩ := List.mem_map.mp htext
    rw [List.mem_append, not_or]
    exact ⟨break_notMem (h line hline), by decide⟩
  have hstrip (line : List UInt8) :
      Text.stripReturn (fromUtf8Lossy line ++ ['\r']) = fromUtf8Lossy line := by
    rw [Text.stripReturn, List.getLast?_concat, if_pos rfl, List.dropLast_concat]
  rw [fromUtf8Lossy_lines, Text.lines_unlines_append hbreak, List.map_map]
  exact congrArg (· ++ _) (List.map_congr_left fun line _ => hstrip line)

end Text

/-! ## First lines -/

section FirstLine

variable {bytes rest : List UInt8}

/-- The bytes of a method. -/
theorem method_bytes : ∀ method ∈ httpMethods,
    nameBytes method ≠ [] ∧ (∀ b ∈ nameBytes method, IsVchar b) ∧
      asciiChars (nameBytes method) = method.toList ∧ method ++ " " ∈ likelyPrefixes := by
  decide +kernel

/-- No method is taken for a version. -/
theorem method_not_version (rest : List Char) :
    ∀ method ∈ httpMethods, "HTTP/".toList.isPrefixOf (method.toList ++ ' ' :: rest) = false := by
  simp [httpMethods, List.isPrefixOf]

namespace Version

variable (version : Version)

theorem vchar : ∀ b ∈ nameBytes version.name, IsVchar b := by
  rcases version <;> decide +kernel

theorem ne_nil : nameBytes version.name ≠ [] := by
  rcases version <;> decide

theorem asciiChars_name : asciiChars (nameBytes version.name) = version.name.toList := by
  rcases version <;> rfl

theorem likely : version.name ++ " " ∈ likelyPrefixes := by
  rcases version <;> decide

theorem isPrefixOf (rest : List Char) :
    "HTTP/".toList.isPrefixOf (version.name.toList ++ rest) = true := by
  rcases version <;> rfl

theorem parse : parseHttpVersion version.name.toList = version.reported := by
  rcases version <;> rfl

end Version

theorem isLikelyHttp_of_mem {start : String} (h : start ++ " " ∈ likelyPrefixes) :
    isLikelyHttp (nameBytes start ++ 0x20 :: rest) = true := by
  have hlength : ∀ start ∈ likelyPrefixes, 4 ≤ (nameBytes start).length := by decide
  have hbegins : nameBytes (start ++ " ") <+: nameBytes start ++ 0x20 :: rest := by
    rw [nameBytes_append]
    exact ⟨rest, List.append_assoc _ _ _⟩
  have hle := (hlength _ h).trans hbegins.length_le
  rw [isLikelyHttp, if_neg (Nat.not_lt.mpr hle)]
  exact List.any_eq_true.mpr ⟨_, h, List.isPrefixOf_iff_prefix.mpr hbegins⟩

/-- The words of two visible words and a text. -/
theorem splitWhitespace_fromUtf8Lossy {first second : List UInt8} (hfirst : first ≠ [])
    (hsecond : second ≠ []) (h : ∀ b ∈ first, IsVchar b) (h' : ∀ b ∈ second, IsVchar b) :
    Text.splitWhitespace (fromUtf8Lossy (first ++ 0x20 :: (second ++ 0x20 :: rest))) =
      asciiChars first :: asciiChars second :: Text.splitWhitespace (fromUtf8Lossy rest) := by
  rw [fromUtf8Lossy_cut (by decide), fromUtf8Lossy_cut (by decide),
    fromUtf8Lossy_ascii fun b hb => (h b hb).lt, fromUtf8Lossy_ascii fun b hb => (h' b hb).lt]
  refine (Text.splitWhitespace_word_cons (wordOfVchar first hfirst h) _).trans ?_
  exact congrArg _ (Text.splitWhitespace_word_cons (wordOfVchar second hsecond h') _)

theorem codeDigits_ne_nil (code : ℕ) : codeDigits code ≠ [] := List.cons_ne_nil _ _

/-- A digit of a status code. -/
theorem digit_byte {d : ℕ} (h : d < 10) :
    IsVchar (UInt8.ofNat (0x30 + d)) ∧ Char.ofNat (UInt8.ofNat (0x30 + d)).toNat = d.digitChar ∧
      d.digitChar ≠ '+' := by
  interval_cases d <;> decide

theorem codeDigits_vchar {code : ℕ} (h : code < 1000) : ∀ b ∈ codeDigits code, IsVchar b := by
  simp only [codeDigits, List.map_cons, List.map_nil, List.forall_mem_cons, List.not_mem_nil,
    false_implies, implies_true, and_true]
  exact ⟨(digit_byte (by omega)).1, (digit_byte (by omega)).1, (digit_byte (by omega)).1⟩

/-- A status code is read as it was written. -/
theorem fromStrRadix_codeDigits {code : ℕ} (h : code < 1000) :
    Text.fromStrRadix 10 16 (asciiChars (codeDigits code)) = some code := by
  have hhundreds : code / 100 < 10 := by omega
  have htens : code / 10 % 10 < 10 := by omega
  have hones : code % 10 < 10 := by omega
  -- three digits, each read back by its own place
  have hchars : asciiChars (codeDigits code) =
      [(code / 100).digitChar, (code / 10 % 10).digitChar, (code % 10).digitChar] := by
    simp only [asciiChars, codeDigits, List.map_cons, List.map_nil]
    rw [(digit_byte hhundreds).2.1, (digit_byte htens).2.1, (digit_byte hones).2.1]
  rw [hchars]
  refine Text.fromStrRadix_of_foldlM (List.cons_ne_nil _ _) ?_ ?_ (by omega)
  · simp only [List.forall_mem_cons, List.not_mem_nil, false_implies, implies_true, and_true]
    exact ⟨(digit_byte hhundreds).2.2, (digit_byte htens).2.2, (digit_byte hones).2.2⟩
  · simp only [List.foldlM_cons, List.foldlM_nil, Text.pushDigit, Text.toDigit_digitChar hhundreds,
      Text.toDigit_digitChar htens, Text.toDigit_digitChar hones, Option.map_some,
      Option.bind_eq_bind, Option.bind_some]
    exact congrArg some (by omega)

theorem parseFirstLine_request (line : RequestLine) :
    parseFirstLine (fromUtf8Lossy (StartLine.request line).bytes) =
      some (StartLine.request line).info := by
  obtain ⟨hne, hmethod, htext, -⟩ := method_bytes line.method line.method_mem
  have hversion := line.version.vchar
  -- the three words are what stands between the blanks
  have hlast : Text.splitWhitespace (fromUtf8Lossy (nameBytes line.version.name)) =
      [line.version.name.toList] := by
    rw [fromUtf8Lossy_ascii fun b hb => (hversion b hb).lt, ← line.version.asciiChars_name]
    exact Text.splitWhitespace_word (wordOfVchar _ line.version.ne_nil hversion)
  have hwords : Text.splitWhitespace (fromUtf8Lossy (StartLine.request line).bytes) =
      [line.method.toList, asciiChars line.target, line.version.name.toList] := by
    rw [StartLine.bytes, splitWhitespace_fromUtf8Lossy hne line.target_ne_nil hmethod
      line.target_vchar, htext, hlast]
  -- no method begins like a version, so that the line is not taken for a status line
  have hbegins :
      "HTTP/".toList.isPrefixOf (fromUtf8Lossy (StartLine.request line).bytes) = false := by
    rw [StartLine.bytes, fromUtf8Lossy_cut (by decide),
      fromUtf8Lossy_ascii fun b hb => (hmethod b hb).lt, htext]
    exact method_not_version _ _ line.method_mem
  have hknown : isHttpMethod line.method.toList = true :=
    List.any_eq_true.mpr ⟨_, line.method_mem, beq_self_eq_true _⟩
  rw [parseFirstLine_words hwords, hbegins, if_neg Bool.false_ne_true, if_pos hknown,
    line.version.parse, String.ofList_toList]
  rfl

/-- A status line is read if it has a reason phrase. -/
theorem parseFirstLine_status (line : StatusLine) :
    parseFirstLine (fromUtf8Lossy (StartLine.status line).bytes) =
      if Text.splitWhitespace (fromUtf8Lossy line.reason) = [] then none
      else some (StartLine.status line).info := by
  have hversion := line.version.vchar
  have hwords : Text.splitWhitespace (fromUtf8Lossy (StartLine.status line).bytes) =
      line.version.name.toList :: asciiChars (codeDigits line.code) ::
        Text.splitWhitespace (fromUtf8Lossy line.reason) := by
    rw [StartLine.bytes, splitWhitespace_fromUtf8Lossy line.version.ne_nil
      (codeDigits_ne_nil line.code) hversion (codeDigits_vchar line.code_lt),
      line.version.asciiChars_name]
  have hbegins :
      "HTTP/".toList.isPrefixOf (fromUtf8Lossy (StartLine.status line).bytes) = true := by
    rw [StartLine.bytes, fromUtf8Lossy_cut (by decide),
      fromUtf8Lossy_ascii fun b hb => (hversion b hb).lt, line.version.asciiChars_name]
    exact line.version.isPrefixOf _
  cases hreason : Text.splitWhitespace (fromUtf8Lossy line.reason) with
  | nil =>
    -- two words are not enough
    rw [if_pos rfl]
    apply parseFirstLine_of_length_lt
    rw [hwords, hreason]
    exact Nat.lt_succ_self 2
  | cons word words =>
    rw [hreason] at hwords
    rw [if_neg (List.cons_ne_nil _ _), parseFirstLine_words hwords, hbegins, if_pos rfl,
      line.version.parse, fromStrRadix_codeDigits line.code_lt]
    rfl

/-- A first line is read if it is plain. -/
theorem parseFirstLine_start (start : StartLine) :
    (start.Plain → parseFirstLine (fromUtf8Lossy start.bytes) = some start.info) ∧
      (¬ start.Plain → parseFirstLine (fromUtf8Lossy start.bytes) = none) := by
  rcases start with line | line
  · exact ⟨fun _ => parseFirstLine_request line, fun h => absurd trivial h⟩
  · have hplain : (StartLine.status line).Plain ↔
        ¬ Text.splitWhitespace (fromUtf8Lossy line.reason) = [] := by
      rw [StartLine.Plain, Text.splitWhitespace_eq_nil_iff]
      simp
    rw [hplain, not_not, parseFirstLine_status]
    exact ⟨fun h => if_neg h, fun h => if_pos h⟩

/-- Every first line is taken for HTTP. -/
theorem isLikelyHttp_start (start : StartLine) (rest : List UInt8) :
    isLikelyHttp (start.bytes ++ rest) = true := by
  rcases start with line | line
  · rw [StartLine.bytes, List.append_assoc, List.cons_append]
    exact isLikelyHttp_of_mem (method_bytes _ line.method_mem).2.2.2
  · rw [StartLine.bytes, List.append_assoc, List.cons_append]
    exact isLikelyHttp_of_mem line.version.likely

/-- There is no line break in a first line. -/
theorem isText_start (start : StartLine) : ∀ b ∈ start.bytes, IsText b := by
  have hblank : IsText 0x20 := Or.inl (Or.inl rfl)
  rcases start with line | line
  · rw [StartLine.bytes, List.forall_mem_append, List.forall_mem_cons, List.forall_mem_append,
      List.forall_mem_cons]
    exact ⟨fun b hb => isText_of_vchar ((method_bytes _ line.method_mem).2.1 b hb), hblank,
      fun b hb => isText_of_vchar (line.target_vchar b hb), hblank,
      fun b hb => isText_of_vchar (line.version.vchar b hb)⟩
  · rw [StartLine.bytes, List.forall_mem_append, List.forall_mem_cons, List.forall_mem_append,
      List.forall_mem_cons]
    exact ⟨fun b hb => isText_of_vchar (line.version.vchar b hb), hblank,
      fun b hb => isText_of_vchar (codeDigits_vchar line.code_lt b hb), hblank, line.reason_text⟩

end FirstLine

/-! ## Field lines -/

section Fields

variable {name : String}

/-- The text of a value without the whitespace around it. -/
def trimmedText (value : List UInt8) : String := String.ofList (Text.trim (fromUtf8Lossy value))

theorem splitOnce_cons {sep : Char} {before rest : List Char} (h : sep ∉ before) :
    splitOnce sep (before ++ sep :: rest) = some (before, rest) := by
  have hbefore : ∀ c ∈ before, decide (c ≠ sep) = true := fun c hc =>
    decide_eq_true fun heq => h (heq ▸ hc)
  rw [splitOnce, if_pos (by simp), List.takeWhile_append_of_pos hbefore,
    List.dropWhile_append_of_pos hbefore]
  simp

namespace Field

variable (field : Field)

theorem text : fromUtf8Lossy field.bytes = asciiChars field.name ++
    ':' :: (asciiChars field.before ++ (fromUtf8Lossy field.value ++ asciiChars field.behind)) := by
  rw [bytes, fromUtf8Lossy_cut (by decide),
    fromUtf8Lossy_ascii fun b hb => (isVchar_of_tchar (field.name_tchar b hb)).lt,
    fromUtf8Lossy_asciiChars fun b hb => (field.before_blank b hb).lt,
    fromUtf8Lossy_append fun b hb => (field.behind_blank b hb).lt]
  rfl

theorem isText : ∀ b ∈ field.bytes, IsText b := by
  rw [bytes, List.forall_mem_append, List.forall_mem_cons, List.forall_mem_append,
    List.forall_mem_append]
  exact ⟨fun b hb => isText_of_vchar (isVchar_of_tchar (field.name_tchar b hb)), by decide,
    fun b hb => Or.inl (field.before_blank b hb), field.value_text,
    fun b hb => Or.inl (field.behind_blank b hb)⟩

/-- A field line is cut into its name and its value. -/
theorem splitOnce_text : splitOnce ':' (fromUtf8Lossy field.bytes) =
    some (asciiChars field.name,
      asciiChars field.before ++ (fromUtf8Lossy field.value ++ asciiChars field.behind)) := by
  rw [field.text]
  apply splitOnce_cons
  intro hcolon
  obtain ⟨b, hb, heq⟩ := List.mem_map.mp hcolon
  exact tchar_ne_colon (field.name_tchar b hb) heq

theorem trim_name : Text.trim (asciiChars field.name) = asciiChars field.name := by
  have hword := (wordOfVchar field.name field.name_ne_nil fun b hb =>
    isVchar_of_tchar (field.name_tchar b hb)).not_isWhitespace
  exact Text.trim_eq_self_iff.mpr ⟨fun c hc => hword c (List.mem_of_mem_head? hc),
    fun c hc => hword c (List.mem_of_getLast? hc)⟩

/-- The blanks around a value are not read. -/
theorem trim_value : String.ofList (Text.trim
    (asciiChars field.before ++ (fromUtf8Lossy field.value ++ asciiChars field.behind))) =
      trimmedText field.value := by
  rw [trimmedText, Text.trim_append (whitespace_of_blank field.before_blank)
    (whitespace_of_blank field.behind_blank)]

end Field

/-- A field line with one of the two names sets the value. -/
theorem parseHeader_field (info : HttpInfo) (field : Field) :
    parseHeader info (fromUtf8Lossy field.bytes) =
      { info with
        host := ((field.valueOf "host").map trimmedText).or info.host
        userAgent := ((field.valueOf "user-agent").map trimmedText).or info.userAgent } := by
  rw [parseHeader, field.splitOnce_text]
  simp only []
  rw [field.trim_name, field.trim_value, Field.valueOf, Field.valueOf]
  by_cases hhost : eqIgnoreAsciiCase (asciiChars field.name) "host".toList = true
  -- no name is both, so that it does not matter which is tried first
  · have hagent : ¬ eqIgnoreAsciiCase (asciiChars field.name) "user-agent".toList = true := by
      rw [eqIgnoreAsciiCase, beq_iff_eq] at hhost ⊢
      rw [hhost]
      decide
    rw [if_pos hhost, if_pos hhost, if_neg hagent]
    rfl
  · rw [if_neg hhost, if_neg hhost]
    split_ifs <;> rfl

/-- The last values of the two names are kept. -/
theorem parseHeaders_fields (info : HttpInfo) (fields : List Field) (rest : List (List Char)) :
    parseHeaders info (fields.map (fun field => fromUtf8Lossy field.bytes) ++ [] :: rest) =
      { info with
        host := ((fields.filterMap (Field.valueOf "host")).getLast?.map trimmedText).or info.host
        userAgent := ((fields.filterMap (Field.valueOf "user-agent")).getLast?.map trimmedText).or
          info.userAgent } := by
  have hlast (name : String) (found : Option String) :
      ((fields.filterMap (Field.valueOf name)).getLast?.map trimmedText).or found =
        fields.foldl (fun found field => ((field.valueOf name).map trimmedText).or found)
          found := by
    rw [Search.foldl_or, ← List.getLast?_map, List.map_filterMap]
  -- the loop is a fold over the fields, on each of the two values
  rw [hlast, hlast]
  clear hlast
  induction fields generalizing info with
  | nil => rfl
  | cons field fields ih =>
    have hne : fromUtf8Lossy field.bytes ≠ [] := by
      rw [field.text]
      exact List.append_ne_nil_of_right_ne_nil _ (List.cons_ne_nil _ _)
    rw [List.map_cons, List.cons_append, parseHeaders, if_neg hne, parseHeader_field, ih]
    rfl

theorem map_trimmedText_iff {found : Option (List UInt8)} :
    found.map trimmedText = found.map (fun value => String.ofList (fromUtf8Lossy value)) ↔
      ∀ value ∈ found, Text.Unpadded (fromUtf8Lossy value) := by
  rcases found with _ | value
  · simp
  · simp [trimmedText, String.ofList_inj, Text.trim_eq_self_iff]

end Fields

/-! ## Heads are reported -/

namespace Head

variable (head : Head) (body : List UInt8)

theorem isText_lines : ∀ line ∈ head.lines, ∀ b ∈ line, IsText b := by
  rw [lines, List.forall_mem_cons, List.forall_mem_append, List.forall_mem_singleton]
  refine ⟨isText_start head.start, fun line hline => ?_, fun b hb => nomatch hb⟩
  obtain ⟨field, -, rfl⟩ := List.mem_map.mp hline
  exact field.isText

/-- What the analysis makes of a head, whatever follows it. -/
theorem analyzeHttp_eq : analyzeHttp (head.encode ++ body) =
    (parseFirstLine (fromUtf8Lossy head.start.bytes)).map fun info =>
      { info with
        host := ((head.fieldValue "host").map trimmedText).or info.host
        userAgent := ((head.fieldValue "user-agent").map trimmedText).or info.userAgent } := by
  have hlikely : isLikelyHttp (head.encode ++ body) = true := by
    rw [encode, lines, List.flatMap_cons, List.append_assoc, List.append_assoc]
    exact isLikelyHttp_start head.start _
  -- the empty line ends the headers, whatever the body holds
  have hlines : Text.lines (fromUtf8Lossy (head.encode ++ body)) =
      fromUtf8Lossy head.start.bytes ::
        (head.fields.map (fun field => fromUtf8Lossy field.bytes) ++
          [] :: Text.lines (fromUtf8Lossy body)) := by
    rw [encode, lines_fromUtf8Lossy head.isText_lines, lines, List.map_cons, List.map_append,
      List.map_map, List.cons_append, List.append_assoc]
    rfl
  rw [analyzeHttp_lines hlikely hlines]
  exact congrArg (Option.map · _) (funext fun info => parseHeaders_fields info head.fields _)

/-- A head is reported as it is exactly if it is plain. The head is any request or status line
with any fields, followed by any body; what is reported are the method, the path and the host, or
the status, with the version and the user agent. A head is not plain if its reason phrase is
whitespace only, or a value that is kept has whitespace around it: the analysis trims its lines
and the values. -/
theorem analyzeHttp_encode_iff :
    analyzeHttp (head.encode ++ body) = some head.info ↔ head.Plain := by
  rw [analyzeHttp_eq]
  by_cases hstart : head.start.Plain
  · have hnone : head.start.info.host = none ∧ head.start.info.userAgent = none := by
      rcases head.start <;> exact ⟨rfl, rfl⟩
    rw [(parseFirstLine_start head.start).1 hstart, Head.Plain, info]
    simp [hstart, hnone, map_trimmedText_iff]
  · rw [(parseFirstLine_start head.start).2 hstart]
    exact iff_of_false nofun fun h => hstart h.1

end Head

/-- A response without a reason phrase. -/
def noReason : Head where
  start := .status ⟨.http11, 200, [], by decide, by simp⟩
  fields := []

/-- A response without a reason phrase is not taken for HTTP. -/
theorem analyzeHttp_noReason :
    noReason.encode = nameBytes "HTTP/1.1 200 \r\n\r\n" ∧ analyzeHttp noReason.encode = none ∧
      ¬ ∀ (head : Head) (body : List UInt8),
        analyzeHttp (head.encode ++ body) = some head.info := by
  have hnone : analyzeHttp noReason.encode = none := rfl
  refine ⟨rfl, hnone, fun hclaim => ?_⟩
  have hsome := hclaim noReason []
  rw [List.append_nil, hnone] at hsome
  exact nomatch hsome

end Http

end RustNet

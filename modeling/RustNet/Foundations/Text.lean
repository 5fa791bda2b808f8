import Mathlib.Data.List.DropRight
import Mathlib.Tactic.IntervalCases
import Mathlib.Tactic.Ring

/-!
# Fields of a text

Texts as lists of characters, cut into lines and words, searched and read as numbers the way the
standard library of Rust does it: `lines`, `split_whitespace`, `contains`, `from_str_radix`. The
other direction is what C's `printf` writes: hexadecimal digits of a fixed width, and decimal
digits. Fields with a separator between them are told apart by it.

A `Word` carries the proof that it is one, so that a line built from words splits into them.

## Main results

* `Text.lines_unlines`, `Text.splitWhitespace_unwords`: a text is cut where it was put together;
* `Text.trim_append`, `Text.trim_eq_self_iff`: what is trimmed off a text;
* `Text.fromStrRadix_hexPad`, `Text.fromStrRadix_toDigits`: a number is read as it was written.
-/

namespace Text

/-! ## Lines and words -/

/-- `char::is_whitespace`: the property `White_Space` of Unicode. -/
def isWhitespace (c : Char) : Bool :=
  decide (0x09 ≤ c.toNat ∧ c.toNat ≤ 0x0D) || decide (0x2000 ≤ c.toNat ∧ c.toNat ≤ 0x200A) ||
    [0x20, 0x85, 0xA0, 0x1680, 0x2028, 0x2029, 0x202F, 0x205F, 0x3000].contains c.toNat

/-- `str::split_whitespace`: the words between runs of whitespace, none of them empty. -/
def splitWhitespace (s : List Char) : List (List Char) :=
  (s.splitOnP isWhitespace).filter fun word => decide (word ≠ [])

/-- `str::contains`: the needle occurs in one piece. -/
def contains (haystack needle : List Char) : Bool :=
  haystack.tails.any fun tail => needle.isPrefixOf tail

/-- `str::trim`: the text without the whitespace at both ends. -/
def trim (s : List Char) : List Char := (s.dropWhile isWhitespace).rdropWhile isWhitespace

/-- A line without the carriage return at its end. -/
def stripReturn (line : List Char) : List Char :=
  if line.getLast? = some '\r' then line.dropLast else line

/-- `str::lines`: a line ends at a line break, with a carriage return in front of it or without.
What is behind the last line break is a line too, if there is anything. -/
def lines (s : List Char) : List (List Char) :=
  let parts := s.splitOn '\n'
  parts.dropLast.map stripReturn ++ parts.getLast?.toList.filter fun line => decide (line ≠ [])

/-- A word: some characters, and no whitespace among them. -/
structure Word where
  chars : List Char
  chars_ne_nil : chars ≠ []
  not_isWhitespace : ∀ c ∈ chars, isWhitespace c = false

/-- A text of `n` blanks, as it is used for padding. -/
def blanks (n : ℕ) : List Char := List.replicate n ' '

/-- A line of words: any number of blanks in front of each word and behind the last, and at least
one between two words. -/
def unwords : List (ℕ × Word) → ℕ → List Char
  | [], trailing => blanks trailing
  | [w], trailing => blanks w.1 ++ w.2.chars ++ blanks trailing
  | w :: w' :: words, trailing =>
    blanks w.1 ++ w.2.chars ++ ' ' :: unwords (w' :: words) trailing

/-- Lines with a line break behind each. -/
def unlines (ls : List (List Char)) : List Char := ls.flatMap fun line => line ++ ['\n']

theorem splitWhitespace_blanks_append (n : ℕ) (rest : List Char) :
    splitWhitespace (blanks n ++ rest) = splitWhitespace rest := by
  induction n with
  | zero => rfl
  | succ n ih =>
    have hcut : (' ' :: (blanks n ++ rest)).splitOnP isWhitespace =
        [] :: (blanks n ++ rest).splitOnP isWhitespace :=
      List.splitOnP_append_cons [] _ (by decide)
    rw [← ih, blanks, List.replicate_succ, List.cons_append, splitWhitespace]
    simp only [blanks] at hcut
    rw [hcut, List.filter_cons_of_neg (by simp)]
    rfl

@[simp]
theorem splitWhitespace_blanks (n : ℕ) : splitWhitespace (blanks n) = [] := by
  have h := splitWhitespace_blanks_append n []
  rw [List.append_nil] at h
  exact h

/-- A blank cuts the words before it from those behind. -/
theorem splitWhitespace_append_blank (s t : List Char) :
    splitWhitespace (s ++ ' ' :: t) = splitWhitespace s ++ splitWhitespace t := by
  rw [splitWhitespace, List.splitOnP_append_cons s t (by decide), List.filter_append]
  rfl

/-- Only whitespace has no words. -/
theorem splitWhitespace_eq_nil_iff {s : List Char} :
    splitWhitespace s = [] ↔ ∀ c ∈ s, isWhitespace c = true := by
  induction s with
  | nil => simp [splitWhitespace]
  | cons c s ih =>
    rw [List.forall_mem_cons, ← ih, splitWhitespace, splitWhitespace,
      List.splitOnP_cons_eq_if_modifyHead]
    split_ifs with hc
    · rw [List.filter_cons_of_neg (by simp)]
      exact (and_iff_right hc).symm
    -- any other character begins or lengthens the first word
    · obtain ⟨word, words, hwords⟩ :=
        List.exists_cons_of_ne_nil (List.splitOnP_ne_nil isWhitespace s)
      rw [hwords, List.modifyHead_cons, List.filter_cons_of_pos (by simp)]
      exact iff_of_false (List.cons_ne_nil _ _) fun h => hc h.1

/-- A text that is trimmed to nothing has no words. -/
theorem splitWhitespace_of_trim {s : List Char} (h : trim s = []) : splitWhitespace s = [] := by
  have hend : ∀ c ∈ s.dropWhile isWhitespace, isWhitespace c = true :=
    List.rdropWhile_eq_nil_iff.mp h
  have hdrop : s.dropWhile isWhitespace = [] := by
    rw [← List.dropWhile_idempotent]
    exact List.dropWhile_eq_nil_iff.mpr hend
  exact splitWhitespace_eq_nil_iff.mpr (List.dropWhile_eq_nil_iff.mp hdrop)

/-- The words behind a word and a blank come after it. -/
theorem splitWhitespace_word_cons (w : Word) (rest : List Char) :
    splitWhitespace (w.chars ++ ' ' :: rest) = w.chars :: splitWhitespace rest := by
  have hcut : (w.chars ++ ' ' :: rest).splitOnP isWhitespace =
      w.chars :: rest.splitOnP isWhitespace :=
    List.splitOnP_append_cons_of_forall_mem w.not_isWhitespace ' ' (by decide) rest
  rw [splitWhitespace, hcut, List.filter_cons_of_pos (by simpa using w.chars_ne_nil)]
  rfl

theorem splitWhitespace_word (w : Word) : splitWhitespace w.chars = [w.chars] := by
  rw [splitWhitespace, List.splitOnP_eq_singleton w.not_isWhitespace,
    List.filter_cons_of_pos (by simpa using w.chars_ne_nil), List.filter_nil]

/-- A line of words splits into them. -/
theorem splitWhitespace_unwords (words : List (ℕ × Word)) (trailing : ℕ) :
    splitWhitespace (unwords words trailing) = words.map fun w => w.2.chars := by
  induction words, trailing using unwords.induct with
  | case1 trailing => simp [unwords]
  | case2 w trailing =>
    rw [unwords, List.append_assoc, splitWhitespace_blanks_append]
    cases trailing with
    -- the word is cut off by the end of the line
    | zero => simpa [blanks] using splitWhitespace_word w.2
    | succ n =>
      have hcons := splitWhitespace_word_cons w.2 (blanks n)
      rw [splitWhitespace_blanks] at hcons
      exact hcons
  | case3 w w' words trailing ih =>
    rw [unwords, List.append_assoc, splitWhitespace_blanks_append, splitWhitespace_word_cons, ih]
    rfl

theorem unlines_cons (line : List Char) (ls : List (List Char)) :
    unlines (line :: ls) = line ++ '\n' :: unlines ls := by
  rw [unlines, List.flatMap_cons, List.append_assoc]
  rfl

theorem splitOn_unlines_append {ls : List (List Char)} (h : ∀ line ∈ ls, '\n' ∉ line)
    (s : List Char) : (unlines ls ++ s).splitOn '\n' = ls ++ s.splitOn '\n' := by
  induction ls with
  | nil => rfl
  | cons line ls ih =>
    have hline : '\n' ∉ line := h line List.mem_cons_self
    rw [unlines_cons, List.append_assoc, List.cons_append,
      List.splitOn_append_cons_self_of_not_mem hline,
      ih fun l hl => h l (List.mem_cons_of_mem line hl), List.cons_append]

/-- Lines in front of a text are cut off. -/
theorem lines_unlines_append {ls : List (List Char)} (h : ∀ line ∈ ls, '\n' ∉ line)
    (s : List Char) : lines (unlines ls ++ s) = ls.map stripReturn ++ lines s := by
  have hne : s.splitOn '\n' ≠ [] := List.splitOn_ne_nil '\n' s
  simp only [lines, splitOn_unlines_append h, List.getLast?_append_of_ne_nil ls hne,
    List.dropLast_append_of_ne_nil hne, List.map_append, List.append_assoc]

/-- A text made of lines is cut into them. -/
theorem lines_unlines {ls : List (List Char)} (hbreak : ∀ line ∈ ls, '\n' ∉ line)
    (hreturn : ∀ line ∈ ls, '\r' ∉ line) : lines (unlines ls) = ls := by
  have hstrip : ∀ line ∈ ls, stripReturn line = line := fun line hline =>
    if_neg fun hlast => hreturn line hline (List.mem_of_getLast? hlast)
  have happend : lines (unlines ls ++ []) = ls.map stripReturn ++ [] :=
    lines_unlines_append hbreak []
  rw [List.append_nil, List.append_nil] at happend
  exact happend.trans ((List.map_congr_left hstrip).trans (List.map_id' ls))

theorem eq_of_mem_blanks {n : ℕ} {c : Char} (h : c ∈ blanks n) : c = ' ' :=
  List.eq_of_mem_replicate h

/-- The characters of a line of words are theirs and blanks. -/
theorem mem_unwords {words : List (ℕ × Word)} {trailing : ℕ} {c : Char}
    (h : c ∈ unwords words trailing) : c = ' ' ∨ isWhitespace c = false := by
  induction words, trailing using unwords.induct with
  -- blanks only, the last word, and a word with another one behind it
  | case1 trailing => exact Or.inl (eq_of_mem_blanks h)
  | case2 w trailing =>
    rw [unwords, List.mem_append, List.mem_append] at h
    rcases h with (h | h) | h
    · exact Or.inl (eq_of_mem_blanks h)
    · exact Or.inr (w.2.not_isWhitespace c h)
    · exact Or.inl (eq_of_mem_blanks h)
  | case3 w w' words trailing ih =>
    rw [unwords, List.mem_append, List.mem_append, List.mem_cons] at h
    rcases h with (h | h) | h | h
    · exact Or.inl (eq_of_mem_blanks h)
    · exact Or.inr (w.2.not_isWhitespace c h)
    · exact Or.inl h
    · exact ih h

theorem break_notMem_unwords (words : List (ℕ × Word)) (trailing : ℕ) :
    '\n' ∉ unwords words trailing := by
  intro h
  rcases mem_unwords h with h | h <;> exact absurd h (by decide)

theorem return_notMem_unwords (words : List (ℕ × Word)) (trailing : ℕ) :
    '\r' ∉ unwords words trailing := by
  intro h
  rcases mem_unwords h with h | h <;> exact absurd h (by decide)

/-- Lines of words are cut where they were put together. -/
theorem lines_unlines_unwords {ls : List (List Char)}
    (h : ∀ line ∈ ls, ∃ words trailing, line = unwords words trailing) :
    lines (unlines ls) = ls := by
  apply lines_unlines
  · intro line hline
    obtain ⟨words, trailing, rfl⟩ := h line hline
    exact break_notMem_unwords words trailing
  · intro line hline
    obtain ⟨words, trailing, rfl⟩ := h line hline
    exact return_notMem_unwords words trailing

/-! ## Trimming -/

/-- A text that neither begins nor ends with whitespace. -/
def Unpadded (s : List Char) : Prop :=
  (∀ c ∈ s.head?, isWhitespace c = false) ∧ ∀ c ∈ s.getLast?, isWhitespace c = false

theorem dropWhile_eq_self_iff {p : Char → Bool} {s : List Char} :
    s.dropWhile p = s ↔ ∀ c ∈ s.head?, p c = false := by
  rcases s with _ | ⟨c, s⟩ <;> simp [List.dropWhile_eq_self_iff]

theorem rdropWhile_eq_self_iff {p : Char → Bool} {s : List Char} :
    s.rdropWhile p = s ↔ ∀ c ∈ s.getLast?, p c = false := by
  rw [List.rdropWhile, List.reverse_eq_iff, dropWhile_eq_self_iff, List.head?_reverse]

/-- A text is left as it is by `trim` if it is not padded. -/
theorem trim_eq_self_iff {s : List Char} : trim s = s ↔ Unpadded s := by
  rw [Unpadded, ← dropWhile_eq_self_iff, ← rdropWhile_eq_self_iff, trim]
  refine ⟨fun h => ?_, fun h => by rw [h.1, h.2]⟩
  have hdrop : s.dropWhile isWhitespace = s := by
    refine (List.dropWhile_suffix _).eq_of_length_le ?_
    calc s.length = ((s.dropWhile isWhitespace).rdropWhile isWhitespace).length := by rw [h]
      _ ≤ (s.dropWhile isWhitespace).length := (List.rdropWhile_prefix _ _).length_le
  rw [hdrop] at h
  exact ⟨hdrop, h⟩

theorem rdropWhile_append_of_pos {p : Char → Bool} {s back : List Char}
    (hback : ∀ c ∈ back, p c = true) : (s ++ back).rdropWhile p = s.rdropWhile p := by
  rw [List.rdropWhile, List.rdropWhile, List.reverse_append,
    List.dropWhile_append_of_pos fun c hc => hback c (List.mem_reverse.mp hc)]

/-- Whitespace around a text is trimmed. -/
theorem trim_append {front s back : List Char} (hfront : ∀ c ∈ front, isWhitespace c = true)
    (hback : ∀ c ∈ back, isWhitespace c = true) : trim (front ++ (s ++ back)) = trim s := by
  rw [trim, trim, List.dropWhile_append_of_pos hfront, List.dropWhile_append]
  split_ifs with hempty
  · rw [List.dropWhile_eq_nil_iff.mpr hback, List.isEmpty_iff.mp hempty]
  · exact rdropWhile_append_of_pos hback

/-! ## Separators -/

section Separator

variable {α : Type*} {sep : α} {before before' after after' : List α}

/-- What stands behind the last separator is told apart from what stands before it. -/
theorem eq_of_append_separator (h : sep ∉ after) (h' : sep ∉ after')
    (heq : before ++ sep :: after = before' ++ sep :: after') :
    before = before' ∧ after = after' := by
  rcases List.append_eq_append_iff.mp heq with ⟨mid, rfl, hrest⟩ | ⟨mid, rfl, hrest⟩
  · rcases mid with _ | ⟨c, mid⟩
    · rw [List.nil_append] at hrest
      exact ⟨(List.append_nil _).symm, (List.cons.inj hrest).2⟩
    · -- another separator would follow
      rw [List.cons_append] at hrest
      exact absurd (by rw [(List.cons.inj hrest).2]; simp) h
  · rcases mid with _ | ⟨c, mid⟩
    · rw [List.nil_append] at hrest
      exact ⟨List.append_nil _, (List.cons.inj hrest).2.symm⟩
    · rw [List.cons_append] at hrest
      exact absurd (by rw [(List.cons.inj hrest).2]; simp) h'

/-- So is what stands before the first one. -/
theorem eq_of_separator_append (h : sep ∉ before) (h' : sep ∉ before')
    (heq : before ++ sep :: after = before' ++ sep :: after') :
    before = before' ∧ after = after' := by
  have hreverse : after.reverse ++ sep :: before.reverse =
      after'.reverse ++ sep :: before'.reverse := by
    simpa using congrArg List.reverse heq
  obtain ⟨hafter, hbefore⟩ := eq_of_append_separator (by simpa using h) (by simpa using h') hreverse
  exact ⟨List.reverse_injective hbefore, List.reverse_injective hafter⟩

/-- Fields without the separator are told apart when it stands between them. -/
theorem eq_of_intercalate_separator [BEq α] [LawfulBEq α] {fields fields' : List (List α)}
    (hne : fields ≠ []) (hne' : fields' ≠ []) (h : ∀ field ∈ fields, sep ∉ field)
    (h' : ∀ field ∈ fields', sep ∉ field)
    (heq : [sep].intercalate fields = [sep].intercalate fields') : fields = fields' := by
  rw [← List.splitOn_intercalate sep h hne, heq, List.splitOn_intercalate sep h' hne']

end Separator

/-- A decimal number consists of digits. -/
theorem notMem_toDigits {c : Char} (hc : c.isDigit = false) (n : ℕ) : c ∉ Nat.toDigits 10 n := by
  intro h
  have hdigit := Nat.isDigit_of_mem_toDigits (by decide) (by decide) h
  rw [hc] at hdigit
  cases hdigit

/-! ## The characters of a text -/

/-- A number that is no character gives NUL. -/
theorem toNat_charOfNat (n : ℕ) : (Char.ofNat n).toNat = if n.isValidChar then n else 0 := by
  by_cases h : n.isValidChar
  · rw [Char.ofNat, dif_pos h, if_pos h]
    rfl
  · rw [Char.ofNat, dif_neg h, if_neg h]
    rfl

theorem mem_toDigits {base n : ℕ} (hbase : 1 < base) {c : Char} (h : c ∈ Nat.toDigits base n) :
    ∃ d < base, c = d.digitChar := by
  induction n using Nat.strong_induction_on with
  | _ n ih =>
    rw [Nat.toDigits_eq_if hbase] at h
    split_ifs at h with hlt
    · exact ⟨n, hlt, List.mem_singleton.mp h⟩
    · rcases List.mem_append.mp h with h | h
      · exact ih (n / base) (Nat.div_lt_self (by omega) hbase) h
      · exact ⟨n % base, Nat.mod_lt n (by omega), List.mem_singleton.mp h⟩

/-- All characters of a text have a property. -/
def Only (p : Char → Prop) (text : String) : Prop := ∀ c ∈ text.toList, p c

section Only

variable {p : Char → Prop} {s t sep : String}

theorem Only.append (hs : Only p s) (ht : Only p t) : Only p (s ++ t) := by
  intro c hc
  rw [String.toList_append, List.mem_append] at hc
  exact hc.elim (hs c) (ht c)

theorem Only.intercalate {parts : List String} (hsep : Only p sep)
    (hparts : ∀ part ∈ parts, Only p part) : Only p (sep.intercalate parts) := by
  induction parts with
  | nil =>
    rw [String.intercalate_nil]
    intro c hc
    cases hc
  | cons part parts ih =>
    rcases eq_or_ne parts [] with rfl | hne
    · rw [String.intercalate_singleton]
      exact hparts part List.mem_cons_self
    · rw [String.intercalate_cons_of_ne_nil hne]
      exact ((hparts part List.mem_cons_self).append hsep).append
        (ih fun part' hpart' => hparts part' (List.mem_cons_of_mem part hpart'))

theorem toList_toString (n : ℕ) : (toString n).toList = Nat.toDigits 10 n := by
  rw [Nat.toString_eq_repr, Nat.toList_repr]

theorem only_toString (hdigit : ∀ d < 10, p d.digitChar) (n : ℕ) : Only p (toString n) := by
  intro c hc
  rw [toList_toString] at hc
  obtain ⟨d, hd, rfl⟩ := mem_toDigits (by decide) hc
  exact hdigit d hd

end Only

/-! ## Numbers -/

/-- `char::to_digit`: the value of a digit or letter, if it is one of the radix. -/
def toDigit (radix : ℕ) (c : Char) : Option ℕ :=
  let digit :=
    if '0' ≤ c ∧ c ≤ '9' then c.toNat - 48
    else if 'a' ≤ c ∧ c ≤ 'z' then c.toNat - 87
    else if 'A' ≤ c ∧ c ≤ 'Z' then c.toNat - 55
    else radix
  if digit < radix then some digit else none

/-- The number with one more digit behind it, if the character is a digit. -/
def pushDigit (radix n : ℕ) (c : Char) : Option ℕ := (toDigit radix c).map (n * radix + ·)

/-- `from_str_radix` of an unsigned type of `bits` bits. A number only grows with its digits, so
that the overflow can be checked behind the last one. -/
def fromStrRadix (radix bits : ℕ) (s : List Char) : Option ℕ :=
  let digits := if s.head? = some '+' then s.tail else s
  if digits = [] then none
  else (digits.foldlM (pushDigit radix) 0).filter fun n => decide (n < 2 ^ bits)

/-- One digit of `%X`, with capital letters. -/
def hexDigit (d : ℕ) : Char := Char.ofNat (if d < 10 then 48 + d else 55 + d)

/-- The last `width` digits of `%X`. -/
def hexPad : ℕ → ℕ → List Char
  | 0, _ => []
  | width + 1, n => hexPad width (n / 16) ++ [hexDigit (n % 16)]

/-- Only a character of ASCII is a digit. -/
theorem toDigit_ascii {radix d : ℕ} {c : Char} (h : toDigit radix c = some d) : c.toNat < 128 := by
  unfold toDigit at h
  have hle : ∀ {bound : Char}, bound.toNat < 128 → c ≤ bound → c.toNat < 128 :=
    fun hbound hc => (UInt32.le_iff_toNat_le.mp hc).trans_lt hbound
  dsimp only at h
  split_ifs at h with hdecimal hvalue hlower hvalue hupper hvalue hvalue
  · exact hle (by decide) hdecimal.2
  · exact hle (by decide) hlower.2
  · exact hle (by decide) hupper.2
  · exact absurd hvalue (lt_irrefl radix)

theorem toDigit_hexDigit {d : ℕ} (h : d < 16) : toDigit 16 (hexDigit d) = some d := by
  interval_cases d <;> decide

theorem toDigit_digitChar {d : ℕ} (h : d < 10) : toDigit 10 d.digitChar = some d := by
  interval_cases d <;> decide

theorem hexDigit_cases {c : Char} {width n : ℕ} (h : c ∈ hexPad width n) :
    ∃ d < 16, c = hexDigit d := by
  induction width generalizing n with
  | zero => cases h
  | succ width ih =>
    rcases List.mem_append.mp h with h | h
    · exact ih h
    · exact ⟨n % 16, Nat.mod_lt n (by decide), List.mem_singleton.mp h⟩

@[simp]
theorem length_hexPad (width n : ℕ) : (hexPad width n).length = width := by
  induction width generalizing n with
  | zero => rfl
  | succ width ih => simp [hexPad, ih]

/-- A hexadecimal digit is neither whitespace nor a sign nor a colon. -/
theorem hexPad_plain {c : Char} {width n : ℕ} (h : c ∈ hexPad width n) :
    isWhitespace c = false ∧ c ≠ '+' ∧ c ≠ ':' := by
  obtain ⟨d, hd, rfl⟩ := hexDigit_cases h
  interval_cases d <;> decide

/-- A decimal digit is neither whitespace nor a sign. -/
theorem toDigits_plain {c : Char} {n : ℕ} (h : c ∈ Nat.toDigits 10 n) :
    isWhitespace c = false ∧ c ≠ '+' := by
  have hdigit := Nat.isDigit_of_mem_toDigits (by decide) (by decide) h
  rw [Char.isDigit, Bool.and_eq_true, decide_eq_true_iff, decide_eq_true_iff] at hdigit
  obtain ⟨hlow, hhigh⟩ := hdigit
  have hlow' : 48 ≤ c.toNat := UInt32.le_iff_toNat_le.mp hlow
  have hhigh' : c.toNat ≤ 57 := UInt32.le_iff_toNat_le.mp hhigh
  constructor
  · simp only [isWhitespace, Bool.or_eq_false_iff, decide_eq_false_iff_not, List.contains_eq_mem,
      List.mem_cons, List.not_mem_nil, or_false]
    omega
  · rintro rfl
    exact absurd hlow' (by decide)

theorem foldlM_hexPad (width n acc : ℕ) :
    (hexPad width n).foldlM (pushDigit 16) acc = some (acc * 16 ^ width + n % 16 ^ width) := by
  induction width generalizing n with
  | zero => simp [hexPad, Nat.mod_one]
  | succ width ih =>
    have hdigit : n % 16 < 16 := Nat.mod_lt n (by decide)
    have hsplit : n % 16 ^ (width + 1) = n % 16 + 16 * (n / 16 % 16 ^ width) := by
      rw [pow_succ', Nat.mod_mul]
    rw [hexPad, List.foldlM_append, ih]
    simp only [Option.bind_eq_bind, Option.bind_some, List.foldlM_cons, List.foldlM_nil, pushDigit,
      toDigit_hexDigit hdigit, Option.map_some, Option.pure_def, Option.some.injEq]
    rw [hsplit, pow_succ]
    ring

theorem foldlM_toDigits (n : ℕ) : (Nat.toDigits 10 n).foldlM (pushDigit 10) 0 = some n := by
  induction n using Nat.strong_induction_on with
  | _ n ih =>
    have hdigit : n % 10 < 10 := Nat.mod_lt n (by decide)
    rw [Nat.toDigits_eq_if (by decide)]
    split
    next hlt => simp [pushDigit, toDigit_digitChar hlt]
    next hle =>
      rw [List.foldlM_append, ih (n / 10) (by omega)]
      simp only [Option.bind_eq_bind, Option.bind_some, List.foldlM_cons, List.foldlM_nil,
        pushDigit, toDigit_digitChar hdigit, Option.map_some, Option.pure_def, Option.some.injEq]
      omega

/-- Decimal digits are read as a number of as many digits. -/
theorem exists_foldlM_digits {s : List Char} (h : ∀ c ∈ s, c.isDigit = true) (acc : ℕ) :
    ∃ n, s.foldlM (pushDigit 10) acc = some n ∧ n < (acc + 1) * 10 ^ s.length := by
  induction s generalizing acc with
  | nil => exact ⟨acc, rfl, by simp⟩
  | cons c s ih =>
    have hdigit : c.isDigit = true := h c List.mem_cons_self
    rw [Char.isDigit, Bool.and_eq_true, decide_eq_true_iff, decide_eq_true_iff] at hdigit
    obtain ⟨hlow, hhigh⟩ := hdigit
    have hlow' : 48 ≤ c.toNat := UInt32.le_iff_toNat_le.mp hlow
    have hhigh' : c.toNat ≤ 57 := UInt32.le_iff_toNat_le.mp hhigh
    -- a decimal digit is one to the base ten
    have hto : toDigit 10 c = some (c.toNat - 48) := by
      have hle : '0' ≤ c ∧ c ≤ '9' := ⟨hlow, hhigh⟩
      simp only [toDigit, if_pos hle]
      rw [if_pos (by omega)]
    obtain ⟨n, hn, hlt⟩ := ih (fun d hd => h d (List.mem_cons_of_mem c hd))
      (acc * 10 + (c.toNat - 48))
    refine ⟨n, ?_, hlt.trans_le ?_⟩
    · simp only [List.foldlM_cons, pushDigit, hto, Option.map_some, Option.bind_eq_bind,
        Option.bind_some]
      exact hn
    · rw [List.length_cons, pow_succ', ← mul_assoc]
      exact Nat.mul_le_mul_right _ (by omega)

/-- A number is determined by its decimal digits. -/
theorem toDigits_inj {n n' : ℕ} (h : Nat.toDigits 10 n = Nat.toDigits 10 n') : n = n' := by
  have hfold := foldlM_toDigits n
  rw [h, foldlM_toDigits] at hfold
  exact (Option.some.inj hfold).symm

theorem fromStrRadix_of_foldlM {radix bits n : ℕ} {s : List Char} (hs : s ≠ [])
    (hsign : ∀ c ∈ s, c ≠ '+') (hfold : s.foldlM (pushDigit radix) 0 = some n)
    (hn : n < 2 ^ bits) : fromStrRadix radix bits s = some n := by
  have hhead : s.head? ≠ some '+' := fun h => hsign _ (List.mem_of_head? h) rfl
  simp only [fromStrRadix, if_neg hhead, if_neg hs, hfold]
  simp [hn]

/-- Decimal digits are read, if every number of as many digits fits. -/
theorem exists_fromStrRadix_digits {s : List Char} {bits : ℕ} (hs : s ≠ [])
    (h : ∀ c ∈ s, c.isDigit = true) (hbits : 10 ^ s.length ≤ 2 ^ bits) :
    ∃ n, fromStrRadix 10 bits s = some n := by
  obtain ⟨n, hn, hlt⟩ := exists_foldlM_digits h 0
  rw [Nat.zero_add, Nat.one_mul] at hlt
  refine ⟨n, fromStrRadix_of_foldlM hs (fun c hc => ?_) hn (hlt.trans_le hbits)⟩
  rintro rfl
  exact absurd (h _ hc) (by decide)

/-- A number written in `width` hexadecimal digits is read back, as far as they reach. -/
theorem fromStrRadix_hexPad {width bits : ℕ} (n : ℕ) (hwidth : 0 < width)
    (hbits : 16 ^ width ≤ 2 ^ bits) :
    fromStrRadix 16 bits (hexPad width n) = some (n % 16 ^ width) := by
  have hne : hexPad width n ≠ [] := by
    rw [← List.length_pos_iff, length_hexPad]
    exact hwidth
  apply fromStrRadix_of_foldlM hne fun c hc => (hexPad_plain hc).2.1
  · rw [foldlM_hexPad, Nat.zero_mul, Nat.zero_add]
  · exact (Nat.mod_lt n (Nat.pow_pos (by decide))).trans_le hbits

/-- A number written in decimal digits is read back, if it fits. -/
theorem fromStrRadix_toDigits {n bits : ℕ} (h : n < 2 ^ bits) :
    fromStrRadix 10 bits (Nat.toDigits 10 n) = some n :=
  fromStrRadix_of_foldlM Nat.toDigits_ne_nil (fun _ hc => (toDigits_plain hc).2)
    (foldlM_toDigits n) h

end Text

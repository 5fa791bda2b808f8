import RustNet.Foundations.Offsets
import RustNet.Foundations.Run

/-!
# The input line of the filter

The query of the filter, and a cursor that is a number of bytes. Every key moves the cursor by one
byte, however many its character has. As long as all that is typed is of ASCII, the line is a text
before the cursor and one behind it, and each key does to these what it says; the first other
character that is typed leaves the cursor inside it, where the next edit panics.

## Main definitions

* `FilterState`, with the operations of `UIState` on the filter, and `FilterState.handleKey`;
* `FilterLine`: what the line is for the user, a text on either side of a cursor;
* `EditsAtCursor`: the code has not panicked, its cursor is at a character, and the line is the
  user's.

## Main results

* `press_render`: a key does to the state what it does to the line;
* `editsAtCursor_iff`: the line is right throughout a run exactly if every character typed is of
  ASCII.
-/

namespace RustNet

/-- `KeyCode`, as far as the filter tells them apart. -/
inductive KeyCode
  | enter
  | esc
  | backspace
  | delete
  | left
  | right
  | home
  | «end»
  | up
  | down
  | char (c : Char)
  | other

/-- A key press: whether the control key is held, and whether the overview is the visible tab. -/
structure KeyPress where
  code : KeyCode
  control : Bool
  onOverview : Bool

/-- `is_filter_backspace_char`: the characters that terminals send for the backspace key. -/
def isFilterBackspaceChar (c : Char) (control : Bool) : Bool :=
  c == '\x08' || c == '\x7f' || (c == 'h' && control)

/-- `String::len`: the length in bytes of UTF-8, not in characters. -/
def byteLen (text : List Char) : ℕ := Offsets.extent Char.utf8Size text

/-- The filter in `UIState`; the query as its characters. -/
structure FilterState where
  filterMode : Bool
  filterQuery : List Char
  filterCursorPosition : ℕ
deriving DecidableEq

namespace FilterState

/-- The filter's part of `UIState::default`: not being typed, empty, with the cursor at its
start. -/
def default : FilterState := ⟨false, [], 0⟩

/-- `enter_filter_mode`: the cursor goes to the end of the query, counted in bytes. -/
def enterFilterMode (s : FilterState) : FilterState :=
  { s with filterMode := true, filterCursorPosition := byteLen s.filterQuery }

/-- `exit_filter_mode`: the query stays, and the cursor goes to its start. -/
def exitFilterMode (s : FilterState) : FilterState :=
  { s with filterMode := false, filterCursorPosition := 0 }

/-- `clear_filter`: the query goes as well. -/
def clearFilter (s : FilterState) : FilterState := { s with filterQuery := [] }.exitFilterMode

/-- What `reset_view` does to the filter, whatever it was. -/
def resetView (_ : FilterState) : FilterState := ⟨false, [], 0⟩

/-- `filter_add_char`; `none` is a panic. -/
def filterAddChar (s : FilterState) (c : Char) : Option FilterState :=
  (Offsets.insert Char.utf8Size s.filterCursorPosition c s.filterQuery).map fun query =>
    { s with filterQuery := query, filterCursorPosition := s.filterCursorPosition + 1 }

/-- `filter_backspace`: the character that starts a byte before the cursor is removed.
`String::remove` panics where no character starts. -/
def filterBackspace (s : FilterState) : Option FilterState :=
  if 0 < s.filterCursorPosition then
    (Offsets.remove Char.utf8Size (s.filterCursorPosition - 1) s.filterQuery).map fun query =>
      { s with filterQuery := query, filterCursorPosition := s.filterCursorPosition - 1 }
  else some s

/-- The arm of the delete key. -/
def filterDelete (s : FilterState) : Option FilterState :=
  if s.filterCursorPosition < byteLen s.filterQuery then
    (Offsets.remove Char.utf8Size s.filterCursorPosition s.filterQuery).map fun query =>
      { s with filterQuery := query }
  else some s

/-- `filter_cursor_left`: one byte to the left, not beyond the start. -/
def filterCursorLeft (s : FilterState) : FilterState :=
  if 0 < s.filterCursorPosition then
    { s with filterCursorPosition := s.filterCursorPosition - 1 }
  else s

/-- `filter_cursor_right`: one byte to the right, not beyond the end. -/
def filterCursorRight (s : FilterState) : FilterState :=
  if s.filterCursorPosition < byteLen s.filterQuery then
    { s with filterCursorPosition := s.filterCursorPosition + 1 }
  else s

/-- `handle_filter_mode_key`: what a key does to the line while the filter is being typed; a key
that is not among these does nothing to it. -/
def handleFilterModeKey (s : FilterState) (key : KeyPress) : Option FilterState :=
  match key.code with
  | .enter => some s.exitFilterMode
  | .esc => some s.clearFilter
  | .backspace => s.filterBackspace
  | .delete => s.filterDelete
  | .left => some s.filterCursorLeft
  | .right => some s.filterCursorRight
  | .home => some { s with filterCursorPosition := 0 }
  | .«end» => some { s with filterCursorPosition := byteLen s.filterQuery }
  -- the selection moves, not the cursor
  | .up | .down => some s
  | .char c =>
    if isFilterBackspaceChar c key.control then s.filterBackspace else s.filterAddChar c
  | .other => some s

/-- What a key does to the filter: `dispatch_key`, and the fallback for a key that no tab claims. -/
def handleKey (s : FilterState) (key : KeyPress) : Option FilterState :=
  if s.filterMode then s.handleFilterModeKey key
  else
    match key.code with
    | .char '/' => if key.onOverview then some s.enterFilterMode else some s
    | .char 'r' => if key.onOverview then some s.resetView else some s
    | .esc => if s.filterQuery.isEmpty then some s else some s.clearFilter
    | _ => some s

end FilterState

/-! ## The line -/

/-- The line for the user: a text on either side of the cursor. -/
structure FilterLine where
  editing : Bool
  before : List Char
  after : List Char

namespace FilterLine

/-- What is typed while the line is edited. -/
def typed (line : FilterLine) (key : KeyPress) : Option Char :=
  match line.editing, key.code with
  | true, .char c => if isFilterBackspaceChar c key.control then none else some c
  | _, _ => none

/-- The character before the cursor goes. -/
def backspace (line : FilterLine) : FilterLine := { line with before := line.before.dropLast }

/-- What a key is to do to the line. -/
def press (line : FilterLine) (key : KeyPress) : FilterLine :=
  if line.editing then
    -- while the query is typed every key goes to it
    match key.code with
    | .enter => ⟨false, [], line.before ++ line.after⟩
    | .esc => ⟨false, [], []⟩
    | .backspace => line.backspace
    | .delete => { line with after := line.after.tail }
    | .left =>
      ⟨true, line.before.dropLast, line.before.getLast?.toList ++ line.after⟩
    | .right =>
      ⟨true, line.before ++ line.after.head?.toList, line.after.tail⟩
    | .home => ⟨true, [], line.before ++ line.after⟩
    | .«end» => ⟨true, line.before ++ line.after, []⟩
    | .char c =>
      if isFilterBackspaceChar c key.control then line.backspace
      else { line with before := line.before ++ [c] }
    | _ => line
  else
    -- and otherwise only the keys that open or clear it do
    match key.code with
    | .char '/' => if key.onOverview then ⟨true, line.before ++ line.after, []⟩ else line
    | .char 'r' => if key.onOverview then ⟨false, [], []⟩ else line
    | .esc => if (line.before ++ line.after).isEmpty then line else ⟨false, [], []⟩
    | _ => line

/-- The state of the code that shows a line. -/
def render (line : FilterLine) : FilterState where
  filterMode := line.editing
  filterQuery := line.before ++ line.after
  filterCursorPosition := byteLen line.before

end FilterLine

/-- The code has not panicked, its cursor is in the query and at a character of it, and query and
cursor are those of the line. -/
structure EditsAtCursor (state : Option FilterState) (line : FilterLine) : Prop where
  shows : state = some line.render
  cursor_le : ∀ s ∈ state, s.filterCursorPosition ≤ byteLen s.filterQuery
  isCharBoundary : ∀ s ∈ state,
    (Offsets.split Char.utf8Size s.filterCursorPosition s.filterQuery).isSome = true

/-- A run of the code beside the line. -/
def stepBoth (p : Option FilterState × FilterLine) (key : KeyPress) :
    Option FilterState × FilterLine :=
  (p.1.bind fun s => s.handleKey key, p.2.press key)

/-- What is typed is of ASCII. -/
def TypesAscii (p : Option FilterState × FilterLine) (key : KeyPress) : Prop :=
  ∀ c ∈ p.2.typed key, c.toNat < 128

/-! ## One key -/

section Key

variable {line : FilterLine} {key : KeyPress} {state : Option FilterState} {c : Char}

theorem utf8Size_of_ascii (h : c.toNat < 128) : c.utf8Size = 1 :=
  Char.utf8Size_eq_one_iff.mpr (UInt32.le_iff_toNat_le.mpr (Nat.le_of_lt_succ h))

theorem utf8Size_eq_one_iff : c.utf8Size = 1 ↔ c.toNat < 128 := by
  refine ⟨fun h => ?_, utf8Size_of_ascii⟩
  exact Nat.lt_succ_of_le (UInt32.le_iff_toNat_le.mp (Char.utf8Size_eq_one_iff.mp h))

@[simp]
theorem byteLen_append (text text' : List Char) :
    byteLen (text ++ text') = byteLen text + byteLen text' :=
  Offsets.extent_append _ _ _

@[simp]
theorem byteLen_cons (c : Char) (text : List Char) :
    byteLen (c :: text) = c.utf8Size + byteLen text :=
  Offsets.extent_cons _ _ _

@[simp]
theorem byteLen_nil : byteLen [] = 0 := rfl

/-- All that is in the line is of ASCII. -/
def FilterLine.IsAscii (line : FilterLine) : Prop := ∀ c ∈ line.before ++ line.after, c.toNat < 128

/-- With a character of ASCII before the cursor, the cursor is one byte behind that. -/
theorem render_concat {editing : Bool} {before after : List Char} (h : c.toNat < 128) :
    FilterLine.render ⟨editing, before ++ [c], after⟩ =
      ⟨editing, before ++ c :: after, byteLen before + 1⟩ := by
  simp [FilterLine.render, utf8Size_of_ascii h]

theorem filterBackspace_render (h : line.IsAscii) :
    line.render.filterBackspace = some line.backspace.render := by
  obtain ⟨editing, before, after⟩ := line
  rcases List.eq_nil_or_concat' before with rfl | ⟨before, c, rfl⟩
  · rfl
  · rw [render_concat (h c (by simp)), FilterState.filterBackspace, if_pos (Nat.succ_pos _)]
    simp only [Nat.add_sub_cancel]
    rw [byteLen, Offsets.remove_append Char.utf8Size_pos]
    simp [FilterLine.backspace, FilterLine.render, byteLen]

theorem filterCursorLeft_render (h : line.IsAscii) :
    line.render.filterCursorLeft = FilterLine.render
      ⟨line.editing, line.before.dropLast, line.before.getLast?.toList ++ line.after⟩ := by
  obtain ⟨editing, before, after⟩ := line
  rcases List.eq_nil_or_concat' before with rfl | ⟨before, c, rfl⟩
  · rfl
  · rw [render_concat (h c (by simp)), FilterState.filterCursorLeft, if_pos (Nat.succ_pos _)]
    simp [FilterLine.render]

theorem cursor_lt_iff {editing : Bool} {before after : List Char} :
    (FilterLine.render ⟨editing, before, after⟩).filterCursorPosition <
      byteLen (FilterLine.render ⟨editing, before, after⟩).filterQuery ↔ after ≠ [] := by
  simp only [FilterLine.render, byteLen_append, Nat.lt_add_right_iff_pos]
  constructor
  · rintro hpos rfl
    exact absurd hpos (by simp)
  · exact Offsets.extent_pos Char.utf8Size_pos

theorem filterCursorRight_render (h : line.IsAscii) :
    line.render.filterCursorRight = FilterLine.render
      ⟨line.editing, line.before ++ line.after.head?.toList, line.after.tail⟩ := by
  obtain ⟨editing, before, after⟩ := line
  rw [FilterState.filterCursorRight]
  cases after with
  | nil =>
    rw [if_neg (cursor_lt_iff.not.mpr (not_not.mpr rfl))]
    simp [FilterLine.render]
  | cons c after =>
    rw [if_pos (cursor_lt_iff.mpr (List.cons_ne_nil c after))]
    exact (render_concat (h c (by simp))).symm

theorem filterDelete_render (line : FilterLine) :
    line.render.filterDelete = some (FilterLine.render { line with after := line.after.tail }) := by
  obtain ⟨editing, before, after⟩ := line
  rw [FilterState.filterDelete]
  cases after with
  | nil =>
    rw [if_neg (cursor_lt_iff.not.mpr (not_not.mpr rfl))]
    rfl
  | cons c after =>
    rw [if_pos (cursor_lt_iff.mpr (List.cons_ne_nil c after))]
    simp only [FilterLine.render, byteLen]
    rw [Offsets.remove_append Char.utf8Size_pos]
    rfl

/-- What is typed is inserted at the cursor, and the cursor moves by a byte. -/
theorem filterAddChar_render (line : FilterLine) (c : Char) :
    line.render.filterAddChar c =
      some ⟨line.editing, line.before ++ c :: line.after, byteLen line.before + 1⟩ := by
  rw [FilterState.filterAddChar, FilterLine.render, byteLen,
    Offsets.insert_append Char.utf8Size_pos]
  rfl

/-- While the line is not edited, a key may open it or clear it. -/
theorem press_render_of_not_editing (hediting : line.editing = false) :
    line.render.handleKey key = some (line.press key).render := by
  obtain ⟨editing, before, after⟩ := line
  obtain rfl : editing = false := hediting
  obtain ⟨code, control, onOverview⟩ := key
  cases code with
  | char c =>
    -- a slash opens the line, the letter r resets it
    by_cases hslash : c = '/'
    · subst hslash
      cases onOverview
      · rfl
      · simp [FilterState.handleKey, FilterLine.press, FilterLine.render,
          FilterState.enterFilterMode]
    · by_cases hreset : c = 'r'
      · subst hreset
        cases onOverview <;> rfl
      · simp [FilterState.handleKey, FilterLine.press, FilterLine.render, hslash, hreset]
  | esc =>
    -- the escape key clears a line that is not empty
    show (if (before ++ after).isEmpty then _ else _) =
      some (FilterLine.render (if (before ++ after).isEmpty then _ else _))
    split_ifs <;> rfl
  | _ => rfl

/-- A key does to the state what it does to the line, as long as all is of ASCII. -/
theorem press_render (h : line.IsAscii) (htyped : ∀ c ∈ line.typed key, c.toNat < 128) :
    line.render.handleKey key = some (line.press key).render := by
  cases hediting : line.editing with
  | false => exact press_render_of_not_editing hediting
  | true =>
    obtain ⟨editing, before, after⟩ := line
    obtain rfl : editing = true := hediting
    obtain ⟨code, control, onOverview⟩ := key
    cases code with
    | backspace => exact filterBackspace_render h
    | delete => exact filterDelete_render _
    | left => exact congrArg some (filterCursorLeft_render h)
    | right => exact congrArg some (filterCursorRight_render h)
    | char c =>
      -- some terminals send a control character for the backspace key
      show (if isFilterBackspaceChar c control then _ else _) =
        some (FilterLine.render (if isFilterBackspaceChar c control then _ else _))
      split_ifs with hback
      · exact filterBackspace_render h
      · -- one byte is the whole character
        have hc : c.toNat < 128 := htyped c (by simp [FilterLine.typed, hback])
        rw [filterAddChar_render, render_concat hc]
    | «end» =>
      show some (FilterState.mk true (before ++ after) (byteLen (before ++ after))) = _
      simp [FilterLine.render, FilterLine.press]
    | _ => rfl

/-- A character that is not of ASCII leaves the cursor elsewhere. -/
theorem ne_press_render (htyped : c ∈ line.typed key) (hc : 128 ≤ c.toNat) :
    line.render.handleKey key ≠ some (line.press key).render := by
  obtain ⟨editing, before, after⟩ := line
  obtain ⟨code, control, onOverview⟩ := key
  cases editing with
  | false => cases htyped
  | true =>
    cases code with
    | char d =>
      change c ∈ (if isFilterBackspaceChar d control then none else some d) at htyped
      split_ifs at htyped with hback
      · cases htyped
      obtain rfl := Option.some.inj htyped
      show (if isFilterBackspaceChar d control then _ else _) ≠
        some (FilterLine.render (if isFilterBackspaceChar d control then _ else _))
      rw [if_neg hback, if_neg hback, filterAddChar_render]
      -- the cursor is one byte further, the text before it more than one
      intro heq
      have hcursor := congrArg FilterState.filterCursorPosition (Option.some.inj heq)
      simp only [FilterLine.render, byteLen_append, byteLen_cons, byteLen_nil] at hcursor
      have hsize : d.utf8Size = 1 := by omega
      exact absurd (utf8Size_eq_one_iff.mp hsize) (by omega)
    | _ => cases htyped

/-- A key adds no other character to the line than what is typed. -/
theorem mem_press (h : c ∈ (line.press key).before ++ (line.press key).after) :
    c ∈ line.before ++ line.after ∨ c ∈ line.typed key := by
  obtain ⟨editing, before, after⟩ := line
  obtain ⟨code, control, onOverview⟩ := key
  cases editing with
  | false =>
    -- the line stays as it is, or is cleared
    left
    cases code with
    | char d =>
      by_cases hslash : d = '/'
      · subst hslash
        cases onOverview <;> simpa [FilterLine.press] using h
      · by_cases hreset : d = 'r'
        · subst hreset
          cases onOverview
          · exact h
          · cases h
        · simpa [FilterLine.press, hslash, hreset] using h
    | esc =>
      change c ∈ FilterLine.before (if (before ++ after).isEmpty then _ else _) ++
        FilterLine.after (if (before ++ after).isEmpty then _ else _) at h
      split_ifs at h
      · exact h
      · cases h
    | _ => exact h
  | true =>
    cases code with
    | enter | home => exact Or.inl h
    | esc => cases h
    | backspace =>
      exact Or.inl (List.mem_append.mpr
        ((List.mem_append.mp h).imp_left (List.dropLast_subset before ·)))
    | delete =>
      exact Or.inl (List.mem_append.mpr ((List.mem_append.mp h).imp_right List.mem_of_mem_tail))
    | left =>
      left
      rcases List.mem_append.mp h with h | h
      · exact List.mem_append_left after (List.dropLast_subset before h)
      · rcases List.mem_append.mp h with h | h
        · exact List.mem_append_left after (List.mem_of_getLast? (Option.mem_toList.mp h))
        · exact List.mem_append_right before h
    | right =>
      left
      rcases List.mem_append.mp h with h | h
      · rcases List.mem_append.mp h with h | h
        · exact List.mem_append_left after h
        · exact List.mem_append_right before (List.mem_of_head? (Option.mem_toList.mp h))
      · exact List.mem_append_right before (List.mem_of_mem_tail h)
    | «end» => exact Or.inl (by simpa [FilterLine.press] using h)
    | char d =>
      by_cases hback : isFilterBackspaceChar d control = true
      · simp only [FilterLine.press, hback, if_true] at h
        exact Or.inl
          (List.mem_append.mpr ((List.mem_append.mp h).imp_left (List.dropLast_subset before ·)))
      · simp only [FilterLine.press, hback, if_true] at h
        simp only [FilterLine.typed, hback]
        simp only [Bool.false_eq_true, if_false, List.append_assoc, List.mem_append,
          List.mem_singleton, Option.mem_some_iff] at h ⊢
        tauto
    | _ => exact Or.inl h

theorem isAscii_press (h : line.IsAscii) (htyped : ∀ c ∈ line.typed key, c.toNat < 128) :
    (line.press key).IsAscii :=
  fun c hc => (mem_press hc).elim (h c) (htyped c)

/-- The state that shows a line has its cursor at a character. -/
theorem editsAtCursor_iff_shows : EditsAtCursor state line ↔ state = some line.render := by
  refine ⟨EditsAtCursor.shows, ?_⟩
  rintro rfl
  refine ⟨rfl, ?_, ?_⟩
  · rintro s hs
    obtain rfl := Option.some.inj hs
    simp [FilterLine.render]
  · rintro s hs
    obtain rfl := Option.some.inj hs
    rw [FilterLine.render, byteLen, Offsets.split_append Char.utf8Size_pos]
    rfl

end Key

/-! ## Runs -/

/-- The code shows the line, and all that is in it is of ASCII. -/
def ShowsAscii (p : Option FilterState × FilterLine) : Prop :=
  p.1 = some p.2.render ∧ p.2.IsAscii

/-- **The line is right throughout a run exactly if every character typed is of ASCII.** The run is
of the code and of a line editor beside it, from the empty filter, on any keys. A character with
more than one byte takes the cursor, which counts characters, off its place in the query, which is
cut at bytes. -/
theorem editsAtCursor_iff (keys : List KeyPress) :
    Run.Always stepBoth (fun p => EditsAtCursor p.1 p.2) (some FilterState.default, ⟨false, [], []⟩)
        keys ↔
      Run.Along stepBoth TypesAscii (some FilterState.default, ⟨false, [], []⟩) keys := by
  simp only [editsAtCursor_iff_shows]
  apply Run.always_iff_along_of_keep (J := ShowsAscii)
  · exact fun p h => h.1
  · -- as long as all is of ASCII, the line is shown after a key exactly if that types ASCII
    rintro ⟨state, line⟩ key ⟨hshows, hascii⟩
    obtain rfl : state = some line.render := hshows
    constructor
    · intro hshows c hc
      by_contra hwide
      exact ne_press_render hc (Nat.le_of_not_lt hwide) hshows
    · exact press_render hascii
  -- a line of ASCII stays one when ASCII is typed
  · rintro ⟨state, line⟩ key ⟨hshows, hascii⟩ htyped
    obtain rfl : state = some line.render := hshows
    exact ⟨press_render hascii htyped, isAscii_press hascii htyped⟩
  · exact ⟨rfl, by simp [FilterLine.IsAscii]⟩

/-- An `é` leaves the cursor between its two bytes, and the next character panics. -/
theorem not_editsAtCursor :
    ¬ ∀ keys : List KeyPress, Run.Always stepBoth (fun p => EditsAtCursor p.1 p.2)
      (some FilterState.default, ⟨false, [], []⟩) keys := by
  intro h
  have hlast := (h [⟨.char '/', false, true⟩, ⟨.char 'é', false, true⟩,
    ⟨.char 'a', false, true⟩]).last.shows
  exact absurd hlast (by decide +kernel)

end RustNet

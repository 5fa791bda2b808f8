import Mathlib.Data.String.Basic
import RustNet.App.Selection
import RustNet.Network.Types.Display

/-!
# Keys in the view by process

The arrow keys and the page keys take the rows of the view by process where this is shown. The keys
for the first and the last row and the copy key do not, nor do the arrow keys while the filter is
typed: they take the flat list, which is sorted in another way, starts with no header and has the
connections of collapsed groups.

What they do to the highlight follows from the row that stands for a connection there: its own, if
it is shown, and otherwise the header of the group that was selected before.

## Main definitions

* `UiState.press`: what a key does;
* `UiState.ActsOnRows`: what it is to do in the view by process;
* `UiState.StandsFor`, `UiState.RowsAgree`: where the flat list leads to the same row.

## Main results

* `RowsOf.computeGroupedRows`: the rows of a list of connections;
* `actsOnRows_iff`: for every key, when it does what it is to do.
-/

namespace RustNet

/-- `KeyModifiers`: the bits that a key event carries. -/
structure KeyModifiers where
  shift : Bool
  control : Bool
  alt : Bool
  superKey : Bool
  hyper : Bool
  metaKey : Bool
deriving DecidableEq

namespace KeyModifiers

/-- `KeyModifiers::NONE`: the key alone. -/
def none : KeyModifiers := ⟨false, false, false, false, false, false⟩

/-- `KeyModifiers::SHIFT`: shift and nothing else, as a comparison with `==` asks for it. -/
def onlyShift : KeyModifiers := { none with shift := true }

/-- `KeyModifiers::CONTROL`: control and nothing else. -/
def onlyControl : KeyModifiers := { none with control := true }

end KeyModifiers

/-- `KeyCode`, with the page keys, which the filter does not tell from the others. -/
inductive NavKeyCode
  | key (code : KeyCode)
  | pageUp
  | pageDown

/-- The key code as the filter takes it. -/
def NavKeyCode.toKeyCode : NavKeyCode → KeyCode
  | key code => code
  | pageUp | pageDown => .other

/-- `KeyEvent`: a key that was pressed, with its modifiers. -/
structure KeyEvent where
  code : NavKeyCode
  modifiers : KeyModifiers

/-- `Effect`, as far as these keys have any. -/
inductive Effect
  | copy (label value : String)
  | refreshData
deriving DecidableEq

/-- The arms of `try_handle_connection_nav`: the moves of the selection, and the copying of an
address. -/
inductive NavAction
  | up
  | down
  | pageUp
  | pageDown
  | first
  | last
  | copy
deriving DecidableEq

/-- The patterns of the arms. -/
def KeyEvent.navAction (key : KeyEvent) : Option NavAction :=
  match key.code with
  | .key .up => some .up
  | .key .down => some .down
  | .pageUp => some .pageUp
  | .pageDown => some .pageDown
  | .key (.char c) =>
    -- the letters stand for the arrows and for the pages
    if c = 'k' then some .up
    else if c = 'j' then some .down
    else if c = 'b' ∧ key.modifiers = .onlyControl then some .pageUp
    else if c = 'f' ∧ key.modifiers = .onlyControl then some .pageDown
    else if c = 'g' ∧ key.modifiers = .none then some .first
    else if c = 'G' ∨ c = 'g' ∧ key.modifiers = .onlyShift then some .last
    else if c = 'c' ∧ key.modifiers = .none then some .copy
    else none
  | _ => none

/-- The arrow keys are the only ones that `handle_filter_mode_key` moves the selection for. -/
def KeyEvent.filterAction (key : KeyEvent) : Option NavAction :=
  match key.code with
  | .key .up => some .up
  | .key .down => some .down
  | _ => none

variable {ρ : Type}

namespace UiState

/-- The arms of `try_handle_connection_nav`. The rows are taken where the view by process is on. -/
def navigate (s : UiState) (connections : List (RatedConnection ρ))
    (groupedRows : Option (List (GroupedRow ρ))) : NavAction → UiState × List Effect
  | .up =>
    match s.groupingEnabled, groupedRows with
    | true, some rows => (s.moveSelectionUpGrouped rows, [])
    | _, _ => (s.moveSelectionUp connections, [])
  | .down =>
    match s.groupingEnabled, groupedRows with
    | true, some rows => (s.moveSelectionDownGrouped rows, [])
    | _, _ => (s.moveSelectionDown connections, [])
  | .pageUp =>
    let pageSize := max s.visibleRows 1
    match s.groupingEnabled, groupedRows with
    | true, some rows => (s.moveSelectionPageUpGrouped rows pageSize, [])
    | _, _ => (s.moveSelectionPageUp connections pageSize, [])
  | .pageDown =>
    let pageSize := max s.visibleRows 1
    match s.groupingEnabled, groupedRows with
    | true, some rows => (s.moveSelectionPageDownGrouped rows pageSize, [])
    | _, _ => (s.moveSelectionPageDown connections pageSize, [])
  -- these ask for no rows
  | .first => (s.moveSelectionToFirst connections, [])
  | .last => (s.moveSelectionToLast connections, [])
  | .copy =>
    match (s.getSelectedIndex connections).bind (connections[·]?) with
    | some conn => (s, [.copy conn.remoteAddr.display conn.remoteAddr.display])
    | none => (s, [])

/-- `try_handle_connection_nav`; `none` for a key that it does not claim. -/
def tryHandleConnectionNav (s : UiState) (key : KeyEvent) (connections : List (RatedConnection ρ))
    (groupedRows : Option (List (GroupedRow ρ))) : Option (UiState × List Effect) :=
  key.navAction.map (s.navigate connections groupedRows)

/-- The effects of `handle_filter_mode_key`: the data are fetched again after a key that can change
the query. -/
def filterEffects (s : UiState) : KeyCode → List Effect
  | .enter | .esc | .backspace | .char _ => [.refreshData]
  | .delete => if s.filterCursorPosition < byteLen s.filterQuery then [.refreshData] else []
  | _ => []

/-- `handle_filter_mode_key`; `none` is a panic. The arrow keys move in the flat list. -/
def handleFilterModeKey (s : UiState) (key : KeyEvent) (connections : List (RatedConnection ρ)) :
    Option (UiState × List Effect) :=
  let moved :=
    match key.filterAction with
    | some .up => s.moveSelectionUp connections
    | some .down => s.moveSelectionDown connections
    | _ => s
  let press : KeyPress := ⟨key.code.toKeyCode, key.modifiers.control, true⟩
  (s.toFilterState.handleFilterModeKey press).map fun filter =>
    ({ moved with toFilterState := filter }, s.filterEffects key.code.toKeyCode)

/-- `OverviewTab::handle_key`, for the keys of the arms. -/
def press (s : UiState) (key : KeyEvent) (connections : List (RatedConnection ρ))
    (rows : List (GroupedRow ρ)) : Option (UiState × List Effect) :=
  if s.filterMode then s.handleFilterModeKey key connections
  else s.tryHandleConnectionNav key connections (some rows)

/-- What a key stands for in the current mode. -/
def action (s : UiState) (key : KeyEvent) : Option NavAction :=
  if s.filterMode then key.filterAction else key.navAction

/-! ## What the keys are to do -/

/-- The row that the table highlights: that of the selection, or by default the first. -/
def highlightedRow (s : UiState) (rows : List (GroupedRow ρ)) : Option (GroupedRow ρ) :=
  (s.getSelectedGroupedIndex rows).bind (rows[·]?)

end UiState

/-- What copying the connection of a row is to do; a header has none. -/
def GroupedRow.copyEffects : GroupedRow ρ → List Effect
  | group _ _ _ => []
  | connection _ conn _ => [.copy conn.remoteAddr.display conn.remoteAddr.display]

namespace UiState

/-- An action is to take the highlight to a row, or to copy from it. -/
def ActsOnRows (s : UiState) (rows : List (GroupedRow ρ)) (outcome : UiState × List Effect) :
    NavAction → Prop
  | .up => ∀ i, s.getSelectedGroupedIndex rows = some i →
      outcome.1.getSelectedGroupedIndex rows = some (Cursor.up rows.length i)
  | .down => ∀ i, s.getSelectedGroupedIndex rows = some i →
      outcome.1.getSelectedGroupedIndex rows = some (Cursor.down rows.length i)
  | .first => rows ≠ [] → outcome.1.getSelectedGroupedIndex rows = some 0
  | .last => rows ≠ [] → outcome.1.getSelectedGroupedIndex rows = some (rows.length - 1)
  | .copy => outcome.2 = ((s.highlightedRow rows).map GroupedRow.copyEffects).getD []
  -- a page may be of any size
  | .pageUp | .pageDown => True

/-- Row `i` stands for the connection with a key, where the group `selected` is selected. -/
inductive StandsFor (selected : Option String) (rows : List (GroupedRow ρ)) (key : String) (i : ℕ) :
    Prop
  /-- It is the row of the connection. -/
  | shown (h : rows.findIdx? (·.hasKey key) = some i)
  /-- The connection is not shown, and it is the header of the group. -/
  | header (hidden : ∀ row ∈ rows, row.hasKey key = false) (name : String)
      (hname : selected = some name) (h : rows.findIdx? (·.isHeaderOf name) = some i)
  /-- The group has no header either, and it is the first row. -/
  | first (hidden : ∀ row ∈ rows, row.hasKey key = false)
      (gone : ∀ name ∈ selected, ∀ row ∈ rows, row.isHeaderOf name = false) (h : i = 0)

/-- No row before the `i`-th is that of the same connection. -/
def FirstOfKey (rows : List (GroupedRow ρ)) (i : ℕ) : Prop :=
  ∀ row ∈ rows[i]?, ∀ key ∈ row.connectionKey, rows.findIdx? (·.hasKey key) = some i

/-- When an action does what it is to do. -/
def RowsAgree (s : UiState) (connections : List (RatedConnection ρ))
    (rows : List (GroupedRow ρ)) : NavAction → Prop
  | .up => ∀ i, s.getSelectedGroupedIndex rows = some i →
      if s.filterMode then
        -- the connection above in the flat list is that of the row above
        ∀ conn ∈ connections[Cursor.up connections.length
            ((s.getSelectedIndex connections).getD 0)]?,
          StandsFor s.selectedGroup rows conn.uiKey (Cursor.up rows.length i)
      else FirstOfKey rows (Cursor.up rows.length i)
  | .down => ∀ i, s.getSelectedGroupedIndex rows = some i →
      if s.filterMode then
        ∀ conn ∈ connections[Cursor.down connections.length
            ((s.getSelectedIndex connections).getD 0)]?,
          StandsFor s.selectedGroup rows conn.uiKey (Cursor.down rows.length i)
      else FirstOfKey rows (Cursor.down rows.length i)
  | .first => ∀ conn ∈ connections.head?,
      (∀ row ∈ rows, row.hasKey conn.uiKey = false) ∧
        ∀ name ∈ s.selectedGroup, ∀ i, rows.findIdx? (·.isHeaderOf name) = some i → i = 0
  | .last => ∀ conn ∈ connections.getLast?,
      StandsFor s.selectedGroup rows conn.uiKey (rows.length - 1)
  -- a connection is selected, and shown or gone
  | .copy => connections = [] ∨ ∃ key, s.selectedConnectionKey = some key ∧
      ((∃ row ∈ rows, row.hasKey key = true) ∨ ∀ conn ∈ connections, conn.uiKey ≠ key)
  | .pageUp | .pageDown => True

end UiState

/-! ## The key of a connection -/

namespace Connection

/-- What the key of a historic connection has behind the addresses. -/
def createdText (conn : Connection) : List Char :=
  if conn.isHistoric then
    ':' :: 'h' :: ':' :: Nat.toDigits 10 ((conn.createdAt.durationSince .unixEpoch).getD 0)
  else []

theorem toList_uiKey (conn : Connection) :
    conn.uiKey.toList = (conn.protocol.debug.toList ++ ':' :: conn.localAddr.display.toList) ++
      '-' :: (conn.protocol.debug.toList ++ ':' ::
        (conn.remoteAddr.display.toList ++ conn.createdText)) := by
  unfold uiKey createdText
  split_ifs <;> simp [ends, String.toList_append]

theorem notMem_debug {c : Char} (hc : c.isAlpha = false) (protocol : Protocol) :
    c ∉ protocol.debug.toList := by
  have halpha : protocol.debug.toList.all Char.isAlpha = true := by cases protocol <;> decide
  intro hmem
  rw [List.all_eq_true.mp halpha c hmem] at hc
  cases hc

theorem notMem_createdText {c : Char} (hdigit : c.isDigit = false) (hcolon : c ≠ ':') (hh : c ≠ 'h')
    (conn : Connection) : c ∉ conn.createdText := by
  unfold createdText
  split_ifs
  · simp [hcolon, hh, Text.notMem_toDigits hdigit]
  · simp

/-- Connections with the same key have the same remote address. -/
theorem remoteAddr_display_of_uiKey {conn conn' : Connection} (h : conn.uiKey = conn'.uiKey) :
    conn.remoteAddr.display = conn'.remoteAddr.display := by
  have hdash : ∀ addr : SocketAddr, '-' ∉ addr.display.toList := fun addr hmem =>
    addr.only_display (p := (· ≠ '-')) (by decide) (by decide) (by decide) (by decide) (by decide)
      '-' hmem rfl
  have hh : ∀ addr : SocketAddr, 'h' ∉ addr.display.toList := fun addr hmem =>
    addr.only_display (p := (· ≠ 'h')) (by decide) (by decide) (by decide) (by decide) (by decide)
      'h' hmem rfl
  have hchars := congrArg String.toList h
  rw [toList_uiKey, toList_uiKey] at hchars
  -- the last dash is the one between the addresses
  have hafter : ∀ conn : Connection, '-' ∉ conn.protocol.debug.toList ++ ':' ::
      (conn.remoteAddr.display.toList ++ conn.createdText) := by
    intro conn
    simp [notMem_debug (by decide : Char.isAlpha '-' = false), hdash conn.remoteAddr,
      notMem_createdText (by decide : Char.isDigit '-' = false)]
  have hremote := (Text.eq_of_append_separator (hafter conn) (hafter conn') hchars).2
  -- and the first colon behind it ends the protocol
  have hrest := (Text.eq_of_separator_append (notMem_debug (by decide) conn.protocol)
    (notMem_debug (by decide) conn'.protocol) hremote).2
  have hdigits : ∀ n, 'h' ∉ ':' :: Nat.toDigits 10 n := fun n => by
    simp [Text.notMem_toDigits (by decide : Char.isDigit 'h' = false)]
  -- a historic connection has an `h` behind its address, and no other
  unfold createdText at hrest
  apply String.toList_inj.mp
  split_ifs at hrest with hhistoric hhistoric' hhistoric'
  · have hcolon : conn.remoteAddr.display.toList ++ [':'] =
        conn'.remoteAddr.display.toList ++ [':'] :=
      (Text.eq_of_append_separator (hdigits _) (hdigits _) (by simpa using hrest)).1
    exact List.append_cancel_right hcolon
  · have hmem : 'h' ∈ conn'.remoteAddr.display.toList ++ [] := by
      rw [← hrest]
      simp
    rw [List.append_nil] at hmem
    exact absurd hmem (hh conn'.remoteAddr)
  · have hmem : 'h' ∈ conn.remoteAddr.display.toList ++ [] := by
      rw [hrest]
      simp
    rw [List.append_nil] at hmem
    exact absurd hmem (hh conn.remoteAddr)
  · simpa using hrest

end Connection

/-! ## The rows of a list -/

/-- What the keys depend on of the rows of a list. -/
structure RowsOf (connections : List (RatedConnection ρ)) (rows : List (GroupedRow ρ)) : Prop where
  eq_nil_iff : rows = [] ↔ connections = []
  /-- The first row is a header. -/
  head : ∀ row ∈ rows.head?, row.connectionKey = none
  /-- No group has two headers. -/
  nodup : ((headers rows).map Prod.fst).Nodup
  mem : ∀ processName conn isLast,
    GroupedRow.connection processName conn isLast ∈ rows → conn ∈ connections

theorem connection_mem_of_mem_groupRows {expandedGroups : Finset String} {name processName : String}
    {stats : ProcessGroupStats ρ} {conns : List (RatedConnection ρ)} {conn : RatedConnection ρ}
    {isLast : Bool}
    (h : GroupedRow.connection processName conn isLast ∈
      groupRows expandedGroups name stats conns) :
    conn ∈ conns := by
  rw [groupRows, List.mem_cons] at h
  rcases h with h | h
  · cases h
  · split_ifs at h with hexpanded
    · obtain ⟨⟨conn', i⟩, hmem, heq⟩ := List.mem_map.mp h
      obtain ⟨-, rfl, -⟩ := GroupedRow.connection.inj heq
      exact List.fst_mem_of_mem_zipIdx hmem
    · cases h

section Computed

variable [TextEngine] [Zero ρ] [Add ρ] (order : IterOrder String)
  (connections : List (RatedConnection ρ)) (expandedGroups : Finset String)

theorem connectionKey_head_computeGroupedRows :
    ∀ row ∈ (computeGroupedRows order connections expandedGroups).head?,
      row.connectionKey = none := by
  rw [computeGroupedRows_eq]
  cases (groupsOf connections).sortedIn TextEngine.toLowercase order with
  | nil => simp
  | cons e es => simp [groupRows, GroupedRow.connectionKey]

/-- These are the rows that the code computes. -/
theorem RowsOf.computeGroupedRows :
    RowsOf connections (computeGroupedRows order connections expandedGroups) where
  eq_nil_iff := by
    have hpartitions : Partitions connections expandedGroups
        (RustNet.computeGroupedRows order connections expandedGroups) :=
      partitions_computeGroupedRows
    have hnames := hpartitions.mem_iff
    constructor
    · intro hrows
      by_contra hne
      -- the group of a connection has a header
      obtain ⟨conn, hconn⟩ := List.exists_mem_of_ne_nil connections hne
      have hmem := (hnames conn.groupName).mpr ⟨conn, hconn, rfl⟩
      rw [hrows] at hmem
      cases hmem
    · rintro rfl
      by_contra hne
      obtain ⟨row, rows, hrows⟩ := List.exists_cons_of_ne_nil hne
      -- the first row is a header, which belongs to some connection
      have hhead := connectionKey_head_computeGroupedRows order ([] : List (RatedConnection ρ))
        expandedGroups row (by rw [hrows]; rfl)
      cases row with
      | group name stats expanded =>
        have hname : name ∈ (headers (.group name stats expanded :: rows)).map Prod.fst := by
          simp [headers, GroupedRow.header]
        rw [← hrows] at hname
        obtain ⟨conn, hconn, -⟩ := (hnames name).mp hname
        cases hconn
      | connection name conn isLast => cases hhead
  head := connectionKey_head_computeGroupedRows order connections expandedGroups
  nodup := partitions_computeGroupedRows.nodup
  mem processName conn isLast hmem := by
    rw [computeGroupedRows_eq, List.mem_flatMap] at hmem
    obtain ⟨⟨name, conns⟩, he, hmem⟩ := hmem
    obtain ⟨-, rfl⟩ := lookup_groupsOf_eq_some_iff.mp (AList.mem_sortedIn.mp he)
    exact List.mem_of_mem_filter (connection_mem_of_mem_groupRows hmem)

end Computed

namespace UiState

/-! ## The highlight after a move in the flat list -/

section Flat

variable {s : UiState} {connections : List (RatedConnection ρ)} {rows : List (GroupedRow ρ)}
  {key : String} {i : ℕ}

/-- Where a connection of the flat list is selected, the row that stands for it is highlighted. -/
theorem getSelectedGroupedIndex_iff_standsFor (hrows : rows ≠ []) :
    getSelectedGroupedIndex { s with selectedConnectionKey := some key } rows = some i ↔
      StandsFor s.selectedGroup rows key i := by
  -- the row of the connection, else the header of the group, else the first row
  have hindex : getSelectedGroupedIndex { s with selectedConnectionKey := some key } rows =
      (rows.findIdx? (·.hasKey key) <|>
        (s.selectedGroup.bind fun name => rows.findIdx? (·.isHeaderOf name)) <|> some 0) := by
    rw [getSelectedGroupedIndex, if_neg (by simpa using hrows)]
    rfl
  rw [hindex]
  constructor
  · intro h
    cases hshown : rows.findIdx? (·.hasKey key) with
    | some j =>
      rw [hshown] at h
      exact .shown (hshown.trans h)
    | none =>
      have hidden : ∀ row ∈ rows, row.hasKey key = false := List.findIdx?_eq_none_iff.mp hshown
      rw [hshown] at h
      cases hgroup : s.selectedGroup with
      | none =>
        rw [hgroup] at h
        exact .first hidden (fun name hname => by cases hname) (Option.some.inj h).symm
      | some name =>
        rw [hgroup] at h
        cases hheader : rows.findIdx? (·.isHeaderOf name) with
        | some j =>
          rw [Option.bind_some, hheader] at h
          exact .header hidden name rfl (hheader.trans h)
        | none =>
          rw [Option.bind_some, hheader] at h
          refine .first hidden (fun name' hname' => ?_) (Option.some.inj h).symm
          obtain rfl : name = name' := Option.some.inj hname'
          exact List.findIdx?_eq_none_iff.mp hheader
  · rintro (hshown | ⟨hidden, name, hgroup, hheader⟩ | ⟨hidden, hgone, rfl⟩)
    · rw [hshown]
      rfl
    · rw [List.findIdx?_eq_none_iff.mpr hidden, hgroup, Option.bind_some, hheader]
      rfl
    · have hheader : (s.selectedGroup.bind fun name => rows.findIdx? (·.isHeaderOf name)) = none :=
        Option.bind_eq_none_iff.mpr fun name hname =>
          List.findIdx?_eq_none_iff.mpr (hgone name hname)
      rw [List.findIdx?_eq_none_iff.mpr hidden, hheader]
      rfl

theorem setSelectedByIndex_eq {conn : RatedConnection ρ} (h : connections[i]? = some conn) :
    s.setSelectedByIndex connections i = { s with selectedConnectionKey := some conn.uiKey } := by
  rw [setSelectedByIndex, h]

end Flat

/-! ## Rows with headers -/

section Rows

variable {s : UiState} {connections : List (RatedConnection ρ)} {rows : List (GroupedRow ρ)}
  {key name : String} {i : ℕ} (h : RowsOf connections rows)

include h

/-- A header is found by its name. -/
theorem findIdx?_isHeaderOf (hi : i < rows.length) (hheader : rows[i].isHeaderOf name = true) :
    rows.findIdx? (·.isHeaderOf name) = some i := by
  have hnodup := h.nodup
  rw [headers, List.map_filterMap, List.Nodup, List.pairwise_filterMap] at hnodup
  -- an earlier header of the name would be a second one
  have hpair := List.pairwise_iff_getElem.mp hnodup
  refine List.findIdx?_eq_some_iff_getElem.mpr ⟨hi, hheader, fun j hj hheader' => ?_⟩
  have hname : ∀ {row : GroupedRow ρ}, row.isHeaderOf name = true →
      row.header.map Prod.fst = some name := by
    intro row hrow
    cases row with
    | group processName stats expanded =>
      simpa [GroupedRow.isHeaderOf, GroupedRow.header] using hrow
    | connection processName conn isLast => cases hrow
  exact hpair j i (hj.trans hi) hi hj name (hname hheader') name (hname hheader) rfl

/-- A row that the cursor is moved to is highlighted if it is a header, or the first of its
connection. -/
theorem getSelectedGroupedIndex_eq_iff_firstOfKey (hi : i < rows.length) :
    (s.setSelectedGroupedByIndex rows i).getSelectedGroupedIndex rows = some i ↔
      FirstOfKey rows i := by
  rw [getSelectedGroupedIndex_setSelectedGroupedByIndex hi, FirstOfKey,
    List.getElem?_eq_getElem hi]
  cases hrow : rows[i] with
  -- a process has one header, which is therefore the first
  | group name stats expanded =>
    have hfind : rows.findIdx? (·.isHeaderOf name) = some i :=
      findIdx?_isHeaderOf h hi (by rw [hrow]; exact beq_self_eq_true name)
    simp only [GroupedRow.isHeaderOf_eq] at hfind
    refine iff_of_true hfind ?_
    intro row hmem key hkey
    obtain rfl := Option.some.inj hmem
    cases hkey
  -- a connection is found at the first row with its key
  | connection processName conn isLast =>
    have hkey : rows.findIdx? (fun row => decide (row.rowKey = .inr conn.uiKey)) =
        rows.findIdx? (·.hasKey conn.uiKey) :=
      congrArg (rows.findIdx? ·) (funext fun row => (row.hasKey_eq conn.uiKey).symm)
    rw [GroupedRow.rowKey_connection, hkey]
    constructor
    · intro hfirst row hmem key hkey
      obtain rfl := Option.some.inj hmem
      obtain rfl := Option.some.inj hkey
      exact hfirst
    · intro hfirst
      exact hfirst _ rfl _ rfl

/-- The first row stands for a connection if that is not shown, and no other row is the header of
the selected group. -/
theorem standsFor_zero_iff {selected : Option String} :
    StandsFor selected rows key 0 ↔ (∀ row ∈ rows, row.hasKey key = false) ∧
      ∀ name ∈ selected, ∀ i, rows.findIdx? (·.isHeaderOf name) = some i → i = 0 := by
  constructor
  · rintro (hshown | ⟨hidden, name, rfl, hheader⟩ | ⟨hidden, hgone, -⟩)
    · -- a header is no row of a connection
      obtain ⟨hlt, hhas, -⟩ := List.findIdx?_eq_some_iff_getElem.mp hshown
      have hhead : rows.head? = some rows[0] := by
        rw [List.head?_eq_getElem?, List.getElem?_eq_getElem hlt]
      have hnone := h.head rows[0] hhead
      rw [GroupedRow.hasKey_iff, hnone] at hhas
      cases hhas
    · refine ⟨hidden, fun name' hname' i hi => ?_⟩
      obtain rfl : name = name' := Option.some.inj hname'
      exact Option.some.inj (hi.symm.trans hheader)
    · refine ⟨hidden, fun name hname i hi => ?_⟩
      rw [List.findIdx?_eq_none_iff.mpr (hgone name hname)] at hi
      cases hi
  · rintro ⟨hidden, hheaders⟩
    cases selected with
    -- no group is selected, so nothing else can stand for the connection
    | none => exact .first hidden (fun name hname => by cases hname) rfl
    | some name =>
      cases hheader : rows.findIdx? (·.isHeaderOf name) with
      | some i =>
        obtain rfl := hheaders name rfl i hheader
        exact .header hidden name rfl hheader
      | none =>
        refine .first hidden (fun name' hname' => ?_) rfl
        obtain rfl : name = name' := Option.some.inj hname'
        exact List.findIdx?_eq_none_iff.mp hheader

end Rows

/-! ## The keys -/

section Keys

variable {s : UiState} {connections : List (RatedConnection ρ)} {rows : List (GroupedRow ρ)}
  {key : KeyEvent} {i : ℕ} {outcome : UiState × List Effect} {action : NavAction}

theorem getSelectedIndex_getD_lt (s : UiState) (hne : connections ≠ []) :
    (s.getSelectedIndex connections).getD 0 < connections.length := by
  cases hindex : s.getSelectedIndex connections with
  | some i => exact getSelectedIndex_lt hindex
  | none => exact List.length_pos_of_ne_nil hne

/-- The highlight after a connection of the flat list is selected. -/
theorem getSelectedGroupedIndex_setSelectedByIndex_iff (hrows : rows ≠ []) {j : ℕ}
    (hj : j < connections.length) :
    (s.setSelectedByIndex connections j).getSelectedGroupedIndex rows = some i ↔
      ∀ conn ∈ connections[j]?, StandsFor s.selectedGroup rows conn.uiKey i := by
  rw [setSelectedByIndex_eq (List.getElem?_eq_getElem hj),
    getSelectedGroupedIndex_iff_standsFor hrows, List.getElem?_eq_getElem hj]
  constructor
  · intro h conn hconn
    obtain rfl := Option.some.inj hconn
    exact h
  · intro h
    exact h _ rfl

@[simp]
theorem toFilterState_setSelectedByIndex :
    (s.setSelectedByIndex connections i).toFilterState = s.toFilterState := by
  unfold setSelectedByIndex
  split <;> rfl

@[simp]
theorem toFilterState_moveSelectionUp (s : UiState) (connections : List (RatedConnection ρ)) :
    (s.moveSelectionUp connections).toFilterState = s.toFilterState := by
  unfold moveSelectionUp
  dsimp only
  split_ifs <;> simp

@[simp]
theorem toFilterState_moveSelectionDown (s : UiState) (connections : List (RatedConnection ρ)) :
    (s.moveSelectionDown connections).toFilterState = s.toFilterState := by
  unfold moveSelectionDown
  dsimp only
  split_ifs <;> simp

/-- While the filter is typed the arrow keys do what they do in the flat list. -/
theorem press_of_filterMode (hmode : s.filterMode = true) (haction : s.action key = some action) :
    (action = .up ∧ s.press key connections rows =
        some (s.moveSelectionUp connections, [])) ∨
      (action = .down ∧ s.press key connections rows =
        some (s.moveSelectionDown connections, [])) := by
  rw [UiState.action, if_pos hmode] at haction
  -- the filter stays as it is
  have hup : ({ s.moveSelectionUp connections with toFilterState := s.toFilterState } : UiState) =
      s.moveSelectionUp connections := by
    rw [← toFilterState_moveSelectionUp s connections]
  have hdown :
      ({ s.moveSelectionDown connections with toFilterState := s.toFilterState } : UiState) =
        s.moveSelectionDown connections := by
    rw [← toFilterState_moveSelectionDown s connections]
  obtain ⟨code, modifiers⟩ := key
  rw [press, if_pos hmode]
  unfold KeyEvent.filterAction at haction
  dsimp only at haction
  split at haction
  · exact Or.inl ⟨(Option.some.inj haction).symm, congrArg (fun moved => some (moved, [])) hup⟩
  · exact Or.inr ⟨(Option.some.inj haction).symm, congrArg (fun moved => some (moved, [])) hdown⟩
  · cases haction

theorem press_of_not_filterMode (hmode : s.filterMode = false)
    (haction : s.action key = some action) :
    s.press key connections rows = some (s.navigate connections (some rows) action) := by
  rw [UiState.action, if_neg (by simp [hmode])] at haction
  rw [press, if_neg (by simp [hmode]), tryHandleConnectionNav, haction]
  rfl

/-! ### Moves -/

section Moves

variable (h : RowsOf connections rows)

include h

/-- Where a row is highlighted, there are connections. -/
theorem ne_nil_of_getSelectedGroupedIndex (hi : s.getSelectedGroupedIndex rows = some i) :
    rows ≠ [] ∧ connections ≠ [] ∧ i < rows.length := by
  have hrows : rows ≠ [] := by
    rintro rfl
    cases hi
  obtain ⟨j, hlt, hj⟩ := s.exists_getSelectedGroupedIndex hrows
  obtain rfl : j = i := Option.some.inj (hj.symm.trans hi)
  exact ⟨hrows, fun hnil => hrows (h.eq_nil_iff.mpr hnil), hlt⟩

theorem up_iff_of_filterMode (hmode : s.filterMode = true) :
    s.ActsOnRows rows (s.moveSelectionUp connections, []) .up ↔
      s.RowsAgree connections rows .up := by
  refine forall_congr' fun i => imp_congr_right fun hi => ?_
  obtain ⟨hrows, hne, -⟩ := ne_nil_of_getSelectedGroupedIndex h hi
  rw [if_pos hmode, moveSelectionUp_eq hne]
  exact getSelectedGroupedIndex_setSelectedByIndex_iff hrows
    (Cursor.up_lt (getSelectedIndex_getD_lt s hne))

theorem down_iff_of_filterMode (hmode : s.filterMode = true) :
    s.ActsOnRows rows (s.moveSelectionDown connections, []) .down ↔
      s.RowsAgree connections rows .down := by
  refine forall_congr' fun i => imp_congr_right fun hi => ?_
  obtain ⟨hrows, hne, -⟩ := ne_nil_of_getSelectedGroupedIndex h hi
  rw [if_pos hmode, moveSelectionDown_eq hne]
  exact getSelectedGroupedIndex_setSelectedByIndex_iff hrows
    (Cursor.down_lt (getSelectedIndex_getD_lt s hne))

theorem up_iff_of_not_filterMode (hmode : s.filterMode = false) :
    s.ActsOnRows rows (s.moveSelectionUpGrouped rows, []) .up ↔
      s.RowsAgree connections rows .up := by
  refine forall_congr' fun i => imp_congr_right fun hi => ?_
  obtain ⟨hrows, -, hlt⟩ := ne_nil_of_getSelectedGroupedIndex h hi
  rw [if_neg (by simp [hmode]), moveSelectionUpGrouped_eq hrows, hi, Option.getD_some]
  exact getSelectedGroupedIndex_eq_iff_firstOfKey h (Cursor.up_lt hlt)

theorem down_iff_of_not_filterMode (hmode : s.filterMode = false) :
    s.ActsOnRows rows (s.moveSelectionDownGrouped rows, []) .down ↔
      s.RowsAgree connections rows .down := by
  refine forall_congr' fun i => imp_congr_right fun hi => ?_
  obtain ⟨hrows, -, hlt⟩ := ne_nil_of_getSelectedGroupedIndex h hi
  rw [if_neg (by simp [hmode]), moveSelectionDownGrouped_eq hrows, hi, Option.getD_some]
  exact getSelectedGroupedIndex_eq_iff_firstOfKey h (Cursor.down_lt hlt)

/-- The first row is highlighted only for want of another. -/
theorem first_iff : s.ActsOnRows rows (s.moveSelectionToFirst connections, []) .first ↔
    s.RowsAgree connections rows .first := by
  cases connections with
  | nil =>
    refine iff_of_true (fun hrows => absurd (h.eq_nil_iff.mpr rfl) hrows) fun conn hconn => ?_
    cases hconn
  | cons conn connections =>
    have hrows : rows ≠ [] := fun hnil => List.cons_ne_nil _ _ (h.eq_nil_iff.mp hnil)
    have hselected : (s.setSelectedByIndex (conn :: connections) 0).getSelectedGroupedIndex rows =
        some 0 ↔ ∀ conn' ∈ some conn, StandsFor s.selectedGroup rows conn'.uiKey 0 :=
      getSelectedGroupedIndex_setSelectedByIndex_iff hrows (Nat.succ_pos connections.length)
    constructor
    · intro hacts conn' hconn'
      exact (standsFor_zero_iff h).mp (hselected.mp (hacts hrows) conn' hconn')
    · intro hagree _
      exact hselected.mpr fun conn' hconn' => (standsFor_zero_iff h).mpr (hagree conn' hconn')

theorem last_iff : s.ActsOnRows rows (s.moveSelectionToLast connections, []) .last ↔
    s.RowsAgree connections rows .last := by
  -- without connections there are no rows, and nothing is asked of them
  by_cases hne : connections = []
  · refine iff_of_true (fun hrows => absurd (h.eq_nil_iff.mpr hne) hrows) fun conn hconn => ?_
    rw [hne] at hconn
    cases hconn
  have hrows : rows ≠ [] := fun hnil => hne (h.eq_nil_iff.mp hnil)
  have hlt : connections.length - 1 < connections.length :=
    Nat.sub_lt (List.length_pos_of_ne_nil hne) Nat.one_pos
  have hlast : s.moveSelectionToLast connections =
      s.setSelectedByIndex connections (connections.length - 1) := by
    rw [moveSelectionToLast, if_neg (by simpa using hne)]
  -- the key takes the last connection, and the last row is to be its row
  have hselected : (s.moveSelectionToLast connections).getSelectedGroupedIndex rows =
      some (rows.length - 1) ↔ ∀ conn ∈ connections.getLast?,
        StandsFor s.selectedGroup rows conn.uiKey (rows.length - 1) := by
    rw [hlast, List.getLast?_eq_getElem?]
    exact getSelectedGroupedIndex_setSelectedByIndex_iff hrows hlt
  exact ⟨fun hacts => hselected.mp (hacts hrows), fun hagree _ => hselected.mpr hagree⟩

end Moves

/-! ### Copying -/

section Copy

theorem navigate_copy (s : UiState) (connections : List (RatedConnection ρ))
    (groupedRows : Option (List (GroupedRow ρ))) :
    (s.navigate connections groupedRows .copy).2 =
      (((s.getSelectedIndex connections).bind (connections[·]?)).map fun conn =>
        [Effect.copy conn.remoteAddr.display conn.remoteAddr.display]).getD [] := by
  unfold navigate
  dsimp only
  cases (s.getSelectedIndex connections).bind (connections[·]?) <;> rfl

variable (h : RowsOf connections rows)

include h

/-- Where no row is that of the selected connection, a header is highlighted. -/
theorem highlightedRow_of_hidden (hrows : rows ≠ [])
    (hidden : ∀ key ∈ s.selectedConnectionKey, rows.findIdx? (·.hasKey key) = none) :
    ∃ row, s.highlightedRow rows = some row ∧ row.connectionKey = none := by
  have hconnection :
      (s.selectedConnectionKey.bind fun key => rows.findIdx? (·.hasKey key)) = none :=
    Option.bind_eq_none_iff.mpr hidden
  rw [highlightedRow, getSelectedGroupedIndex, if_neg (by simpa using hrows), hconnection]
  cases hgroup : s.selectedGroup.bind fun name => rows.findIdx? (·.isHeaderOf name) with
  | some i =>
    obtain ⟨name, -, hi⟩ := Option.bind_eq_some_iff.mp hgroup
    obtain ⟨hlt, hheader, -⟩ := List.findIdx?_eq_some_iff_getElem.mp hi
    exact ⟨rows[i], List.getElem?_eq_getElem hlt, (GroupedRow.isHeaderOf_iff.mp hheader).2⟩
  -- without a header of the selected group the first row stands in, which is a header
  | none =>
    obtain ⟨row, rows, rfl⟩ := List.exists_cons_of_ne_nil hrows
    exact ⟨row, rfl, h.head row rfl⟩

theorem copyEffects_of_hidden (hrows : rows ≠ [])
    (hidden : ∀ key ∈ s.selectedConnectionKey, rows.findIdx? (·.hasKey key) = none) :
    ((s.highlightedRow rows).map GroupedRow.copyEffects).getD [] = [] := by
  obtain ⟨row, hrow, hnone⟩ := highlightedRow_of_hidden h hrows hidden
  rw [hrow]
  cases row with
  | group name stats expanded => rfl
  | connection name conn isLast => cases hnone

/-- Where a row is, its connection is that of the key. -/
theorem copyEffects_of_shown {selectedKey : String}
    (hkey : s.selectedConnectionKey = some selectedKey)
    (hi : rows.findIdx? (·.hasKey selectedKey) = some i) :
    ∃ conn ∈ connections, conn.uiKey = selectedKey ∧
      ((s.highlightedRow rows).map GroupedRow.copyEffects).getD [] =
        [.copy conn.remoteAddr.display conn.remoteAddr.display] := by
  obtain ⟨hlt, hhas, -⟩ := List.findIdx?_eq_some_iff_getElem.mp hi
  have hrow : s.highlightedRow rows = some rows[i] := by
    rw [highlightedRow, getSelectedGroupedIndex_of_key hkey hi]
    exact List.getElem?_eq_getElem hlt
  -- the row of a key is that of a connection of the list
  have hmem : rows[i] ∈ rows := List.getElem_mem hlt
  rw [hrow]
  cases hshown : rows[i] with
  | group name stats expanded =>
    rw [hshown] at hhas
    cases hhas
  | connection name conn isLast =>
    rw [hshown] at hhas hmem
    exact ⟨conn, h.mem name conn isLast hmem, by simpa [GroupedRow.hasKey] using hhas, rfl⟩

theorem copy_iff : s.ActsOnRows rows (s.navigate connections (some rows) .copy) .copy ↔
    s.RowsAgree connections rows .copy := by
  show (s.navigate connections (some rows) .copy).2 = _ ↔ _
  rw [navigate_copy]
  by_cases hne : connections = []
  · have hrows : rows = [] := h.eq_nil_iff.mpr hne
    refine iff_of_true ?_ (Or.inl hne)
    simp [hne, hrows, highlightedRow, getSelectedGroupedIndex]
  have hrows : rows ≠ [] := fun hnil => hne (h.eq_nil_iff.mp hnil)
  cases hkey : s.selectedConnectionKey with
  | none =>
    -- the code copies from the first connection, but a header is highlighted
    rw [copyEffects_of_hidden h hrows (by simp [hkey])]
    obtain ⟨conn, connections, rfl⟩ := List.exists_cons_of_ne_nil hne
    simp [getSelectedIndex, RowsAgree, hkey]
  | some selectedKey =>
    have hindex : s.getSelectedIndex connections =
        connections.findIdx? fun conn => conn.uiKey == selectedKey := by
      rw [getSelectedIndex, hkey]
    rw [hindex, ← List.find?_eq_bind_findIdx?_getElem?]
    cases hshown : rows.findIdx? (·.hasKey selectedKey) with
    | some i =>
      obtain ⟨conn, hmem, rfl, heffects⟩ := copyEffects_of_shown h hkey hshown
      obtain ⟨hlt, hhas, -⟩ := List.findIdx?_eq_some_iff_getElem.mp hshown
      refine iff_of_true ?_ (Or.inr ⟨_, hkey, Or.inl ⟨_, List.getElem_mem hlt, hhas⟩⟩)
      -- the first connection with the key may be another one
      obtain ⟨found, hfound⟩ : ∃ found, connections.find? (fun c => c.uiKey == conn.uiKey) =
          some found := by
        apply Option.isSome_iff_exists.mp
        rw [List.find?_isSome]
        exact ⟨conn, hmem, beq_self_eq_true _⟩
      have hsame : found.uiKey = conn.uiKey := by simpa using List.find?_some hfound
      rw [heffects, hfound, ← Connection.remoteAddr_display_of_uiKey hsame]
      rfl
    | none =>
      have hidden : ∀ row ∈ rows, row.hasKey selectedKey = false :=
        List.findIdx?_eq_none_iff.mp hshown
      rw [copyEffects_of_hidden h hrows (by simpa [hkey] using hshown)]
      cases hfound : connections.find? (fun conn => conn.uiKey == selectedKey) with
      | some conn =>
        -- the connection is hidden in a collapsed group
        have hmem := List.mem_of_find?_eq_some hfound
        have hsame : conn.uiKey = selectedKey := by simpa using List.find?_some hfound
        refine iff_of_false (by simp) ?_
        rintro (hnil | ⟨key, hkey', ⟨row, hrow, hhas⟩ | hgone⟩)
        · exact hne hnil
        · obtain rfl := Option.some.inj (hkey.symm.trans hkey')
          rw [hidden row hrow] at hhas
          cases hhas
        · obtain rfl := Option.some.inj (hkey.symm.trans hkey')
          exact hgone conn hmem hsame
      | none =>
        have hgone := List.find?_eq_none.mp hfound
        refine iff_of_true rfl (Or.inr ⟨selectedKey, hkey, Or.inr fun conn hconn hsame => ?_⟩)
        exact hgone conn hconn (by simpa using hsame)

end Copy

end Keys

/-- What a key does in the view by process: it takes the highlight where it is to, or copies what it
is to, exactly if the flat list leads to the same row. The view is grouped (`hgrouping`), and the
key is one that moves or copies, also while the filter is typed (`haction`); list, groups and
selection are any. The condition is of the state before the key, with `RowsAgree` for each of the
keys. -/
theorem actsOnRows_iff [TextEngine] [Zero ρ] [Add ρ] (order : IterOrder String)
    (connections : List (RatedConnection ρ)) (s : UiState) (key : KeyEvent) (action : NavAction)
    (hgrouping : s.groupingEnabled = true) (haction : s.action key = some action) :
    (∃ outcome, s.press key connections
          (computeGroupedRows order connections s.expandedGroups) = some outcome ∧
        s.ActsOnRows (computeGroupedRows order connections s.expandedGroups) outcome action) ↔
      s.RowsAgree connections (computeGroupedRows order connections s.expandedGroups) action := by
  have h := RowsOf.computeGroupedRows order connections s.expandedGroups
  generalize computeGroupedRows order connections s.expandedGroups = rows at h
  have hpress : ∀ outcome, s.press key connections rows = some outcome →
      ((∃ outcome, s.press key connections rows = some outcome ∧
        s.ActsOnRows rows outcome action) ↔ s.ActsOnRows rows outcome action) := by
    intro outcome houtcome
    rw [houtcome]
    simp
  cases hmode : s.filterMode with
  | true =>
    -- while a filter is typed only the arrows move the selection
    have hfilter : (action = .up ∧ s.press key connections rows =
          some (s.moveSelectionUp connections, [])) ∨
        (action = .down ∧ s.press key connections rows =
          some (s.moveSelectionDown connections, [])) := press_of_filterMode hmode haction
    rcases hfilter with ⟨rfl, houtcome⟩ | ⟨rfl, houtcome⟩
    · rw [hpress _ houtcome]
      exact up_iff_of_filterMode h hmode
    · rw [hpress _ houtcome]
      exact down_iff_of_filterMode h hmode
  | false =>
    -- else every key acts
    rw [hpress _ (press_of_not_filterMode hmode haction)]
    cases action with
    | up =>
      simp only [navigate, hgrouping]
      exact up_iff_of_not_filterMode h hmode
    | down =>
      simp only [navigate, hgrouping]
      exact down_iff_of_not_filterMode h hmode
    | pageUp => exact iff_of_true trivial trivial
    | pageDown => exact iff_of_true trivial trivial
    | first => exact first_iff h
    | last => exact last_iff h
    | copy => exact copy_iff h

/-- The last of the rows is selected, and the key for the first leaves it so: the first connection
is not in the first row. -/
theorem not_actsOnRows :
    letI : TextEngine := .plain
    let rows := computeGroupedRows (IterOrder.first "curl") [sampleOf "curl"]
      sampleSelection.expandedGroups
    ¬ ∃ outcome, sampleSelection.press ⟨.key (.char 'g'), .none⟩ [sampleOf "curl"] rows =
        some outcome ∧ sampleSelection.ActsOnRows rows outcome .first := by
  rintro rows ⟨outcome, houtcome, hacts⟩
  have hindex : (sampleSelection.press ⟨.key (.char 'g'), .none⟩ [sampleOf "curl"] rows).map
      (fun outcome => outcome.1.getSelectedGroupedIndex rows) = some (some 1) := by decide +kernel
  have hrows : rows ≠ [] := List.ne_nil_of_length_pos (by decide +kernel)
  rw [houtcome, Option.map_some, hacts hrows] at hindex
  exact absurd hindex (by decide)

/-- The key for the row below. -/
theorem actsOnRows_iff_sample :
    letI : TextEngine := .plain
    let rows := computeGroupedRows (IterOrder.first "curl") [sampleOf "curl"]
      sampleSelection.expandedGroups
    (∃ outcome, sampleSelection.press ⟨.key (.char 'j'), .none⟩ [sampleOf "curl"] rows =
        some outcome ∧ sampleSelection.ActsOnRows rows outcome .down) ↔
      sampleSelection.RowsAgree [sampleOf "curl"] rows .down :=
  letI : TextEngine := .plain
  actsOnRows_iff (IterOrder.first "curl") [sampleOf "curl"] sampleSelection
    ⟨.key (.char 'j'), .none⟩ .down rfl (by decide)

end UiState

end RustNet

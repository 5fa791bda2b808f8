import Mathlib.Data.String.Basic
import RustNet.App.FilterInput
import RustNet.App.Grouping
import RustNet.Foundations.Cursor

/-!
# The selected row

The selection of the overview is kept as the key of a connection, so that it stays with the
connection when the list is sorted again. In the view by process it is a group as well, and the
highlighted row is looked for twice: as the row of the connection, and if that is not shown as the
header of the group. Where neither is shown it is the first row.

The moves of both views are those of a cursor, except that the view by process has no keys for its
own ends: they take those of the flat list, which need not be shown. What a refresh leaves of a
selection is repaired in the flat list; in the view by process only a selection without a group is,
and any other can end up with a row highlighted that it is not of.

## Main definitions

* `UiState`, with the operations of `state.rs` on the selection;
* `UiState.Selects`: the selection is that of a row;
* `UiState.ActsOnHighlighted`: the selection is that of the highlighted row;
* `computeScrollOffset`, and `ScrollOffsetOk`: what an offset is to be.

## Main results

* `navigates_iff`: the moves of both views, up and down, by pages and to the ends; in the view by
  process the last select a row exactly if the rows of the selected group show both ends of the flat
  list;
* `isSome_getSelectedIndex_ensureValidSelection`: after a refresh of the flat list one of its
  connections is selected;
* `ensureValidGroupedSelection_iff`: the selection is that of the highlighted row exactly if it had
  no group or was that of a row before;
* `scrollOffsetOk`: the selected row is in the window.
-/

namespace RustNet

/-- `Debug for Protocol`, which the key of a connection is printed with. -/
def Protocol.debug : Protocol → String
  | .tcp => "Tcp"
  | .udp => "Udp"
  | .icmp => "Icmp"
  | .igmp => "Igmp"
  | .arp => "Arp"

/-- The text that `Connection::key` makes of the addresses. -/
def Connection.ends (conn : Connection) : String :=
  conn.protocol.debug ++ ":" ++ conn.localAddr.display ++ "-" ++
    conn.protocol.debug ++ ":" ++ conn.remoteAddr.display

/-- `Connection::key`, by which the interface knows a connection. -/
def Connection.uiKey (conn : Connection) : String :=
  if conn.isHistoric then
    let createdNanos := (conn.createdAt.durationSince .unixEpoch).getD 0
    conn.ends ++ ":h:" ++ toString createdNanos
  else conn.ends

/-- `UIState`, as far as the rows and the filter are concerned. -/
structure UiState extends FilterState where
  selectedConnectionKey : Option String
  selectedGroup : Option String
  groupingEnabled : Bool
  expandedGroups : Finset String
  visibleRows : ℕ

variable {ρ : Type}

namespace GroupedRow

/-- The row is that of the connection with a key. -/
def hasKey (key : String) : GroupedRow ρ → Bool
  | group _ _ _ => false
  | connection _ conn _ => conn.uiKey == key

/-- The row is the header of a group. -/
def isHeaderOf (name : String) : GroupedRow ρ → Bool
  | group processName _ _ => processName == name
  | connection _ _ _ => false

/-- The group that a row belongs to. -/
def processName : GroupedRow ρ → String
  | group processName _ _ => processName
  | connection processName _ _ => processName

/-- The key of the connection that a row shows. -/
def connectionKey : GroupedRow ρ → Option String
  | group _ _ _ => none
  | connection _ conn _ => some conn.uiKey

/-- What tells rows apart: the name of a group, or the key of a connection. -/
def rowKey : GroupedRow ρ → String ⊕ String
  | group processName _ _ => .inl processName
  | connection _ conn _ => .inr conn.uiKey

@[simp]
theorem rowKey_group (processName : String) (stats : ProcessGroupStats ρ) (expanded : Bool) :
    (group processName stats expanded).rowKey = .inl processName := rfl

@[simp]
theorem rowKey_connection (processName : String) (conn : RatedConnection ρ) (isLast : Bool) :
    (connection processName conn isLast).rowKey = .inr conn.uiKey := rfl

theorem hasKey_eq (row : GroupedRow ρ) (key : String) :
    row.hasKey key = decide (row.rowKey = .inr key) := by
  cases row <;> simp [hasKey, beq_eq_decide]

theorem isHeaderOf_eq (row : GroupedRow ρ) (name : String) :
    row.isHeaderOf name = decide (row.rowKey = .inl name) := by
  cases row <;> simp [isHeaderOf, beq_eq_decide]

theorem hasKey_iff {row : GroupedRow ρ} {key : String} :
    row.hasKey key = true ↔ row.connectionKey = some key := by
  cases row <;> simp [hasKey, connectionKey]

theorem isHeaderOf_iff {row : GroupedRow ρ} {name : String} :
    row.isHeaderOf name = true ↔ row.processName = name ∧ row.connectionKey = none := by
  cases row <;> simp [isHeaderOf, processName, connectionKey]

end GroupedRow

namespace UiState

/-! ## The flat list -/

/-- `get_selected_index`: the place of the selected key, none if it is gone; without a selected key
the first place. -/
def getSelectedIndex (s : UiState) (connections : List (RatedConnection ρ)) : Option ℕ :=
  match s.selectedConnectionKey with
  | some selectedKey => connections.findIdx? fun conn => conn.uiKey == selectedKey
  | none => if connections.isEmpty then none else some 0

/-- `set_selected_by_index`: the key at the place is selected; a place beyond the end does
nothing. -/
def setSelectedByIndex (s : UiState) (connections : List (RatedConnection ρ)) (index : ℕ) :
    UiState :=
  match connections[index]? with
  | some conn => { s with selectedConnectionKey := some conn.uiKey }
  | none => s

section Flat

variable (s : UiState) (connections : List (RatedConnection ρ))

/-- `move_selection_up`: one up, and from the first to the last. -/
def moveSelectionUp : UiState :=
  if connections.isEmpty then s
  else
    let currentIndex := (s.getSelectedIndex connections).getD 0
    if 0 < currentIndex then s.setSelectedByIndex connections (currentIndex - 1)
    else s.setSelectedByIndex connections (connections.length - 1)

/-- `move_selection_down`: one down, and from the last to the first. -/
def moveSelectionDown : UiState :=
  if connections.isEmpty then s
  else
    let currentIndex := (s.getSelectedIndex connections).getD 0
    if currentIndex < connections.length - 1 then
      s.setSelectedByIndex connections (currentIndex + 1)
    else s.setSelectedByIndex connections 0

/-- `move_selection_page_up`: a page up, or to the first where there is no full page. -/
def moveSelectionPageUp (pageSize : ℕ) : UiState :=
  if connections.isEmpty then s
  else
    let currentIndex := (s.getSelectedIndex connections).getD 0
    if pageSize ≤ currentIndex then s.setSelectedByIndex connections (currentIndex - pageSize)
    else s.setSelectedByIndex connections 0

/-- `move_selection_page_down`. A page is no longer than the screen, so that the sum stays far from
the end of a machine word. -/
def moveSelectionPageDown (pageSize : ℕ) : UiState :=
  if connections.isEmpty then s
  else
    let currentIndex := (s.getSelectedIndex connections).getD 0
    let newIndex := currentIndex + pageSize
    if newIndex < connections.length then s.setSelectedByIndex connections newIndex
    else s.setSelectedByIndex connections (connections.length - 1)

/-- `move_selection_to_first`, which the view by process calls as well. -/
def moveSelectionToFirst : UiState :=
  if connections.isEmpty then s else s.setSelectedByIndex connections 0

/-- `move_selection_to_last`: the last of the flat list, in the view by process as well. -/
def moveSelectionToLast : UiState :=
  if connections.isEmpty then s else s.setSelectedByIndex connections (connections.length - 1)

/-- `ensure_valid_selection`: a selection that is missing or gone goes to the first connection. -/
def ensureValidSelection : UiState :=
  if connections.isEmpty then { s with selectedConnectionKey := none }
  else if s.selectedConnectionKey.isNone || (s.getSelectedIndex connections).isNone then
    s.setSelectedByIndex connections 0
  else s

end Flat

/-- After a refresh a connection of the flat list is selected, if there is one. -/
theorem isSome_getSelectedIndex_ensureValidSelection (s : UiState)
    {connections : List (RatedConnection ρ)} (hne : connections ≠ []) :
    ((s.ensureValidSelection connections).getSelectedIndex connections).isSome := by
  obtain ⟨first, rest, rfl⟩ := List.exists_cons_of_ne_nil hne
  rw [ensureValidSelection, if_neg (by simp)]
  split_ifs with hinvalid
  · simp [setSelectedByIndex, getSelectedIndex, List.findIdx?_cons]
  · rw [Bool.or_eq_true, not_or] at hinvalid
    rw [← Option.not_isNone, Bool.not_eq_true']
    exact eq_false_of_ne_true hinvalid.2

/-! ## The view by process -/

/-- `toggle_group_expansion`: the selected group is opened or closed. -/
def toggleGroupExpansion (s : UiState) : UiState :=
  match s.selectedGroup with
  | some groupName =>
    if groupName ∈ s.expandedGroups then
      { s with expandedGroups := s.expandedGroups.erase groupName }
    else { s with expandedGroups := insert groupName s.expandedGroups }
  | none => s

/-- `expand_selected_group`: the selected group is opened, if there is one. -/
def expandSelectedGroup (s : UiState) : UiState :=
  match s.selectedGroup with
  | some groupName => { s with expandedGroups := insert groupName s.expandedGroups }
  | none => s

/-- `collapse_selected_group`: the selected group is closed; a connection in it stays selected. -/
def collapseSelectedGroup (s : UiState) : UiState :=
  match s.selectedGroup with
  | some groupName => { s with expandedGroups := s.expandedGroups.erase groupName }
  | none => s

/-- `is_group_selected`: the selection is a group, and no connection of it. -/
def isGroupSelected (s : UiState) : Bool :=
  s.selectedGroup.isSome && s.selectedConnectionKey.isNone

/-- `get_selected_grouped_index`: where the highlight is. -/
def getSelectedGroupedIndex (s : UiState) (rows : List (GroupedRow ρ)) : Option ℕ :=
  if rows.isEmpty then none
  else
    let ofConnection := s.selectedConnectionKey.bind fun key => rows.findIdx? (·.hasKey key)
    let ofGroup := s.selectedGroup.bind fun name => rows.findIdx? (·.isHeaderOf name)
    ofConnection <|> ofGroup <|> some 0

/-- `set_selected_grouped_by_index`: the row at the place is selected, a connection together with
its group; a place beyond the end does nothing. -/
def setSelectedGroupedByIndex (s : UiState) (rows : List (GroupedRow ρ)) (index : ℕ) : UiState :=
  match rows[index]? with
  | some (.group processName _ _) =>
    { s with selectedGroup := some processName, selectedConnectionKey := none }
  | some (.connection processName conn _) =>
    { s with selectedConnectionKey := some conn.uiKey, selectedGroup := some processName }
  | none => s

section Grouped

variable (s : UiState) (rows : List (GroupedRow ρ))

/-- `move_selection_up_grouped`: one row up, and from the first to the last. -/
def moveSelectionUpGrouped : UiState :=
  if rows.isEmpty then s
  else
    let currentIndex := (s.getSelectedGroupedIndex rows).getD 0
    let newIndex := if 0 < currentIndex then currentIndex - 1 else rows.length - 1
    s.setSelectedGroupedByIndex rows newIndex

/-- `move_selection_down_grouped`: one row down, and from the last to the first. -/
def moveSelectionDownGrouped : UiState :=
  if rows.isEmpty then s
  else
    let currentIndex := (s.getSelectedGroupedIndex rows).getD 0
    let newIndex := if currentIndex < rows.length - 1 then currentIndex + 1 else 0
    s.setSelectedGroupedByIndex rows newIndex

/-- `move_selection_page_up_grouped`: a page up, or to the first row. -/
def moveSelectionPageUpGrouped (pageSize : ℕ) : UiState :=
  if rows.isEmpty then s
  else
    let currentIndex := (s.getSelectedGroupedIndex rows).getD 0
    s.setSelectedGroupedByIndex rows (currentIndex - pageSize)

/-- `move_selection_page_down_grouped`: a page down, or to the last row. -/
def moveSelectionPageDownGrouped (pageSize : ℕ) : UiState :=
  if rows.isEmpty then s
  else
    let currentIndex := (s.getSelectedGroupedIndex rows).getD 0
    s.setSelectedGroupedByIndex rows (min (currentIndex + pageSize) (rows.length - 1))

/-- `ensure_valid_grouped_selection`: a selection without a group, or without an index, goes to the
first row. The index is asked for by its default, so it is always there if a row is. -/
def ensureValidGroupedSelection : UiState :=
  if rows.isEmpty then { s with selectedGroup := none, selectedConnectionKey := none }
  else if s.selectedGroup.isNone || (s.getSelectedGroupedIndex rows).isNone then
    s.setSelectedGroupedByIndex rows 0
  else s

end Grouped

/-- The selection is that of a row. -/
def Selects (s : UiState) (row : GroupedRow ρ) : Prop :=
  s.selectedGroup = some row.processName ∧ s.selectedConnectionKey = row.connectionKey

section Actions

variable {s : UiState} {row : GroupedRow ρ}

/-- Toggling does the one or the other, and nothing to the other groups. -/
theorem Selects.mem_expandedGroups_toggleGroupExpansion (h : s.Selects row) (name : String) :
    name ∈ s.toggleGroupExpansion.expandedGroups ↔
      if name = row.processName then name ∉ s.expandedGroups else name ∈ s.expandedGroups := by
  rw [toggleGroupExpansion, h.1]
  dsimp only
  split_ifs with hexpanded hname hname
  · subst hname
    exact iff_of_false (Finset.notMem_erase _ _) fun hnot => hnot hexpanded
  · rw [Finset.mem_erase]
    exact and_iff_right hname
  · subst hname
    exact iff_of_true (Finset.mem_insert_self _ _) hexpanded
  · rw [Finset.mem_insert]
    exact or_iff_right hname

/-- A group is selected exactly if the row is a header. -/
theorem Selects.isGroupSelected (h : s.Selects row) :
    s.isGroupSelected = row.connectionKey.isNone := by
  simp [UiState.isGroupSelected, h.1, h.2]

end Actions

/-- The highlight is at a row, and the selection is that of this row: the group that is expanded or
collapsed next, and the connection whose details are shown. -/
structure ActsOnHighlighted (s : UiState) (rows : List (GroupedRow ρ)) : Prop where
  /-- Nothing is selected where there is nothing. -/
  empty : rows = [] → s.selectedGroup = none ∧ s.selectedConnectionKey = none
  highlighted : rows ≠ [] →
    ∃ i row, s.getSelectedGroupedIndex rows = some i ∧ rows[i]? = some row ∧ s.Selects row

/-- The selection is that of a connection that is shown under the selected group, or that of a group
with a header. -/
def SelectsShown (s : UiState) (rows : List (GroupedRow ρ)) : Prop :=
  match s.selectedConnectionKey with
  | some key => ∃ row, rows.find? (·.hasKey key) = some row ∧
      s.selectedGroup = some row.processName
  | none => ∃ name, s.selectedGroup = some name ∧ ∃ row ∈ rows, row.isHeaderOf name = true

/-! ## The highlighted row -/

section Highlight

variable {s : UiState} {rows : List (GroupedRow ρ)} {i : ℕ}

theorem getSelectedGroupedIndex_of_key {key : String} (hkey : s.selectedConnectionKey = some key)
    (h : rows.findIdx? (·.hasKey key) = some i) : s.getSelectedGroupedIndex rows = some i := by
  cases rows with
  | nil => cases h
  | cons row rows => simp [getSelectedGroupedIndex, hkey, h]

theorem getSelectedGroupedIndex_of_group {name : String}
    (hkey : ∀ key ∈ s.selectedConnectionKey, rows.findIdx? (·.hasKey key) = none)
    (hgroup : s.selectedGroup = some name) (h : rows.findIdx? (·.isHeaderOf name) = some i) :
    s.getSelectedGroupedIndex rows = some i := by
  have hconnection :
      (s.selectedConnectionKey.bind fun key => rows.findIdx? (·.hasKey key)) = none :=
    Option.bind_eq_none_iff.mpr hkey
  cases rows with
  | nil => cases h
  | cons row rows => simp [getSelectedGroupedIndex, hconnection, hgroup, h]

/-- The row that is selected is highlighted, or the first one with the same key. -/
theorem getSelectedGroupedIndex_setSelectedGroupedByIndex (h : i < rows.length) :
    (s.setSelectedGroupedByIndex rows i).getSelectedGroupedIndex rows =
      rows.findIdx? fun row => decide (row.rowKey = rows[i].rowKey) := by
  -- the row itself has its key, so that some row is found
  obtain ⟨j, hj⟩ : ∃ j, rows.findIdx? (fun row => decide (row.rowKey = rows[i].rowKey)) = some j :=
    ⟨_, List.findIdx?_eq_some_of_exists ⟨rows[i], List.getElem_mem h, decide_eq_true rfl⟩⟩
  rw [hj]
  unfold setSelectedGroupedByIndex
  rw [List.getElem?_eq_getElem h]
  cases hrow : rows[i] with
  | group processName stats expanded =>
    rw [hrow, GroupedRow.rowKey_group] at hj
    have hheader : rows.findIdx? (·.isHeaderOf processName) = some j := by
      simpa only [GroupedRow.isHeaderOf_eq] using hj
    apply getSelectedGroupedIndex_of_group _ rfl hheader
    intro key hkey
    cases hkey
  | connection processName conn isLast =>
    rw [hrow, GroupedRow.rowKey_connection] at hj
    have hshown : rows.findIdx? (·.hasKey conn.uiKey) = some j := by
      simpa only [GroupedRow.hasKey_eq] using hj
    exact getSelectedGroupedIndex_of_key rfl hshown

/-- The first row can always be selected. -/
theorem actsOnHighlighted_setSelectedGroupedByIndex_zero (hrows : rows ≠ []) :
    (s.setSelectedGroupedByIndex rows 0).ActsOnHighlighted rows where
  empty h := absurd h hrows
  highlighted _ := by
    obtain ⟨row, rows, rfl⟩ := List.exists_cons_of_ne_nil hrows
    refine ⟨0, row, ?_, rfl, ?_⟩
    · rw [getSelectedGroupedIndex_setSelectedGroupedByIndex (Nat.succ_pos _)]
      simp [List.findIdx?_cons]
    · cases row <;> exact ⟨rfl, rfl⟩

/-- A selection that is that of a shown row is that of the highlighted row, and no other is. -/
theorem actsOnHighlighted_iff_selectsShown (hrows : rows ≠ []) :
    s.ActsOnHighlighted rows ↔ s.SelectsShown rows := by
  unfold SelectsShown
  constructor
  · intro h
    obtain ⟨i, row, hi, hrow, hgroup, hconnection⟩ := h.highlighted hrows
    have hmem : row ∈ rows := List.mem_of_getElem? hrow
    cases hkey : s.selectedConnectionKey with
    | none => exact ⟨row.processName, hgroup, row, hmem,
        GroupedRow.isHeaderOf_iff.mpr ⟨rfl, hconnection.symm.trans hkey⟩⟩
    | some key =>
      -- the row is one with the key, so that the highlight is at the first such row
      have hhas : row.hasKey key = true :=
        GroupedRow.hasKey_iff.mpr (hconnection.symm.trans hkey)
      obtain ⟨j, hj⟩ : ∃ j, rows.findIdx? (·.hasKey key) = some j :=
        ⟨_, List.findIdx?_eq_some_of_exists ⟨row, hmem, hhas⟩⟩
      obtain rfl : j = i := Option.some.inj ((getSelectedGroupedIndex_of_key hkey hj).symm.trans hi)
      refine ⟨row, ?_, hgroup⟩
      rw [List.find?_eq_bind_findIdx?_getElem?, hj]
      exact hrow
  · intro h
    refine ⟨fun hnil => absurd hnil hrows, fun _ => ?_⟩
    cases hkey : s.selectedConnectionKey with
    | none =>
      rw [hkey] at h
      obtain ⟨name, hgroup, row, hmem, hheader⟩ := h
      obtain ⟨i, hi⟩ : ∃ i, rows.findIdx? (·.isHeaderOf name) = some i :=
        ⟨_, List.findIdx?_eq_some_of_exists ⟨row, hmem, hheader⟩⟩
      obtain ⟨hlt, hfirst, -⟩ := List.findIdx?_eq_some_iff_getElem.mp hi
      obtain ⟨hname, hnone⟩ := GroupedRow.isHeaderOf_iff.mp hfirst
      refine ⟨i, rows[i], getSelectedGroupedIndex_of_group ?_ hgroup hi,
        List.getElem?_eq_getElem hlt, hgroup.trans (congrArg some hname.symm), ?_⟩
      · intro key hmem
        rw [hkey] at hmem
        cases hmem
      · rw [hkey, hnone]
    | some key =>
      rw [hkey] at h
      obtain ⟨row, hfind, hgroup⟩ := h
      rw [List.find?_eq_bind_findIdx?_getElem?, Option.bind_eq_some_iff] at hfind
      obtain ⟨i, hi, hrow⟩ := hfind
      obtain ⟨hlt, hhas, -⟩ := List.findIdx?_eq_some_iff_getElem.mp hi
      obtain rfl : rows[i] = row := Option.some.inj ((List.getElem?_eq_getElem hlt).symm.trans hrow)
      exact ⟨i, rows[i], getSelectedGroupedIndex_of_key hkey hi, hrow, hgroup,
        hkey.trans (GroupedRow.hasKey_iff.mp hhas).symm⟩

end Highlight

/-- After the repair the selection is that of the highlighted row exactly if there are no rows, it
had no group, or it was that of a shown row already. The index of a selection that no row has is
that of the first row by default, so the repair takes it for a valid one and leaves it. -/
theorem ensureValidGroupedSelection_iff (s : UiState) (rows : List (GroupedRow ρ)) :
    (s.ensureValidGroupedSelection rows).ActsOnHighlighted rows ↔
      rows = [] ∨ s.selectedGroup = none ∨ s.SelectsShown rows := by
  unfold ensureValidGroupedSelection
  by_cases hrows : rows = []
  · rw [hrows]
    exact iff_of_true ⟨fun _ => ⟨rfl, rfl⟩, fun h => absurd rfl h⟩ (Or.inl rfl)
  rw [if_neg (by simpa using hrows)]
  -- the highlight is always somewhere
  have hindex : (s.getSelectedGroupedIndex rows).isNone = false := by
    rw [getSelectedGroupedIndex, if_neg (by simpa using hrows)]
    simp
  cases hgroup : s.selectedGroup with
  | none =>
    rw [if_pos (by simp)]
    exact iff_of_true (actsOnHighlighted_setSelectedGroupedByIndex_zero hrows) (by simp)
  | some name =>
    rw [if_neg (by simp [hindex]), actsOnHighlighted_iff_selectsShown hrows]
    simp [hrows]

/-- A connection is selected, in an expanded group. -/
def sampleSelection : UiState :=
  { FilterState.default with
    selectedConnectionKey := some (sampleOf "curl").uiKey
    selectedGroup := some "curl"
    groupingEnabled := true
    expandedGroups := {"curl"}
    visibleRows := 10 }

/-- The group of the selected connection is collapsed: the header is highlighted, and the hidden
connection still selected. -/
theorem not_ensureValidGroupedSelection :
    letI : TextEngine := .plain
    let s := sampleSelection.collapseSelectedGroup
    let rows := computeGroupedRows (IterOrder.first "curl") [sampleOf "curl"] s.expandedGroups
    ¬ (s.ensureValidGroupedSelection rows).ActsOnHighlighted rows := by
  intro s rows h
  have hheaders : rows.all (·.connectionKey.isNone) = true := by decide +kernel
  have hkey : (s.ensureValidGroupedSelection rows).selectedConnectionKey.isSome = true := by
    decide +kernel
  obtain ⟨i, row, -, hrow, -, hconnection⟩ := h.highlighted (by
    show rows ≠ []
    exact List.ne_nil_of_length_pos (by decide +kernel))
  -- the selection names a connection, and every row is a header
  rw [hconnection] at hkey
  have hnone := List.all_eq_true.mp hheaders row (List.mem_of_getElem? hrow)
  rw [Option.isNone_iff_eq_none] at hnone
  rw [hnone] at hkey
  cases hkey

/-! ## Moves -/

/-- The flat list as a list of positions. -/
def flatSelecting (connections : List (RatedConnection ρ))
    (hkeys : (connections.map fun conn => conn.uiKey).Nodup) :
    Cursor.Selecting UiState connections.length where
  position s := s.getSelectedIndex connections
  select s i := s.setSelectedByIndex connections i
  position_select s i hi := by
    rw [setSelectedByIndex, List.getElem?_eq_getElem hi]
    show connections.findIdx? (fun conn => conn.uiKey == connections[i].uiKey) = some i
    exact Cursor.findIdx?_eq_some_of_nodup hkeys hi fun conn => beq_iff_eq
  select_select s i j hi hj := by
    simp [setSelectedByIndex, List.getElem?_eq_getElem hi, List.getElem?_eq_getElem hj]

/-- So are the rows of the view by process. -/
def groupedSelecting (rows : List (GroupedRow ρ)) (hkeys : (rows.map GroupedRow.rowKey).Nodup) :
    Cursor.Selecting UiState rows.length where
  position s := s.getSelectedGroupedIndex rows
  select s i := s.setSelectedGroupedByIndex rows i
  position_select s i hi := by
    rw [getSelectedGroupedIndex_setSelectedGroupedByIndex hi]
    exact Cursor.findIdx?_eq_some_of_nodup hkeys hi fun row => decide_eq_true_iff
  select_select s i j hi hj := by
    unfold setSelectedGroupedByIndex
    rw [List.getElem?_eq_getElem hi, List.getElem?_eq_getElem hj]
    cases rows[i] <;> cases rows[j] <;> rfl

/-- The keys that move by more than a row. -/
inductive Jump
  | pageUp (pageSize : ℕ)
  | pageDown (pageSize : ℕ)
  | toFirst
  | toLast

end UiState

/-- A view of the overview: where its highlight is, which element is selected, and what its keys
do. -/
structure ListView where
  length : ℕ
  position : UiState → Option ℕ
  /-- The selection that is stored is that of the `i`-th element, and not one of something else for
  which the view highlights the `i`-th. -/
  selects : UiState → ℕ → Prop
  select : UiState → ℕ → UiState
  up : UiState → UiState
  down : UiState → UiState
  jump : UiState.Jump → UiState → UiState

namespace ListView

/-- The flat list as a list to move in: what it selects is a key. -/
def flat (connections : List (RatedConnection ρ)) : ListView where
  length := connections.length
  position s := s.getSelectedIndex connections
  selects s i := ∃ conn, connections[i]? = some conn ∧ s.selectedConnectionKey = some conn.uiKey
  select s i := s.setSelectedByIndex connections i
  up s := s.moveSelectionUp connections
  down s := s.moveSelectionDown connections
  jump
    | .pageUp pageSize, s => s.moveSelectionPageUp connections pageSize
    | .pageDown pageSize, s => s.moveSelectionPageDown connections pageSize
    | .toFirst, s => s.moveSelectionToFirst connections
    | .toLast, s => s.moveSelectionToLast connections

/-- The view by process. It has no moves to the ends of its own: `g` and `G` are those of the flat
list. -/
def grouped (connections : List (RatedConnection ρ)) (rows : List (GroupedRow ρ)) : ListView where
  length := rows.length
  position s := s.getSelectedGroupedIndex rows
  selects s i := ∃ row, rows[i]? = some row ∧ s.Selects row
  select s i := s.setSelectedGroupedByIndex rows i
  up s := s.moveSelectionUpGrouped rows
  down s := s.moveSelectionDownGrouped rows
  jump
    | .pageUp pageSize, s => s.moveSelectionPageUpGrouped rows pageSize
    | .pageDown pageSize, s => s.moveSelectionPageDownGrouped rows pageSize
    | .toFirst, s => s.moveSelectionToFirst connections
    | .toLast, s => s.moveSelectionToLast connections

/-- What the keys are to do where the `i`-th element is highlighted. -/
structure Navigates (v : ListView) (s : UiState) (i : ℕ) : Prop where
  down_up : v.selects (v.up (v.down s)) i
  /-- Down as many times as the list is long. -/
  around : v.selects (v.down^[v.length] s) i
  /-- Nothing else has changed either, where the element was selected, and not by default. -/
  restored : v.selects s i → v.up (v.down s) = s ∧ v.down^[v.length] s = s
  page : ∀ pageSize, (∃ j < v.length, v.selects (v.jump (.pageUp pageSize) s) j) ∧
    ∃ j < v.length, v.selects (v.jump (.pageDown pageSize) s) j
  /-- The keys for the first and the last element. -/
  ends : (∃ j < v.length, v.selects (v.jump .toFirst s) j) ∧
    ∃ j < v.length, v.selects (v.jump .toLast s) j

/-- Where a view keeps its selection as a position and its keys move a cursor, they do, except for
the keys for the ends. -/
theorem navigates_iff_of_selecting {v : ListView} (S : Cursor.Selecting UiState v.length)
    (hposition : v.position = S.position) (hselect : v.select = S.select)
    (hup : v.up = S.move (Cursor.up v.length)) (hdown : v.down = S.move (Cursor.down v.length))
    (hselects : ∀ s i, i < v.length → v.selects (v.select s i) i)
    (hsame : ∀ s i, v.selects s i → v.select s i = s)
    {s : UiState} {i : ℕ} (hi : i < v.length) (hs : v.position s = some i)
    (hpage : ∀ pageSize, (∃ j < v.length, v.jump (.pageUp pageSize) s = v.select s j) ∧
      ∃ j < v.length, v.jump (.pageDown pageSize) s = v.select s j) :
    v.Navigates s i ↔ (∃ j < v.length, v.selects (v.jump .toFirst s) j) ∧
      ∃ j < v.length, v.selects (v.jump .toLast s) j := by
  -- up and down are steps of the cursor around the list
  have hup_down : v.up (v.down s) = v.select s i := by
    rw [hup, hdown, hselect]
    exact S.up_down (by rw [← hposition, hs]) hi
  have haround : v.down^[v.length] s = v.select s i := by
    rw [hdown, hselect]
    exact S.iterate_down (by rw [← hposition, hs]) hi
  have hselected : ∀ {s'}, (∃ j < v.length, s' = v.select s j) → ∃ j < v.length, v.selects s' j := by
    rintro s' ⟨j, hj, rfl⟩
    exact ⟨j, hj, hselects s j hj⟩
  -- only the moves to the ends are left open
  refine ⟨fun h => h.ends, fun hends => ?_⟩
  exact
    { down_up := hup_down ▸ hselects s i hi
      around := haround ▸ hselects s i hi
      restored := fun h => ⟨hup_down.trans (hsame s i h), haround.trans (hsame s i h)⟩
      page := fun pageSize => ⟨hselected (hpage pageSize).1, hselected (hpage pageSize).2⟩
      ends := hends }

end ListView

/-! ## The rows of a list -/

/-- The connections that are shown under a name have rows of that name. -/
theorem exists_mem_shownUnder_iff {rows : List (GroupedRow ρ)} {name key : String} :
    (∃ shown ∈ shownUnder rows name, shown.uiKey = key) ↔
      ∃ row ∈ rows, row.processName = name ∧ row.connectionKey = some key := by
  unfold shownUnder
  constructor
  · rintro ⟨shown, hshown, rfl⟩
    obtain ⟨row, hmem, hrow⟩ := List.mem_filterMap.mp hshown
    -- a header shows no connection
    cases row with
    | group name' stats expanded => cases hrow
    | connection name' conn isLast =>
      rw [GroupedRow.connectionUnder_connection] at hrow
      split_ifs at hrow with hname
      obtain rfl := Option.some.inj hrow
      exact ⟨_, hmem, hname, rfl⟩
  · rintro ⟨row, hmem, rfl, hkey⟩
    cases row with
    | group name stats expanded => cases hkey
    | connection name conn isLast =>
      exact ⟨conn, List.mem_filterMap.mpr ⟨_, hmem, if_pos rfl⟩, Option.some.inj hkey⟩

section Distinct

variable {connections conns : List (RatedConnection ρ)} {expandedGroups : Finset String}
  {name : String} {stats : ProcessGroupStats ρ}

theorem map_rowKey_groupRows :
    (groupRows expandedGroups name stats conns).map GroupedRow.rowKey =
      .inl name :: if name ∈ expandedGroups then conns.map fun conn => .inr conn.uiKey else [] := by
  unfold groupRows
  split_ifs
  · -- the last row of the group is marked, which is no part of its key
    have hkeys : (conns.map fun conn => (Sum.inr conn.uiKey : String ⊕ String)) =
        (conns.zipIdx.map Prod.fst).map fun conn => .inr conn.uiKey := by
      rw [List.zipIdx_map_fst]
    rw [hkeys, List.map_cons, List.map_map, List.map_map]
    rfl
  · rfl

theorem mem_rowKey_groupRows {key : String ⊕ String}
    (h : key ∈ (groupRows expandedGroups name stats conns).map GroupedRow.rowKey) :
    key = .inl name ∨ ∃ conn ∈ conns, key = .inr conn.uiKey := by
  rw [map_rowKey_groupRows, List.mem_cons] at h
  refine h.imp_right fun h => ?_
  split_ifs at h
  · obtain ⟨conn, hconn, rfl⟩ := List.mem_map.mp h
    exact ⟨conn, hconn, rfl⟩
  · cases h

/-- Every group has a row, so that there is one where there is a connection. -/
theorem computeGroupedRows_ne_nil [TextEngine] [Zero ρ] [Add ρ] {order : IterOrder String}
    (hne : connections ≠ []) : computeGroupedRows order connections expandedGroups ≠ [] := by
  intro hnil
  obtain ⟨conn, hconn⟩ := List.exists_mem_of_ne_nil connections hne
  have hpartitions : Partitions connections expandedGroups
      (computeGroupedRows order connections expandedGroups) := partitions_computeGroupedRows
  have hmem := (hpartitions.mem_iff conn.groupName).mpr ⟨conn, hconn, rfl⟩
  rw [hnil] at hmem
  cases hmem

/-- The rows of connections with distinct keys are distinct. -/
theorem nodup_rowKey_computeGroupedRows [TextEngine] [Zero ρ] [Add ρ] {order : IterOrder String}
    (hkeys : (connections.map fun conn => conn.uiKey).Nodup) :
    ((computeGroupedRows order connections expandedGroups).map GroupedRow.rowKey).Nodup := by
  have hgroup : ∀ name conns,
      (name, conns) ∈ (groupsOf connections).sortedIn TextEngine.toLowercase order →
        conns = ofGroup connections name := fun name conns hmem =>
    (lookup_groupsOf_eq_some_iff.mp (AList.mem_sortedIn.mp hmem)).2
  have hofGroup : ∀ {name conn}, conn ∈ ofGroup connections name →
      conn ∈ connections ∧ conn.groupName = name := fun {name conn} hconn => by
    simpa [ofGroup] using hconn
  rw [computeGroupedRows_eq, List.map_flatMap, List.nodup_flatMap]
  constructor
  · rintro ⟨name, conns⟩ hmem
    obtain rfl := hgroup name conns hmem
    -- a group has its header, and below it its connections if it is expanded
    rw [map_rowKey_groupRows]
    have hconns : ((ofGroup connections name).map fun conn => conn.uiKey).Nodup :=
      hkeys.sublist (List.filter_sublist.map _)
    split_ifs
    · have hinr := hconns.map (Sum.inr_injective : Function.Injective (Sum.inr : _ → String ⊕ _))
      rw [List.map_map] at hinr
      exact List.nodup_cons.mpr ⟨by simp, hinr⟩
    · simp
  · -- two groups have different names, and no connection in common
    refine (List.pairwise_map.mp (AList.nodup_keys_sortedIn _ _ _)).imp_of_mem ?_
    rintro ⟨name, conns⟩ ⟨name', conns'⟩ hmem hmem' hne key hkey hkey'
    obtain rfl := hgroup name conns hmem
    obtain rfl := hgroup name' conns' hmem'
    rcases mem_rowKey_groupRows hkey with rfl | ⟨conn, hconn, rfl⟩
    · rcases mem_rowKey_groupRows hkey' with hname | ⟨conn', -, hconn'⟩
      · exact hne (Sum.inl.inj hname)
      · cases hconn'
    · rcases mem_rowKey_groupRows hkey' with hname | ⟨conn', hconn', heq⟩
      · cases hname
      · obtain ⟨hin, rfl⟩ := hofGroup hconn
        obtain ⟨hin', rfl⟩ := hofGroup hconn'
        have hsame := List.inj_on_of_nodup_map hkeys hin hin' (Sum.inr.inj heq)
        exact hne (congrArg RatedConnection.groupName hsame)

end Distinct

namespace UiState

section Moves

variable {s : UiState} {connections : List (RatedConnection ρ)} {rows : List (GroupedRow ρ)}
  {i : ℕ}

theorem getSelectedIndex_lt (hs : s.getSelectedIndex connections = some i) :
    i < connections.length := by
  unfold getSelectedIndex at hs
  cases hkey : s.selectedConnectionKey with
  | some key =>
    rw [hkey] at hs
    exact (List.findIdx?_eq_some_iff_getElem.mp hs).1
  | none =>
    rw [hkey] at hs
    cases connections with
    | nil => cases hs
    | cons conn connections =>
      obtain rfl : 0 = i := Option.some.inj hs
      exact Nat.succ_pos _

/-- In the view by process some row is always highlighted. -/
theorem exists_getSelectedGroupedIndex (s : UiState) (hrows : rows ≠ []) :
    ∃ i < rows.length, s.getSelectedGroupedIndex rows = some i := by
  have hlt : ∀ {p : GroupedRow ρ → Bool} {i}, rows.findIdx? p = some i → i < rows.length :=
    fun h => (List.findIdx?_eq_some_iff_getElem.mp h).1
  rw [getSelectedGroupedIndex, if_neg (by simpa using hrows)]
  cases hconnection : s.selectedConnectionKey.bind fun key => rows.findIdx? (·.hasKey key) with
  | some i =>
    obtain ⟨key, -, hi⟩ := Option.bind_eq_some_iff.mp hconnection
    exact ⟨i, hlt hi, rfl⟩
  | none =>
    cases hgroup : s.selectedGroup.bind fun name => rows.findIdx? (·.isHeaderOf name) with
    | some i =>
      obtain ⟨name, -, hi⟩ := Option.bind_eq_some_iff.mp hgroup
      exact ⟨i, hlt hi, rfl⟩
    | none => exact ⟨0, List.length_pos_of_ne_nil hrows, rfl⟩

/-- What an index selects is selected, and what is selected stays so. -/
theorem selects_setSelectedByIndex (hi : i < connections.length) :
    (ListView.flat connections).selects (s.setSelectedByIndex connections i) i := by
  refine ⟨connections[i], List.getElem?_eq_getElem hi, ?_⟩
  rw [setSelectedByIndex, List.getElem?_eq_getElem hi]

theorem setSelectedByIndex_of_selects (h : (ListView.flat connections).selects s i) :
    s.setSelectedByIndex connections i = s := by
  obtain ⟨conn, hconn, hkey⟩ := h
  rw [setSelectedByIndex, hconn]
  dsimp only
  rw [← hkey]

theorem selects_setSelectedGroupedByIndex (hi : i < rows.length) :
    (ListView.grouped connections rows).selects (s.setSelectedGroupedByIndex rows i) i := by
  refine ⟨rows[i], List.getElem?_eq_getElem hi, ?_⟩
  rw [setSelectedGroupedByIndex, List.getElem?_eq_getElem hi]
  cases rows[i] <;> exact ⟨rfl, rfl⟩

theorem setSelectedGroupedByIndex_of_selects
    (h : (ListView.grouped connections rows).selects s i) :
    s.setSelectedGroupedByIndex rows i = s := by
  obtain ⟨row, hrow, hgroup, hkey⟩ := h
  rw [setSelectedGroupedByIndex, hrow]
  cases row with
  | group name stats expanded =>
    show { s with selectedGroup := some name, selectedConnectionKey := none } = s
    rw [← show s.selectedGroup = some name from hgroup,
      ← show s.selectedConnectionKey = none from hkey]
  | connection name conn isLast =>
    show { s with selectedConnectionKey := some conn.uiKey, selectedGroup := some name } = s
    rw [← show s.selectedGroup = some name from hgroup,
      ← show s.selectedConnectionKey = some conn.uiKey from hkey]

section FlatMoves

variable (hne : connections ≠ [])

include hne

theorem moveSelectionUp_eq (s : UiState) :
    s.moveSelectionUp connections = s.setSelectedByIndex connections
      (Cursor.up connections.length ((s.getSelectedIndex connections).getD 0)) := by
  rw [moveSelectionUp, if_neg (by simpa using hne)]
  exact (apply_ite (s.setSelectedByIndex connections) _ _ _).symm

theorem moveSelectionDown_eq (s : UiState) :
    s.moveSelectionDown connections = s.setSelectedByIndex connections
      (Cursor.down connections.length ((s.getSelectedIndex connections).getD 0)) := by
  rw [moveSelectionDown, if_neg (by simpa using hne)]
  exact (apply_ite (s.setSelectedByIndex connections) _ _ _).symm

/-- A jump selects one of the elements. -/
theorem flat_jump_eq (hs : s.getSelectedIndex connections = some i) (jump : Jump) :
    ∃ j < connections.length,
      (ListView.flat connections).jump jump s = s.setSelectedByIndex connections j := by
  have hi := getSelectedIndex_lt hs
  have hempty : ¬ connections.isEmpty = true := by simpa using hne
  cases jump with
  | pageUp pageSize =>
    refine ⟨Cursor.pageUp pageSize i, Cursor.pageUp_lt hi, ?_⟩
    show s.moveSelectionPageUp connections pageSize = _
    rw [moveSelectionPageUp, if_neg hempty, hs, Option.getD_some, Cursor.pageUp]
    dsimp only
    -- near the top a page goes to the first element
    split_ifs with hpage
    · rfl
    · rw [Nat.sub_eq_zero_of_le (by omega)]
  | pageDown pageSize =>
    refine ⟨Cursor.pageDown pageSize connections.length i, Cursor.pageDown_lt hi, ?_⟩
    show s.moveSelectionPageDown connections pageSize = _
    rw [moveSelectionPageDown, if_neg hempty, hs, Option.getD_some, Cursor.pageDown]
    dsimp only
    -- and near the bottom to the last
    split_ifs with hpage
    · rw [min_eq_left (by omega)]
    · rw [min_eq_right (by omega)]
  | toFirst =>
    refine ⟨0, by omega, ?_⟩
    show s.moveSelectionToFirst connections = _
    rw [moveSelectionToFirst, if_neg hempty]
  | toLast =>
    refine ⟨connections.length - 1, by omega, ?_⟩
    show s.moveSelectionToLast connections = _
    rw [moveSelectionToLast, if_neg hempty]

end FlatMoves

section GroupedMoves

variable (hrows : rows ≠ [])

include hrows

theorem moveSelectionUpGrouped_eq (s : UiState) :
    s.moveSelectionUpGrouped rows = s.setSelectedGroupedByIndex rows
      (Cursor.up rows.length ((s.getSelectedGroupedIndex rows).getD 0)) := by
  rw [moveSelectionUpGrouped, if_neg (by simpa using hrows)]
  rfl

theorem moveSelectionDownGrouped_eq (s : UiState) :
    s.moveSelectionDownGrouped rows = s.setSelectedGroupedByIndex rows
      (Cursor.down rows.length ((s.getSelectedGroupedIndex rows).getD 0)) := by
  rw [moveSelectionDownGrouped, if_neg (by simpa using hrows)]
  rfl

/-- A page selects one of the rows. -/
theorem grouped_page_eq (hs : s.getSelectedGroupedIndex rows = some i) (pageSize : ℕ) :
    (∃ j < rows.length, (ListView.grouped connections rows).jump (.pageUp pageSize) s =
        s.setSelectedGroupedByIndex rows j) ∧
      ∃ j < rows.length, (ListView.grouped connections rows).jump (.pageDown pageSize) s =
        s.setSelectedGroupedByIndex rows j := by
  have hempty : ¬ rows.isEmpty = true := by simpa using hrows
  obtain ⟨i', hi, hs'⟩ := s.exists_getSelectedGroupedIndex hrows
  obtain rfl : i' = i := Option.some.inj (hs'.symm.trans hs)
  constructor
  · refine ⟨Cursor.pageUp pageSize i', Cursor.pageUp_lt hi, ?_⟩
    show s.moveSelectionPageUpGrouped rows pageSize = _
    rw [moveSelectionPageUpGrouped, if_neg hempty, hs, Option.getD_some, Cursor.pageUp]
  · refine ⟨Cursor.pageDown pageSize rows.length i', Cursor.pageDown_lt hi, ?_⟩
    show s.moveSelectionPageDownGrouped rows pageSize = _
    rw [moveSelectionPageDownGrouped, if_neg hempty, hs, Option.getD_some, Cursor.pageDown]

end GroupedMoves

end Moves

section Ends

variable (s : UiState) (connections : List (RatedConnection ρ)) (rows : List (GroupedRow ρ))

/-- The connection at either end of the flat list is shown in a row of the selected group. -/
def ShowsEnds : Prop :=
  ∀ conn, connections.head? = some conn ∨ connections.getLast? = some conn →
    ∃ name, s.selectedGroup = some name ∧ ∃ shown ∈ shownUnder rows name, shown.uiKey = conn.uiKey

/-- The selected group is expanded, and has the connection at either end of the flat list. -/
def EndsInGroup : Prop :=
  ∃ name ∈ s.expandedGroups, s.selectedGroup = some name ∧
    ∀ conn, connections.head? = some conn ∨ connections.getLast? = some conn →
      conn.groupName = name

variable {s connections rows}

/-- A connection of the flat list is selected in the view by process if it is shown under the group
that was selected before, and else no row is. -/
theorem exists_selects_setSelectedByIndex_iff {j : ℕ} (hj : j < connections.length) :
    (∃ i < rows.length, (ListView.grouped connections rows).selects
        (s.setSelectedByIndex connections j) i) ↔
      ∃ name, s.selectedGroup = some name ∧
        ∃ shown ∈ shownUnder rows name, shown.uiKey = connections[j].uiKey := by
  have hset : s.setSelectedByIndex connections j =
      { s with selectedConnectionKey := some connections[j].uiKey } := by
    rw [setSelectedByIndex, List.getElem?_eq_getElem hj]
  -- the selection by index leaves the group as it is
  rw [hset]
  constructor
  · rintro ⟨i, -, row, hrow, hgroup, hkey⟩
    refine ⟨row.processName, hgroup, exists_mem_shownUnder_iff.mpr ?_⟩
    exact ⟨row, List.mem_of_getElem? hrow, rfl, hkey.symm⟩
  · rintro ⟨name, hgroup, hshown⟩
    obtain ⟨row, hmem, rfl, hkey⟩ := exists_mem_shownUnder_iff.mp hshown
    obtain ⟨i, hi, rfl⟩ := List.getElem_of_mem hmem
    exact ⟨i, hi, rows[i], List.getElem?_eq_getElem hi, hgroup, hkey.symm⟩

/-- The keys for the ends select a row exactly if the ends of the flat list are shown. -/
theorem ends_iff_showsEnds (hne : connections ≠ []) :
    ((∃ j < rows.length, (ListView.grouped connections rows).selects
          (s.moveSelectionToFirst connections) j) ∧
        ∃ j < rows.length, (ListView.grouped connections rows).selects
          (s.moveSelectionToLast connections) j) ↔
      s.ShowsEnds connections rows := by
  have hpos := List.length_pos_of_ne_nil hne
  have hlt : connections.length - 1 < connections.length := by omega
  have hempty : ¬ connections.isEmpty = true := by simpa using hne
  have hfirst : connections.head? = some connections[0] := by
    rw [List.head?_eq_getElem?, List.getElem?_eq_getElem hpos]
  have hlast : connections.getLast? = some connections[connections.length - 1] := by
    rw [List.getLast?_eq_getElem?, List.getElem?_eq_getElem hlt]
  -- both moves select by the index in the flat list
  rw [moveSelectionToFirst, moveSelectionToLast, if_neg hempty, if_neg hempty,
    exists_selects_setSelectedByIndex_iff hpos, exists_selects_setSelectedByIndex_iff hlt,
    ShowsEnds, hfirst, hlast]
  constructor
  · rintro ⟨hshown, hshown'⟩ conn (heq | heq)
    · exact Option.some.inj heq ▸ hshown
    · exact Option.some.inj heq ▸ hshown'
  · exact fun h => ⟨h _ (.inl rfl), h _ (.inr rfl)⟩

/-- The rows of a list show its ends under the selected group if this is expanded and theirs. -/
theorem showsEnds_computeGroupedRows_iff [TextEngine] [Zero ρ] [Add ρ] {order : IterOrder String}
    (hne : connections ≠ []) (hkeys : (connections.map fun conn => conn.uiKey).Nodup) :
    s.ShowsEnds connections (computeGroupedRows order connections s.expandedGroups) ↔
      s.EndsInGroup connections := by
  have hmem : ∀ {conn}, connections.head? = some conn ∨ connections.getLast? = some conn →
      conn ∈ connections := fun h => h.elim List.mem_of_head? List.mem_of_getLast?
  unfold ShowsEnds EndsInGroup
  simp only [shownUnder_computeGroupedRows]
  constructor
  · intro h
    obtain ⟨name, hname, -⟩ := h _ (.inl (List.head?_eq_some_head hne))
    have hshown : ∀ conn, connections.head? = some conn ∨ connections.getLast? = some conn →
        name ∈ s.expandedGroups ∧ conn.groupName = name := by
      intro conn hconn
      obtain ⟨name', hname', shown, hshown, hkey⟩ := h conn hconn
      obtain rfl := Option.some.inj (hname.symm.trans hname')
      split_ifs at hshown with hexpanded
      · obtain ⟨hin, hgroup⟩ := by simpa [ofGroup] using hshown
        -- the connection with the key is the one at the end
        obtain rfl := List.inj_on_of_nodup_map hkeys hin (hmem hconn) hkey
        exact ⟨hexpanded, hgroup⟩
      · cases hshown
    exact ⟨name, (hshown _ (.inl (List.head?_eq_some_head hne))).1, hname,
      fun conn hconn => (hshown conn hconn).2⟩
  · rintro ⟨name, hexpanded, hname, hgroup⟩ conn hconn
    refine ⟨name, hname, conn, ?_, rfl⟩
    rw [if_pos hexpanded]
    simpa [ofGroup] using ⟨hmem hconn, hgroup conn hconn⟩

end Ends

/-- For a list of connections with distinct keys: in the flat list a step down and a step up lead
back, as many steps down as there are elements lead back, and pages and the keys for the ends select
an element. So it is with distinct rows of the view by process, wherever the highlight is, but for
the keys for the ends: these take the ends of the flat list, and select a row exactly if both are
shown in rows of the selected group. The rows of the list are distinct and have a highlight; they
show its ends if the selected group is expanded and has both. -/
theorem navigates_iff [TextEngine] [Zero ρ] [Add ρ] (s : UiState)
    (connections : List (RatedConnection ρ)) (hne : connections ≠ [])
    (hkeys : (connections.map fun conn => conn.uiKey).Nodup) :
    (∀ i, s.getSelectedIndex connections = some i → (ListView.flat connections).Navigates s i) ∧
      (∀ rows : List (GroupedRow ρ), (rows.map GroupedRow.rowKey).Nodup →
        ∀ i, s.getSelectedGroupedIndex rows = some i →
          ((ListView.grouped connections rows).Navigates s i ↔ s.ShowsEnds connections rows)) ∧
      ∀ order, ((computeGroupedRows order connections s.expandedGroups).map
          GroupedRow.rowKey).Nodup ∧
        (∃ i, s.getSelectedGroupedIndex
          (computeGroupedRows order connections s.expandedGroups) = some i) ∧
        (s.ShowsEnds connections (computeGroupedRows order connections s.expandedGroups) ↔
          s.EndsInGroup connections) := by
  refine ⟨fun i hs => ?_, fun rows hrowKeys i hs => ?_, fun order => ?_⟩
  · have hi := getSelectedIndex_lt hs
    have hjump (jump : Jump) := flat_jump_eq hne hs jump
    have hselects : ∀ (s : UiState) j, j < connections.length →
        (ListView.flat connections).selects (s.setSelectedByIndex connections j) j := fun s j hj =>
      selects_setSelectedByIndex hj
    refine (ListView.navigates_iff_of_selecting (flatSelecting connections hkeys) rfl rfl
      (funext (moveSelectionUp_eq hne)) (funext (moveSelectionDown_eq hne)) hselects
      (fun s j h => setSelectedByIndex_of_selects h) hi hs
      fun pageSize => ⟨hjump (.pageUp pageSize), hjump (.pageDown pageSize)⟩).mpr ?_
    -- the ends of the flat list are selected by their index
    obtain ⟨j, hj, hfirst⟩ := hjump .toFirst
    obtain ⟨k, hk, hlast⟩ := hjump .toLast
    exact ⟨⟨j, hj, hfirst ▸ hselects s j hj⟩, ⟨k, hk, hlast ▸ hselects s k hk⟩⟩
  · have hrows : rows ≠ [] := by
      rintro rfl
      cases hs
    -- the stored selection is a row, as the rows are not empty
    obtain ⟨i', hi, hs'⟩ := s.exists_getSelectedGroupedIndex hrows
    obtain rfl : i' = i := Option.some.inj (hs'.symm.trans hs)
    refine (ListView.navigates_iff_of_selecting (groupedSelecting rows hrowKeys) rfl rfl
      (funext (moveSelectionUpGrouped_eq hrows)) (funext (moveSelectionDownGrouped_eq hrows))
      (fun s j hj => selects_setSelectedGroupedByIndex hj)
      (fun s j h => setSelectedGroupedByIndex_of_selects h) hi hs
      fun pageSize => grouped_page_eq hrows hs pageSize).trans (ends_iff_showsEnds hne)
  · have hrows : computeGroupedRows order connections s.expandedGroups ≠ [] :=
      computeGroupedRows_ne_nil hne
    obtain ⟨i, -, hi⟩ := s.exists_getSelectedGroupedIndex hrows
    exact ⟨nodup_rowKey_computeGroupedRows hkeys, ⟨i, hi⟩,
      showsEnds_computeGroupedRows_iff hne hkeys⟩

/-- The second of two connections is selected, in an expanded group of one. -/
theorem navigates_iff_sample :
    letI : TextEngine := .plain
    let connections := [{ sampleOf "wget" with remoteAddr := .lan 3 443 }, sampleOf "curl"]
    let rows := computeGroupedRows (IterOrder.first "curl") connections
      sampleSelection.expandedGroups
    (ListView.flat connections).Navigates sampleSelection 1 ∧
      ((ListView.grouped connections rows).Navigates sampleSelection 1 ↔
        sampleSelection.ShowsEnds connections rows) := by
  let _ : TextEngine := .plain
  intro connections rows
  have hnavigates := navigates_iff sampleSelection connections (List.cons_ne_nil _ _)
    (by decide +kernel)
  exact ⟨hnavigates.1 1 (by decide +kernel),
    hnavigates.2.1 rows (by decide +kernel) 1 (by decide +kernel)⟩

/-- The header of a collapsed group is selected. The key for the first element selects the
connection that the group hides, so that no row is selected. -/
theorem not_navigates_collapsed :
    letI : TextEngine := .plain
    let s := { sampleSelection with selectedConnectionKey := none, expandedGroups := ∅ }
    let rows := computeGroupedRows (IterOrder.first "curl") [sampleOf "curl"] s.expandedGroups
    s.getSelectedGroupedIndex rows = some 0 ∧
      (ListView.grouped [sampleOf "curl"] rows).selects s 0 ∧
      ¬ (ListView.grouped [sampleOf "curl"] rows).Navigates s 0 := by
  intro s rows
  have hheader : rows[0]?.any (fun row => decide (row.processName = "curl") &&
      row.connectionKey.isNone) = true := by decide +kernel
  have hheaders : rows.all (·.connectionKey.isNone) = true := by decide +kernel
  have hkey : (s.moveSelectionToFirst [sampleOf "curl"]).selectedConnectionKey.isSome = true := by
    decide +kernel
  refine ⟨by decide +kernel, ?_, fun h => ?_⟩
  -- the header is the row that the empty selection shows
  · obtain ⟨row, hrow, hselects⟩ := Option.any_eq_true _ _ |>.mp hheader
    rw [Bool.and_eq_true, decide_eq_true_iff, Option.isNone_iff_eq_none] at hselects
    exact ⟨row, hrow, congrArg some hselects.1.symm, hselects.2.symm⟩
  -- the move selects a connection, and only headers are shown
  · obtain ⟨j, -, row, hrow, -, hconnection⟩ := h.ends.1
    have hnone := List.all_eq_true.mp hheaders row (List.mem_of_getElem? hrow)
    have hselected : row.connectionKey.isSome = true := hconnection ▸ hkey
    rw [Option.isNone_iff_eq_none.mp hnone] at hselected
    cases hselected

end UiState

/-! ## The window -/

/-- `compute_scroll_offset`. What it adds up is at most `totalRows` or `visibleRows`. -/
def computeScrollOffset (selectedIndex currentOffset visibleRows totalRows : ℕ) : ℕ :=
  if totalRows = 0 ∨ visibleRows = 0 then 0
  else
    let maxOffset := totalRows - visibleRows
    let clamped := min currentOffset maxOffset
    let raised := if selectedIndex < clamped then selectedIndex else clamped
    let lowered :=
      if raised + visibleRows ≤ selectedIndex then selectedIndex - visibleRows + 1 else raised
    min lowered maxOffset

/-- What the offset of a window of `visibleRows` rows is to be. -/
structure ScrollOffsetOk (selectedIndex currentOffset visibleRows totalRows offset : ℕ) : Prop where
  /-- The window does not go beyond the end. -/
  le_max : offset ≤ totalRows - visibleRows
  /-- The selected row is in the window. -/
  shown : offset ≤ selectedIndex ∧ selectedIndex < offset + visibleRows
  /-- The window stays where it was, if it could. -/
  stable : currentOffset ≤ totalRows - visibleRows → currentOffset ≤ selectedIndex →
    selectedIndex < currentOffset + visibleRows → offset = currentOffset
  idempotent : computeScrollOffset selectedIndex offset visibleRows totalRows = offset

/-- In place of the clamps: the least move of the window that shows the row. -/
theorem computeScrollOffset_eq {selectedIndex currentOffset visibleRows totalRows : ℕ}
    (hselected : selectedIndex < totalRows) (hvisible : 0 < visibleRows) :
    computeScrollOffset selectedIndex currentOffset visibleRows totalRows =
      max (min (min currentOffset (totalRows - visibleRows)) selectedIndex)
        (selectedIndex + 1 - visibleRows) := by
  unfold computeScrollOffset
  rw [if_neg (by omega)]
  dsimp only
  split_ifs <;> omega

/-- The selected row is in the window, which stays where it was if it could, and then stays. The
selected row is one of the list (`hselected`), and the window has a row (`hvisible`); the offset
before is any number, also one beyond the end of a list that has got shorter. -/
theorem scrollOffsetOk (selectedIndex currentOffset visibleRows totalRows : ℕ)
    (hselected : selectedIndex < totalRows) (hvisible : 0 < visibleRows) :
    ScrollOffsetOk selectedIndex currentOffset visibleRows totalRows
      (computeScrollOffset selectedIndex currentOffset visibleRows totalRows) := by
  constructor
  · rw [computeScrollOffset_eq hselected hvisible]
    omega
  · rw [computeScrollOffset_eq hselected hvisible]
    omega
  · intro hmax habove hbelow
    rw [computeScrollOffset_eq hselected hvisible]
    omega
  · rw [computeScrollOffset_eq hselected hvisible, computeScrollOffset_eq hselected hvisible]
    omega

/-- Row 14 of 20 comes into a window of ten as its last. -/
theorem scrollOffsetOk_sample : ScrollOffsetOk 14 0 10 20 (computeScrollOffset 14 0 10 20) :=
  scrollOffsetOk 14 0 10 20 (by decide) (by decide)

end RustNet

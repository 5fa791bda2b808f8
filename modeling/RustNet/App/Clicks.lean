import RustNet.App.EventLoop
import RustNet.App.Truncation
import RustNet.Foundations.Search

/-!
# Clicks on the table

A table is drawn in two steps. The window of the rows that starts at the scroll offset is cut out
and given to the widget, together with the selection counted from the start of the window. The
widget may then scroll on its own, down to a selection that it has no room for. The areas for clicks
are registered afterwards, for one row after the other from the scroll offset on, so they know
nothing of what the widget did.

The two agree if the widget does not scroll. It does not if it has room for all rows that the window
was made for: the selection is among these.

## Main definitions

* `TableWidget`: what the widget of the library does with its rows;
* `shownIn`: what a line of the table shows;
* `Clicked`: what a click on a line is to do.

## Main results

* `ClickableRegions.hitTest_registerRows`: the area that a cell of the table is in;
* `getElem?_of_shownIn`: what a line shows where the widget has room for the window;
* `clicked_row`: what a click on a row does.
-/

namespace RustNet

variable {α ρ τ : Type}

namespace ClickableRegions

variable {clicks : ClickableRegions} {inner : Rect} {offset total i column : ℕ}

/-- The area of a row is the one that a cell of it is in. -/
theorem hitTest_foldl_register {rows : List ℕ} (hrow : i ∈ rows) (hleft : inner.x ≤ column)
    (hright : column < inner.x + inner.width) :
    (rows.foldl (fun clicks i => clicks.register ⟨inner.x, inner.y + 2 + i, inner.width, 1⟩
        (.selectConnection (offset + i))) clicks).hitTest column (inner.y + 2 + i) =
      some (.selectConnection (offset + i)) := by
  -- a click finds the region that was registered last, so the induction is from the end
  induction rows using List.reverseRecOn with
  | nil => cases hrow
  | append_singleton rows j ih =>
    rw [List.foldl_append, List.foldl_cons, List.foldl_nil, hitTest_register]
    split_ifs with hcell
    · -- the last row that was registered is the one clicked
      obtain rfl : j = i := by
        simp only [Rect.Contains] at hcell
        omega
      rfl
    · rcases List.mem_append.mp hrow with hrow | hrow
      · exact ih hrow
      · obtain rfl := List.mem_singleton.mp hrow
        refine absurd ⟨hleft, hright, ?_, ?_⟩ hcell
        · exact le_rfl
        · exact Nat.lt_succ_self _

/-- A cell of the `i`-th row below the header is in the area of the `i`-th element of the window. -/
theorem hitTest_registerRows (hi : i < inner.height - 2) (hlt : offset + i < total)
    (hleft : inner.x ≤ column) (hright : column < inner.x + inner.width) :
    (clicks.registerRows inner offset total).hitTest column (inner.y + 2 + i) =
      some (.selectConnection (offset + i)) := by
  unfold registerRows
  apply hitTest_foldl_register _ hleft hright
  -- rows are registered up to the last element or the last line
  rw [List.range_eq_range', Search.mem_takeWhile_range' (by simp only [decide_eq_true_eq]; omega)]
  exact ⟨Nat.zero_le _, by omega, by simpa using hlt⟩

end ClickableRegions

/-! ## The table -/

/-- The table widget of `ratatui` with a state that is made anew for every frame: the first row that
it draws, by the number of its rows, the number of those that it has room for, and the selected
one. All rows are a line high. -/
class TableWidget where
  firstRow (rows room : ℕ) (selected : Option ℕ) : ℕ
  /-- It scrolls for a selected row only, and not if this is among the first ones that it has room
  for. -/
  firstRow_eq_zero {rows room : ℕ} {selected : Option ℕ} :
    (∀ i ∈ selected, i < room) → firstRow rows room selected = 0

/-- A widget that scrolls until the selected row, or else the last one, is the last on show. -/
@[reducible] def TableWidget.scrolling : TableWidget where
  firstRow rows room selected := selected.elim 0 fun i => min i (rows - 1) + 1 - room
  firstRow_eq_zero {rows room selected} hselected := by
    cases selected with
    | none => rfl
    | some i =>
      have hroom := hselected i rfl
      simp only [Option.elim_some]
      omega

section Shown

variable [TableWidget]

/-- What the `i`-th line below the header shows. The widget gets the window of the rows, and the
selection counted from its start. -/
def shownIn (rows : List α) (offset visibleRows room : ℕ) (selected : Option ℕ) (i : ℕ) :
    Option α :=
  let window := shownRows rows offset visibleRows
  if i < room then
    window[TableWidget.firstRow window.length room (selected.map (· - offset)) + i]?
  else none

variable {rows : List α} {offset visibleRows room i : ℕ} {selected : Option ℕ} {element : α}

/-- If there is room for as many rows as the window was made for, and the selection is one of these,
the lines show the rows from the offset on. -/
theorem getElem?_of_shownIn (hroom : visibleRows ≤ room)
    (hselected : ∀ index ∈ selected, offset ≤ index ∧ index < offset + visibleRows)
    (h : shownIn rows offset visibleRows room selected i = some element) :
    rows[offset + i]? = some element := by
  have hfirst : TableWidget.firstRow (shownRows rows offset visibleRows).length room
      (selected.map (· - offset)) = 0 := by
    apply TableWidget.firstRow_eq_zero
    intro line hline
    obtain ⟨index, hindex, rfl⟩ := Option.map_eq_some_iff.mp hline
    obtain ⟨hle, hlt⟩ := hselected index hindex
    show index - offset < room
    omega
  simp only [shownIn] at h
  rw [hfirst, Nat.zero_add, shownRows, List.getElem?_take, List.getElem?_drop] at h
  -- below the room and behind the window a line shows nothing
  split_ifs at h
  exact h

end Shown

/-- A cell of the table: its column, and its row below the header. -/
structure TableCell (turn : Turn ρ) (column i : ℕ) : Prop where
  drawn : turn.isLoading = false
  left : turn.layout.table.inner.x ≤ column
  right : column < turn.layout.table.inner.x + turn.layout.table.inner.width
  below : i < turn.layout.table.inner.height - 2

/-- The line of the screen that a row of the table is in. -/
def Turn.tableRow (turn : Turn ρ) (i : ℕ) : ℕ := turn.layout.table.inner.y + 2 + i

/-- The lines that the table has for rows: its header takes one, and the margin below it another. -/
def Turn.tableRoom (turn : Turn ρ) : ℕ := turn.layout.table.inner.height - 2

namespace LoopState

variable [TableWidget] (frame : LoopState ρ) (turn : Turn ρ) (i : ℕ)

/-- The connection that a line of the flat table shows. -/
def shownConnection : Option (ListedConnection ρ) :=
  shownIn frame.connections frame.screen.scrollOffset frame.screen.visibleRows turn.tableRoom
    (frame.screen.getSelectedIndex (ScreenState.rated frame.connections)) i

/-- The row that a line of the grouped table shows. -/
def shownGroupedRow : Option (GroupedRow ρ) :=
  shownIn frame.groupedRows frame.screen.groupedScrollOffset frame.screen.visibleRows
    turn.tableRoom (frame.screen.getSelectedGroupedIndex frame.groupedRows) i

end LoopState

section Clicks

variable {frame : LoopState ρ} {turn : Turn ρ} {column i : ℕ}

theorem hitTest_drawnClicks_flat (hcell : TableCell turn column i)
    (htab : frame.screen.selectedTab = 0) (hflat : frame.screen.groupingEnabled = false)
    (hlt : frame.screen.scrollOffset + i < frame.connections.length) :
    (frame.drawnClicks turn).1.hitTest column (turn.tableRow i) =
      some (.selectConnection (frame.screen.scrollOffset + i)) := by
  unfold LoopState.drawnClicks Turn.tableRow
  simp only [hcell.drawn, htab, hflat, Bool.false_eq_true, if_false, if_true]
  exact ClickableRegions.hitTest_registerRows hcell.below hlt hcell.left hcell.right

theorem hitTest_drawnClicks_grouped (hcell : TableCell turn column i)
    (htab : frame.screen.selectedTab = 0) (hgrouped : frame.screen.groupingEnabled = true)
    (hlt : frame.screen.groupedScrollOffset + i < frame.groupedRows.length) :
    (frame.drawnClicks turn).1.hitTest column (turn.tableRow i) =
      some (.selectConnection (frame.screen.groupedScrollOffset + i)) := by
  unfold LoopState.drawnClicks Turn.tableRow
  simp only [hcell.drawn, htab, hgrouped, Bool.false_eq_true, if_false, if_true]
  exact ClickableRegions.hitTest_registerRows hcell.below hlt hcell.left hcell.right

/-- What a click is to do to a row of the view by process. -/
structure RowClicked (frame next : LoopState ρ) (isDoubleClick : Bool) (row : GroupedRow ρ) :
    Prop where
  selects : next.screen.toUiState.Selects row
  /-- A second click on a header opens or closes its group, and nothing else does. -/
  groups : ∀ name, name ∈ next.screen.expandedGroups ↔
    if isDoubleClick = true ∧ row.isHeaderOf name then name ∉ frame.screen.expandedGroups
    else name ∈ frame.screen.expandedGroups
  /-- A second click on a connection shows its details. -/
  tab : next.screen.selectedTab = if isDoubleClick && row.connectionKey.isSome then 1 else 0
  regroup : isDoubleClick = true → row.connectionKey = none → next.needsRegroup = true

/-- What a click on the `i`-th line of the table is to do in either view, to what the line shows. -/
structure Clicked [TableWidget] (frame next : LoopState ρ) (turn : Turn ρ) (i : ℕ) : Prop where
  flat : frame.screen.groupingEnabled = false → ∀ conn,
    frame.shownConnection turn i = some conn →
      next.screen.selectedConnectionKey = some conn.uiKey ∧
      next.screen.selectedTab =
        if frame.screen.isDoubleClick (turn.tableRow i) turn.eventAt then 1 else 0
  grouped : frame.screen.groupingEnabled = true → ∀ row,
    frame.shownGroupedRow turn i = some row →
      RowClicked frame next (frame.screen.isDoubleClick (turn.tableRow i) turn.eventAt) row

theorem selects_setSelectedGroupedByIndex {s : UiState} {rows : List (GroupedRow ρ)}
    {row : GroupedRow ρ} (h : rows[i]? = some row) :
    (s.setSelectedGroupedByIndex rows i).Selects row := by
  unfold UiState.setSelectedGroupedByIndex
  rw [h]
  cases row <;> exact ⟨rfl, rfl⟩

theorem selects_toggleGroupExpansion {s : UiState} {row : GroupedRow ρ} (h : s.Selects row) :
    s.toggleGroupExpansion.Selects row := by
  obtain ⟨groups, htoggled⟩ := UiState.regrouped_toggleGroupExpansion s
  rw [htoggled]
  exact h

variable (turn) in
/-- A click on a row of the view by process. -/
theorem rowClicked_onClick (drawn : LoopState ρ) {row : ℕ} {clicked : GroupedRow ρ} {index : ℕ}
    (htab : drawn.screen.selectedTab = 0) (hgrouped : drawn.screen.groupingEnabled = true)
    (hhit : drawn.clicks.hitTest column row = some (.selectConnection index))
    (hclicked : drawn.groupedRows[index]? = some clicked) :
    RowClicked drawn (drawn.onClick turn column row)
      (drawn.screen.isDoubleClick row turn.eventAt) clicked := by
  have hselects := selects_setSelectedGroupedByIndex (s := drawn.screen.toUiState) hclicked
  obtain ⟨key, group, hmoved⟩ := UiState.moved_setSelectedGroupedByIndex drawn.screen.toUiState
    drawn.groupedRows index
  -- the selection leaves the groups as they are
  have hexpanded : (drawn.screen.toUiState.setSelectedGroupedByIndex drawn.groupedRows
      index).expandedGroups = drawn.screen.expandedGroups := by
    rw [hmoved]
  unfold LoopState.onClick ScreenState.click
  rw [hhit]
  simp only [ScreenState.clickAction]
  rw [if_pos hgrouped, hclicked]
  cases drawn.screen.isDoubleClick row turn.eventAt with
  -- a single click only selects
  | false => exact ⟨hselects, by simp [ScreenState.onRows, hexpanded], htab, by simp⟩
  | true =>
    cases clicked with
    -- a second click opens a connection
    | connection name conn isLast =>
      exact ⟨hselects, by simp [GroupedRow.isHeaderOf, ScreenState.onRows, hexpanded],
        by simp [GroupedRow.connectionKey], by simp [GroupedRow.connectionKey]⟩
    -- and it toggles a group
    | group name stats expanded =>
      refine ⟨selects_toggleGroupExpansion hselects, fun other => ?_, ?_, by simp⟩
      · have hmem := hselects.mem_expandedGroups_toggleGroupExpansion other
        have hheader : (true = true ∧
            (GroupedRow.group name stats expanded).isHeaderOf other = true) ↔ other = name := by
          rw [GroupedRow.isHeaderOf, beq_iff_eq]
          exact ⟨fun h => h.2.symm, fun h => ⟨rfl, h.symm⟩⟩
        rw [hexpanded] at hmem
        refine hmem.trans (iff_of_eq ?_)
        exact if_congr hheader.symm rfl rfl
      · exact htab

variable (turn) in
/-- A click on a row of the flat list. -/
theorem onClick_flat (drawn : LoopState ρ) {row index : ℕ} {conn : ListedConnection ρ}
    (htab : drawn.screen.selectedTab = 0) (hflat : drawn.screen.groupingEnabled = false)
    (hhit : drawn.clicks.hitTest column row = some (.selectConnection index))
    (hconn : drawn.connections[index]? = some conn) :
    (drawn.onClick turn column row).screen.selectedConnectionKey = some conn.uiKey ∧
      (drawn.onClick turn column row).screen.selectedTab =
        if drawn.screen.isDoubleClick row turn.eventAt then 1 else 0 := by
  have hrated : (ScreenState.rated drawn.connections)[index]? = some conn.toRatedConnection := by
    rw [ScreenState.rated, List.getElem?_map, hconn]
    rfl
  -- the click selects by index, and a double click opens the details besides
  unfold LoopState.onClick ScreenState.click
  rw [hhit]
  simp only [ScreenState.clickAction]
  rw [if_neg (Bool.eq_false_iff.mp hflat)]
  simp only [ScreenState.onRows, UiState.setSelectedByIndex]
  rw [hrated]
  cases drawn.screen.isDoubleClick row turn.eventAt with
  | false => exact ⟨rfl, htab⟩
  | true => exact ⟨rfl, rfl⟩

end Clicks

section Shows

variable [TableWidget] {frame : LoopState ρ} {turn : Turn ρ} {i : ℕ}

/-- A line of the flat table shows the connection of its area. -/
theorem getElem?_of_shownConnection {conn : ListedConnection ρ} (hshows : ShowsSelection frame)
    (hvisible : 0 < frame.screen.visibleRows) (hroom : frame.screen.visibleRows ≤ turn.tableRoom)
    (hflat : frame.screen.groupingEnabled = false)
    (h : frame.shownConnection turn i = some conn) :
    frame.connections[frame.screen.scrollOffset + i]? = some conn := by
  apply getElem?_of_shownIn hroom _ h
  intro index hindex
  have hne : frame.connections ≠ [] := by
    intro hnil
    have hlt := UiState.getSelectedIndex_lt hindex
    rw [hnil] at hlt
    exact absurd hlt (Nat.not_lt_zero _)
  obtain ⟨selected, -, hselected, hwindow⟩ := hshows.flat hflat hne
  obtain rfl : selected = index := Option.some_inj.mp (hselected.symm.trans hindex)
  exact hwindow hvisible

/-- A line of the grouped table shows the row of its area. -/
theorem getElem?_of_shownGroupedRow {row : GroupedRow ρ} (hshows : ShowsSelection frame)
    (hvisible : 0 < frame.screen.visibleRows) (hroom : frame.screen.visibleRows ≤ turn.tableRoom)
    (hgrouped : frame.screen.groupingEnabled = true)
    (h : frame.shownGroupedRow turn i = some row) :
    frame.groupedRows[frame.screen.groupedScrollOffset + i]? = some row := by
  apply getElem?_of_shownIn hroom _ h
  intro index hindex
  have hne : frame.groupedRows ≠ [] := by
    intro hnil
    simp [hnil, UiState.getSelectedGroupedIndex] at hindex
  obtain ⟨selected, -, hselected, hwindow⟩ := hshows.grouped hgrouped hne
  obtain rfl : selected = index := Option.some_inj.mp (hselected.symm.trans hindex)
  exact hwindow hvisible

end Shows

section Turns

variable [TextEngine] [TableWidget] [Zero ρ] [Add ρ] [LinearOrder τ]

/-- **A click does what it says to the row under it.** What the frame shows in the line that is
clicked is selected, and opened by the second click.

The frame is one whose window was made for a table of its size (`hroom`), and has a row
(`hvisible`). The height of the window is read off the terminal after a frame is drawn, so this
fails for the first frame after the terminal has got smaller or the filter bar has come up. -/
theorem clicked_row (config : ScreenConfig) (value : ρ → Option τ) (s frame : LoopState ρ)
    (turn : Turn ρ) (column i : ℕ) (hframe : s.frame config value turn = some frame)
    (hvisible : 0 < frame.screen.visibleRows) (hroom : frame.screen.visibleRows ≤ turn.tableRoom)
    (hcell : TableCell turn column i) (htab : frame.screen.selectedTab = 0)
    (hevent : turn.event = some (.leftClick column (turn.tableRow i))) :
    ∃ next, LoopOutcome.step config value (.running s) turn = .running next ∧
      Clicked frame next turn i := by
  -- the frame has been reselected, so that its selection is drawn
  have hshows : ShowsSelection frame := by
    obtain ⟨updated, -, rfl⟩ := frame_cases hframe
    exact showsSelection_reselect updated
  -- the click is the only event of the turn
  refine ⟨(frame.draw turn).onClick turn column (turn.tableRow i), ?_, ?_, ?_⟩
  · unfold LoopOutcome.step
    simp only [hframe]
    unfold LoopState.handle
    rw [hevent]
  · intro hflat conn hshown
    have hconn := getElem?_of_shownConnection hshows hvisible hroom hflat hshown
    have hhit : (frame.draw turn).clicks.hitTest column (turn.tableRow i) = some _ :=
      hitTest_drawnClicks_flat hcell htab hflat (List.getElem?_eq_some_iff.mp hconn).1
    exact onClick_flat turn (frame.draw turn) htab hflat hhit hconn
  · intro hgrouped row hshown
    have hrow := getElem?_of_shownGroupedRow hshows hvisible hroom hgrouped hshown
    have hhit : (frame.draw turn).clicks.hitTest column (turn.tableRow i) = some _ :=
      hitTest_drawnClicks_grouped hcell htab hgrouped (List.getElem?_eq_some_iff.mp hrow).1
    obtain ⟨hselects, hgroups, htab', hregroup⟩ :=
      rowClicked_onClick turn (frame.draw turn) htab hgrouped hhit hrow
    exact ⟨hselects, hgroups, htab', hregroup⟩

end Turns

/-- A click on the only row, in a frame with room for it. -/
theorem clicked_row_sample :
    letI : TextEngine := .plain
    letI : TableWidget := .scrolling
    ∃ frame, sampleStart.frame ⟨false, false, false⟩ some
        (sampleTurn (some (.leftClick 5 6))) = some frame ∧
      (frame.shownConnection (sampleTurn (some (.leftClick 5 6))) 0).isSome ∧
      ∃ next, LoopOutcome.step ⟨false, false, false⟩ some (.running sampleStart)
          (sampleTurn (some (.leftClick 5 6))) = .running next ∧
        Clicked frame next (sampleTurn (some (.leftClick 5 6))) 0 := by
  let _ : TextEngine := .plain
  let _ : TableWidget := .scrolling
  refine ⟨_, rfl, rfl, ?_⟩
  exact clicked_row ⟨false, false, false⟩ some sampleStart _
    (sampleTurn (some (.leftClick 5 6))) 5 0 rfl (by decide) (by decide)
    ⟨rfl, by decide, by decide, by decide⟩ rfl rfl

end RustNet

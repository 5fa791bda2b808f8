import RustNet.App.ClickRegions
import RustNet.App.GroupedKeys
import RustNet.App.Sorting
import RustNet.Network.Tracker.Basic

/-!
# Keys and clicks

What the keys and the mouse do to the interface: the tab on show first, and if it does not take the
key the keys that work everywhere. A handler changes the state in place and hands back what the
loop is to do for it: to fetch the connections again, to group the ones it has again, or to copy a
text.

The arms of the handlers are each a constructor, with the patterns and guards in a function of
their own.

## Main definitions

* `ScreenState`: the state of the interface;
* `AppState`: what it shares with the other threads;
* `ScreenState.dispatchKey`, `ScreenState.fallbackKey`, `ScreenState.click`, `ScreenState.scroll`.

## Main results

* `Requests`: a handler that changes what the lists depend on asks for them again;
* `requests_overviewArm`, `requests_dispatchKey`: those of the tabs do.
-/

namespace RustNet

/-! ## State -/

namespace SortColumn

/-- `SortColumn::next`: the columns go round; that of the location is left out where there is no
database for it. -/
def next (hasLocation : Bool) : SortColumn → SortColumn
  | createdAt => protocol
  | protocol => localAddress
  | localAddress => remoteAddress
  | remoteAddress => if hasLocation then location else state
  | location => state
  | state => service
  | service => application
  | application => bandwidthTotal
  | bandwidthTotal => process
  | process => createdAt

/-- `SortColumn::default_direction`: whether it is ascending. -/
def defaultDirection : SortColumn → Bool
  | bandwidthTotal => false
  | _ => true

end SortColumn

/-- `Instant::elapsed`, with the clock showing `now`. -/
def Instant.elapsed (earlier now : Instant) : ℕ := (now.nanos - earlier.nanos).toNat

/-- `UIState`. What is about the rows and the filter is in `UiState`. -/
structure ScreenState extends UiState where
  selectedTab : ℕ
  showHelp : Bool
  quitConfirmation : Bool
  clearConfirmation : Bool
  clipboardMessage : Option (String × Instant)
  showPortNumbers : Bool
  sortColumn : SortColumn
  sortAscending : Bool
  showHostnames : Bool
  hasGeoip : Bool
  lastClick : Option (ℕ × ℕ × Instant)
  showHistoric : Bool
  scrollOffset : ℕ
  groupedScrollOffset : ℕ

/-- The part of `Config` and of the databases that the interface asks for. -/
structure ScreenConfig where
  resolveDns : Bool
  showPtrLookups : Bool
  hasCountryDb : Bool

/-- What the interface shares with the other threads. -/
structure AppState (ρ : Type) where
  tracker : ConnectionTracker
  showHistoric : Bool
  connectionsSnapshot : List (ListedConnection ρ)

/-- `clear_all_connections`, as far as the connections are concerned. -/
def AppState.clearAllConnections {ρ : Type} (app : AppState ρ) : AppState ρ where
  tracker := app.tracker.clear
  showHistoric := false
  connectionsSnapshot := []

/-- `TAB_COUNT`: the number of tabs, that of the help included. -/
def tabCount : ℕ := 5

/-- `HELP_TAB_INDEX`: the help is the last of the tabs. -/
def helpTabIndex : ℕ := tabCount - 1

namespace ScreenState

/-- `UIState::default`, as far as keys, clicks and drawing depend on it. -/
def default : ScreenState where
  toFilterState := .default
  selectedConnectionKey := none
  selectedGroup := none
  groupingEnabled := false
  expandedGroups := ∅
  visibleRows := 10
  selectedTab := 0
  showHelp := false
  quitConfirmation := false
  clearConfirmation := false
  clipboardMessage := none
  showPortNumbers := false
  sortColumn := .createdAt
  sortAscending := true
  showHostnames := true
  hasGeoip := false
  lastClick := none
  showHistoric := false
  scrollOffset := 0
  groupedScrollOffset := 0

variable (s : ScreenState)

/-- An operation on the rows. -/
def onRows (f : UiState → UiState) : ScreenState := { s with toUiState := f s.toUiState }

/-- An operation on the filter. -/
def onFilter (f : FilterState → FilterState) : ScreenState :=
  s.onRows fun ui => { ui with toFilterState := f ui.toFilterState }

/-- `jump_to_tab`: a number beyond the last tab does nothing. -/
def jumpToTab (target : ℕ) : ScreenState :=
  if tabCount ≤ target then s
  else { s with selectedTab := target, showHelp := decide (target = helpTabIndex) }

/-- `next_tab`: the first one follows the last. -/
def nextTab : ScreenState := { s with selectedTab := (s.selectedTab + 1) % tabCount }

/-- `prev_tab`: the last one precedes the first. -/
def prevTab : ScreenState :=
  { s with selectedTab := if s.selectedTab = 0 then tabCount - 1 else s.selectedTab - 1 }

/-- `cycle_sort_column`: the next column, in its own default direction. -/
def cycleSortColumn : ScreenState :=
  let column := s.sortColumn.next s.hasGeoip
  { s with sortColumn := column, sortAscending := column.defaultDirection }

/-- `toggle_sort_direction`: the column stays. -/
def toggleSortDirection : ScreenState := { s with sortAscending := !s.sortAscending }

/-- `reset_view`: the filter, the groups, the order and the historic connections go back to what
they are at the start. -/
def resetView : ScreenState :=
  { s with
    toFilterState := s.toFilterState.resetView
    groupingEnabled := false
    expandedGroups := ∅
    selectedGroup := none
    sortColumn := .createdAt
    sortAscending := SortColumn.createdAt.defaultDirection
    showHistoric := false
    scrollOffset := 0
    groupedScrollOffset := 0 }

/-- `toggle_grouping`: the view that comes up starts at its top; the flat selection stays. -/
def toggleGrouping : ScreenState :=
  if s.groupingEnabled then { s with groupingEnabled := false, scrollOffset := 0 }
  else { s with groupingEnabled := true, selectedGroup := none, groupedScrollOffset := 0 }

end ScreenState

/-! ## Handlers -/

/-- `Effect`: what a handler asks the loop for. Those of the navigation are shared with
`GroupedKeys`. -/
inductive ScreenEffect
  | nav (effect : Effect)
  | regroup
deriving DecidableEq

/-- `Effect::RefreshData`: the data are to be fetched before the next frame. -/
@[match_pattern]
def ScreenEffect.refreshData : ScreenEffect := .nav .refreshData

/-- What a handler leaves, and the effects that it asks for. -/
structure Handled (ρ : Type) where
  screen : ScreenState
  app : AppState ρ
  effects : List ScreenEffect

/-- What `handle_key` returns: `unclaimed` is its `None`. -/
inductive KeyOutcome (ρ : Type)
  | unclaimed
  | claimed (handled : Handled ρ)
  | panicked

/-- `KeyCode`, with the keys that change the tab. -/
inductive ScreenKeyCode
  | nav (code : NavKeyCode)
  | tab
  | backTab

/-- The key code as the lists take it. -/
def ScreenKeyCode.toNavKeyCode : ScreenKeyCode → NavKeyCode
  | nav code => code
  | tab | backTab => .key .other

/-- A `KeyEvent` of the loop. -/
structure ScreenKey where
  code : ScreenKeyCode
  modifiers : KeyModifiers

/-- The key event as the lists take it. -/
def ScreenKey.toKeyEvent (key : ScreenKey) : KeyEvent := ⟨key.code.toNavKeyCode, key.modifiers⟩

/-- The character of a key. -/
def ScreenKey.char? (key : ScreenKey) : Option Char :=
  match key.code with
  | .nav (.key (.char c)) => some c
  | _ => none

variable {ρ : Type}

/-- `clear_all_with_confirmation`, and whether it cleared. -/
def clearAllWithConfirmation (s : ScreenState) (app : AppState ρ) (now : Instant) :
    ScreenState × AppState ρ × Bool :=
  if s.clearConfirmation then
    ({ s with
        clearConfirmation := false
        showHistoric := false
        selectedConnectionKey := none
        clipboardMessage := some ("All connections cleared", now) },
      app.clearAllConnections, true)
  else ({ s with clearConfirmation := true }, app, false)

/-- `copy_to_clipboard`. With an error it is shown in place of what was copied. -/
def copyToClipboard (s : ScreenState) (displayMsg : String) (error : Option String)
    (now : Instant) : ScreenState :=
  { s with clipboardMessage := some (error.getD ("Copied: " ++ displayMsg), now) }

/-- `EffectOutcome`: whether the data are to be fetched, and whether the rows are to be grouped
again. -/
structure EffectOutcome where
  needsDataRefresh : Bool
  needsRegroup : Bool

/-- `apply_effects`, one effect at a time. -/
def applyEffect (error : Option String) (now : Instant) (out : ScreenState × EffectOutcome) :
    ScreenEffect → ScreenState × EffectOutcome
  | .nav .refreshData => (out.1, { out.2 with needsDataRefresh := true })
  | .regroup => (out.1, { out.2 with needsRegroup := true })
  | .nav (.copy label _) => (copyToClipboard out.1 label error now, out.2)

/-- `apply_effects`: the effects one after the other; each flag is set by any of them. -/
def applyEffects (effects : List ScreenEffect) (s : ScreenState) (error : Option String)
    (now : Instant) : ScreenState × EffectOutcome :=
  effects.foldl (applyEffect error now) (s, ⟨false, false⟩)

/-- The arms of `OverviewTab::handle_key` below the navigation. -/
inductive OverviewArm
  | openDetails
  | toggleGroup
  | collapse
  | expand
  | enterFilter
  | clearFilter
  | togglePorts
  | toggleHostnames
  | toggleHistoric
  | toggleGrouping
  | resetView
  | cycleSort
  | toggleDirection
  | clearAll

/-- The patterns of the arms. -/
def ScreenKey.overviewPattern (key : ScreenKey) : Option OverviewArm :=
  match key.code with
  | .nav (.key .enter) => some .openDetails
  | .nav (.key .left) => some .collapse
  | .nav (.key .right) => some .expand
  | .nav (.key .esc) => some .clearFilter
  -- the first pattern that matches, in the order of the match
  | .nav (.key (.char c)) =>
    if c = ' ' then some .toggleGroup
    else if c = 'l' then some .expand
    else if c = '/' then some .enterFilter
    else if c = 'p' then some .togglePorts
    else if c = 'd' then some .toggleHostnames
    else if c = 't' then some .toggleHistoric
    else if c = 'a' then some .toggleGrouping
    else if c = 'r' then some .resetView
    else if c = 's' ∧ key.modifiers = .none then some .cycleSort
    else if c = 'S' then some .toggleDirection
    else if c = 'x' then some .clearAll
    else none
  | _ => none

/-- The guards of the arms. -/
def OverviewArm.guard (s : ScreenState) (config : ScreenConfig) : OverviewArm → Bool
  | toggleGroup => s.groupingEnabled && s.isGroupSelected
  | collapse | expand => s.groupingEnabled
  | clearFilter => !s.filterQuery.isEmpty
  | toggleHostnames => config.resolveDns
  | _ => true

/-- The arm that a key takes. A key whose guard fails is in no other pattern. -/
def ScreenKey.overviewArm (key : ScreenKey) (s : ScreenState) (config : ScreenConfig) :
    Option OverviewArm :=
  key.overviewPattern.filter (OverviewArm.guard s config)

/-- What the arms of the match in `OverviewTab::handle_key` do, to the screen and to the
application, and the effects that they return. -/
def OverviewArm.run (s : ScreenState) (app : AppState ρ) (connections : List (ListedConnection ρ))
    (now : Instant) : OverviewArm → Handled ρ
  | openDetails =>
    -- a header has no details
    let onGroupHeader := s.groupingEnabled && s.isGroupSelected
    if !connections.isEmpty && !onGroupHeader then ⟨{ s with selectedTab := 1 }, app, []⟩
    else ⟨s, app, []⟩
  | toggleGroup => ⟨s.onRows UiState.toggleGroupExpansion, app, [.regroup]⟩
  | collapse => ⟨s.onRows UiState.collapseSelectedGroup, app, [.regroup]⟩
  | expand => ⟨s.onRows UiState.expandSelectedGroup, app, [.regroup]⟩
  | enterFilter => ⟨s.onFilter FilterState.enterFilterMode, app, []⟩
  | clearFilter => ⟨s.onFilter FilterState.clearFilter, app, [.refreshData]⟩
  | togglePorts => ⟨{ s with showPortNumbers := !s.showPortNumbers }, app, []⟩
  | toggleHostnames => ⟨{ s with showHostnames := !s.showHostnames }, app, []⟩
  -- the application decides what is in the list, so that it is told
  | toggleHistoric =>
    ⟨{ s with showHistoric := !s.showHistoric, scrollOffset := 0, groupedScrollOffset := 0 },
      { app with showHistoric := !app.showHistoric }, [.refreshData]⟩
  | toggleGrouping => ⟨s.toggleGrouping, app, [.regroup]⟩
  | resetView =>
    ⟨s.resetView, if s.showHistoric then { app with showHistoric := false } else app,
      [.refreshData]⟩
  | cycleSort => ⟨s.cycleSortColumn, app, [.refreshData]⟩
  | toggleDirection => ⟨s.toggleSortDirection, app, [.refreshData]⟩
  | clearAll =>
    let out := clearAllWithConfirmation s app now
    ⟨out.1, out.2.1, if out.2.2 then [.refreshData] else []⟩

namespace ScreenState

variable (s : ScreenState) (config : ScreenConfig) (app : AppState ρ)
  (connections : List (ListedConnection ρ)) (groupedRows : Option (List (GroupedRow ρ)))
  (key : ScreenKey) (now : Instant)

/-- The lists of the operations on the rows. -/
def rated : List (RatedConnection ρ) := connections.map ListedConnection.toRatedConnection

/-- `try_handle_connection_nav` on the lists of the loop: `none` where the key is not one of the
navigation. -/
def connectionNav : Option (Handled ρ) :=
  (s.tryHandleConnectionNav key.toKeyEvent (rated connections) groupedRows).map fun out =>
    ⟨{ s with toUiState := out.1 }, app, out.2.map .nav⟩

/-- `OverviewTab::handle_key`: while the filter is typed every key goes to it; otherwise the
navigation is asked first. -/
def overviewKey : KeyOutcome ρ :=
  if s.filterMode then
    match s.toUiState.handleFilterModeKey key.toKeyEvent (rated connections) with
    | some out => .claimed ⟨{ s with toUiState := out.1 }, app, out.2.map .nav⟩
    | none => .panicked
  else
    match s.connectionNav app connections groupedRows key with
    | some handled => .claimed handled
    | none =>
      match key.overviewArm s config with
      | some arm => .claimed (arm.run s app connections now)
      | none => .unclaimed

/-- `DetailsTab::handle_key`: the navigation, and nothing else. -/
def detailsKey : KeyOutcome ρ :=
  match s.connectionNav app connections groupedRows key with
  | some handled => .claimed handled
  | none => .unclaimed

/-- `dispatch_key`. The filter is typed in whichever tab is on show, and the last three tabs take no
keys. -/
def dispatchKey : KeyOutcome ρ :=
  if s.filterMode then s.overviewKey config app connections groupedRows key now
  else if s.selectedTab = 0 then s.overviewKey config app connections groupedRows key now
  else if s.selectedTab = 1 then s.detailsKey app connections groupedRows key
  else .unclaimed

end ScreenState

/-- The arms of the keys that work in all tabs. -/
inductive GlobalArm
  | quit
  | exit
  | next
  | prev
  | jump (target : ℕ)
  | help
  | clearAll
  | escape

/-- The patterns of the arms. -/
def ScreenKey.globalArm (key : ScreenKey) : Option GlobalArm :=
  match key.code with
  | .tab =>
    if key.modifiers = .none then some .next
    else if key.modifiers = .onlyShift then some .prev
    else none
  | .backTab => some .prev
  | .nav (.key .esc) => some .escape
  -- the first pattern that matches, in the order of the match
  | .nav (.key (.char c)) =>
    if c = 'q' then some .quit
    else if c = 'c' ∧ key.modifiers = .onlyControl then some .exit
    else if c = ']' ∧ key.modifiers = .none then some .next
    else if c = '[' ∧ key.modifiers = .none then some .prev
    else if c = '1' ∧ key.modifiers = .none then some (.jump 0)
    else if c = '2' ∧ key.modifiers = .none then some (.jump 1)
    else if c = '3' ∧ key.modifiers = .none then some (.jump 2)
    else if c = '4' ∧ key.modifiers = .none then some (.jump 3)
    else if c = '5' ∧ key.modifiers = .none then some (.jump 4)
    else if c = 'h' then some .help
    else if c = 'x' then some .clearAll
    else none
  | _ => none

/-- What the arms do; `none` leaves the loop. -/
def GlobalArm.run (s : ScreenState) (app : AppState ρ) (now : Instant) :
    GlobalArm → Option (Handled ρ)
  | quit =>
    -- nothing is returned where the function exits
    if s.quitConfirmation then none else some ⟨{ s with quitConfirmation := true }, app, []⟩
  | exit => none
  | next => some ⟨s.nextTab, app, []⟩
  | prev => some ⟨s.prevTab, app, []⟩
  | jump target => some ⟨s.jumpToTab target, app, []⟩
  | help =>
    let showHelp := !s.showHelp
    some ⟨{ s with showHelp, selectedTab := if showHelp then 4 else 0 }, app, []⟩
  | clearAll =>
    let out := clearAllWithConfirmation s app now
    some ⟨out.1, out.2.1, if out.2.2 then [.refreshData] else []⟩
  | escape =>
    -- first the filter goes, then the tab
    if !s.filterQuery.isEmpty then
      some ⟨s.onFilter FilterState.clearFilter, app, [.refreshData]⟩
    else if s.selectedTab ≠ 0 then some ⟨{ s with selectedTab := 0 }, app, []⟩
    else some ⟨s, app, []⟩

namespace ScreenState

variable (s : ScreenState) (app : AppState ρ) (connections : List (ListedConnection ρ))

/-- The keys that no tab takes; `none` leaves the loop. -/
def fallbackKey (key : ScreenKey) (now : Instant) : Option (Handled ρ) :=
  match key.globalArm with
  | some arm => arm.run s app now
  | none => some ⟨s, app, []⟩

/-- What a key press resets before anything takes it. -/
def resetConfirmations (key : ScreenKey) : ScreenState :=
  match key.char? with
  | some 'q' => { s with clearConfirmation := false }
  | some 'x' => { s with quitConfirmation := false }
  | _ => { s with quitConfirmation := false, clearConfirmation := false }

/-- Only the confirmations are reset. -/
theorem resetConfirmations_cases (key : ScreenKey) :
    ∃ flags : Bool × Bool, s.resetConfirmations key =
      { s with quitConfirmation := flags.1, clearConfirmation := flags.2 } := by
  unfold resetConfirmations
  split
  · exact ⟨(_, _), rfl⟩
  · exact ⟨(_, _), rfl⟩
  · exact ⟨(_, _), rfl⟩

/-- `OverviewTab::handle_mouse` for the scroll wheel in the table. -/
def scroll (groupedRows : List (GroupedRow ρ)) (up : Bool) : ScreenState :=
  s.onRows fun ui =>
    if up then
      if s.groupingEnabled then ui.moveSelectionUpGrouped groupedRows
      else ui.moveSelectionUp (rated connections)
    else
      if s.groupingEnabled then ui.moveSelectionDownGrouped groupedRows
      else ui.moveSelectionDown (rated connections)

/-- The second of two clicks in a row, within 400 milliseconds. -/
def isDoubleClick (row : ℕ) (now : Instant) : Bool :=
  match s.lastClick with
  | some (_, prevRow, prevTime) =>
    prevRow == row && decide (prevTime.elapsed now / 1000000 < 400)
  | none => false

/-- The arms of a click; the last component asks for the rows to be grouped again. -/
def clickAction (groupedRows : List (GroupedRow ρ)) (isDoubleClick : Bool) (error : Option String)
    (now : Instant) : ClickAction → ScreenState × Bool
  | .switchTab tabIdx => ({ s with selectedTab := tabIdx }, false)
  | .selectConnection connIdx =>
    if s.groupingEnabled then
      let selected := s.onRows fun ui => ui.setSelectedGroupedByIndex groupedRows connIdx
      if isDoubleClick then
        -- a second click toggles a group and opens a connection
        match groupedRows[connIdx]? with
        | some (.group _ _ _) => (selected.onRows UiState.toggleGroupExpansion, true)
        | some (.connection _ _ _) => ({ selected with selectedTab := 1 }, false)
        | none => (selected, false)
      else (selected, false)
    else
      let selected := s.onRows fun ui => ui.setSelectedByIndex (rated connections) connIdx
      if isDoubleClick then ({ selected with selectedTab := 1 }, false) else (selected, false)
  | .copyField field =>
    (copyToClipboard s (field.label ++ ": " ++ field.value) error now, false)

/-- A click with the left button. -/
def click (groupedRows : List (GroupedRow ρ)) (clicks : ClickableRegions) (column row : ℕ)
    (error : Option String) (now : Instant) : ScreenState × Bool :=
  let isDouble := s.isDoubleClick row now
  let clicked :=
    { s with
      quitConfirmation := false
      clearConfirmation := false
      lastClick := some (column, row, now) }
  match clicks.hitTest column row with
  | some action => clicked.clickAction connections groupedRows isDouble error now action
  | none => (clicked, false)

end ScreenState

/-! ## What the handlers keep -/

namespace UiState

/-- At most the selection has changed. -/
def Moved (s s' : UiState) : Prop :=
  ∃ key group, s' = { s with selectedConnectionKey := key, selectedGroup := group }

section Moves

variable (s : UiState) (connections : List (RatedConnection ρ)) (rows : List (GroupedRow ρ))

theorem Moved.refl : s.Moved s := ⟨_, _, rfl⟩

theorem Moved.ite {s a b : UiState} {p : Prop} [Decidable p] (ha : s.Moved a) (hb : s.Moved b) :
    s.Moved (if p then a else b) := by
  split_ifs
  · exact ha
  · exact hb

theorem moved_setSelectedByIndex (index : ℕ) :
    s.Moved (s.setSelectedByIndex connections index) := by
  unfold setSelectedByIndex
  cases connections[index]? with
  | some conn => exact ⟨_, _, rfl⟩
  | none => exact .refl s

theorem moved_setSelectedGroupedByIndex (index : ℕ) :
    s.Moved (s.setSelectedGroupedByIndex rows index) := by
  unfold setSelectedGroupedByIndex
  rcases rows[index]? with _ | row
  · exact .refl s
  · cases row <;> exact ⟨_, _, rfl⟩

theorem moved_moveSelectionUp : s.Moved (s.moveSelectionUp connections) :=
  .ite (.refl s) (.ite (moved_setSelectedByIndex s connections _)
    (moved_setSelectedByIndex s connections _))

theorem moved_moveSelectionDown : s.Moved (s.moveSelectionDown connections) :=
  .ite (.refl s) (.ite (moved_setSelectedByIndex s connections _)
    (moved_setSelectedByIndex s connections _))

theorem moved_moveSelectionPageUp (pageSize : ℕ) :
    s.Moved (s.moveSelectionPageUp connections pageSize) :=
  .ite (.refl s) (.ite (moved_setSelectedByIndex s connections _)
    (moved_setSelectedByIndex s connections _))

theorem moved_moveSelectionPageDown (pageSize : ℕ) :
    s.Moved (s.moveSelectionPageDown connections pageSize) :=
  .ite (.refl s) (.ite (moved_setSelectedByIndex s connections _)
    (moved_setSelectedByIndex s connections _))

theorem moved_moveSelectionToFirst : s.Moved (s.moveSelectionToFirst connections) :=
  .ite (.refl s) (moved_setSelectedByIndex s connections _)

theorem moved_moveSelectionToLast : s.Moved (s.moveSelectionToLast connections) :=
  .ite (.refl s) (moved_setSelectedByIndex s connections _)

theorem moved_moveSelectionUpGrouped : s.Moved (s.moveSelectionUpGrouped rows) :=
  .ite (.refl s) (moved_setSelectedGroupedByIndex s rows _)

theorem moved_moveSelectionDownGrouped : s.Moved (s.moveSelectionDownGrouped rows) :=
  .ite (.refl s) (moved_setSelectedGroupedByIndex s rows _)

theorem moved_moveSelectionPageUpGrouped (pageSize : ℕ) :
    s.Moved (s.moveSelectionPageUpGrouped rows pageSize) :=
  .ite (.refl s) (moved_setSelectedGroupedByIndex s rows _)

theorem moved_moveSelectionPageDownGrouped (pageSize : ℕ) :
    s.Moved (s.moveSelectionPageDownGrouped rows pageSize) :=
  .ite (.refl s) (moved_setSelectedGroupedByIndex s rows _)

theorem moved_ensureValidSelection : s.Moved (s.ensureValidSelection connections) :=
  .ite ⟨none, _, rfl⟩ (.ite (moved_setSelectedByIndex s connections _) (.refl s))

theorem moved_ensureValidGroupedSelection : s.Moved (s.ensureValidGroupedSelection rows) :=
  .ite ⟨none, none, rfl⟩ (.ite (moved_setSelectedGroupedByIndex s rows _) (.refl s))

/-- The keys of the navigation move the selection, or copy. -/
theorem moved_navigate (groupedRows : Option (List (GroupedRow ρ))) (action : NavAction) :
    s.Moved (s.navigate connections groupedRows action).1 := by
  cases action with
  -- with rows the grouped move is made, and the flat one in every other case
  | up =>
    unfold navigate
    rcases s.groupingEnabled, groupedRows with ⟨_ | _, _ | rows⟩
    case true.some => exact moved_moveSelectionUpGrouped s rows
    all_goals exact moved_moveSelectionUp s connections
  | down =>
    unfold navigate
    rcases s.groupingEnabled, groupedRows with ⟨_ | _, _ | rows⟩
    case true.some => exact moved_moveSelectionDownGrouped s rows
    all_goals exact moved_moveSelectionDown s connections
  | pageUp =>
    unfold navigate
    rcases s.groupingEnabled, groupedRows with ⟨_ | _, _ | rows⟩
    case true.some => exact moved_moveSelectionPageUpGrouped s rows _
    all_goals exact moved_moveSelectionPageUp s connections _
  | pageDown =>
    unfold navigate
    rcases s.groupingEnabled, groupedRows with ⟨_ | _, _ | rows⟩
    case true.some => exact moved_moveSelectionPageDownGrouped s rows _
    all_goals exact moved_moveSelectionPageDown s connections _
  | first => exact moved_moveSelectionToFirst s connections
  | last => exact moved_moveSelectionToLast s connections
  | copy =>
    unfold navigate
    rcases (s.getSelectedIndex connections).bind (connections[·]?) with _ | conn
    all_goals exact .refl s

end Moves

/-- At most the groups that are open have changed. -/
def Regrouped (s s' : UiState) : Prop :=
  ∃ groups, s' = { s with expandedGroups := groups }

theorem regrouped_toggleGroupExpansion (s : UiState) : s.Regrouped s.toggleGroupExpansion := by
  obtain ⟨filter, key, group, grouping, groups, rows⟩ := s
  cases group with
  | none => exact ⟨_, rfl⟩
  | some name =>
    by_cases hexpanded : name ∈ groups
    · exact ⟨groups.erase name, if_pos hexpanded⟩
    · exact ⟨insert name groups, if_neg hexpanded⟩

theorem regrouped_expandSelectedGroup (s : UiState) : s.Regrouped s.expandSelectedGroup := by
  obtain ⟨filter, key, group, grouping, groups, rows⟩ := s
  cases group with
  | none => exact ⟨groups, rfl⟩
  | some name => exact ⟨insert name groups, rfl⟩

theorem regrouped_collapseSelectedGroup (s : UiState) : s.Regrouped s.collapseSelectedGroup := by
  obtain ⟨filter, key, group, grouping, groups, rows⟩ := s
  cases group with
  | none => exact ⟨groups, rfl⟩
  | some name => exact ⟨groups.erase name, rfl⟩

end UiState

/-- A key changes the query only with a refresh, while the filter is typed. -/
theorem FilterState.filterQuery_of_handleFilterModeKey {ui : UiState} {press : KeyPress}
    {filter : FilterState} (h : ui.toFilterState.handleFilterModeKey press = some filter) :
    filter.filterQuery = ui.filterQuery ∨ .refreshData ∈ ui.filterEffects press.code := by
  obtain ⟨code, control, onOverview⟩ := press
  cases code with
  -- at the end of the query nothing is deleted
  | delete =>
    unfold UiState.filterEffects
    dsimp only
    change ui.toFilterState.filterDelete = some filter at h
    unfold FilterState.filterDelete at h
    split_ifs at h ⊢
    · exact .inr List.mem_cons_self
    · exact .inl (congrArg FilterState.filterQuery (Option.some.inj h)).symm
  | left =>
    obtain rfl := Option.some.inj h
    unfold FilterState.filterCursorLeft
    split_ifs <;> exact .inl rfl
  | right =>
    obtain rfl := Option.some.inj h
    unfold FilterState.filterCursorRight
    split_ifs <;> exact .inl rfl
  -- these keys ask for the data whether they change the query or not
  | enter | esc | backspace | char c => exact .inr List.mem_cons_self
  | home | «end» | up | down | other =>
    obtain rfl := Option.some.inj h
    exact .inl rfl

/-- A character that is typed leaves the filter open. -/
theorem FilterState.filterMode_of_char {s filter : FilterState} {c : Char}
    {control onOverview : Bool}
    (h : s.handleFilterModeKey ⟨.char c, control, onOverview⟩ = some filter) :
    filter.filterMode = s.filterMode := by
  change (if isFilterBackspaceChar c control then s.filterBackspace else s.filterAddChar c) =
    some filter at h
  unfold FilterState.filterBackspace FilterState.filterAddChar at h
  split_ifs at h
  · obtain ⟨query, -, rfl⟩ := Option.map_eq_some_iff.mp h
    rfl
  · obtain rfl := Option.some.inj h
    rfl
  · obtain ⟨query, -, rfl⟩ := Option.map_eq_some_iff.mp h
    rfl

/-! ## What the handlers ask for -/

namespace ScreenState

/-- What the list of connections depends on. -/
def listSettings (s : ScreenState) : List Char × SortColumn × Bool :=
  (s.filterQuery, s.sortColumn, s.sortAscending)

/-- What the rows depend on besides. -/
def groupSettings (s : ScreenState) : Bool × Finset String :=
  (s.groupingEnabled, s.expandedGroups)

/-- The flags of the two confirmations. -/
def confirmations (s : ScreenState) : Bool × Bool := (s.quitConfirmation, s.clearConfirmation)

end ScreenState

/-- A handler asks for what it has changed: for the connections if it has changed the query, their
order or what the other threads collect, and for the rows if it has changed the groups. -/
structure Requests (s : ScreenState) (app : AppState ρ) (handled : Handled ρ) : Prop where
  list : handled.screen.listSettings = s.listSettings ∨ .refreshData ∈ handled.effects
  rows : handled.screen.groupSettings = s.groupSettings ∨ .regroup ∈ handled.effects ∨
    .refreshData ∈ handled.effects
  shared : handled.app = app ∨ .refreshData ∈ handled.effects
  /-- The switch for the historic connections is the same on both sides. -/
  historic : s.showHistoric = app.showHistoric →
    handled.screen.showHistoric = handled.app.showHistoric
  /-- There are five tabs. -/
  tab : s.selectedTab < tabCount → handled.screen.selectedTab < tabCount

section Requests

variable {s : ScreenState} {app : AppState ρ} {handled : Handled ρ}
  {connections : List (ListedConnection ρ)} {groupedRows : Option (List (GroupedRow ρ))}
  {config : ScreenConfig} {key : ScreenKey} {now : Instant}

/-- Connections that are fetched again are also grouped again. -/
theorem Requests.of_refresh (hrefresh : .refreshData ∈ handled.effects)
    (historic : s.showHistoric = app.showHistoric →
      handled.screen.showHistoric = handled.app.showHistoric)
    (tab : s.selectedTab < tabCount → handled.screen.selectedTab < tabCount) :
    Requests s app handled :=
  ⟨.inr hrefresh, .inr (.inr hrefresh), .inr hrefresh, historic, tab⟩

/-- A handler that changes none of this. -/
theorem Requests.of_eq (hlist : handled.screen.listSettings = s.listSettings)
    (hgroup : handled.screen.groupSettings = s.groupSettings) (happ : handled.app = app)
    (historic : handled.screen.showHistoric = s.showHistoric)
    (tab : s.selectedTab < tabCount → handled.screen.selectedTab < tabCount) :
    Requests s app handled where
  list := .inl hlist
  rows := .inl hgroup
  shared := .inl happ
  historic h := by rw [historic, happ, h]
  tab := tab

/-- A handler that opens or closes groups. -/
theorem Requests.of_regrouped {ui : UiState} (h : s.toUiState.Regrouped ui) :
    Requests s app ⟨{ s with toUiState := ui }, app, [.regroup]⟩ := by
  obtain ⟨groups, rfl⟩ := h
  exact ⟨.inl rfl, .inr (.inl List.mem_cons_self), .inl rfl, id, id⟩

/-- A handler that moves the selection. -/
theorem Requests.of_moved {ui : UiState} (h : s.toUiState.Moved ui) (effects : List ScreenEffect) :
    Requests s app ⟨{ s with toUiState := ui }, app, effects⟩ := by
  obtain ⟨key, group, rfl⟩ := h
  exact .of_eq rfl rfl rfl rfl id

theorem requests_clearAllWithConfirmation :
    Requests s app ⟨(clearAllWithConfirmation s app now).1,
      (clearAllWithConfirmation s app now).2.1,
      if (clearAllWithConfirmation s app now).2.2 then [.refreshData] else []⟩ := by
  unfold clearAllWithConfirmation
  cases s.clearConfirmation with
  | true => exact .of_refresh List.mem_cons_self (fun _ => rfl) id
  | false => exact .of_eq rfl rfl rfl rfl id

theorem requests_overviewArm (arm : OverviewArm) :
    Requests s app (arm.run s app connections now) := by
  cases arm with
  -- a tab is opened only when a connection is selected
  | openDetails =>
    unfold OverviewArm.run
    dsimp only
    split_ifs
    · exact .of_eq rfl rfl rfl rfl fun _ => (by decide : 1 < tabCount)
    · exact .of_eq rfl rfl rfl rfl id
  | toggleGroup => exact .of_regrouped (UiState.regrouped_toggleGroupExpansion _)
  | collapse => exact .of_regrouped (UiState.regrouped_collapseSelectedGroup _)
  | expand => exact .of_regrouped (UiState.regrouped_expandSelectedGroup _)
  | enterFilter => exact .of_eq rfl rfl rfl rfl id
  | clearFilter => exact .of_refresh List.mem_cons_self id id
  | togglePorts => exact .of_eq rfl rfl rfl rfl id
  | toggleHostnames => exact .of_eq rfl rfl rfl rfl id
  | toggleHistoric => exact .of_refresh List.mem_cons_self (congrArg not) id
  | toggleGrouping =>
    unfold OverviewArm.run ScreenState.toggleGrouping
    dsimp only
    split_ifs
    · exact ⟨.inl rfl, .inr (.inl List.mem_cons_self), .inl rfl, id, id⟩
    · exact ⟨.inl rfl, .inr (.inl List.mem_cons_self), .inl rfl, id, id⟩
  -- the reset hides what is historic, which it asks the data for
  | resetView =>
    refine .of_refresh List.mem_cons_self (fun h => ?_) id
    unfold OverviewArm.run
    cases hhistoric : s.showHistoric with
    | true => rfl
    | false => exact hhistoric.symm.trans h
  | cycleSort => exact .of_refresh List.mem_cons_self id id
  | toggleDirection => exact .of_refresh List.mem_cons_self id id
  | clearAll => exact requests_clearAllWithConfirmation

/-- What takes a key: the filter while it is typed, and otherwise the navigation or an arm of the
overview. -/
theorem dispatchKey_cases
    (h : s.dispatchKey config app connections groupedRows key now = .claimed handled) :
    (s.filterMode = true ∧ ∃ out,
        s.toUiState.handleFilterModeKey key.toKeyEvent (ScreenState.rated connections) = some out ∧
          handled = ⟨{ s with toUiState := out.1 }, app, out.2.map .nav⟩) ∨
      (s.filterMode = false ∧ ∃ action, key.toKeyEvent.navAction = some action ∧
          s.connectionNav app connections groupedRows key = some handled) ∨
      s.filterMode = false ∧ ∃ arm, key.overviewArm s config = some arm ∧
        handled = arm.run s app connections now := by
  -- a key that moves the selection has an action
  have hnav : ∀ out, s.connectionNav app connections groupedRows key = some out →
      ∃ action, key.toKeyEvent.navAction = some action := by
    intro out hout
    obtain ⟨_, hclaimed, -⟩ := Option.map_eq_some_iff.mp hout
    obtain ⟨action, haction, -⟩ := Option.map_eq_some_iff.mp hclaimed
    exact ⟨action, haction⟩
  unfold ScreenState.dispatchKey ScreenState.overviewKey ScreenState.detailsKey at h
  cases hmode : s.filterMode with
  -- the filter has the first claim on a key
  | true =>
    rw [hmode, if_pos rfl, if_pos rfl] at h
    cases hout : s.toUiState.handleFilterModeKey key.toKeyEvent (ScreenState.rated connections) with
    | none =>
      rw [hout] at h
      cases h
    | some out =>
      rw [hout] at h
      obtain rfl := KeyOutcome.claimed.inj h
      exact .inl ⟨rfl, out, rfl, rfl⟩
  -- then the moves of the selection, and the arms of the overview last
  | false =>
    rw [hmode, if_neg Bool.false_ne_true, if_neg Bool.false_ne_true] at h
    right
    cases hout : s.connectionNav app connections groupedRows key with
    | some out =>
      simp only [hout] at h
      split_ifs at h
      · obtain rfl := KeyOutcome.claimed.inj h
        obtain ⟨action, haction⟩ := hnav _ hout
        exact .inl ⟨rfl, action, haction, rfl⟩
      · obtain rfl := KeyOutcome.claimed.inj h
        obtain ⟨action, haction⟩ := hnav _ hout
        exact .inl ⟨rfl, action, haction, rfl⟩
    | none =>
      simp only [hout] at h
      split_ifs at h
      cases harm : key.overviewArm s config with
      | none =>
        rw [harm] at h
        cases h
      | some arm =>
        rw [harm] at h
        obtain rfl := KeyOutcome.claimed.inj h
        exact .inr ⟨rfl, arm, rfl, rfl⟩

/-- What the navigation hands back has at most another selection. -/
theorem connectionNav_cases
    (h : s.connectionNav app connections groupedRows key = some handled) :
    ∃ ui effects, s.toUiState.Moved ui ∧ handled = ⟨{ s with toUiState := ui }, app, effects⟩ := by
  obtain ⟨out, hout, rfl⟩ := Option.map_eq_some_iff.mp h
  obtain ⟨action, -, rfl⟩ := Option.map_eq_some_iff.mp hout
  exact ⟨_, _, UiState.moved_navigate _ _ _ action, rfl⟩

/-- What the filter hands back: at most the selection has changed, and the filter. -/
theorem handleFilterModeKey_cases {ui : UiState} {event : KeyEvent}
    {rows : List (RatedConnection ρ)} {out : UiState × List Effect}
    (h : ui.handleFilterModeKey event rows = some out) :
    ∃ moved filter, ui.Moved moved ∧ out.1 = { moved with toFilterState := filter } ∧
      ui.toFilterState.handleFilterModeKey ⟨event.code.toKeyCode, event.modifiers.control, true⟩ =
        some filter ∧ out.2 = ui.filterEffects event.code.toKeyCode := by
  obtain ⟨filter, hfilter, rfl⟩ := Option.map_eq_some_iff.mp h
  refine ⟨_, filter, ?_, rfl, hfilter, rfl⟩
  rcases event.filterAction with _ | action
  · exact .refl ui
  · cases action with
    | up => exact UiState.moved_moveSelectionUp ui rows
    | down => exact UiState.moved_moveSelectionDown ui rows
    | _ => exact .refl ui

/-- **The tabs ask for what they change.** -/
theorem requests_dispatchKey
    (h : s.dispatchKey config app connections groupedRows key now = .claimed handled) :
    Requests s app handled := by
  rcases dispatchKey_cases h with ⟨-, out, hout, rfl⟩ | ⟨-, -, -, hnav⟩ | ⟨-, arm, -, rfl⟩
  · obtain ⟨moved, filter, ⟨selectedKey, group, rfl⟩, hui, hfilter, heffects⟩ :=
      handleFilterModeKey_cases hout
    rw [hui, heffects]
    rcases FilterState.filterQuery_of_handleFilterModeKey hfilter with hquery | hrefresh
    · refine .of_eq ?_ rfl rfl rfl id
      simp only [ScreenState.listSettings, hquery]
    · exact .of_refresh (List.mem_map_of_mem hrefresh) id id
  · obtain ⟨ui, effects, hmoved, rfl⟩ := connectionNav_cases hnav
    exact .of_moved hmoved effects
  · exact requests_overviewArm arm

theorem requests_globalArm {arm : GlobalArm} (h : arm.run s app now = some handled) :
    Requests s app handled := by
  cases arm with
  -- the arm returns, or it sets the flag
  | quit =>
    rw [GlobalArm.run] at h
    split_ifs at h
    obtain rfl := Option.some.inj h
    exact .of_eq rfl rfl rfl rfl id
  | exit => cases h
  -- the tab moves around the circle of the tabs
  | next =>
    obtain rfl := Option.some.inj h
    exact .of_eq rfl rfl rfl rfl fun _ => Nat.mod_lt _ (by decide)
  | prev =>
    obtain rfl := Option.some.inj h
    refine .of_eq rfl rfl rfl rfl fun htab => ?_
    show (if s.selectedTab = 0 then tabCount - 1 else s.selectedTab - 1) < tabCount
    split_ifs
    · decide
    · exact (Nat.sub_le _ _).trans_lt htab
  | jump target =>
    obtain rfl := Option.some.inj h
    unfold ScreenState.jumpToTab
    split_ifs with htarget
    · exact .of_eq rfl rfl rfl rfl id
    · exact .of_eq rfl rfl rfl rfl fun _ => Nat.lt_of_not_le htarget
  | help =>
    obtain rfl := Option.some.inj h
    refine .of_eq rfl rfl rfl rfl fun _ => ?_
    show (if (!s.showHelp) = true then 4 else 0) < tabCount
    split_ifs <;> decide
  | clearAll =>
    obtain rfl := Option.some.inj h
    exact requests_clearAllWithConfirmation
  -- it clears the filter, goes back to the overview, or does nothing
  | escape =>
    rw [GlobalArm.run] at h
    split_ifs at h
    · obtain rfl := Option.some.inj h
      exact .of_refresh List.mem_cons_self id id
    · obtain rfl := Option.some.inj h
      exact .of_eq rfl rfl rfl rfl fun _ => (by decide : 0 < tabCount)
    · obtain rfl := Option.some.inj h
      exact .of_eq rfl rfl rfl rfl id

/-- So do the keys that work in all tabs. -/
theorem requests_fallbackKey (h : s.fallbackKey app key now = some handled) :
    Requests s app handled := by
  unfold ScreenState.fallbackKey at h
  cases harm : key.globalArm with
  | none =>
    rw [harm] at h
    obtain rfl := Option.some.inj h
    exact .of_eq rfl rfl rfl rfl id
  | some arm =>
    rw [harm] at h
    exact requests_globalArm h

/-- A click asks for the rows when it opens or closes a group, and leaves the rest of the settings
alone. -/
theorem clickAction_cases (s : ScreenState) (connections : List (ListedConnection ρ))
    (rows : List (GroupedRow ρ)) (isDoubleClick : Bool) (error : Option String) (now : Instant)
    (action : ClickAction) (out : ScreenState × Bool)
    (hout : s.clickAction connections rows isDoubleClick error now action = out) :
    out.1.listSettings = s.listSettings ∧
      (out.1.groupSettings = s.groupSettings ∨ out.2 = true) ∧
      out.1.showHistoric = s.showHistoric ∧ out.1.confirmations = s.confirmations ∧
      out.1.filterMode = s.filterMode ∧
      (out.1.selectedTab = s.selectedTab ∨ out.1.selectedTab = 1 ∨
        action = .switchTab out.1.selectedTab) := by
  subst hout
  cases action with
  | switchTab tabIdx => exact ⟨rfl, .inl rfl, rfl, rfl, rfl, .inr (.inr rfl)⟩
  | copyField field => exact ⟨rfl, .inl rfl, rfl, rfl, rfl, .inl rfl⟩
  -- a row is selected, and a second click opens it or toggles its group
  | selectConnection connIdx =>
    rw [ScreenState.clickAction]
    cases s.groupingEnabled with
    | false =>
      obtain ⟨key, group, hmoved⟩ := UiState.moved_setSelectedByIndex s.toUiState
        (ScreenState.rated connections) connIdx
      cases isDoubleClick <;> simp [ScreenState.onRows, hmoved, ScreenState.listSettings,
        ScreenState.groupSettings, ScreenState.confirmations]
    | true =>
      obtain ⟨key, group, hmoved⟩ := UiState.moved_setSelectedGroupedByIndex s.toUiState rows
        connIdx
      cases isDoubleClick with
      | false => simp [ScreenState.onRows, hmoved, ScreenState.listSettings,
          ScreenState.groupSettings, ScreenState.confirmations]
      | true =>
        rcases rows[connIdx]? with _ | row
        · simp [ScreenState.onRows, hmoved, ScreenState.listSettings,
            ScreenState.groupSettings, ScreenState.confirmations]
        · cases row with
          | connection name conn isLast => simp [ScreenState.onRows, hmoved,
              ScreenState.listSettings, ScreenState.groupSettings, ScreenState.confirmations]
          | group name stats expanded =>
            obtain ⟨groups, htoggled⟩ := UiState.regrouped_toggleGroupExpansion
              { s.toUiState with selectedConnectionKey := key, selectedGroup := group }
            simp [ScreenState.onRows, hmoved, htoggled, ScreenState.listSettings,
              ScreenState.confirmations]

end Requests

end RustNet

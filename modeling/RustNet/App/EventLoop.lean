import RustNet.App.Filter
import RustNet.App.Screen
import RustNet.Foundations.Run

/-!
# The event loop

An iteration of `run_ui_loop` fetches the connections again when something has asked for it or 200
milliseconds have passed, repairs the selection, draws the frame and handles at most one event.
Between two fetches it keeps the connections and the rows that it has.

What an iteration meets is a `Turn`: the clocks, what the other threads have published, the areas of
the screen and the event.

## Main definitions

* `LoopState`, `Turn`, and `LoopState.frame`: the state that an iteration draws;
* `LoopOutcome.step`: an iteration;
* `Current`: the lists of a frame are those of its settings, and of a snapshot taken within 200
  milliseconds.

## Main results

* `current_frame`: whatever is pressed and clicked, every frame is current;
* `showsSelection_reselect`: a row is highlighted, in the window.
-/

namespace RustNet

variable {ρ τ : Type}

/-! ## Drawing -/

/-- `Rect::inner` with a margin of one. -/
def Rect.inner (rect : Rect) : Rect :=
  if rect.width < 2 ∨ rect.height < 2 then ⟨0, 0, 0, 0⟩
  else ⟨rect.x + 1, rect.y + 1, rect.width - 2, rect.height - 2⟩

/-- `TAB_TITLES`: the tabs from left to right, by whose widths the regions of the tab bar are
registered. -/
def tabTitles : List String := ["Overview", "Details", "Interfaces", "Graph", "Help"]

/-- The columns between two titles: `TAB_DIVIDER.chars().count()`. -/
def dividerWidth : ℕ := 3

namespace ClickableRegions

/-- The loop of `draw_tabs`, from a tab on. -/
def registerTabs (inner : Rect) : ℕ → ℕ → List String → ClickableRegions → ClickableRegions
  | _, _, [], clicks => clicks
  | i, x, title :: titles, clicks =>
    let paddedWidth := title.utf8ByteSize + 2
    registerTabs inner (i + 1) (x + (paddedWidth + dividerWidth)) titles
      (clicks.register ⟨x, inner.y, paddedWidth, inner.height⟩ (.switchTab i))

/-- The loop over the visible rows of a table, which ends with the last element. -/
def registerRows (inner : Rect) (offset total : ℕ) (clicks : ClickableRegions) :
    ClickableRegions :=
  ((List.range (inner.height - 2)).takeWhile fun i => offset + i < total).foldl
    (fun clicks i =>
      clicks.register ⟨inner.x, inner.y + 2 + i, inner.width, 1⟩ (.selectConnection (offset + i)))
    clicks

end ClickableRegions

/-- The areas that a frame is drawn in, and the fields of the details with the area of each pane. -/
structure Layout where
  tabs : Rect
  table : Rect
  panes : List (Rect × Bool × List (Option DetailField))

/-! ## The loop -/

/-- `crossterm::event::Event`, as far as the loop takes it. A key may be pressed or released. -/
inductive InputEvent
  | key (key : ScreenKey) (isPress : Bool)
  | leftClick (column row : ℕ)
  | scroll (up : Bool) (column row : ℕ)
  | other

/-- What an iteration of the loop meets and does not choose: the readings of the clocks, what the
other threads have left in the tracker and the snapshot, the orders of the hash maps, the area of
the terminal, and the event. -/
structure Turn (ρ : Type) where
  /-- The clock at the test whether to fetch. -/
  now : Instant
  /-- The clock after fetching. -/
  fetchedAt : Instant
  tracker : ConnectionTracker
  snapshot : List (ListedConnection ρ)
  /-- The wall clock at each connection that is filtered. -/
  filterClock : ℕ → SystemTime
  std : SliceSort (ListedConnection ρ)
  /-- The wall clock at each reading of the sort. -/
  sortClock : ℕ → SystemTime
  order : IterOrder String
  isLoading : Bool
  layout : Layout
  /-- `terminal.size()`, the height. -/
  height : Option ℕ
  event : Option InputEvent
  eventAt : Instant
  clipboardError : Option String

/-- The variables of `run_ui_loop` from one iteration to the next, with the regions that the last
frame registered. -/
structure LoopState (ρ : Type) where
  screen : ScreenState
  app : AppState ρ
  connections : List (ListedConnection ρ)
  groupedRows : List (GroupedRow ρ)
  lastTick : Instant
  needsDataRefresh : Bool
  needsRegroup : Bool
  clicks : ClickableRegions
  scrollArea : Option Rect

/-- A DNS lookup of a name by its address. -/
def ListedConnection.isPtrLookup (conn : ListedConnection ρ) : Bool :=
  match conn.dpiInfo.map DpiInfo.application with
  | some (.dns info) =>
    match info.queryType with
    | some .PTR => true
    | _ => false
  | _ => false

/-- The connection as the filter takes it. -/
def ListedConnection.named (conn : ListedConnection ρ) : NamedConnection :=
  ⟨conn.toConnection, conn.serviceName⟩

section Fetch

variable [TextEngine]

/-- `get_filtered_connections`: the connections of the snapshot, without the reverse lookups where
they are hidden, that match the query. A blank query matches all. -/
def AppState.getFilteredConnections (app : AppState ρ) (config : ScreenConfig)
    (filterQuery : List Char) (clock : ℕ → SystemTime) : List (ListedConnection ρ) :=
  let hidePtrLookups := config.resolveDns && !config.showPtrLookups
  let connections :=
    if hidePtrLookups then app.connectionsSnapshot.filter fun conn => !conn.isPtrLookup
    else app.connectionsSnapshot
  if (Text.trim filterQuery).isEmpty then connections
  else
    let filter := ConnectionFilter.parse (String.ofList filterQuery)
    (connections.zipIdx.filter fun conn => filter.matches conn.1.named (clock conn.2)).map
      Prod.fst

/-- `get_connections`: what is shown without a query. -/
def AppState.getConnections (app : AppState ρ) (config : ScreenConfig) (clock : ℕ → SystemTime) :
    List (ListedConnection ρ) :=
  app.getFilteredConnections config [] clock

namespace LoopState

variable [Zero ρ] [Add ρ] [LinearOrder τ] (config : ScreenConfig) (value : ρ → Option τ)
  (s : LoopState ρ) (turn : Turn ρ)

/-- `run_ui_loop` before its loop: nothing has been fetched, and a fetch is due. -/
def initial (app : AppState ρ) (now : Instant) : LoopState ρ where
  screen := { ScreenState.default with hasGeoip := config.hasCountryDb }
  app := app
  connections := []
  groupedRows := []
  lastTick := now
  needsDataRefresh := true
  needsRegroup := false
  clicks := ⟨[]⟩
  scrollArea := none

/-- The rows of the connections. -/
def rowsOf (screen : ScreenState) (connections : List (ListedConnection ρ))
    (order : IterOrder String) : List (GroupedRow ρ) :=
  if screen.groupingEnabled then
    computeGroupedRows order (ScreenState.rated connections) screen.expandedGroups
  else []

/-- The connections are fetched again; `none` is a panic of the sort. -/
def refresh : Option (LoopState ρ) :=
  let fetched :=
    if s.screen.filterQuery.isEmpty && !s.screen.filterMode then
      s.app.getConnections config turn.filterClock
    else s.app.getFilteredConnections config s.screen.filterQuery turn.filterClock
  (sortConnections value s.screen.sortColumn s.screen.sortAscending turn.std turn.sortClock
      fetched).map fun connections =>
    { s with
      connections
      groupedRows := rowsOf s.screen connections turn.order
      lastTick := turn.fetchedAt
      needsDataRefresh := false
      needsRegroup := false }

/-- What is drawn is brought up to date. -/
def update : Option (LoopState ρ) :=
  if s.needsDataRefresh || decide (200000000 ≤ s.lastTick.elapsed turn.now) then
    s.refresh config value turn
  else if s.needsRegroup then
    some { s with
      groupedRows := rowsOf s.screen s.connections turn.order
      needsRegroup := false }
  else some s

/-- The selection is repaired, and the window moved to it. -/
def reselect : LoopState ρ :=
  if s.screen.groupingEnabled then
    let screen := s.screen.onRows fun ui => ui.ensureValidGroupedSelection s.groupedRows
    let selectedIdx := (screen.getSelectedGroupedIndex s.groupedRows).getD 0
    -- the window is moved so that it shows the selected row
    { s with
      screen := { screen with
        groupedScrollOffset := computeScrollOffset selectedIdx screen.groupedScrollOffset
          screen.visibleRows s.groupedRows.length } }
  else
    let rated := ScreenState.rated s.connections
    let screen := s.screen.onRows fun ui => ui.ensureValidSelection rated
    let selectedIdx := (screen.getSelectedIndex rated).getD 0
    { s with
      screen := { screen with
        scrollOffset := computeScrollOffset selectedIdx screen.scrollOffset
          screen.visibleRows s.connections.length } }

/-- The state that an iteration draws. The other threads have gone on since the last one. -/
def frame : Option (LoopState ρ) :=
  let shared :=
    { s.app with tracker := turn.tracker, connectionsSnapshot := turn.snapshot }
  (update config value { s with app := shared } turn).map reselect

end LoopState

end Fetch

namespace LoopState

variable (config : ScreenConfig) (s : LoopState ρ) (turn : Turn ρ)

/-- The clickable regions that `draw` registers. -/
def drawnClicks : ClickableRegions × Option Rect :=
  -- the loading screen has no regions
  if turn.isLoading then (⟨[]⟩, none)
  else
    let clicks := ClickableRegions.registerTabs turn.layout.tabs.inner 0 turn.layout.tabs.inner.x
      tabTitles ⟨[]⟩
    if s.screen.selectedTab = 0 then
      let table := turn.layout.table
      -- one region for each row from the offset on, as far as the table has room
      (if s.screen.groupingEnabled then
          clicks.registerRows table.inner s.screen.groupedScrollOffset s.groupedRows.length
        else clicks.registerRows table.inner s.screen.scrollOffset s.connections.length,
        some table)
    else if s.screen.selectedTab = 1 then
      (turn.layout.panes.foldl
          (fun clicks pane => .registerDetailClicks pane.1 pane.2.1 0 pane.2.2 clicks) clicks,
        none)
    else (clicks, none)

/-- The frame is drawn, the height of the window read off the terminal, and a message about the
clipboard taken down after three seconds. -/
def draw : LoopState ρ :=
  let chrome := if s.screen.filterMode || !s.screen.filterQuery.isEmpty then 11 else 8
  let visibleRows := (turn.height.map (· - chrome)).getD s.screen.visibleRows
  let clipboardMessage := s.screen.clipboardMessage.filter fun message =>
    decide (message.2.elapsed turn.eventAt / 1000000000 < 3)
  let screen := s.screen.onRows fun ui => { ui with visibleRows }
  { s with
    screen := { screen with clipboardMessage }
    clicks := (s.drawnClicks turn).1
    scrollArea := (s.drawnClicks turn).2 }

/-- What a handler leaves is taken over, its effects applied. -/
def absorb (handled : Handled ρ) : LoopState ρ :=
  let out := applyEffects handled.effects handled.screen turn.clipboardError turn.eventAt
  { s with
    screen := out.1
    app := handled.app
    needsDataRefresh := s.needsDataRefresh || out.2.needsDataRefresh
    needsRegroup := s.needsRegroup || out.2.needsRegroup }

/-- The rows that a handler gets. -/
def groupedOpt : Option (List (GroupedRow ρ)) :=
  if s.screen.groupingEnabled then some s.groupedRows else none

end LoopState

/-- What an iteration ends in. -/
inductive LoopOutcome (ρ : Type)
  | running (s : LoopState ρ)
  | exited
  | panicked

namespace LoopState

variable (config : ScreenConfig) (s : LoopState ρ) (turn : Turn ρ)

/-- A key press: the confirmations are reset first, then the tab that is open is asked, and the keys
of all tabs come last. -/
def onKey (key : ScreenKey) : LoopOutcome ρ :=
  let screen := s.screen.resetConfirmations key
  match screen.dispatchKey config s.app s.connections s.groupedOpt key turn.eventAt with
  | .claimed handled => .running (s.absorb turn handled)
  | .unclaimed =>
    match screen.fallbackKey s.app key turn.eventAt with
    | some handled => .running (s.absorb turn handled)
    | none => .exited
  | .panicked => .panicked

/-- A click with the left button. -/
def onClick (column row : ℕ) : LoopState ρ :=
  let out := s.screen.click s.connections s.groupedRows s.clicks column row turn.clipboardError
    turn.eventAt
  { s with screen := out.1, needsRegroup := s.needsRegroup || out.2 }

/-- The scroll wheel, which the overview takes inside its table. -/
def onScroll (up : Bool) (column row : ℕ) : LoopState ρ :=
  if s.screen.selectedTab = 0 ∧ s.scrollArea.any (fun area => area.Contains column row) then
    { s with screen := s.screen.scroll s.connections s.groupedRows up }
  else s

/-- The event of an iteration, if there is one before the next tick. -/
def handle : LoopOutcome ρ :=
  match turn.event with
  | some (.key key true) => s.onKey config turn key
  | some (.leftClick column row) => .running (s.onClick turn column row)
  | some (.scroll up column row) => .running (s.onScroll up column row)
  -- a key that is released, the other events, and none
  | some (.key _ false) | some .other | none => .running s

end LoopState

/-- An iteration of `run_ui_loop`: fetch or regroup, draw, and handle the event. A loop that has
been left, or that has panicked, takes no more steps. -/
def LoopOutcome.step [TextEngine] [Zero ρ] [Add ρ] [LinearOrder τ] (config : ScreenConfig)
    (value : ρ → Option τ) (outcome : LoopOutcome ρ) (turn : Turn ρ) : LoopOutcome ρ :=
  match outcome with
  | .running s =>
    match s.frame config value turn with
    | some frame => (frame.draw turn).handle config turn
    | none => .panicked
  | .exited => .exited
  | .panicked => .panicked

/-- A row is highlighted where there is one, and it is in the window.

In the flat list it is that of the selected connection, which `ensureValidSelection` has repaired.
In the grouped view the stored selection need not be shown: its connection may be in a group that
is collapsed, or be gone with its group. What is highlighted is then the header of the group, or
the first row. -/
structure ShowsSelection (frame : LoopState ρ) : Prop where
  flat : frame.screen.groupingEnabled = false → frame.connections ≠ [] →
    ∃ i < frame.connections.length,
      frame.screen.getSelectedIndex (ScreenState.rated frame.connections) = some i ∧
      (0 < frame.screen.visibleRows → frame.screen.scrollOffset ≤ i ∧
        i < frame.screen.scrollOffset + frame.screen.visibleRows)
  /-- The index is that of the highlight; `getSelectedGroupedIndex` falls back to the first row. -/
  grouped : frame.screen.groupingEnabled = true → frame.groupedRows ≠ [] →
    ∃ i < frame.groupedRows.length,
      frame.screen.getSelectedGroupedIndex frame.groupedRows = some i ∧
      (0 < frame.screen.visibleRows → frame.screen.groupedScrollOffset ≤ i ∧
        i < frame.screen.groupedScrollOffset + frame.screen.visibleRows)

/-! ## The regions that are drawn -/

/-- The tabs that can be clicked are tabs. -/
def ClickableRegions.TabsOk (clicks : ClickableRegions) : Prop :=
  ∀ region ∈ clicks.regions, ∀ index, region.2 = .switchTab index → index < tabCount

section Regions

variable {clicks : ClickableRegions} {inner : Rect} {action : ClickAction}

theorem tabsOk_register (h : clicks.TabsOk) (area : Rect)
    (haction : ∀ index, action = .switchTab index → index < tabCount) :
    (clicks.register area action).TabsOk := by
  intro region hregion index hindex
  rcases List.mem_append.mp hregion with hregion | hregion
  · exact h region hregion index hindex
  · rw [List.mem_singleton.mp hregion] at hindex
    exact haction index hindex

variable (inner) in
theorem tabsOk_registerTabs {titles : List String} {i : ℕ} (x : ℕ) (h : clicks.TabsOk)
    (htitles : i + titles.length ≤ tabCount) :
    (ClickableRegions.registerTabs inner i x titles clicks).TabsOk := by
  induction titles generalizing i x clicks with
  | nil => exact h
  | cons title titles ih =>
    rw [List.length_cons] at htitles
    apply ih _ _ (by omega)
    refine tabsOk_register h _ fun index hindex => ?_
    obtain rfl := ClickAction.switchTab.inj hindex
    omega

theorem tabsOk_registerRows {offset total : ℕ} (h : clicks.TabsOk) :
    (clicks.registerRows inner offset total).TabsOk := by
  unfold ClickableRegions.registerRows
  generalize (List.range (inner.height - 2)).takeWhile _ = rows
  induction rows generalizing clicks with
  | nil => exact h
  | cons i rows ih => exact ih (tabsOk_register h _ (by simp))

theorem tabsOk_registerDetailClicks {skip : Bool} {lineIdx : ℕ}
    {fields : List (Option DetailField)} (h : clicks.TabsOk) :
    (ClickableRegions.registerDetailClicks inner skip lineIdx fields clicks).TabsOk := by
  induction fields generalizing lineIdx clicks with
  | nil => exact h
  | cons entry fields ih =>
    cases entry with
    | none => exact ih h
    | some field =>
      rw [ClickableRegions.registerDetailClicks]
      split_ifs
      · exact ih h
      · exact h
      · exact ih (tabsOk_register h _ (by simp))

end Regions

/-- A click never leads to a tab that is not there. -/
theorem tabsOk_drawnClicks (s : LoopState ρ) (turn : Turn ρ) : (s.drawnClicks turn).1.TabsOk := by
  have hempty : (⟨[]⟩ : ClickableRegions).TabsOk := fun region hregion => nomatch hregion
  -- the bar registers one area for each title, and what is drawn below it none for tabs
  have htabs := tabsOk_registerTabs turn.layout.tabs.inner turn.layout.tabs.inner.x hempty
    (show 0 + tabTitles.length ≤ tabCount by decide)
  unfold LoopState.drawnClicks
  split_ifs
  · exact hempty
  · exact tabsOk_registerRows htabs
  · exact tabsOk_registerRows htabs
  · dsimp only
    generalize ClickableRegions.registerTabs _ _ _ _ _ = clicks at htabs
    induction turn.layout.panes generalizing clicks with
    | nil => exact htabs
    | cons pane panes ih => exact ih _ (tabsOk_registerDetailClicks htabs)
  · exact htabs

theorem exists_of_hitTest {clicks : ClickableRegions} {column row : ℕ} {action : ClickAction}
    (h : clicks.hitTest column row = some action) :
    ∃ region ∈ clicks.regions, region.2 = action := by
  obtain ⟨region, hfound, rfl⟩ := Option.map_eq_some_iff.mp h
  exact ⟨region, List.mem_reverse.mp (List.mem_of_find?_eq_some hfound), rfl⟩

/-! ## What an iteration keeps -/

namespace ScreenState

/-- Effects change nothing of the screen but the message about the clipboard, and set the flags that
they are to set. -/
theorem applyEffects_spec (effects : List ScreenEffect) (s : ScreenState) (error : Option String)
    (now : Instant) :
    (∃ message, (applyEffects effects s error now).1 = { s with clipboardMessage := message }) ∧
      ((applyEffects effects s error now).2.needsDataRefresh = true ↔
        .refreshData ∈ effects) ∧
      ((applyEffects effects s error now).2.needsRegroup = true ↔ .regroup ∈ effects) := by
  unfold applyEffects
  -- the effects are applied in order, so that the last one is split off
  induction effects using List.reverseRecOn with
  | nil => exact ⟨⟨_, rfl⟩, by simp, by simp⟩
  | append_singleton effects effect ih =>
    obtain ⟨⟨message, hscreen⟩, hrefresh, hregroup⟩ := ih
    rw [List.foldl_append, List.foldl_cons, List.foldl_nil]
    generalize effects.foldl (applyEffect error now) (s, ⟨false, false⟩) = out at *
    obtain ⟨screen, outcome⟩ := out
    obtain rfl : screen = _ := hscreen
    cases effect with
    -- an effect asks for one thing at most, and leaves the other as it was
    | regroup => exact ⟨⟨_, rfl⟩, by simpa [applyEffect, ScreenEffect.refreshData] using hrefresh,
        by simp [applyEffect]⟩
    | nav effect =>
      cases effect with
      | refreshData => exact ⟨⟨_, rfl⟩, by simp [applyEffect, ScreenEffect.refreshData],
          by simpa [applyEffect] using hregroup⟩
      | copy label value =>
        exact ⟨⟨_, rfl⟩, by simpa [applyEffect, ScreenEffect.refreshData] using hrefresh,
          by simpa [applyEffect] using hregroup⟩

end ScreenState

section Kept

variable [TextEngine] [Zero ρ] [Add ρ] [LinearOrder τ] {config : ScreenConfig}
  {value : ρ → Option τ} {met : List (Turn ρ)} {s frame : LoopState ρ} {turn : Turn ρ}
  {screen screen' : ScreenState} {connections : List (ListedConnection ρ)}
  {rows : List (GroupedRow ρ)} {handled : Handled ρ}

variable (config value) in
/-- The connections are those of a snapshot, filtered and sorted as the screen says. -/
def Fetched (turn : Turn ρ) (screen : ScreenState) (connections : List (ListedConnection ρ)) :
    Prop :=
  sortConnections value screen.sortColumn screen.sortAscending turn.std turn.sortClock
    (AppState.getFilteredConnections ⟨turn.tracker, screen.showHistoric, turn.snapshot⟩ config
      screen.filterQuery turn.filterClock) = some connections

variable (config value) in
/-- What holds between two iterations: what is not up to date has been asked for. -/
structure Kept (met : List (Turn ρ)) (s : LoopState ρ) : Prop where
  list : s.needsDataRefresh = true ∨ ∃ turn ∈ met, s.lastTick = turn.fetchedAt ∧
    Fetched config value turn s.screen s.connections
  rows : s.needsDataRefresh = true ∨ s.needsRegroup = true ∨
    ∃ order, s.groupedRows = LoopState.rowsOf s.screen s.connections order
  historic : s.screen.showHistoric = s.app.showHistoric
  tab : s.screen.selectedTab < tabCount

variable (config value) in
/-- The lists of a frame are those of its settings, and of a snapshot that was taken in this turn or
less than 200 milliseconds before. -/
structure Current (met : List (Turn ρ)) (turn : Turn ρ) (frame : LoopState ρ) : Prop where
  list : ∃ past ∈ met ++ [turn], frame.lastTick = past.fetchedAt ∧
    (past = turn ∨ past.fetchedAt.elapsed turn.now < 200000000) ∧
      Fetched config value past frame.screen frame.connections
  rows : ∃ order, frame.groupedRows = LoopState.rowsOf frame.screen frame.connections order
  historic : frame.screen.showHistoric = frame.app.showHistoric
  tab : frame.screen.selectedTab < tabCount

omit [Zero ρ] in
theorem Fetched.congr (hsettings : screen'.listSettings = screen.listSettings)
    (h : Fetched config value turn screen connections) :
    Fetched config value turn screen' connections := by
  obtain ⟨hquery, hsort⟩ := Prod.mk.inj hsettings
  obtain ⟨hcolumn, hascending⟩ := Prod.mk.inj hsort
  unfold Fetched
  rw [hquery, hcolumn, hascending]
  exact h

theorem rowsOf_congr (hsettings : screen'.groupSettings = screen.groupSettings)
    (order : IterOrder String) :
    LoopState.rowsOf screen' connections order = LoopState.rowsOf screen connections order := by
  obtain ⟨hgrouping, hgroups⟩ := Prod.mk.inj hsettings
  rw [LoopState.rowsOf, LoopState.rowsOf, hgrouping, hgroups]

omit [Zero ρ] [Add ρ] in
/-- An empty query needs no case of its own. -/
theorem getConnections_eq (app : AppState ρ) (config : ScreenConfig) (clock : ℕ → SystemTime)
    (query : List Char) (h : query.isEmpty = true) :
    app.getConnections config clock = app.getFilteredConnections config query clock := by
  rw [List.isEmpty_iff.mp h]
  rfl

/-- Fetching brings everything up to date. -/
theorem refresh_cases {s' : LoopState ρ} (happ : s.app.connectionsSnapshot = turn.snapshot)
    (h : s.refresh config value turn = some s') :
    ∃ connections, Fetched config value turn s.screen connections ∧
      s' = { s with
        connections
        groupedRows := LoopState.rowsOf s.screen connections turn.order
        lastTick := turn.fetchedAt
        needsDataRefresh := false
        needsRegroup := false } := by
  obtain ⟨connections, hsorted, rfl⟩ := Option.map_eq_some_iff.mp h
  refine ⟨connections, ?_, rfl⟩
  have hfetched : s.app.getFilteredConnections config s.screen.filterQuery turn.filterClock =
      AppState.getFilteredConnections ⟨turn.tracker, s.screen.showHistoric, turn.snapshot⟩ config
        s.screen.filterQuery turn.filterClock := by
    simp only [AppState.getFilteredConnections, happ]
  rw [Fetched, ← hfetched]
  split_ifs at hsorted with hempty
  · rwa [getConnections_eq _ _ _ s.screen.filterQuery] at hsorted
    exact (Bool.and_eq_true_iff.mp hempty).1
  · exact hsorted

/-- It changes neither the screen nor what is shared. -/
theorem update_cases {s' : LoopState ρ} (h : s.update config value turn = some s') :
    s'.screen = s.screen ∧ s'.app = s.app := by
  unfold LoopState.update at h
  split_ifs at h
  · obtain ⟨connections, -, rfl⟩ := Option.map_eq_some_iff.mp h
    exact ⟨rfl, rfl⟩
  all_goals
    obtain rfl := Option.some.inj h
    exact ⟨rfl, rfl⟩

/-- An iteration brings up to date what it draws. -/
theorem Kept.current_update {s' : LoopState ρ} (hkept : Kept config value met s)
    (happ : s.app.connectionsSnapshot = turn.snapshot)
    (h : s.update config value turn = some s') :
    Current config value met turn s' := by
  have hlast : turn ∈ met ++ [turn] := List.mem_append_right met (List.mem_singleton_self turn)
  unfold LoopState.update at h
  split_ifs at h with hfetch hregroup
  · obtain ⟨connections, hfetched, rfl⟩ := refresh_cases happ h
    exact ⟨⟨turn, hlast, rfl, .inl rfl, hfetched⟩, ⟨_, rfl⟩, hkept.historic, hkept.tab⟩
  all_goals
    -- the connections were fetched in an earlier turn, and not long ago
    rw [Bool.or_eq_true, decide_eq_true_eq, not_or, Bool.not_eq_true] at hfetch
    obtain ⟨hrefresh, hrecent⟩ := hfetch
    obtain rfl := Option.some.inj h
    obtain ⟨past, hpast, htick, hfetched⟩ := hkept.list.resolve_left (by simp [hrefresh])
    rw [htick] at hrecent
    have hlist : ∃ past ∈ met ++ [turn], s.lastTick = past.fetchedAt ∧
        (past = turn ∨ past.fetchedAt.elapsed turn.now < 200000000) ∧
          Fetched config value past s.screen s.connections :=
      ⟨past, List.mem_append_left _ hpast, htick, .inr (Nat.lt_of_not_le hrecent), hfetched⟩
  · exact ⟨hlist, ⟨_, rfl⟩, hkept.historic, hkept.tab⟩
  · obtain ⟨order, hrows⟩ :=
      (hkept.rows.resolve_left (by simp [hrefresh])).resolve_left hregroup
    exact ⟨hlist, ⟨order, hrows⟩, hkept.historic, hkept.tab⟩

omit [TextEngine] [Zero ρ] [Add ρ] in
/-- The repair changes at most the selection and the windows. -/
theorem reselect_cases (s : LoopState ρ) :
    ∃ ui offset groupedOffset, s.screen.toUiState.Moved ui ∧
      s.reselect = { s with
        screen := { s.screen with
          toUiState := ui
          scrollOffset := offset
          groupedScrollOffset := groupedOffset } } := by
  unfold LoopState.reselect
  split_ifs
  · exact ⟨_, _, _, UiState.moved_ensureValidGroupedSelection _ _, rfl⟩
  · exact ⟨_, _, _, UiState.moved_ensureValidSelection _ _, rfl⟩

/-- So does a frame, after the update. -/
theorem frame_cases (h : s.frame config value turn = some frame) :
    ∃ updated : LoopState ρ,
      LoopState.update config value
        { s with app := ⟨turn.tracker, s.app.showHistoric, turn.snapshot⟩ } turn = some updated ∧
      frame = updated.reselect := by
  obtain ⟨updated, hupdated, rfl⟩ := Option.map_eq_some_iff.mp h
  exact ⟨updated, hupdated, rfl⟩

/-- A frame is current. -/
theorem Kept.current_of_frame (hkept : Kept config value met s)
    (h : s.frame config value turn = some frame) : Current config value met turn frame := by
  obtain ⟨updated, hupdated, rfl⟩ := frame_cases h
  have hshared : Kept config value met
      { s with app := ⟨turn.tracker, s.app.showHistoric, turn.snapshot⟩ } :=
    ⟨hkept.list, hkept.rows, hkept.historic, hkept.tab⟩
  have hcurrent := hshared.current_update rfl hupdated
  obtain ⟨ui, offset, groupedOffset, ⟨key, group, rfl⟩, hreselect⟩ := reselect_cases updated
  rw [hreselect]
  exact ⟨hcurrent.list, hcurrent.rows, hcurrent.historic, hcurrent.tab⟩

/-- What is kept depends on the screen by its settings. -/
theorem Kept.onScreen {clicks : ClickableRegions} {scrollArea : Option Rect}
    (hkept : Kept config value met s) (hlist : screen.listSettings = s.screen.listSettings)
    (hgroup : screen.groupSettings = s.screen.groupSettings)
    (hhistoric : screen.showHistoric = s.screen.showHistoric)
    (htab : screen.selectedTab < tabCount) :
    Kept config value met { s with screen, clicks, scrollArea } where
  list := hkept.list.imp_right fun ⟨past, hpast, htick, hfetched⟩ =>
    ⟨past, hpast, htick, hfetched.congr hlist⟩
  rows := hkept.rows.imp_right fun h => h.imp_right fun ⟨order, hrows⟩ =>
    ⟨order, hrows.trans (rowsOf_congr hgroup order).symm⟩
  historic := hhistoric.trans hkept.historic
  tab := htab

/-- What a handler has changed it has asked for. -/
theorem Kept.absorb (hkept : Kept config value met s)
    (hrequests : Requests screen s.app handled)
    (hlist : screen.listSettings = s.screen.listSettings)
    (hgroup : screen.groupSettings = s.screen.groupSettings)
    (hhistoric : screen.showHistoric = s.screen.showHistoric)
    (htab : screen.selectedTab = s.screen.selectedTab) :
    Kept config value met (s.absorb turn handled) := by
  obtain ⟨⟨message, hscreen⟩, hrefresh, hregroup⟩ :=
    ScreenState.applyEffects_spec handled.effects handled.screen turn.clipboardError turn.eventAt
  unfold LoopState.absorb
  dsimp only
  rw [hscreen]
  constructor
  -- the list is still the one asked for, or it is asked for again
  · dsimp only
    rw [Bool.or_eq_true, hrefresh]
    rcases hrequests.list with heq | hasked
    · rcases hkept.list with hold | ⟨past, hpast, htick, hfetched⟩
      · exact .inl (.inl hold)
      · exact .inr ⟨past, hpast, htick, hfetched.congr (heq.trans hlist)⟩
    · exact .inl (.inr hasked)
  -- and so are the rows, which a new list asks for as well
  · dsimp only
    rw [Bool.or_eq_true, Bool.or_eq_true, hrefresh, hregroup]
    rcases hrequests.rows with heq | hasked | hasked
    · rcases hkept.rows with hold | hold | ⟨order, hrows⟩
      · exact .inl (.inl hold)
      · exact .inr (.inl (.inl hold))
      · exact .inr (.inr ⟨order, hrows.trans (rowsOf_congr (heq.trans hgroup) order).symm⟩)
    · exact .inr (.inl (.inr hasked))
    · exact .inl (.inr hasked)
  · exact hrequests.historic (hhistoric.trans hkept.historic)
  · exact hrequests.tab (htab.trans_lt hkept.tab)

variable (turn) in
theorem Kept.draw (hkept : Kept config value met s) : Kept config value met (s.draw turn) :=
  hkept.onScreen rfl rfl rfl hkept.tab

theorem Kept.onKey {next : LoopState ρ} {key : ScreenKey} (hkept : Kept config value met s)
    (h : s.onKey config turn key = .running next) : Kept config value met next := by
  -- the reset of the confirmations is not about the lists
  have hreset : (s.screen.resetConfirmations key).listSettings = s.screen.listSettings ∧
      (s.screen.resetConfirmations key).groupSettings = s.screen.groupSettings ∧
      (s.screen.resetConfirmations key).showHistoric = s.screen.showHistoric ∧
      (s.screen.resetConfirmations key).selectedTab = s.screen.selectedTab := by
    rcases ScreenState.resetConfirmations_cases s.screen key with ⟨flags, hreset⟩
    rw [hreset]
    exact ⟨rfl, rfl, rfl, rfl⟩
  obtain ⟨hlist, hgroup, hhistoric, htab⟩ := hreset
  unfold LoopState.onKey at h
  generalize s.screen.resetConfirmations key = screen at *
  -- whoever handles the key asks for what it changes
  cases hclaimed : screen.dispatchKey config s.app s.connections s.groupedOpt key turn.eventAt with
  | panicked => simp [hclaimed] at h
  | claimed handled =>
    simp only [hclaimed] at h
    obtain rfl := LoopOutcome.running.inj h
    exact hkept.absorb (requests_dispatchKey hclaimed) hlist hgroup hhistoric htab
  | unclaimed =>
    simp only [hclaimed] at h
    cases hfallback : screen.fallbackKey s.app key turn.eventAt with
    | none => simp [hfallback] at h
    | some handled =>
      simp only [hfallback] at h
      obtain rfl := LoopOutcome.running.inj h
      exact hkept.absorb (requests_fallbackKey hfallback) hlist hgroup hhistoric htab

theorem Kept.onClick {column row : ℕ} (hkept : Kept config value met s)
    (hclicks : s.clicks.TabsOk) : Kept config value met (s.onClick turn column row) := by
  unfold LoopState.onClick ScreenState.click
  dsimp only
  generalize hclicked : ({ s.screen with
      quitConfirmation := false
      clearConfirmation := false
      lastClick := some (column, row, turn.eventAt) } : ScreenState) = clicked
  -- the screen remembers the click, and nothing else of it changes
  have hsettings : clicked.listSettings = s.screen.listSettings ∧
      clicked.groupSettings = s.screen.groupSettings ∧
      clicked.showHistoric = s.screen.showHistoric ∧
      clicked.selectedTab = s.screen.selectedTab := by
    subst hclicked
    exact ⟨rfl, rfl, rfl, rfl⟩
  obtain ⟨hlist, hgroup, hhistoric, htab⟩ := hsettings
  cases hhit : s.clicks.hitTest column row with
  -- a click beside all regions
  | none =>
    dsimp only
    rw [Bool.or_false]
    exact hkept.onScreen hlist hgroup hhistoric (htab.trans_lt hkept.tab)
  -- what a region does asks for what it changes, and tabs come from regions only
  | some action =>
    dsimp only
    generalize hout : clicked.clickAction s.connections s.groupedRows
      (s.screen.isDoubleClick row turn.eventAt) turn.clipboardError turn.eventAt action = out
    obtain ⟨hlist', hgroup', hhistoric', -, -, htab'⟩ :=
      clickAction_cases _ _ _ _ _ _ _ _ hout
    constructor
    · exact hkept.list.imp_right fun ⟨past, hpast, htick, hfetched⟩ =>
        ⟨past, hpast, htick, hfetched.congr (hlist'.trans hlist)⟩
    · dsimp only
      rw [Bool.or_eq_true]
      rcases hgroup' with heq | hasked
      · refine hkept.rows.imp_right fun h => h.imp .inl fun ⟨order, hrows⟩ => ?_
        exact ⟨order, hrows.trans (rowsOf_congr (heq.trans hgroup) order).symm⟩
      · exact .inr (.inl (.inr hasked))
    · exact (hhistoric'.trans hhistoric).trans hkept.historic
    · rcases htab' with heq | heq | heq
      · exact (heq.trans htab).trans_lt hkept.tab
      · exact heq.trans_lt (by decide)
      · obtain ⟨region, hregion, haction⟩ := exists_of_hitTest hhit
        exact hclicks region hregion _ (haction.trans heq)

omit [TextEngine] [Zero ρ] [Add ρ] [LinearOrder τ] in
/-- The wheel moves the selection. -/
theorem onScroll_cases (s : LoopState ρ) (up : Bool) (column row : ℕ) :
    ∃ ui, s.screen.toUiState.Moved ui ∧
      s.onScroll up column row = { s with screen := { s.screen with toUiState := ui } } := by
  have hmoved : s.screen.toUiState.Moved
      (s.screen.scroll s.connections s.groupedRows up).toUiState :=
    .ite (.ite (UiState.moved_moveSelectionUpGrouped _ _) (UiState.moved_moveSelectionUp _ _))
      (.ite (UiState.moved_moveSelectionDownGrouped _ _) (UiState.moved_moveSelectionDown _ _))
  unfold LoopState.onScroll
  split_ifs
  · exact ⟨_, hmoved, rfl⟩
  · exact ⟨s.screen.toUiState, .refl _, rfl⟩

theorem Kept.handle {next : LoopState ρ} (hkept : Kept config value met s)
    (hclicks : s.clicks.TabsOk) (h : s.handle config turn = .running next) :
    Kept config value met next := by
  unfold LoopState.handle at h
  rcases hevent : turn.event with _ | event
  · rw [hevent] at h
    obtain rfl := LoopOutcome.running.inj h
    exact hkept
  · rw [hevent] at h
    cases event with
    | key key isPress =>
      cases isPress with
      | true => exact hkept.onKey h
      | false =>
        obtain rfl := LoopOutcome.running.inj h
        exact hkept
    | leftClick column row =>
      obtain rfl := LoopOutcome.running.inj h
      exact hkept.onClick hclicks
    | scroll up column row =>
      obtain rfl := LoopOutcome.running.inj h
      obtain ⟨ui, ⟨key, group, rfl⟩, hscroll⟩ := onScroll_cases s up column row
      rw [hscroll]
      exact hkept.onScreen rfl rfl rfl hkept.tab
    -- all other events change nothing that is kept
    | other =>
      obtain rfl := LoopOutcome.running.inj h
      exact hkept

/-- An iteration keeps it, with its own turn among those that were met. -/
theorem Kept.step {next : LoopState ρ} (hkept : Kept config value met s)
    (h : LoopOutcome.step config value (.running s) turn = .running next) :
    Kept config value (met ++ [turn]) next := by
  unfold LoopOutcome.step at h
  cases hframe : s.frame config value turn with
  | none => simp [hframe] at h
  | some frame =>
    simp only [hframe] at h
    have hcurrent := hkept.current_of_frame hframe
    have hdrawn : Kept config value (met ++ [turn]) frame := by
      obtain ⟨past, hpast, htick, -, hfetched⟩ := hcurrent.list
      exact ⟨.inr ⟨past, hpast, htick, hfetched⟩, .inr (.inr hcurrent.rows), hcurrent.historic,
        hcurrent.tab⟩
    exact (hdrawn.draw turn).handle (tabsOk_drawnClicks frame turn) h

/-- A loop that has ended does not go on. -/
theorem exists_running_of_foldl (turns : List (Turn ρ)) {outcome : LoopOutcome ρ}
    (h : turns.foldl (LoopOutcome.step config value) outcome = .running s) :
    ∃ first, outcome = .running first := by
  cases outcome with
  | running first => exact ⟨first, rfl⟩
  | exited | panicked =>
    exfalso
    induction turns with
    | nil => cases h
    | cons turn turns ih => exact ih h

theorem Kept.foldl {turns : List (Turn ρ)} {first : LoopState ρ}
    (hfirst : Kept config value [] first)
    (h : turns.foldl (LoopOutcome.step config value) (.running first) = .running s) :
    Kept config value turns s := by
  induction turns using List.reverseRecOn generalizing s with
  | nil =>
    obtain rfl := LoopOutcome.running.inj h
    exact hfirst
  | append_singleton turns turn ih =>
    rw [List.foldl_append, List.foldl_cons, List.foldl_nil] at h
    have hstep : ∃ middle, turns.foldl (LoopOutcome.step config value) (.running first) =
        .running middle :=
      exists_running_of_foldl [turn] h
    obtain ⟨middle, hmiddle⟩ := hstep
    rw [hmiddle] at h
    exact (ih hmiddle).step h

omit [TextEngine] [Zero ρ] [Add ρ] in
theorem showsSelection_reselect (s : LoopState ρ) : ShowsSelection s.reselect := by
  unfold LoopState.reselect
  cases hgrouping : s.screen.groupingEnabled with
  | true =>
    rw [if_pos rfl]
    obtain ⟨key, group, hmoved⟩ :=
      UiState.moved_ensureValidGroupedSelection s.screen.toUiState s.groupedRows
    refine ⟨fun hflat => ?_, fun _ hrows => ?_⟩
    -- the other view is not the one that is shown
    · have : s.screen.groupingEnabled = false := by
        simpa [ScreenState.onRows, hmoved] using hflat
      rw [hgrouping] at this
      cases this
    -- the repaired selection is a row, and the window is moved to it
    · obtain ⟨i, hlt, hi⟩ := UiState.exists_getSelectedGroupedIndex
        (s.screen.toUiState.ensureValidGroupedSelection s.groupedRows) hrows
      refine ⟨i, hlt, hi, fun hvisible => ?_⟩
      have hwindow := scrollOffsetOk i s.screen.groupedScrollOffset _ _ hlt hvisible
      simpa [ScreenState.onRows, hi] using hwindow.shown
  | false =>
    rw [if_neg Bool.false_ne_true]
    obtain ⟨key, group, hmoved⟩ :=
      UiState.moved_ensureValidSelection s.screen.toUiState (ScreenState.rated s.connections)
    refine ⟨fun _ hne => ?_, fun hgrouped => ?_⟩
    -- the flat list is repaired in the same way
    · have hrated : ScreenState.rated s.connections ≠ [] := by
        simpa [ScreenState.rated] using hne
      obtain ⟨i, hi⟩ := Option.isSome_iff_exists.mp
        (UiState.isSome_getSelectedIndex_ensureValidSelection s.screen.toUiState hrated)
      have hlt : i < s.connections.length := by
        simpa [ScreenState.rated] using UiState.getSelectedIndex_lt hi
      refine ⟨i, hlt, hi, fun hvisible => ?_⟩
      have hwindow := scrollOffsetOk i s.screen.scrollOffset _ _ hlt hvisible
      simpa [ScreenState.onRows, hi] using hwindow.shown
    · have : s.screen.groupingEnabled = true := by
        simpa [ScreenState.onRows, hmoved] using hgrouped
      rw [hgrouping] at this
      cases this

/-- **Every frame is current.** Whatever is typed, clicked and scrolled, at whatever times, a frame
shows the connections and the rows by its own query, order and groups, and its highlighted row is in
the window.

The frame is one that the loop draws after any turns (`hrun`, `hframe`); the application starts
without historic connections, as `App::new` makes it (`happ`). What `ShowsSelection` says of a
stored selection, its fields say. -/
theorem current_frame (config : ScreenConfig) (value : ρ → Option τ) (app : AppState ρ)
    (happ : app.showHistoric = false) (start : Instant) (turns : List (Turn ρ)) (turn : Turn ρ)
    (s frame : LoopState ρ)
    (hrun : turns.foldl (LoopOutcome.step config value)
      (.running (.initial config app start)) = .running s)
    (hframe : s.frame config value turn = some frame) :
    Current config value turns turn frame ∧ ShowsSelection frame := by
  have hfirst : Kept config value [] (LoopState.initial config app start) :=
    ⟨.inl rfl, .inl rfl, happ.symm, (by decide : 0 < tabCount)⟩
  obtain ⟨updated, -, rfl⟩ := frame_cases hframe
  exact ⟨(hfirst.foldl hrun).current_of_frame hframe, showsSelection_reselect updated⟩

end Kept

/-- A turn with one connection. -/
def sampleTurn (event : Option InputEvent) : Turn ℕ where
  now := ⟨0⟩
  fetchedAt := ⟨0⟩
  tracker := .withConfig .default
  snapshot := [quietTo 443]
  filterClock _ := ⟨0⟩
  std := .insertion _
  sortClock _ := ⟨0⟩
  order := .listed _
  isLoading := false
  layout := ⟨⟨0, 0, 80, 3⟩, ⟨0, 3, 56, 20⟩, []⟩
  height := some 24
  event := event
  eventAt := ⟨0⟩
  clipboardError := none

/-- The key of a character. -/
def charKey (c : Char) : ScreenKey := ⟨.nav (.key (.char c)), .none⟩

/-- The state before any key. -/
def sampleStart : LoopState ℕ :=
  .initial ⟨false, false, false⟩ ⟨.withConfig .default, false, []⟩ ⟨0⟩

/-- The frame after the direction of the sort was turned round. -/
theorem current_frame_sample :
    letI : TextEngine := .plain
    ∃ s frame, [sampleTurn (some (.key (charKey 'S') true))].foldl
        (LoopOutcome.step ⟨false, false, false⟩ some) (.running sampleStart) = .running s ∧
      s.frame ⟨false, false, false⟩ some (sampleTurn none) = some frame ∧
      Current ⟨false, false, false⟩ some [sampleTurn (some (.key (charKey 'S') true))]
        (sampleTurn none) frame ∧ ShowsSelection frame := by
  let _ : TextEngine := .plain
  refine ⟨_, _, rfl, rfl, ?_⟩
  exact current_frame ⟨false, false, false⟩ some ⟨.withConfig .default, false, []⟩ rfl ⟨0⟩ _
    (sampleTurn none) _ _ rfl rfl

end RustNet

import RustNet.App.EventLoop
import Mathlib.Data.List.DropRight

/-!
# Keys that are pressed twice

The program is left by `q` and the connections are cleared by `x`, each pressed twice. The flags of
the two confirmations are set in the handlers, and reset by every other key and by a click. What
they come to over a run is said by the presses alone: a `q` leaves the loop if the last press was a
`q`, and an `x` clears the connections if it comes after an odd number of them. While the filter is
typed all of these are characters of the query.

## Main definitions

* `Press`, `presses`: what a run is for the confirmations;
* `Confirms`: what the flags are after it.

## Main results

* `exits_iff`: when the loop is left;
* `clears_iff`: when the connections are cleared, and that nothing else touches them.
-/

namespace RustNet

/-- A press, for the confirmations. -/
inductive Press
  | quit
  | clear
  | other
deriving DecidableEq

/-- The press of a key. -/
def ScreenKey.press (key : ScreenKey) : Press :=
  match key.char? with
  | some 'q' => .quit
  | some 'x' => .clear
  | _ => .other

/-- A key that is pressed, or a click. -/
def InputEvent.press : InputEvent → Option Press
  | .key code true => some code.press
  | .leftClick _ _ => some .other
  | .key _ false | .scroll _ _ _ | .other => none

variable {ρ τ : Type}

/-- The presses of a run. -/
def presses (turns : List (Turn ρ)) : List Press :=
  turns.filterMap fun turn => turn.event.bind InputEvent.press

/-- How often `x` was pressed at the end. -/
def trailingClears (pressed : List Press) : ℕ := (pressed.rtakeWhile (· = .clear)).length

/-- What the flags are after some presses: set in the normal mode only, by the last `q` or by an odd
number of `x` at the end. -/
structure Confirms (pressed : List Press) (screen : ScreenState) : Prop where
  quit : screen.quitConfirmation = true ↔
    screen.filterMode = false ∧ pressed.getLast? = some .quit
  clear : screen.clearConfirmation = true ↔
    screen.filterMode = false ∧ Odd (trailingClears pressed)

@[simp]
theorem trailingClears_append_clear (pressed : List Press) :
    trailingClears (pressed ++ [.clear]) = trailingClears pressed + 1 := by
  simp [trailingClears]

theorem trailingClears_append_of_ne (pressed : List Press) {press : Press} (h : press ≠ .clear) :
    trailingClears (pressed ++ [press]) = 0 := by
  simp [trailingClears, h]

theorem presses_append_singleton (turns : List (Turn ρ)) (turn : Turn ρ) :
    presses (turns ++ [turn]) = presses turns ++ (turn.event.bind InputEvent.press).toList := by
  unfold presses
  simp only [List.filterMap_append, List.filterMap_cons, List.filterMap_nil]
  rcases turn.event.bind InputEvent.press with _ | press <;> rfl

/-- A press that is none of the two leaves no flag set. -/
theorem confirms_other {pressed : List Press} {screen : ScreenState}
    (h : screen.confirmations = (false, false)) : Confirms (pressed ++ [.other]) screen := by
  obtain ⟨hquit, hclear⟩ := Prod.mk.inj h
  constructor
  · simp [hquit]
  · simp [hclear, trailingClears_append_of_ne]

/-! ## Handlers that confirm nothing -/

/-- A handler that leaves the flags and the connections alone. -/
structure Quiet (s : ScreenState) (app : AppState ρ) (handled : Handled ρ) : Prop where
  confirmations : handled.screen.confirmations = s.confirmations
  tracker : handled.app.tracker = app.tracker
  snapshot : handled.app.connectionsSnapshot = app.connectionsSnapshot

section Handlers

variable {s : ScreenState} {app : AppState ρ} {handled : Handled ρ}
  {connections : List (ListedConnection ρ)} {groupedRows : Option (List (GroupedRow ρ))}
  {config : ScreenConfig} {key : ScreenKey} {now : Instant}

theorem quiet_overviewArm {arm : OverviewArm} (harm : arm ≠ .clearAll) :
    Quiet s app (arm.run s app connections now) := by
  cases arm with
  | clearAll => exact absurd rfl harm
  -- no branch of an arm touches the flags, the tracker or the snapshot
  | openDetails =>
    unfold OverviewArm.run
    dsimp only
    split_ifs <;> exact ⟨rfl, rfl, rfl⟩
  | toggleGrouping =>
    unfold OverviewArm.run ScreenState.toggleGrouping
    dsimp only
    split_ifs <;> exact ⟨rfl, rfl, rfl⟩
  | resetView =>
    unfold OverviewArm.run
    dsimp only
    split_ifs <;> exact ⟨rfl, rfl, rfl⟩
  | _ => exact ⟨rfl, rfl, rfl⟩

theorem quiet_globalArm {arm : GlobalArm} (hquit : arm ≠ .quit) (hclear : arm ≠ .clearAll)
    (h : arm.run s app now = some handled) : Quiet s app handled := by
  cases arm with
  | quit => exact absurd rfl hquit
  | clearAll => exact absurd rfl hclear
  | exit => cases h
  -- a jump sets the tab and leaves the flags alone
  | jump target =>
    obtain rfl := Option.some.inj h
    unfold ScreenState.jumpToTab
    split_ifs <;> exact ⟨rfl, rfl, rfl⟩
  | escape =>
    rw [GlobalArm.run] at h
    split_ifs at h <;> obtain rfl := Option.some.inj h <;> exact ⟨rfl, rfl, rfl⟩
  | next | prev | help =>
    obtain rfl := Option.some.inj h
    exact ⟨rfl, rfl, rfl⟩

/-- Only two of the keys of all tabs leave the loop. -/
theorem exists_run_of_ne (s : ScreenState) (app : AppState ρ) (now : Instant) {arm : GlobalArm}
    (hquit : arm ≠ .quit) (hexit : arm ≠ .exit) : ∃ handled, arm.run s app now = some handled := by
  cases arm with
  | quit => exact absurd rfl hquit
  | exit => exact absurd rfl hexit
  | escape =>
    rw [GlobalArm.run]
    split_ifs <;> exact ⟨_, rfl⟩
  | _ => exact ⟨_, rfl⟩

/-- In the overview `x` is the key to clear the connections, and no other. -/
theorem overviewPattern_eq_clearAll_iff (key : ScreenKey) :
    key.overviewPattern = some .clearAll ↔ key.char? = some 'x' := by
  obtain ⟨code, modifiers⟩ := key
  unfold ScreenKey.overviewPattern ScreenKey.char?
  rcases code with (code | _ | _) | _ | _
  · cases code with
    | char c =>
      dsimp only
      by_cases hx : c = 'x'
      · subst hx
        simp
      · simp only [hx, Option.some.injEq, if_false]
        split_ifs <;> simp
    | _ => simp
  all_goals simp

/-- The keys of all tabs that end something. -/
theorem globalArm_cases (key : ScreenKey) :
    (key.globalArm = some .quit ↔ key.char? = some 'q') ∧
      (key.globalArm = some .clearAll ↔ key.char? = some 'x') ∧
      (key.globalArm = some .exit ↔ key.char? = some 'c' ∧ key.modifiers = .onlyControl) := by
  obtain ⟨code, modifiers⟩ := key
  unfold ScreenKey.globalArm ScreenKey.char?
  rcases code with (code | _ | _) | _ | _
  · cases code with
    | char c =>
      dsimp only
      -- the arms are tried in this order, and none matches two keys
      by_cases hq : c = 'q'
      · subst hq
        simp
      by_cases hx : c = 'x'
      · subst hx
        simp
      by_cases hc : c = 'c'
      · subst hc
        simp
      · simp only [hq, hx, hc, Option.some.injEq, false_and, if_false]
        split_ifs <;> simp
    | _ => simp
  · simp
  · simp
  · dsimp only
    split_ifs <;> simp
  · simp

/-- The navigation takes none of `q`, `x` and Ctrl+C. -/
theorem navAction_of_char {c : Char} (hkey : key.char? = some c)
    (hc : c = 'q' ∨ c = 'x' ∨ c = 'c' ∧ key.modifiers = .onlyControl) :
    key.toKeyEvent.navAction = none := by
  obtain ⟨code, modifiers⟩ := key
  rcases code with (code | _ | _) | _ | _
  · cases code with
    -- navigation has no `q`, no `x` and no Ctrl+C
    | char d =>
      obtain rfl : d = c := Option.some.inj hkey
      unfold KeyEvent.navAction ScreenKey.toKeyEvent ScreenKeyCode.toNavKeyCode
      rcases hc with rfl | rfl | ⟨rfl, hcontrol⟩
      · simp
      · simp
      · obtain rfl : modifiers = .onlyControl := hcontrol
        rfl
    | _ => cases hkey
  all_goals cases hkey

/-- The overview takes neither `q` nor `c`. -/
theorem overviewArm_of_char {c : Char} (hkey : key.char? = some c) (hc : c = 'q' ∨ c = 'c') :
    key.overviewArm s config = none := by
  obtain ⟨code, modifiers⟩ := key
  rcases code with (code | _ | _) | _ | _
  · cases code with
    | char d =>
      obtain rfl : d = c := Option.some.inj hkey
      unfold ScreenKey.overviewArm ScreenKey.overviewPattern
      rcases hc with rfl | rfl <;> simp
    | _ => cases hkey
  all_goals cases hkey

/-- What a tab takes leaves the flags alone, unless it is an `x` in the normal mode. -/
theorem quiet_dispatchKey
    (h : s.dispatchKey config app connections groupedRows key now = .claimed handled)
    (hkey : s.filterMode = true ∨ key.char? ≠ some 'x') : Quiet s app handled := by
  rcases dispatchKey_cases h with ⟨-, out, hout, rfl⟩ | ⟨-, -, -, hnav⟩ | ⟨hmode, arm, harm, rfl⟩
  · obtain ⟨moved, filter, ⟨selectedKey, group, rfl⟩, hui, -, -⟩ := handleFilterModeKey_cases hout
    rw [hui]
    exact ⟨rfl, rfl, rfl⟩
  · obtain ⟨ui, effects, ⟨selectedKey, group, rfl⟩, rfl⟩ := connectionNav_cases hnav
    exact ⟨rfl, rfl, rfl⟩
  · apply quiet_overviewArm
    rintro rfl
    have hpattern := (Option.filter_eq_some_iff.mp harm).1
    exact (hkey.resolve_left (by simp [hmode])) ((overviewPattern_eq_clearAll_iff key).mp hpattern)

/-- What is typed leaves the filter open. -/
theorem filterMode_of_typed
    (h : s.dispatchKey config app connections groupedRows key now = .claimed handled)
    (hmode : s.filterMode = true) {c : Char} (hkey : key.char? = some c) :
    handled.screen.filterMode = true := by
  -- the filter takes the key, as it is open
  rcases dispatchKey_cases h with ⟨-, out, hout, rfl⟩ | ⟨hnot, -⟩ | ⟨hnot, -⟩
  · obtain ⟨moved, filter, -, hui, hfilter, -⟩ := handleFilterModeKey_cases hout
    obtain ⟨code, modifiers⟩ := key
    rcases code with (code | _ | _) | _ | _
    · cases code with
      | char d =>
        have hopen := FilterState.filterMode_of_char hfilter
        rw [hui]
        exact hopen.trans hmode
      | _ => cases hkey
    all_goals cases hkey
  · rw [hmode] at hnot
    cases hnot
  · rw [hmode] at hnot
    cases hnot

/-- While the filter is typed, every key is taken. -/
theorem dispatchKey_ne_unclaimed (hmode : s.filterMode = true) :
    s.dispatchKey config app connections groupedRows key now ≠ .unclaimed := by
  unfold ScreenState.dispatchKey ScreenState.overviewKey
  rw [if_pos hmode, if_pos hmode]
  rcases s.toUiState.handleFilterModeKey key.toKeyEvent (ScreenState.rated connections) with _ | out
  all_goals exact fun h => nomatch h

/-- In the normal mode no key panics. -/
theorem dispatchKey_ne_panicked (hmode : s.filterMode = false) :
    s.dispatchKey config app connections groupedRows key now ≠ .panicked := by
  unfold ScreenState.dispatchKey ScreenState.overviewKey ScreenState.detailsKey
  simp only [hmode, Bool.false_eq_true, if_false]
  rcases s.connectionNav app connections groupedRows key with _ | handled
  · rcases key.overviewArm s config with _ | arm
    all_goals split_ifs <;> simp
  · split_ifs <;> simp

/-- In the normal mode no tab takes `q` or Ctrl+C. -/
theorem dispatchKey_of_ending (hmode : s.filterMode = false)
    (hkey : key.char? = some 'q' ∨ key.char? = some 'c' ∧ key.modifiers = .onlyControl) :
    s.dispatchKey config app connections groupedRows key now = .unclaimed := by
  have hnone : key.toKeyEvent.navAction = none ∧ key.overviewArm s config = none := by
    rcases hkey with hkey | ⟨hkey, hcontrol⟩
    · exact ⟨navAction_of_char hkey (.inl rfl), overviewArm_of_char hkey (.inl rfl)⟩
    · exact ⟨navAction_of_char hkey (.inr (.inr ⟨rfl, hcontrol⟩)),
        overviewArm_of_char hkey (.inr rfl)⟩
  have hnav : s.connectionNav app connections groupedRows key = none := by
    unfold ScreenState.connectionNav UiState.tryHandleConnectionNav
    rw [hnone.1]
    rfl
  unfold ScreenState.dispatchKey ScreenState.overviewKey ScreenState.detailsKey
  simp [hmode, hnav, hnone.2]

variable (config app connections groupedRows now) in
/-- And `x` clears the connections in the overview, or is left to the keys of all tabs. -/
theorem dispatchKey_of_clear (hmode : s.filterMode = false) (hkey : key.char? = some 'x') :
    s.dispatchKey config app connections groupedRows key now = .unclaimed ∨
      s.dispatchKey config app connections groupedRows key now =
        .claimed (OverviewArm.clearAll.run s app connections now) := by
  have hnav : s.connectionNav app connections groupedRows key = none := by
    unfold ScreenState.connectionNav UiState.tryHandleConnectionNav
    rw [navAction_of_char hkey (.inr (.inl rfl))]
    rfl
  have harm : key.overviewArm s config = some .clearAll := by
    rw [ScreenKey.overviewArm, (overviewPattern_eq_clearAll_iff key).mpr hkey]
    rfl
  unfold ScreenState.dispatchKey ScreenState.overviewKey ScreenState.detailsKey
  simp only [hmode, hnav, harm, Bool.false_eq_true, if_false]
  split_ifs <;> simp

end Handlers

/-! ## A key -/

section Key

variable {s : LoopState ρ} {turn : Turn ρ} {config : ScreenConfig} {key : ScreenKey}
  {handled : Handled ρ}

/-- What the effects of a handler leave alone. -/
theorem absorb_cases (s : LoopState ρ) (turn : Turn ρ) (handled : Handled ρ) :
    (s.absorb turn handled).screen.confirmations = handled.screen.confirmations ∧
      (s.absorb turn handled).screen.filterMode = handled.screen.filterMode ∧
      (s.absorb turn handled).app = handled.app := by
  obtain ⟨⟨message, hscreen⟩, -, -⟩ :=
    ScreenState.applyEffects_spec handled.effects handled.screen turn.clipboardError turn.eventAt
  unfold LoopState.absorb
  dsimp only
  rw [hscreen]
  exact ⟨rfl, rfl, rfl⟩

theorem press_eq_quit_iff : key.press = .quit ↔ key.char? = some 'q' := by
  unfold ScreenKey.press
  split <;> simp_all

theorem press_eq_clear_iff : key.press = .clear ↔ key.char? = some 'x' := by
  unfold ScreenKey.press
  split <;> simp_all

/-- The flags that a key finds. -/
theorem confirmations_resetConfirmations (screen : ScreenState) (key : ScreenKey) :
    (screen.resetConfirmations key).confirmations =
      (decide (key.press = .quit) && screen.quitConfirmation,
        decide (key.press = .clear) && screen.clearConfirmation) := by
  unfold ScreenState.resetConfirmations ScreenKey.press
  split <;> simp_all [ScreenState.confirmations]

/-- While the filter is typed, a key clears nothing, and `q` and `x` leave the filter open. -/
theorem onKey_of_filterMode {next : LoopState ρ} (hmode : s.screen.filterMode = true)
    (h : s.onKey config turn key = .running next) :
    next.screen.confirmations = (s.screen.resetConfirmations key).confirmations ∧
      next.app.tracker = s.app.tracker ∧
      next.app.connectionsSnapshot = s.app.connectionsSnapshot ∧
      (key.press ≠ .other → next.screen.filterMode = true) := by
  -- the reset of the confirmations does not close the filter
  obtain ⟨flags, hreset⟩ := ScreenState.resetConfirmations_cases s.screen key
  have hmode' : (s.screen.resetConfirmations key).filterMode = true := by
    rw [hreset]
    exact hmode
  unfold LoopState.onKey at h
  cases hclaimed : (s.screen.resetConfirmations key).dispatchKey config s.app s.connections
      s.groupedOpt key turn.eventAt with
  | unclaimed => exact absurd hclaimed (dispatchKey_ne_unclaimed hmode')
  | panicked => simp [hclaimed] at h
  | claimed handled =>
    simp only [hclaimed] at h
    obtain rfl := LoopOutcome.running.inj h
    -- the filter's keys confirm nothing
    obtain ⟨hconfirmations, htracker, hsnapshot⟩ := quiet_dispatchKey hclaimed (.inl hmode')
    obtain ⟨habsorbed, habsorbedMode, happ⟩ := absorb_cases s turn handled
    refine ⟨habsorbed.trans hconfirmations, by rw [happ, htracker], by rw [happ, hsnapshot],
      fun hpress => habsorbedMode.trans ?_⟩
    -- both confirming keys are letters, which the filter types
    have hchar : ∃ c, key.char? = some c := by
      cases hkey : key.press with
      | quit => exact ⟨_, press_eq_quit_iff.mp hkey⟩
      | clear => exact ⟨_, press_eq_clear_iff.mp hkey⟩
      | other => exact absurd hkey hpress
    obtain ⟨c, hc⟩ := hchar
    exact filterMode_of_typed hclaimed hmode' hc

variable (turn config) in
/-- In the normal mode a `q` leaves the loop, or sets its flag. -/
theorem onKey_of_quit (hmode : s.screen.filterMode = false) (hpress : key.press = .quit) :
    if s.screen.quitConfirmation then s.onKey config turn key = .exited
    else ∃ next, s.onKey config turn key = .running next ∧
      next.screen.confirmations = (true, false) ∧ next.screen.filterMode = false ∧
      next.app = s.app := by
  have hkey := press_eq_quit_iff.mp hpress
  have hreset : s.screen.resetConfirmations key = { s.screen with clearConfirmation := false } := by
    unfold ScreenState.resetConfirmations
    rw [hkey]
    rfl
  -- no view claims the key, so that it comes to the global arm
  have hunclaimed : (s.screen.resetConfirmations key).dispatchKey config s.app s.connections
      s.groupedOpt key turn.eventAt = .unclaimed := by
    apply dispatchKey_of_ending _ (.inl hkey)
    rw [hreset]
    exact hmode
  unfold LoopState.onKey
  dsimp only
  rw [hunclaimed, ScreenState.fallbackKey, (globalArm_cases key).1.mpr hkey, hreset]
  dsimp only
  rw [GlobalArm.run]
  dsimp only
  cases s.screen.quitConfirmation with
  -- the second press exits, the first one asks
  | true => rfl
  | false =>
    obtain ⟨habsorbed, habsorbedMode, happ⟩ := absorb_cases s turn
      ⟨{ s.screen with quitConfirmation := true, clearConfirmation := false }, s.app, []⟩
    exact ⟨_, rfl, habsorbed, habsorbedMode.trans hmode, happ⟩

variable (turn config) in
/-- An `x` clears the connections, or sets its flag. -/
theorem onKey_of_clear (hmode : s.screen.filterMode = false) (hpress : key.press = .clear) :
    ∃ next, s.onKey config turn key = .running next ∧
      next.screen.confirmations = (false, !s.screen.clearConfirmation) ∧
      next.screen.filterMode = false ∧
      next.app = if s.screen.clearConfirmation then s.app.clearAllConnections else s.app := by
  have hkey := press_eq_clear_iff.mp hpress
  have hreset : s.screen.resetConfirmations key = { s.screen with quitConfirmation := false } := by
    unfold ScreenState.resetConfirmations
    rw [hkey]
    rfl
  have hmode' : (s.screen.resetConfirmations key).filterMode = false := by
    rw [hreset]
    exact hmode
  -- both ways lead to the same handler
  have hrun : s.onKey config turn key = .running (s.absorb turn (OverviewArm.clearAll.run
      (s.screen.resetConfirmations key) s.app s.connections turn.eventAt)) := by
    unfold LoopState.onKey
    dsimp only
    rcases dispatchKey_of_clear s.app s.connections s.groupedOpt config turn.eventAt hmode' hkey with
      hclaimed | hclaimed
    · rw [hclaimed, ScreenState.fallbackKey, (globalArm_cases key).2.1.mpr hkey]
      rfl
    · rw [hclaimed]
  obtain ⟨habsorbed, habsorbedMode, happ⟩ := absorb_cases s turn (OverviewArm.clearAll.run
      (s.screen.resetConfirmations key) s.app s.connections turn.eventAt)
  refine ⟨_, hrun, habsorbed.trans ?_, habsorbedMode.trans ?_, happ.trans ?_⟩
  all_goals
    rw [hreset]
    unfold OverviewArm.run clearAllWithConfirmation
    dsimp only
    cases s.screen.clearConfirmation
  all_goals first | rfl | exact hmode

/-- Ctrl+C leaves the loop. -/
theorem onKey_of_interrupt (hmode : s.screen.filterMode = false)
    (hkey : key.char? = some 'c' ∧ key.modifiers = .onlyControl) :
    s.onKey config turn key = .exited := by
  obtain ⟨flags, hreset⟩ := ScreenState.resetConfirmations_cases s.screen key
  have hunclaimed : (s.screen.resetConfirmations key).dispatchKey config s.app s.connections
      s.groupedOpt key turn.eventAt = .unclaimed := by
    apply dispatchKey_of_ending _ (.inr hkey)
    rw [hreset]
    exact hmode
  unfold LoopState.onKey
  dsimp only
  rw [hunclaimed, ScreenState.fallbackKey, (globalArm_cases key).2.2.mpr hkey]
  rfl

variable (turn config) in
/-- No other key does, and none but `q` and `x` sets a flag or clears the connections. -/
theorem onKey_of_other (hmode : s.screen.filterMode = false) (hpress : key.press = .other)
    (hkey : ¬ (key.char? = some 'c' ∧ key.modifiers = .onlyControl)) :
    ∃ handled, s.onKey config turn key = .running (s.absorb turn handled) ∧
      Quiet (s.screen.resetConfirmations key) s.app handled := by
  have hquit : key.char? ≠ some 'q' := fun h => by simp [press_eq_quit_iff.mpr h] at hpress
  have hclear : key.char? ≠ some 'x' := fun h => by simp [press_eq_clear_iff.mpr h] at hpress
  obtain ⟨flags, hreset⟩ := ScreenState.resetConfirmations_cases s.screen key
  have hmode' : (s.screen.resetConfirmations key).filterMode = false := by
    rw [hreset]
    exact hmode
  unfold LoopState.onKey
  dsimp only
  -- from here on only the mode of the reset screen matters
  generalize s.screen.resetConfirmations key = screen at *
  -- either a view handles the key or one of the harmless global arms does
  cases hclaimed : screen.dispatchKey config s.app s.connections s.groupedOpt key turn.eventAt with
  | claimed handled => exact ⟨handled, rfl, quiet_dispatchKey hclaimed (.inr hclear)⟩
  | panicked => exact absurd hclaimed (dispatchKey_ne_panicked hmode')
  | unclaimed =>
    dsimp only
    unfold ScreenState.fallbackKey
    cases harm : key.globalArm with
    | none => exact ⟨_, rfl, rfl, rfl, rfl⟩
    | some arm =>
      have hneQuit : arm ≠ .quit := by
        rintro rfl
        exact hquit ((globalArm_cases key).1.mp harm)
      have hneClear : arm ≠ .clearAll := by
        rintro rfl
        exact hclear ((globalArm_cases key).2.1.mp harm)
      have hneExit : arm ≠ .exit := by
        rintro rfl
        exact hkey ((globalArm_cases key).2.2.mp harm)
      obtain ⟨handled, hrun⟩ := exists_run_of_ne screen s.app turn.eventAt hneQuit hneExit
      simp only [hrun]
      exact ⟨handled, rfl, quiet_globalArm hneQuit hneClear hrun⟩

end Key

/-! ## Runs -/

/-- What an event does to the connections is to clear them: an `x` in the normal mode, after an odd
number of them. -/
def Clears (pressed : List Press) (screen : ScreenState) (event : Option InputEvent) : Prop :=
  screen.filterMode = false ∧ event.bind InputEvent.press = some .clear ∧
    Odd (trailingClears pressed)

/-- What the connections of the other threads are after an event. -/
structure Shares (clears : Prop) (app next : AppState ρ) : Prop where
  cleared : clears → next.tracker = app.tracker.clear ∧ next.connectionsSnapshot = []
  kept : ¬ clears → next.tracker = app.tracker ∧
    next.connectionsSnapshot = app.connectionsSnapshot

section Runs

variable {s next : LoopState ρ} {turn : Turn ρ} {config : ScreenConfig} {pressed : List Press}

theorem Confirms.onKey {key : ScreenKey} (h : Confirms pressed s.screen)
    (hrun : s.onKey config turn key = .running next) :
    Confirms (pressed ++ [key.press]) next.screen ∧
      Shares (s.screen.filterMode = false ∧ key.press = .clear ∧ Odd (trailingClears pressed)) s.app
        next.app := by
  cases hmode : s.screen.filterMode with
  | true =>
    obtain ⟨hflags, htracker, hsnapshot, hopen⟩ := onKey_of_filterMode hmode hrun
    -- no flag was set, since the filter is open
    have hquit : s.screen.quitConfirmation = false := by
      simpa [hmode] using h.quit
    have hclear : s.screen.clearConfirmation = false := by
      simpa [hmode] using h.clear
    have hnone : next.screen.confirmations = (false, false) := by
      rw [hflags, confirmations_resetConfirmations, hquit, hclear]
      simp
    refine ⟨?_, fun hclears => by simp at hclears, fun _ => ⟨htracker, hsnapshot⟩⟩
    by_cases hother : key.press = .other
    · rw [hother]
      exact confirms_other hnone
    · obtain ⟨hquit', hclear'⟩ := Prod.mk.inj hnone
      exact ⟨by simp [hquit', hopen hother], by simp [hclear', hopen hother]⟩
  | false =>
    cases hpress : key.press with
    | quit =>
      have hquit := onKey_of_quit turn config hmode hpress
      split_ifs at hquit with hflag
      · rw [hquit] at hrun
        cases hrun
      · obtain ⟨next', hnext, hflags, hmode', happ⟩ := hquit
        obtain rfl := LoopOutcome.running.inj (hnext.symm.trans hrun)
        obtain ⟨hquit', hclear'⟩ := Prod.mk.inj hflags
        refine ⟨⟨by simp [hquit', hmode'], ?_⟩, fun hclears => by simp at hclears,
          fun _ => by simp [happ]⟩
        simp [hclear', trailingClears_append_of_ne]
    | clear =>
      obtain ⟨next', hnext, hflags, hmode', happ⟩ :=
        onKey_of_clear turn config hmode hpress
      obtain rfl := LoopOutcome.running.inj (hnext.symm.trans hrun)
      obtain ⟨hquit', hclear'⟩ := Prod.mk.inj hflags
      have hodd : s.screen.clearConfirmation = true ↔ Odd (trailingClears pressed) := by
        simpa [hmode] using h.clear
      refine ⟨⟨by simp [hquit'], ?_⟩, fun hclears => ?_, fun hkept => ?_⟩
      · rw [hclear', hmode', trailingClears_append_clear, Nat.odd_add_one, ← hodd]
        simp
      · rw [happ, if_pos (hodd.mpr hclears.2.2)]
        exact ⟨rfl, rfl⟩
      · rw [happ, if_neg (fun hflag => hkept ⟨rfl, rfl, hodd.mp hflag⟩)]
        exact ⟨rfl, rfl⟩
    | other =>
      by_cases hinterrupt : key.char? = some 'c' ∧ key.modifiers = .onlyControl
      · rw [onKey_of_interrupt hmode hinterrupt] at hrun
        cases hrun
      · obtain ⟨handled, hnext, hquiet⟩ :=
          onKey_of_other turn config hmode hpress hinterrupt
        obtain rfl := LoopOutcome.running.inj (hnext.symm.trans hrun)
        obtain ⟨hflags, -, happ⟩ := absorb_cases s turn handled
        refine ⟨confirms_other ?_, fun hclears => by simp at hclears, fun _ => ?_⟩
        · rw [hflags, hquiet.confirmations, confirmations_resetConfirmations, hpress]
          simp
        · rw [happ]
          exact ⟨hquiet.tracker, hquiet.snapshot⟩

/-- What a run knows of the flags depends on them and on the mode only. -/
theorem Confirms.congr {screen screen' : ScreenState} (h : Confirms pressed screen)
    (hflags : screen'.confirmations = screen.confirmations)
    (hmode : screen'.filterMode = screen.filterMode) : Confirms pressed screen' := by
  obtain ⟨hquit, hclear⟩ := Prod.mk.inj hflags
  exact ⟨by rw [hquit, hmode]; exact h.quit, by rw [hclear, hmode]; exact h.clear⟩

theorem Confirms.handle (h : Confirms pressed s.screen)
    (hrun : s.handle config turn = .running next) :
    Confirms (pressed ++ (turn.event.bind InputEvent.press).toList) next.screen ∧
      Shares (Clears pressed s.screen turn.event) s.app next.app := by
  -- an event that is not the clearing key shares the whole application
  have hquiet : ∀ event : Option InputEvent, event.bind InputEvent.press ≠ some .clear →
      Shares (Clears pressed s.screen event) s.app s.app := fun event hevent =>
    ⟨fun hclears => absurd hclears.2.1 hevent, fun _ => ⟨rfl, rfl⟩⟩
  unfold LoopState.handle at hrun
  rcases hevent : turn.event with _ | event
  · rw [hevent] at hrun
    obtain rfl := LoopOutcome.running.inj hrun
    exact ⟨by simpa using h, hquiet none (by simp)⟩
  · rw [hevent] at hrun
    cases event with
    | key key isPress =>
      cases isPress with
      | true =>
        obtain ⟨hconfirms, hshares⟩ := h.onKey hrun
        refine ⟨hconfirms, fun hclears => hshares.cleared ?_, fun hkept => hshares.kept ?_⟩
        · exact ⟨hclears.1, Option.some.inj hclears.2.1, hclears.2.2⟩
        · exact fun ⟨hmode, hpress, hodd⟩ => hkept ⟨hmode, congrArg some hpress, hodd⟩
      | false =>
        obtain rfl := LoopOutcome.running.inj hrun
        exact ⟨by simpa [InputEvent.press] using h, hquiet _ (by simp [InputEvent.press])⟩
    -- a click takes back what was to be confirmed, and scrolling leaves it
    | leftClick column row =>
      obtain rfl := LoopOutcome.running.inj hrun
      refine ⟨confirms_other ?_, hquiet _ (by simp [InputEvent.press])⟩
      unfold LoopState.onClick ScreenState.click
      dsimp only
      rcases s.clicks.hitTest column row with _ | action
      · rfl
      · obtain ⟨-, -, -, hflags, -, -⟩ := clickAction_cases _ _ _ _ _ _ action _ rfl
        exact hflags
    | scroll up column row =>
      obtain rfl := LoopOutcome.running.inj hrun
      obtain ⟨ui, ⟨key, group, rfl⟩, hscroll⟩ := onScroll_cases s up column row
      rw [hscroll]
      refine ⟨?_, hquiet _ (by simp [InputEvent.press])⟩
      simp only [Option.bind_some, InputEvent.press, Option.toList_none, List.append_nil]
      exact h.congr rfl rfl
    | other =>
      obtain rfl := LoopOutcome.running.inj hrun
      exact ⟨by simpa [InputEvent.press] using h, hquiet _ (by simp [InputEvent.press])⟩

variable [TextEngine] [Zero ρ] [Add ρ] [LinearOrder τ] {value : ρ → Option τ} {frame : LoopState ρ}
  {turns : List (Turn ρ)}

/-- Drawing changes neither the flags nor the mode. -/
theorem confirmations_draw (hframe : s.frame config value turn = some frame) :
    (frame.draw turn).screen.confirmations = s.screen.confirmations ∧
      (frame.draw turn).screen.filterMode = s.screen.filterMode ∧
      (frame.draw turn).app.tracker = turn.tracker ∧
      (frame.draw turn).app.connectionsSnapshot = turn.snapshot := by
  obtain ⟨updated, hupdated, rfl⟩ := frame_cases hframe
  obtain ⟨hscreen, happ⟩ := update_cases hupdated
  obtain ⟨ui, offset, groupedOffset, ⟨key, group, rfl⟩, hreselect⟩ := reselect_cases updated
  rw [hreselect]
  unfold LoopState.draw
  dsimp only
  rw [hscreen, happ]
  exact ⟨rfl, rfl, rfl, rfl⟩

theorem Confirms.step (h : Confirms (presses turns) s.screen)
    (hrun : LoopOutcome.step config value (.running s) turn = .running next) :
    Confirms (presses (turns ++ [turn])) next.screen ∧
      Shares (Clears (presses turns) s.screen turn.event)
        ⟨turn.tracker, s.app.showHistoric, turn.snapshot⟩ next.app := by
  unfold LoopOutcome.step at hrun
  cases hframe : s.frame config value turn with
  | none => simp [hframe] at hrun
  | some frame =>
    simp only [hframe] at hrun
    -- drawing changes neither the flags nor the mode, and takes over tracker and snapshot
    obtain ⟨hflags, hmode, htracker, hsnapshot⟩ := confirmations_draw hframe
    obtain ⟨hconfirms, hshares⟩ := (h.congr hflags hmode).handle hrun
    rw [presses_append_singleton]
    refine ⟨hconfirms, fun hclears => ?_, fun hkept => ?_⟩
    · rw [← htracker]
      exact hshares.cleared ⟨hmode.trans hclears.1, hclears.2⟩
    · rw [← htracker, ← hsnapshot]
      exact hshares.kept fun hclears => hkept ⟨hmode.symm.trans hclears.1, hclears.2⟩

theorem confirms_foldl {app : AppState ρ} {start : Instant}
    (hrun : turns.foldl (LoopOutcome.step config value)
      (.running (.initial config app start)) = .running s) : Confirms (presses turns) s.screen := by
  induction turns using List.reverseRecOn generalizing s with
  | nil =>
    obtain rfl := LoopOutcome.running.inj hrun
    exact ⟨by simp [LoopState.initial, ScreenState.default, presses],
      by simp [LoopState.initial, ScreenState.default, presses, trailingClears]⟩
  | append_singleton turns turn ih =>
    rw [List.foldl_append, List.foldl_cons, List.foldl_nil] at hrun
    have hstep : ∃ middle, turns.foldl (LoopOutcome.step config value)
        (.running (.initial config app start)) = .running middle :=
      exists_running_of_foldl [turn] hrun
    -- a loop that still runs ran before its last turn
    obtain ⟨middle, hmiddle⟩ := hstep
    rw [hmiddle] at hrun
    exact ((ih hmiddle).step hrun).1

/-- **When the connections are cleared.** A turn clears them exactly if the filter is not being
typed, and it is an `x` that follows an odd number of `x`; no other turn touches them.

The state is one that the loop comes to after any turns (`hrun`), and the turn goes on in `next`
(`hstep`). `Shares` compares with the tracker and the snapshot that the turn brings from the other
threads. -/
theorem clears_iff (config : ScreenConfig) (value : ρ → Option τ) (app : AppState ρ)
    (start : Instant) (turns : List (Turn ρ)) (turn : Turn ρ) (s next : LoopState ρ)
    (hrun : turns.foldl (LoopOutcome.step config value)
      (.running (.initial config app start)) = .running s)
    (hstep : LoopOutcome.step config value (.running s) turn = .running next) :
    Shares (Clears (presses turns) s.screen turn.event)
      ⟨turn.tracker, s.app.showHistoric, turn.snapshot⟩ next.app :=
  ((confirms_foldl hrun).step hstep).2

end Runs

/-- The second of two `x`. -/
theorem clears_iff_sample :
    letI : TextEngine := .plain
    ∃ s next, [sampleTurn (some (.key (charKey 'x') true))].foldl
        (LoopOutcome.step ⟨false, false, false⟩ some) (.running sampleStart) = .running s ∧
      LoopOutcome.step ⟨false, false, false⟩ some (.running s)
        (sampleTurn (some (.key (charKey 'x') true))) = .running next ∧
      Shares (Clears (presses [sampleTurn (some (.key (charKey 'x') true))]) s.screen
          (some (.key (charKey 'x') true)))
        ⟨.withConfig .default, s.app.showHistoric, [quietTo 443]⟩ next.app := by
  let _ : TextEngine := .plain
  refine ⟨_, _, rfl, rfl, ?_⟩
  exact clears_iff ⟨false, false, false⟩ some ⟨.withConfig .default, false, []⟩ ⟨0⟩ _
    (sampleTurn (some (.key (charKey 'x') true))) _ _ rfl rfl

end RustNet

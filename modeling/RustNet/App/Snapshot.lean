import Mathlib.Data.List.Sort
import Mathlib.Tactic.NormNum
import RustNet.Network.Tracker.Basic
import RustNet.Network.Types.Octets

/-!
# The snapshot for the user interface

What the snapshot thread of the application publishes: the connections of the active table that
pass the localhost filter and count as active, and the historic ones when they are switched on, by
creation time. A connection counts as active for five minutes without a packet, whatever its
timeout is. The name of a service, which the snapshot adds to its copies, is left out.

Each element of a snapshot is kept with the place in the tracker it was copied from.

## Main results

* `mem_elements_active`: which connections of the active table a snapshot shows;
* `visibleUntilCleanup_iff`: which of them it shows for as long as their timeout has not elapsed.
-/

namespace RustNet

namespace Connection

/-- `is_active`, with the wall clock showing `wall`. -/
def isActive (conn : Connection) (wall : SystemTime) : Bool :=
  decide (conn.idleTime wall < Duration.fromSecs 300)

/-- `staleness_ratio`, with the wall clock showing `wall` and without the rounding of `f32`. -/
def stalenessRatio (conn : Connection) (wall : SystemTime) : ℚ :=
  conn.idleTime wall / conn.getTimeout wall

/-- The localhost filter takes the connection out: `enrich_and_filter` returns false. -/
def hidden (filterLocalhost : Bool) (conn : Connection) : Bool :=
  filterLocalhost && (conn.localAddr.ip.isLoopback && conn.remoteAddr.ip.isLoopback)

end Connection

/-! ## Snapshots -/

/-- Where an element of a snapshot was copied from. -/
inductive Origin
  | active (key : String)
  | historic (key : String)
deriving DecidableEq

/-- What a pass of the snapshot thread meets: the toggle, the orders in which it iterates, and what
the wall clock shows at each connection of the active table. -/
structure SnapshotPass where
  showHistoric : Bool
  order : IterOrder String
  historicOrder : IterOrder String
  wall : String → SystemTime

namespace SnapshotPass

variable (pass : SnapshotPass) (filterLocalhost : Bool) (t : ConnectionTracker)

/-- The elements copied from the active table. -/
def activePart : List (Origin × Connection) :=
  (t.connections.entriesIn pass.order).filterMap fun e =>
    -- `is_active` reads the clock anew for each connection
    if !e.2.hidden filterLocalhost && e.2.isActive (pass.wall e.1) then some (.active e.1, e.2)
    else none

/-- The elements copied from the historic table. -/
def historicPart : List (Origin × Connection) :=
  (t.historic.entriesIn pass.historicOrder).filterMap fun e =>
    -- a historic connection need not be active
    if !e.2.hidden filterLocalhost then some (.historic e.1, e.2) else none

/-- The elements of the snapshot, by creation time; the sort is stable. -/
def elements : List (Origin × Connection) :=
  let snapshotData := pass.activePart filterLocalhost t
  let snapshotData :=
    if pass.showHistoric then snapshotData ++ pass.historicPart filterLocalhost t
    else snapshotData
  snapshotData.insertionSort fun a b => a.2.createdAt.nanos ≤ b.2.createdAt.nanos

/-- `connections_snapshot` after the pass: the elements without the places they were copied from. -/
def buildSnapshot : List Connection := (pass.elements filterLocalhost t).map Prod.snd

variable {pass filterLocalhost t}

theorem mem_activePart {origin : Origin} {conn : Connection} :
    (origin, conn) ∈ pass.activePart filterLocalhost t ↔
      ∃ key, origin = .active key ∧ t.connections.lookup key = some conn ∧
        conn.hidden filterLocalhost = false ∧ conn.isActive (pass.wall key) = true := by
  rw [activePart, List.mem_filterMap]
  constructor
  · rintro ⟨⟨key, conn'⟩, he, hpass⟩
    rw [Option.ite_none_right_eq_some, Bool.and_eq_true, Bool.not_eq_true', Option.some.injEq,
      Prod.mk.injEq] at hpass
    obtain ⟨⟨hhidden, hactive⟩, rfl, rfl⟩ := hpass
    exact ⟨key, rfl, AList.mem_entriesIn.mp he, hhidden, hactive⟩
  · rintro ⟨key, rfl, hlookup, hhidden, hactive⟩
    exact ⟨(key, conn), AList.mem_entriesIn.mpr hlookup, by simp [hhidden, hactive]⟩

theorem mem_historicPart {origin : Origin} {conn : Connection} :
    (origin, conn) ∈ pass.historicPart filterLocalhost t ↔
      ∃ key, origin = .historic key ∧ t.historic.lookup key = some conn ∧
        conn.hidden filterLocalhost = false := by
  rw [historicPart, List.mem_filterMap]
  constructor
  · rintro ⟨⟨key, conn'⟩, he, hpass⟩
    rw [Option.ite_none_right_eq_some, Bool.not_eq_true', Option.some.injEq, Prod.mk.injEq] at hpass
    obtain ⟨hhidden, rfl, rfl⟩ := hpass
    exact ⟨key, rfl, AList.mem_entriesIn.mp he, hhidden⟩
  · rintro ⟨key, rfl, hlookup, hhidden⟩
    exact ⟨(key, conn), AList.mem_entriesIn.mpr hlookup, by simp [hhidden]⟩

/-- A snapshot has the elements of the active part, and those of the historic part when it is
switched on. -/
theorem mem_elements {element : Origin × Connection} :
    element ∈ pass.elements filterLocalhost t ↔
      element ∈ pass.activePart filterLocalhost t ∨
        pass.showHistoric = true ∧ element ∈ pass.historicPart filterLocalhost t := by
  rw [elements, List.mem_insertionSort]
  cases pass.showHistoric <;> simp

/-- A connection of the active table is copied when it is neither hidden nor idle for too long. -/
theorem mem_elements_active {key : String} {conn : Connection} :
    (.active key, conn) ∈ pass.elements filterLocalhost t ↔
      t.connections.lookup key = some conn ∧ conn.hidden filterLocalhost = false ∧
        conn.isActive (pass.wall key) = true := by
  rw [mem_elements, mem_activePart, mem_historicPart]
  simp

theorem mem_buildSnapshot {conn : Connection} :
    conn ∈ pass.buildSnapshot filterLocalhost t ↔
      ∃ origin, (origin, conn) ∈ pass.elements filterLocalhost t := by
  simp [buildSnapshot]

end SnapshotPass

/-! ## Until the cleanup -/

/-- A QUIC connection that is open and announced an idle timeout of five minutes or more. -/
def QuicInfo.LongLived (quic : QuicInfo) : Prop :=
  quic.connectionClose = none ∧ quic.connectionState = .connected ∧
    ∃ timeout ∈ quic.idleTimeout, Duration.fromSecs 300 ≤ timeout

/-- The application protocols whose flows over UDP have five minutes or more. -/
def ApplicationProtocol.LongLived : ApplicationProtocol → Prop
  | .http _ | .https _ | .ssh _ => True
  | .quic info => info.LongLived
  | _ => False

namespace Connection

/-- The timeout of the connection is five minutes or more: it is an established TCP connection, an
HTTP, HTTPS or SSH flow over UDP, or an open QUIC connection that announced such an idle timeout. -/
def LongLived (conn : Connection) : Prop :=
  match conn.protocolState with
  | .tcp state => state = .established
  | .udp => ∃ info ∈ conn.dpiInfo, info.application.LongLived
  | _ => False

theorem quic_longLived_iff (quic : QuicInfo) :
    quic.LongLived ↔ Duration.fromSecs 300 ≤ getQuicTimeout quic := by
  unfold QuicInfo.LongLived getQuicTimeout
  cases hclose : quic.connectionClose with
  | some closeInfo =>
    -- a closed connection has ten seconds at most
    simp only [reduceCtorEq, false_and, false_iff, Nat.not_le]
    split_ifs <;> decide
  | none =>
    cases hstate : quic.connectionState with
    -- only here does the peer choose the timeout
    | connected =>
      cases quic.idleTimeout with
      | none => simp [Duration.fromSecs]
      | some timeout => simp
    | initial | handshaking | draining | closed | unknown => simp [Duration.fromSecs]

theorem application_longLived_iff (application : ApplicationProtocol) :
    application.LongLived ↔ Duration.fromSecs 300 ≤ udpApplicationTimeout application := by
  cases application with
  | quic quic => exact quic_longLived_iff quic
  | _ => simp [ApplicationProtocol.LongLived, udpApplicationTimeout, Duration.fromSecs]

/-- An established connection has five minutes or more, whatever its application is. -/
theorem le_getTcpTimeout_established (conn : Connection) (wall : SystemTime) :
    Duration.fromSecs 300 ≤ conn.getTcpTimeout .established wall := by
  unfold getTcpTimeout
  cases happ : conn.dpiInfo.bind fun info => tcpApplicationTimeout info.application with
  | none =>
    simp only
    split_ifs <;> decide
  | some timeout =>
    obtain ⟨info, -, happ⟩ := Option.bind_eq_some_iff.mp happ
    show Duration.fromSecs 300 ≤ timeout
    unfold tcpApplicationTimeout at happ
    split at happ <;> cases happ <;> decide

/-- Whatever the clock shows, the timeout is five minutes or more for a long-lived connection, and
below for any other. -/
theorem longLived_iff (conn : Connection) (wall : SystemTime) :
    conn.LongLived ↔ Duration.fromSecs 300 ≤ conn.getTimeout wall := by
  unfold LongLived getTimeout
  cases conn.protocolState with
  | tcp state =>
    cases state with
    | established => exact iff_of_true rfl (conn.le_getTcpTimeout_established wall)
    | _ => simp [getTcpTimeout, Duration.fromSecs]
  | udp =>
    cases conn.dpiInfo with
    | none => simp [Duration.fromSecs]
    | some info => simpa using application_longLived_iff info.application
  | icmp _ _ | igmp _ _ | arp _ => simp [Duration.fromSecs]

end Connection

/-- A snapshot shows the connection, unless the localhost filter hides it, from any tracker that
has it in its active table and at any time at which its timeout has not elapsed. -/
def VisibleUntilCleanup (filterLocalhost : Bool) (conn : Connection) : Prop :=
  ∀ (t : ConnectionTracker) (key : String) (pass : SnapshotPass),
    t.connections.lookup key = some conn →
      conn.shouldCleanup (pass.wall key) (pass.wall key) = false →
        conn ∈ pass.buildSnapshot filterLocalhost t ∨ conn.hidden filterLocalhost = true

/-- A connection whose timeout has not elapsed counts as active when the timeout is short. -/
theorem isActive_of_not_shouldCleanup {conn : Connection} {wall : SystemTime}
    (h : conn.shouldCleanup wall wall = false) (hlong : ¬ conn.LongLived) :
    conn.isActive wall = true := by
  have htimeout := mt (conn.longLived_iff wall).mpr hlong
  rw [Connection.shouldCleanup, decide_eq_false_iff_not] at h
  rw [Connection.isActive, decide_eq_true_iff, Connection.idleTime]
  omega

/-- A tracker with one connection. -/
def oneConnection (key : String) (conn : Connection) : ConnectionTracker :=
  { ConnectionTracker.withConfig .default with connections := AList.singleton key conn }

/-- A snapshot without the historic connections, taken at `wall`. -/
def passAt (wall : SystemTime) : SnapshotPass where
  showHistoric := false
  order := .listed _
  historicOrder := .listed _
  wall := fun _ => wall

/-- Five minutes after its last packet a connection is not shown. -/
theorem not_mem_buildSnapshot {conn : Connection} {wall : SystemTime}
    (h : Duration.fromSecs 300 ≤ conn.idleTime wall) (filterLocalhost : Bool) (key : String) :
    conn ∉ (passAt wall).buildSnapshot filterLocalhost (oneConnection key conn) := by
  rw [SnapshotPass.mem_buildSnapshot]
  rintro ⟨origin, hmem⟩
  rw [SnapshotPass.mem_elements, SnapshotPass.mem_activePart] at hmem
  rcases hmem with ⟨key', -, -, -, hactive⟩ | ⟨hhistoric, -⟩
  · rw [Connection.isActive, decide_eq_true_iff] at hactive
    exact absurd hactive (Nat.not_lt.mpr h)
  · cases hhistoric

/-- The connection is shown until its timeout elapses exactly when the localhost filter hides it
anyway, or its timeout is below five minutes. The snapshot shows what was active within five
minutes, by the same clock that `should_cleanup` reads; a connection whose timeout is longer is out
of sight for the rest of it. -/
theorem visibleUntilCleanup_iff (filterLocalhost : Bool) (conn : Connection) :
    VisibleUntilCleanup filterLocalhost conn ↔
      conn.hidden filterLocalhost = true ∨ ¬ conn.LongLived := by
  constructor
  · intro h
    by_contra hnot
    rw [not_or, not_not] at hnot
    -- exactly five minutes after the last packet no long-lived connection has timed out
    have hidle : conn.idleTime ⟨conn.lastActivity.nanos + 300000000000⟩ = 300000000000 := by
      rw [Connection.idleTime, SystemTime.durationSince_getD, add_sub_cancel_left]
      rfl
    have hkept : conn.shouldCleanup ⟨conn.lastActivity.nanos + 300000000000⟩
        ⟨conn.lastActivity.nanos + 300000000000⟩ = false := by
      have htimeout := (conn.longLived_iff ⟨conn.lastActivity.nanos + 300000000000⟩).mp hnot.2
      rw [Connection.idleTime] at hidle
      rw [Connection.shouldCleanup, decide_eq_false_iff_not, hidle]
      exact Nat.not_lt.mpr htimeout
    have hshown := h (oneConnection "" conn) "" (passAt ⟨conn.lastActivity.nanos + 300000000000⟩)
      (by simp [oneConnection, AList.singleton, AList.lookup]) hkept
    rcases hshown with hshown | hhidden
    · exact not_mem_buildSnapshot hidle.ge filterLocalhost "" hshown
    · exact hnot.1 hhidden
  · rintro h t key pass hlookup hkept
    by_cases hhidden : conn.hidden filterLocalhost = true
    · exact Or.inr hhidden
    · left
      rw [SnapshotPass.mem_buildSnapshot]
      refine ⟨.active key, SnapshotPass.mem_elements_active.mpr ⟨hlookup, ?_, ?_⟩⟩
      · simpa using hhidden
      · exact isActive_of_not_shouldCleanup hkept (h.resolve_left hhidden)

/-- An established HTTP connection without a packet since the epoch. -/
def idleHttp : Connection :=
  { Connection.new .tcp (.lan 1 40000) (.lan 2 80) (.tcp .established) ⟨0⟩ ⟨0⟩ with
    dpiInfo := some
      { application := .http
          { version := .http11, method := none, host := none, path := none, statusCode := none,
            userAgent := none } } }

/-- After seven and a half minutes the connection is at three quarters of its timeout, and no
longer shown. -/
theorem idleHttp_not_visible :
    idleHttp.stalenessRatio ⟨450000000000⟩ = 3 / 4 ∧
      idleHttp.shouldCleanup ⟨450000000000⟩ ⟨450000000000⟩ = false ∧
        ¬ VisibleUntilCleanup false idleHttp := by
  have hkept : idleHttp.shouldCleanup ⟨450000000000⟩ ⟨450000000000⟩ = false := by decide +kernel
  refine ⟨?_, hkept, fun h => ?_⟩
  · have hidle : idleHttp.idleTime ⟨450000000000⟩ = 450000000000 := by decide +kernel
    have htimeout : idleHttp.getTimeout ⟨450000000000⟩ = 600000000000 := by decide +kernel
    rw [Connection.stalenessRatio, hidle, htimeout]
    norm_num
  · have hshown := h (oneConnection "" idleHttp) "" (passAt ⟨450000000000⟩) rfl hkept
    rcases hshown with hshown | hhidden
    · exact not_mem_buildSnapshot (by decide +kernel) false "" hshown
    · cases hhidden

end RustNet

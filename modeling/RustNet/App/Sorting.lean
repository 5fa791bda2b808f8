import Mathlib.Data.String.Basic
import RustNet.App.Grouping
import RustNet.Foundations.StableSort
import RustNet.Network.Types.Texts

/-!
# The order of the connection list

`sort_connections` sorts by one column. The comparison reads the fields of the two connections, and
for the state of a UDP connection that nothing classified also the clock: such a connection is
active, idle or stale by the time since its last packet. Each comparison reads the clock anew, so
that a connection that becomes idle while the list is sorted compares by two different keys.

The rates are floating-point numbers, of which the model has their value: a number that is not one
has none, and compares as equal to all.

## Main definitions

* `sortConnections`, and `compareAt`, its comparison at two readings of the clock;
* `SortsConsistently`: the whole sort goes by one key, and returns what that promises.

## Main results

* `sortsConsistently_iff`: it does for every column but the state, where no such connection may
  pass 30 or 60 seconds, and but the bandwidth, where no total may be without a value.
-/

namespace RustNet

/-- `SortColumn`: the columns that the list can be sorted by. -/
inductive SortColumn
  | createdAt | bandwidthTotal | process | localAddress | remoteAddress | location | application
  | service | state | protocol
deriving DecidableEq

/-- `GeoIpInfo`. The list shows the country only, and nothing the postal code. -/
structure GeoIpInfo where
  countryCode : Option String
  countryName : Option String
  asn : Option UInt32
  asOrg : Option String
  city : Option String

/-- A connection of the list, with what the enrichment adds. -/
structure ListedConnection (ρ : Type) extends RatedConnection ρ where
  serviceName : Option String
  geoipInfo : Option GeoIpInfo

/-! ## Keys -/

/-- `ApplicationProtocol::sort_key`: a name for each protocol, whatever the record says. -/
def ApplicationProtocol.sortKey : ApplicationProtocol → String
  | .bitTorrent _ => "BitTorrent"
  | .dhcp _ => "DHCP"
  | .dns _ => "DNS"
  | .ftp _ => "FTP"
  | .http _ => "HTTP"
  | .https _ => "HTTPS"
  | .llmnr _ => "LLMNR"
  | .mdns _ => "mDNS"
  | .mqtt _ => "MQTT"
  | .netBios _ => "NetBIOS"
  | .ntp _ => "NTP"
  | .quic _ => "QUIC"
  | .snmp _ => "SNMP"
  | .ssh _ => "SSH"
  | .ssdp _ => "SSDP"
  | .stun _ => "STUN"

/-- `Ord for Protocol`: the order of the declaration. -/
def Protocol.rank : Protocol → ℕ
  | .tcp => 0
  | .udp => 1
  | .icmp => 2
  | .igmp => 3
  | .arp => 4

/-- The parts of an address, compared one after the other. -/
def AddrParts : Type := List ℕ

instance : LinearOrder AddrParts := inferInstanceAs (LinearOrder (List ℕ))

/-- `Ord for IpAddr`: an IPv4 address before an IPv6 one, and each by its parts. -/
def IpAddr.orderKey : IpAddr → ℕ ×ₗ AddrParts
  | .v4 addr => toLex (4, addr.octets.toList.map UInt8.toNat)
  | .v6 addr => toLex (6, addr.segments.toList.map UInt16.toNat)

/-- By the address and then by the port. -/
def SocketAddr.compare (a b : SocketAddr) : Ordering :=
  (Ord.compare a.ip.orderKey b.ip.orderKey).then (Ord.compare a.port.toNat b.port.toNat)

def SocketAddr.orderKey (addr : SocketAddr) : (ℕ ×ₗ AddrParts) ×ₗ ℕ :=
  toLex (addr.ip.orderKey, addr.port.toNat)

theorem SocketAddr.compare_eq (a b : SocketAddr) :
    a.compare b = Ord.compare a.orderKey b.orderKey := by
  rw [Prod.Lex.compare_def]
  rfl

namespace ListedConnection

variable {ρ : Type}

/-- The application's key, none before all others. -/
def applicationKey (conn : ListedConnection ρ) : WithBot String :=
  conn.dpiInfo.map fun dpi => dpi.application.sortKey

def countryCode (conn : ListedConnection ρ) : String :=
  (conn.geoipInfo.bind GeoIpInfo.countryCode).getD ""

/-- The combined bandwidth, up and down. -/
def total [Add ρ] (conn : ListedConnection ρ) : ρ :=
  conn.currentIncomingRateBps + conn.currentOutgoingRateBps

end ListedConnection

/-! ## Sorting -/

section

variable {ρ τ : Type} [Add ρ] [LinearOrder τ] (value : ρ → Option τ) (column : SortColumn)
  (ascending : Bool)

/-- The comparison of `sort_connections` before its direction. The clock shows `wall` for the first
connection and `wall'` for the second. -/
def compareColumn (wall wall' : SystemTime) (a b : ListedConnection ρ) : Ordering :=
  match column with
  | .createdAt => compare a.createdAt.nanos b.createdAt.nanos
  | .bandwidthTotal => comparePartial (fun conn => value conn.total) a b
  | .process => compare (a.processName.getD "") (b.processName.getD "")
  | .localAddress => a.localAddr.compare b.localAddr
  | .remoteAddress => a.remoteAddr.compare b.remoteAddr
  | .application => compare a.applicationKey b.applicationKey
  | .service => compare (a.serviceName.getD "") (b.serviceName.getD "")
  | .state => compare (a.state wall) (b.state wall')
  | .location => compare a.countryCode b.countryCode
  | .protocol => compare a.protocol.rank b.protocol.rank

/-- The comparison of `sort_connections`, with the readings of the clock that the two states are
taken at. Descending it is turned round, ties included. -/
def compareAt (wall wall' : SystemTime) (a b : ListedConnection ρ) : Ordering :=
  if ascending then compareColumn value column wall wall' a b
  else (compareColumn value column wall wall' a b).swap

/-- `sort_connections`. The clock shows `clock n` when it is read for the `n`th time, which each
comparison does twice. -/
def sortConnections (std : SliceSort (ListedConnection ρ)) (clock : ℕ → SystemTime)
    (connections : List (ListedConnection ρ)) : Option (List (ListedConnection ρ)) :=
  std.sortBy (fun n => compareAt value column ascending (clock (2 * n)) (clock (2 * n + 1)))
    connections

/-- Each connection compares by one key, at whichever readings of the clock, and every sort returns
the connections sorted by it, and stable. -/
def SortsConsistently (clock : ℕ → SystemTime) (connections : List (ListedConnection ρ)) : Prop :=
  ∃ (κ : Type) (_ : LinearOrder κ) (key : ListedConnection ρ → κ),
    ComparesBy key (fun i : ℕ × ℕ => compareAt value column ascending (clock i.1) (clock i.2))
      connections ∧
    ∀ std : SliceSort (ListedConnection ρ), ∃ sorted,
      sortConnections value column ascending std clock connections = some sorted ∧
        StablySorted key connections sorted

/-! ## What has a fixed key -/

/-- A UDP connection that nothing classified has the same state at all readings of the clock. -/
def StatesStay (clock : ℕ → SystemTime) (connections : List (ListedConnection ρ)) : Prop :=
  ∀ conn ∈ connections, conn.protocolState = .udp → conn.dpiInfo = none →
    ∀ i j, ∀ limit ∈ [30, 60], Duration.fromSecs limit < conn.idleTime (clock i) ↔
      Duration.fromSecs limit < conn.idleTime (clock j)

/-- All totals have a value, or those that have one the same. -/
def TotalsComparable (connections : List (ListedConnection ρ)) : Prop :=
  (∀ conn ∈ connections, value conn.total ≠ none) ∨
    ∀ a ∈ connections, ∀ b ∈ connections, ∀ x, value a.total = some x →
      ∀ y, value b.total = some y → x = y

variable {value column ascending} {clock : ℕ → SystemTime}
  {connections : List (ListedConnection ρ)}

/-- Only the state of a UDP connection without a classification depends on the clock. -/
theorem Connection.state_eq_iff (conn : Connection) (wall wall' : SystemTime) :
    conn.state wall = conn.state wall' ↔
      (conn.protocolState = .udp → conn.dpiInfo = none → ∀ limit ∈ [30, 60],
        (Duration.fromSecs limit < conn.idleTime wall ↔
          Duration.fromSecs limit < conn.idleTime wall')) := by
  by_cases hudp : conn.protocolState = .udp ∧ conn.dpiInfo = none
  · obtain ⟨hproto, hdpi⟩ := hudp
    have hlimits : Duration.fromSecs 30 < Duration.fromSecs 60 := by decide
    have hboth : (conn.protocolState = .udp → conn.dpiInfo = none → ∀ limit ∈ [30, 60],
        (Duration.fromSecs limit < conn.idleTime wall ↔
          Duration.fromSecs limit < conn.idleTime wall')) ↔
        (Duration.fromSecs 30 < conn.idleTime wall ↔ Duration.fromSecs 30 < conn.idleTime wall') ∧
          (Duration.fromSecs 60 < conn.idleTime wall ↔
            Duration.fromSecs 60 < conn.idleTime wall') := by
      simp [hproto, hdpi]
    rw [hboth]
    simp only [state, hproto, hdpi]
    -- the three states of either reading
    split_ifs <;> simp only [String.reduceEq, true_iff, false_iff] <;> omega
  · refine iff_of_true ?_ fun hproto hdpi => absurd ⟨hproto, hdpi⟩ hudp
    unfold state
    split
    next => rfl
    next hproto =>
      split
      next => rfl
      next hdpi => exact absurd ⟨hproto, hdpi⟩ hudp
    all_goals rfl

/-- All other columns compare by a key, whatever the clock shows. -/
theorem fixedKey_of_ne (hstate : column ≠ .state) (htotal : column ≠ .bandwidthTotal) :
    FixedKey (fun i : ℕ × ℕ => compareColumn value column (clock i.1) (clock i.2)) connections := by
  -- every other column compares what the connection itself has
  cases column with
  | createdAt => exact .of_key (fun conn => conn.createdAt.nanos) fun _ _ _ => rfl
  | bandwidthTotal => exact absurd rfl htotal
  | process => exact .of_key (fun conn => conn.processName.getD "") fun _ _ _ => rfl
  | localAddress =>
    apply FixedKey.of_key fun conn => conn.localAddr.orderKey
    exact fun _ a b => SocketAddr.compare_eq a.localAddr b.localAddr
  | remoteAddress =>
    apply FixedKey.of_key fun conn => conn.remoteAddr.orderKey
    exact fun _ a b => SocketAddr.compare_eq a.remoteAddr b.remoteAddr
  | location => exact .of_key ListedConnection.countryCode fun _ _ _ => rfl
  | application => exact .of_key ListedConnection.applicationKey fun _ _ _ => rfl
  | service => exact .of_key (fun conn => conn.serviceName.getD "") fun _ _ _ => rfl
  | state => exact absurd rfl hstate
  | protocol => exact .of_key (fun conn => conn.protocol.rank) fun _ _ _ => rfl

theorem fixedKey_state_iff :
    FixedKey (fun i : ℕ × ℕ => compareColumn value .state (clock i.1) (clock i.2)) connections ↔
      StatesStay clock connections := by
  have hvarying := fixedKey_varying_iff (l := connections)
    fun n (conn : ListedConnection ρ) => conn.state (clock n)
  simp only [Connection.state_eq_iff] at hvarying
  apply hvarying.trans
  constructor
  · exact fun h conn hconn hproto hdpi i j => h conn hconn i j hproto hdpi
  · exact fun h conn hconn i j hproto hdpi => h conn hconn hproto hdpi i j

theorem fixedKey_compareColumn_iff :
    FixedKey (fun i : ℕ × ℕ => compareColumn value column (clock i.1) (clock i.2)) connections ↔
      (column = .state → StatesStay clock connections) ∧
        (column = .bandwidthTotal → TotalsComparable value connections) := by
  -- the other columns compare by what the clock does not change
  by_cases hstate : column = .state
  · subst hstate
    rw [fixedKey_state_iff]
    simp
  by_cases htotal : column = .bandwidthTotal
  · subst htotal
    have htotals : FixedKey
        (fun i : ℕ × ℕ => compareColumn value .bandwidthTotal (clock i.1) (clock i.2))
        connections ↔ TotalsComparable value connections := fixedKey_partial_iff
    rw [htotals]
    simp
  · refine iff_of_true ?_ ⟨fun h => absurd h hstate, fun h => absurd h htotal⟩
    exact fixedKey_of_ne hstate htotal

/-- The whole sort goes by one key, and returns the connections sorted by it and stable, exactly if
the column is neither the state nor the bandwidth, or it is the state and no UDP connection without
a classification passes 30 or 60 seconds since its last packet between two readings of the clock, or
it is the bandwidth and all totals have a value, or those that have one the same. -/
theorem sortsConsistently_iff (value : ρ → Option τ) (column : SortColumn) (ascending : Bool)
    (clock : ℕ → SystemTime) (connections : List (ListedConnection ρ)) :
    SortsConsistently value column ascending clock connections ↔
      (column = .state → StatesStay clock connections) ∧
        (column = .bandwidthTotal → TotalsComparable value connections) := by
  -- a descending order swaps the comparison, which has the same keys
  have hdirection : FixedKey
      (fun i : ℕ × ℕ => compareAt value column ascending (clock i.1) (clock i.2)) connections ↔
      FixedKey (fun i : ℕ × ℕ => compareColumn value column (clock i.1) (clock i.2))
        connections := by
    cases ascending with
    | true => rfl
    | false => exact fixedKey_swap_iff
  rw [← fixedKey_compareColumn_iff, ← hdirection]
  constructor
  · rintro ⟨κ, _, key, hkey, -⟩
    exact ⟨κ, inferInstance, key, hkey⟩
  · rintro ⟨κ, _, key, hkey⟩
    refine ⟨κ, inferInstance, key, hkey, fun std => ?_⟩
    apply std.sortBy_eq_some key
    -- the sort reads the clock twice for each comparison
    intro n
    exact hkey (2 * n, 2 * n + 1)

end

/-- A UDP connection that nothing classified, with its last packet at the epoch. -/
def quietTo (remotePort : UInt16) : ListedConnection ℕ where
  toConnection := .new .udp (.lan 1 50000) (.lan 2 remotePort) .udp .unixEpoch ⟨0⟩
  currentIncomingRateBps := 0
  currentOutgoingRateBps := 0
  serviceName := none
  geoipInfo := none

/-- A clock that is first read 29 seconds later, and then every two seconds. -/
def slowClock (n : ℕ) : SystemTime := ⟨(29 + 2 * n) * 1000000000⟩

/-- Two connections with their last packet at the same time are each before the other, when they
are compared for the first time. -/
theorem quietTo_not_sortsConsistently :
    compareAt some .state true (slowClock 0) (slowClock 1) (quietTo 500) (quietTo 4500) = .lt ∧
      compareAt some .state true (slowClock 0) (slowClock 1) (quietTo 4500) (quietTo 500) = .lt ∧
      ¬ SortsConsistently some .state true slowClock [quietTo 500, quietTo 4500] := by
  have hthere : compareAt some .state true (slowClock 0) (slowClock 1) (quietTo 500)
      (quietTo 4500) = .lt := by decide +kernel
  have hback : compareAt some .state true (slowClock 0) (slowClock 1) (quietTo 4500)
      (quietTo 500) = .lt := by decide +kernel
  refine ⟨hthere, hback, ?_⟩
  rintro ⟨κ, _, key, hkey, -⟩
  have hkeyThere := hkey (0, 1) (quietTo 500) (by simp) (quietTo 4500) (by simp)
  have hkeyBack := hkey (0, 1) (quietTo 4500) (by simp) (quietTo 500) (by simp)
  have hlt := compare_lt_iff_lt.mp (hkeyThere.symm.trans hthere)
  exact lt_asymm hlt (compare_lt_iff_lt.mp (hkeyBack.symm.trans hback))

end RustNet

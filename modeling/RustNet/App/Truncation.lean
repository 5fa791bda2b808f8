import RustNet.App.Sorting
import RustNet.Foundations.Checked
import RustNet.Foundations.Offsets
import RustNet.Network.Types.Display

/-!
# Names that do not fit

A process name or host name that is too long for its column is cut off and gets an ellipsis. Its
length is counted in bytes and so is the place where it is cut: if this lies inside a character the
slice panics, in the middle of drawing. The service name is cut by characters and never does.

## Main definitions

* `Cut`, and the cuts of the columns: `processCut`, `hostnameCut`, `groupedHostnameCut`,
  `topProcessCut`;
* `TableView`, with the rows that are drawn: `flatRows`, `groupedRows`, `topProcesses`;
* `TableView.Drawn`: they are drawn, and what is cut off is followed by the ellipsis.

## Main results

* `TableView.drawn_iff`: they are exactly if every text that is too long and on the screen has a
  character boundary where it is cut.
-/

namespace RustNet

open Checked

/-! ## Cutting a text -/

/-- `&text[..stop]`: a panic unless a character ends at `stop`, or it is the end. -/
def sliceTextTo (text : String) (stop : ℕ) : Checked String :=
  match Offsets.split Char.utf8Size stop text.toList with
  | some parts => pure (String.ofList parts.1)
  | none => throw (.range 0 stop text.utf8ByteSize)

/-- How a text is cut: if it has more than `limit` bytes, `keep` of them are left. -/
structure Cut where
  limit : ℕ
  keep : ℕ
  ellipsis : String

/-- What is shown for a text is the text, or its start with the ellipsis. -/
def Abbreviates (ellipsis text shown : String) : Prop :=
  shown = text ∨ ∃ start, start.toList <+: text.toList ∧ shown = start ++ ellipsis

namespace Cut

variable (cut : Cut) (text : String)

/-- The text, or what is left of it. -/
def shorten : Checked String :=
  if cut.limit < text.utf8ByteSize then do
    let start ← sliceTextTo text cut.keep
    return start ++ cut.ellipsis
  else pure text

/-- If the text is too long, a character ends where it is cut. -/
def Fits : Prop :=
  cut.limit < text.utf8ByteSize → ∃ before after, text.toList = before ++ after ∧
    Offsets.extent Char.utf8Size before = cut.keep

variable {cut text}

/-- A text that can be cut is shown or abbreviated. -/
theorem ensures_shorten (h : cut.Fits text) :
    Ensures (cut.shorten text) (Abbreviates cut.ellipsis text) := by
  unfold shorten
  split_ifs with hlong
  · obtain ⟨before, after, htext, hkeep⟩ := h hlong
    have hsplit := (Offsets.split_eq_some_iff fun c => c.utf8Size_pos).mpr ⟨htext, hkeep⟩
    rw [sliceTextTo, hsplit, pure_bind', ensures_pure_iff]
    exact Or.inr ⟨String.ofList before, by simp [htext], rfl⟩
  · exact ensures_pure (Or.inl rfl)

/-- Any other is not. -/
theorem fits_of_ensures {p : String → Prop} (h : Ensures (cut.shorten text) p) :
    cut.Fits text := by
  intro hlong
  rw [shorten, if_pos hlong, ensures_bind_iff, sliceTextTo] at h
  cases hsplit : Offsets.split Char.utf8Size cut.keep text.toList with
  | none =>
    rw [hsplit] at h
    obtain ⟨_, h, -⟩ := h
    cases h
  | some parts =>
    obtain ⟨htext, hkeep⟩ := (Offsets.split_eq_some_iff fun c => c.utf8Size_pos).mp hsplit
    exact ⟨parts.1, parts.2, htext, hkeep⟩

/-- What holds of every abbreviation is ensured exactly if the text can be cut. -/
theorem ensures_shorten_iff {p : String → Prop}
    (hp : ∀ shown, Abbreviates cut.ellipsis text shown → p shown) :
    Ensures (cut.shorten text) p ↔ cut.Fits text :=
  ⟨fits_of_ensures, fun h => (ensures_shorten h).mono hp⟩

end Cut

/-- The process column of the flat table. -/
def processCut : Cut := ⟨25, 22, "..."⟩

/-- A host name in the flat table, in a column of a width. The port is to have room. -/
def hostnameCut (width : ℕ) : Cut := ⟨width - 7, width - 7 - 3, "..."⟩

/-- A host name in the grouped table. -/
def groupedHostnameCut (width : ℕ) : Cut := ⟨width - 7, width - 7 - 2, ".."⟩

/-- The names of the top processes. -/
def topProcessCut : Cut := ⟨20, 17, "..."⟩

/-! ## Rows -/

/-- The rows that fit on the screen, and one more. -/
def window {α : Type} (rows : List α) (offset visibleRows : ℕ) : Checked (List α) :=
  slice rows (min offset rows.length) (min (offset + max visibleRows 1 + 1) rows.length)

/-- The rows from an offset on. -/
def shownRows {α : Type} (rows : List α) (offset visibleRows : ℕ) : List α :=
  (rows.drop offset).take (max visibleRows 1 + 1)

/-- The window is never out of range. -/
theorem window_eq {α : Type} (rows : List α) (offset visibleRows : ℕ) :
    window rows offset visibleRows = pure (shownRows rows offset visibleRows) := by
  rw [window, slice_eq (by omega) (min_le_right _ _), shownRows]
  congr 1
  rcases Nat.lt_or_ge rows.length offset with hlt | hge
  · rw [List.drop_eq_nil_of_le (by omega), List.drop_eq_nil_of_le hlt.le, List.take_nil,
      List.take_nil]
  · rw [min_eq_left hge, List.take_eq_take_iff, List.length_drop]
    omega

/-- A process name with the pid, if there is one. -/
def Connection.processText (conn : Connection) : String :=
  let processStr := conn.processName.getD "-"
  match conn.pid with
  | some pid => processStr ++ " (" ++ toString pid.toNat ++ ")"
  | none => processStr

/-- The cells of the flat table that are cut. -/
structure FlatCells where
  process : String
  service : String
  remoteAddress : String

/-- The cells of the grouped table: the process or protocol, and the remote address. -/
structure GroupedCells where
  process : String
  remoteAddress : String

/-- What the tables show: the connections, the groups that are expanded, and the settings. -/
structure TableView (ρ : Type) where
  connections : List (ListedConnection ρ)
  expandedGroups : Finset String
  /-- What `get_hostname` returns, if names are resolved. -/
  dnsResolver : Option (IpAddr → Option String)
  showHostnames : Bool
  showPortNumbers : Bool
  showHistoric : Bool
  scrollOffset : ℕ
  groupedScrollOffset : ℕ
  visibleRows : ℕ

namespace TableView

variable {ρ : Type} (view : TableView ρ)

/-- The host name that is shown for a connection. -/
def hostname (conn : Connection) : Option String :=
  if view.showHostnames = true ∧ conn.protocol ≠ .arp then
    view.dnsResolver.bind fun resolver => resolver conn.remoteAddr.ip
  else none

/-- The column has more room for host names. -/
def remoteAddrWidth (resolved plain : ℕ) : ℕ :=
  if view.dnsResolver.isSome = true ∧ view.showHostnames = true then resolved else plain

def flatCut : Cut := hostnameCut (view.remoteAddrWidth 30 21)

def groupedCut : Cut := groupedHostnameCut (view.remoteAddrWidth 26 18)

/-- The remote address, or the host name with the port. -/
def remoteAddrDisplay (cut : Cut) (conn : Connection) : Checked String :=
  match view.hostname conn with
  | some hostname => do
    let shown ← cut.shorten hostname
    return shown ++ ":" ++ toString conn.remoteAddr.port.toNat
  | none => pure conn.remoteAddr.display

/-- The port number, or the service name: five characters of it, if it has more than eight bytes. -/
def serviceDisplay (conn : ListedConnection ρ) : String :=
  if view.showPortNumbers then toString conn.remoteAddr.port.toNat
  else
    let serviceName := conn.serviceName.getD "-"
    if 8 < serviceName.utf8ByteSize then String.ofList (serviceName.toList.take 5) ++ "..."
    else serviceName

def flatRow (conn : ListedConnection ρ) : Checked FlatCells := do
  let process ← processCut.shorten conn.processText
  let remoteAddress ← view.remoteAddrDisplay view.flatCut conn.toConnection
  return ⟨process, view.serviceDisplay conn, remoteAddress⟩

/-- The rows of `draw_connections_list`, for the connections in the window. -/
def flatRows : Checked (List FlatCells) := do
  let visible ← window view.connections view.scrollOffset view.visibleRows
  visible.mapM view.flatRow

def groupedRow : GroupedRow ρ → Checked GroupedCells
  | .group processName stats expanded =>
    let historic :=
      if view.showHistoric = true ∧ 0 < stats.historicCount then
        ", " ++ toString stats.historicCount
      else ""
    pure ⟨(if expanded then "[-] " else "[+] ") ++ processName ++ " (" ++
      toString stats.connectionCount ++ historic ++ ")", ""⟩
  | .connection _ conn isLastInGroup => do
    let remoteAddress ← view.remoteAddrDisplay view.groupedCut conn.toConnection
    return ⟨(if isLastInGroup then "  └── " else "  ├── ") ++ conn.protocol.display,
      remoteAddress⟩

/-- The rows that `compute_grouped_rows` makes of the connections. -/
def grouping [TextEngine] [Zero ρ] [Add ρ] (order : IterOrder String) : List (GroupedRow ρ) :=
  computeGroupedRows order (view.connections.map ListedConnection.toRatedConnection)
    view.expandedGroups

/-- The rows of `draw_grouped_connections_list`, for the rows in the window. -/
def groupedRows [TextEngine] [Zero ρ] [Add ρ] (order : IterOrder String) :
    Checked (List GroupedCells) := do
  let visible ← window (view.grouping order) view.groupedScrollOffset view.visibleRows
  visible.mapM view.groupedRow

end TableView

/-! ## Top processes -/

section TopProcesses

variable {ρ τ : Type} [Zero ρ] [Add ρ] [LinearOrder τ] [Zero τ]

/-- The name that the traffic of a connection counts for. -/
def ListedConnection.trafficName (conn : ListedConnection ρ) : String :=
  conn.processName.getD "Unknown"

/-- The traffic by process name. -/
def processTraffic (connections : List (ListedConnection ρ)) : AList fun _ : String => ρ :=
  connections.foldl (fun traffic conn =>
    traffic.upsert conn.trafficName (· + conn.total) (0 + conn.total)) ∅

/-- A process with traffic: its rate, and the value of the rate. -/
structure ProcessRate (ρ τ : Type) where
  name : String
  rate : ρ
  bps : τ

/-- The value of a rate, if it is above zero. -/
def positive (value : ρ → Option τ) (entry : String × ρ) : Option (ProcessRate ρ τ) :=
  (value entry.2).bind fun bps => if 0 < bps then some ⟨entry.1, entry.2, bps⟩ else none

/-- The processes with traffic, the busiest first, with the hash map iterated in `order`. A rate
that is no number is not above zero, so that all that are left compare by their values. -/
def sortedTraffic (value : ρ → Option τ) (order : IterOrder String)
    (connections : List (ListedConnection ρ)) : List (ProcessRate ρ τ) :=
  (((processTraffic connections).entriesIn order).filterMap (positive value)).insertionSort
    fun a b => OrderDual.toDual a.bps ≤ OrderDual.toDual b.bps

/-- The rows of `draw_top_processes`: the names with the rates. -/
def topProcesses (value : ρ → Option τ) (order : IterOrder String)
    (connections : List (ListedConnection ρ)) : Checked (List (String × ρ)) :=
  ((sortedTraffic value order connections).take 5).mapM fun process => do
    let displayName ← topProcessCut.shorten process.name
    return (displayName, process.rate)

/-- The traffic of a process: that of its connections, one after the other. -/
def trafficOf (connections : List (ListedConnection ρ)) (name : String) : ρ :=
  (connections.filter (·.trafficName = name)).foldl (fun rate conn => rate + conn.total) 0

/-- The processes that have more traffic. -/
def busier (value : ρ → Option τ) (connections : List (ListedConnection ρ)) (bps : τ) :
    List String :=
  ((connections.map ListedConnection.trafficName).dedup).filter fun name =>
    (value (trafficOf connections name)).any fun other => bps < other

variable {value : ρ → Option τ} {order : IterOrder String}
  {connections : List (ListedConnection ρ)} {name : String} {rate : ρ}

theorem trafficOf_append (connections : List (ListedConnection ρ)) (conn : ListedConnection ρ)
    (name : String) : trafficOf (connections ++ [conn]) name =
      if conn.trafficName = name then trafficOf connections name + conn.total
      else trafficOf connections name := by
  rw [trafficOf, List.filter_append]
  split_ifs with hname
  · rw [List.filter_cons_of_pos (by simpa using hname), List.filter_nil, List.foldl_append]
    rfl
  · rw [List.filter_cons_of_neg (by simpa using hname), List.filter_nil, List.append_nil]
    rfl

theorem trafficOf_eq_zero (h : ∀ conn ∈ connections, conn.trafficName ≠ name) :
    trafficOf connections name = 0 := by
  have hnone : connections.filter (·.trafficName = name) = [] :=
    List.filter_eq_nil_iff.mpr fun conn hconn => by simpa using h conn hconn
  rw [trafficOf, hnone]
  rfl

/-- The table has the traffic of each process that there is. -/
theorem lookup_processTraffic (connections : List (ListedConnection ρ)) (name : String) :
    (processTraffic connections).lookup name =
      if ∃ conn ∈ connections, conn.trafficName = name then some (trafficOf connections name)
      else none := by
  induction connections using List.reverseRecOn with
  | nil => rfl
  | append_singleton connections conn ih =>
    have hstep : processTraffic (connections ++ [conn]) =
        (processTraffic connections).upsert conn.trafficName (· + conn.total) (0 + conn.total) := by
      rw [processTraffic, List.foldl_append]
      rfl
    rw [hstep, AList.upsert, trafficOf_append]
    by_cases hname : conn.trafficName = name
    -- the traffic of the new connection is added, or starts the sum
    · subst hname
      have hmem : ∃ other ∈ connections ++ [conn], other.trafficName = conn.trafficName :=
        ⟨conn, List.mem_append_right _ List.mem_cons_self, rfl⟩
      rw [AList.lookup_insert, if_pos hmem, if_pos rfl, ih]
      split_ifs with hsome
      · rfl
      · rw [trafficOf_eq_zero fun other hother heq => hsome ⟨other, hother, heq⟩]
        rfl
    · have hmem : (∃ other ∈ connections ++ [conn], other.trafficName = name) ↔
          ∃ other ∈ connections, other.trafficName = name := by
        simp [hname]
      rw [AList.lookup_insert_ne (Ne.symm hname), ih, if_neg hname]
      simp only [hmem]

/-- The processes with traffic. -/
theorem mem_sortedTraffic {process : ProcessRate ρ τ} :
    process ∈ sortedTraffic value order connections ↔
      (∃ conn ∈ connections, conn.trafficName = process.name) ∧
        trafficOf connections process.name = process.rate ∧
          value process.rate = some process.bps ∧ 0 < process.bps := by
  rw [sortedTraffic, List.mem_insertionSort, List.mem_filterMap]
  -- the map holds the names that occur, each with the total of its connections
  constructor
  · rintro ⟨⟨name, rate⟩, hentry, hpositive⟩
    rw [AList.mem_entriesIn, lookup_processTraffic] at hentry
    obtain ⟨bps, hvalue, hbps⟩ := Option.bind_eq_some_iff.mp hpositive
    split_ifs at hentry hbps with hname hpos
    obtain rfl := Option.some.inj hbps
    exact ⟨hname, Option.some.inj hentry, hvalue, hpos⟩
  · rintro ⟨hname, hrate, hvalue, hpos⟩
    refine ⟨(process.name, process.rate), ?_, ?_⟩
    · rw [AList.mem_entriesIn, lookup_processTraffic, if_pos hname, hrate]
    · rw [positive, hvalue, Option.bind_some, if_pos hpos]

omit [Zero ρ] [Add ρ] in
theorem map_name_filterMap_sublist (value : ρ → Option τ) (entries : List (String × ρ)) :
    ((entries.filterMap (positive value)).map ProcessRate.name).Sublist
      (entries.map Prod.fst) := by
  induction entries with
  | nil => exact List.Sublist.refl _
  | cons entry entries ih =>
    rw [List.map_cons]
    cases hpositive : positive value entry with
    | none =>
      rw [List.filterMap_cons_none hpositive]
      exact ih.cons entry.1
    | some process =>
      -- an entry with a positive rate keeps its name
      have hname : process.name = entry.1 := by
        obtain ⟨bps, -, hbps⟩ := Option.bind_eq_some_iff.mp hpositive
        split_ifs at hbps
        rw [← Option.some.inj hbps]
      rw [List.filterMap_cons_some hpositive, List.map_cons, hname]
      exact ih.cons_cons entry.1

/-- Each process has one rate. -/
theorem nodup_names_sortedTraffic :
    ((sortedTraffic value order connections).map ProcessRate.name).Nodup := by
  have hperm := (List.perm_insertionSort
    (fun a b : ProcessRate ρ τ => OrderDual.toDual a.bps ≤ OrderDual.toDual b.bps)
    (((processTraffic connections).entriesIn order).filterMap (positive value))).map
      ProcessRate.name
  apply hperm.nodup_iff.mpr
  apply List.Nodup.sublist (map_name_filterMap_sublist value _)
  exact AList.nodup_keys_entriesIn order (processTraffic connections)

/-- How many have more traffic. -/
theorem length_busier (order : IterOrder String) {bps : τ} (hpos : 0 < bps) :
    ((sortedTraffic value order connections).filter fun other => bps < other.bps).length =
      (busier value connections bps).length := by
  -- both lists have the same names, each of them once
  rw [← List.length_map ProcessRate.name]
  apply List.Perm.length_eq
  apply (List.perm_ext_iff_of_nodup ?_ ?_).mpr
  · intro name
    simp only [busier, List.mem_map, List.mem_filter, decide_eq_true_eq, List.mem_dedup,
      Option.any_eq_true]
    constructor
    · rintro ⟨process, ⟨hprocess, hlt⟩, rfl⟩
      obtain ⟨hname, hrate, hvalue, -⟩ := mem_sortedTraffic.mp hprocess
      exact ⟨hname, process.bps, hrate ▸ hvalue, hlt⟩
    · rintro ⟨hname, other, hvalue, hlt⟩
      refine ⟨⟨name, trafficOf connections name, other⟩, ⟨?_, hlt⟩, rfl⟩
      exact mem_sortedTraffic.mpr ⟨hname, rfl, hvalue, hpos.trans hlt⟩
  · exact List.Nodup.sublist (List.filter_sublist.map _) nodup_names_sortedTraffic
  · exact (List.nodup_dedup _).filter _

theorem stablySorted_sortedTraffic (value : ρ → Option τ) (order : IterOrder String)
    (connections : List (ListedConnection ρ)) :
    StablySorted (fun process : ProcessRate ρ τ => OrderDual.toDual process.bps)
      (((processTraffic connections).entriesIn order).filterMap (positive value))
      (sortedTraffic value order connections) :=
  SliceSort.stablySorted_insertionSort _ _

/-- Which processes are among the first five, in some order of the iteration: those with fewer than
five before them. -/
theorem exists_mem_take_iff :
    (∃ order, ∃ process ∈ (sortedTraffic value order connections).take 5, process.name = name) ↔
      (∃ conn ∈ connections, conn.trafficName = name) ∧
        ∃ bps, value (trafficOf connections name) = some bps ∧ 0 < bps ∧
          (busier value connections bps).length < 5 := by
  constructor
  · rintro ⟨order, process, hprocess, rfl⟩
    obtain ⟨hname, hrate, hvalue, hpos⟩ := mem_sortedTraffic.mp (List.mem_of_mem_take hprocess)
    refine ⟨hname, process.bps, hrate ▸ hvalue, hpos, ?_⟩
    have hsorted := stablySorted_sortedTraffic value order connections
    have hfew := hsorted.length_lt_of_mem_take hprocess
    rw [← hsorted.length_filter] at hfew
    rw [← length_busier order hpos]
    exact hfew
  · rintro ⟨hname, bps, hvalue, hpos, hfew⟩
    have hlookup : (processTraffic connections).lookup name = some (trafficOf connections name) := by
      rw [lookup_processTraffic, if_pos hname]
    -- if the process comes first, none with the same rate comes before it
    obtain ⟨rest, hfirst⟩ := AList.entriesIn_first hlookup
    refine ⟨IterOrder.first name, ⟨name, trafficOf connections name, bps⟩, ?_, rfl⟩
    have hsorted := stablySorted_sortedTraffic value (IterOrder.first name) connections
    have hpositive : positive value (name, trafficOf connections name) =
        some ⟨name, trafficOf connections name, bps⟩ := by
      rw [positive, hvalue, Option.bind_some, if_pos hpos]
    apply hsorted.mem_take
    · rw [hfirst, List.filterMap_cons_some hpositive, List.filter_cons_of_pos (by simp),
        List.head?_cons]
    · rw [← hsorted.length_filter]
      rw [← length_busier (IterOrder.first name) hpos] at hfew
      exact hfew

end TopProcesses

/-! ## What is drawn -/

namespace TableView

section Rows

variable {ρ : Type} {view : TableView ρ}

/-- The cell shows the host name, or its start with the ellipsis, and the port; or the address. -/
def ShowsRemote (view : TableView ρ) (cut : Cut) (conn : Connection) (cell : String) : Prop :=
  match view.hostname conn with
  | some hostname => ∃ shown, Abbreviates cut.ellipsis hostname shown ∧
      cell = shown ++ ":" ++ toString conn.remoteAddr.port.toNat
  | none => cell = conn.remoteAddr.display

/-- The cells of a connection in the flat table. -/
structure FlatShows (view : TableView ρ) (conn : ListedConnection ρ) (cells : FlatCells) :
    Prop where
  process : Abbreviates processCut.ellipsis conn.processText cells.process
  service : Abbreviates "..." (if view.showPortNumbers then toString conn.remoteAddr.port.toNat
    else conn.serviceName.getD "-") cells.service
  remoteAddress : view.ShowsRemote view.flatCut conn.toConnection cells.remoteAddress

/-- The cells of a row in the grouped table. -/
def GroupedShows (view : TableView ρ) (row : GroupedRow ρ) (cells : GroupedCells) : Prop :=
  match row with
  | .group _ _ _ => True
  | .connection _ conn _ => view.ShowsRemote view.groupedCut conn.toConnection cells.remoteAddress

/-- A host name that is shown for the connection can be cut. -/
def HostnameFits (view : TableView ρ) (cut : Cut) (conn : Connection) : Prop :=
  ∀ hostname, view.hostname conn = some hostname → cut.Fits hostname

theorem ensures_remoteAddrDisplay_iff {cut : Cut} {conn : Connection} :
    Ensures (view.remoteAddrDisplay cut conn) (view.ShowsRemote cut conn) ↔
      view.HostnameFits cut conn := by
  unfold remoteAddrDisplay ShowsRemote HostnameFits
  cases view.hostname conn with
  | none => simp
  | some hostname =>
    simp only [ensures_bind_iff, ensures_pure_iff, Option.some.injEq, forall_eq']
    exact Cut.ensures_shorten_iff fun shown hshown => ⟨shown, hshown, rfl⟩

/-- The service name is cut by characters. -/
theorem abbreviates_serviceDisplay (conn : ListedConnection ρ) :
    Abbreviates "..." (if view.showPortNumbers then toString conn.remoteAddr.port.toNat
      else conn.serviceName.getD "-") (view.serviceDisplay conn) := by
  unfold serviceDisplay
  split_ifs
  · exact Or.inl rfl
  · dsimp only
    split_ifs
    · refine Or.inr ⟨String.ofList ((conn.serviceName.getD "-").toList.take 5), ?_, rfl⟩
      rw [String.toList_ofList]
      exact List.take_prefix 5 _
    · exact Or.inl rfl

theorem ensures_flatRow_iff {conn : ListedConnection ρ} :
    Ensures (view.flatRow conn) (view.FlatShows conn) ↔
      processCut.Fits conn.processText ∧ view.HostnameFits view.flatCut conn.toConnection := by
  rw [flatRow, ensures_bind_iff]
  simp only [ensures_bind_iff, ensures_pure_iff]
  -- the process is cut first, and then the remote address
  constructor
  · intro h
    have hprocess : processCut.Fits conn.processText := Cut.fits_of_ensures h
    obtain ⟨process, -, h⟩ := h
    refine ⟨hprocess, ensures_remoteAddrDisplay_iff.mp (h.mono fun cell hcell => ?_)⟩
    exact hcell.remoteAddress
  · rintro ⟨hprocess, hremote⟩
    refine (Cut.ensures_shorten hprocess).mono fun process habbreviates => ?_
    refine (ensures_remoteAddrDisplay_iff.mpr hremote).mono fun cell hcell => ?_
    exact ⟨habbreviates, abbreviates_serviceDisplay conn, hcell⟩

theorem ensures_groupedRow_iff {row : GroupedRow ρ} :
    Ensures (view.groupedRow row) (view.GroupedShows row) ↔
      ∀ name conn isLast, .connection name conn isLast = row →
        view.HostnameFits view.groupedCut conn.toConnection := by
  cases row with
  -- a header has no host name in it
  | group name stats expanded =>
    refine iff_of_true (ensures_pure trivial) ?_
    intro _ _ _ heq
    cases heq
  | connection name conn isLast =>
    have hrow : Ensures (view.groupedRow (.connection name conn isLast))
        (view.GroupedShows (.connection name conn isLast)) ↔
        view.HostnameFits view.groupedCut conn.toConnection := by
      rw [groupedRow, ensures_bind_iff, ← ensures_remoteAddrDisplay_iff]
      simp only [ensures_pure_iff, GroupedShows]
    rw [hrow]
    constructor
    · intro h _ _ _ heq
      cases heq
      exact h
    · exact fun h => h name conn isLast rfl

end Rows

section

variable {ρ τ : Type} [Zero ρ] [Add ρ] [LinearOrder τ] [Zero τ] {view : TableView ρ}
  {value : ρ → Option τ}

/-- The top processes are drawn in every order of the iteration exactly if the names that can be
among them can be cut. -/
theorem ensures_top_iff :
    (∀ order, Ensures (topProcesses value order view.connections)
      (List.Forall₂ (fun process row => Abbreviates topProcessCut.ellipsis process.name row.1)
        ((sortedTraffic value order view.connections).take 5))) ↔
      ∀ conn ∈ view.connections, ∀ bps,
        value (trafficOf view.connections conn.trafficName) = some bps → 0 < bps →
          (busier value view.connections bps).length < 5 →
            topProcessCut.Fits conn.trafficName := by
  -- a row is drawn exactly if the name can be cut
  have hrow : ∀ process : ProcessRate ρ τ, Ensures (do
      let displayName ← topProcessCut.shorten process.name
      return (displayName, process.rate))
      (fun row => Abbreviates topProcessCut.ellipsis process.name row.1) ↔
        topProcessCut.Fits process.name := by
    intro process
    rw [ensures_bind_iff]
    simp only [ensures_pure_iff]
    exact Cut.ensures_shorten_iff fun _ h => h
  unfold topProcesses
  simp only [ensures_mapM_iff, hrow]
  constructor
  · intro h conn hconn bps hvalue hpos hfew
    obtain ⟨order, process, hprocess, hname⟩ :=
      exists_mem_take_iff.mpr ⟨⟨conn, hconn, rfl⟩, bps, hvalue, hpos, hfew⟩
    rw [← hname]
    exact h order process hprocess
  · intro h order process hprocess
    obtain ⟨⟨conn, hconn, hname⟩, bps, hvalue, hpos, hfew⟩ :=
      exists_mem_take_iff.mp ⟨order, process, hprocess, rfl⟩
    rw [← hname] at hvalue ⊢
    exact h conn hconn bps hvalue hpos hfew

variable [TextEngine]

/-- The rows are drawn, in whatever order the hash maps are iterated, and where a text does not fit
its start is shown, with the ellipsis. -/
structure Drawn (view : TableView ρ) (value : ρ → Option τ) : Prop where
  flat : Ensures view.flatRows (List.Forall₂ view.FlatShows
    (shownRows view.connections view.scrollOffset view.visibleRows))
  grouped : ∀ order, Ensures (view.groupedRows order) (List.Forall₂ view.GroupedShows
    (shownRows (view.grouping order) view.groupedScrollOffset view.visibleRows))
  top : ∀ order, Ensures (topProcesses value order view.connections)
    (List.Forall₂ (fun process row => Abbreviates topProcessCut.ellipsis process.name row.1)
      ((sortedTraffic value order view.connections).take 5))

/-- The texts on the screen can be cut. -/
structure Fits (view : TableView ρ) (value : ρ → Option τ) : Prop where
  flat : ∀ conn ∈ shownRows view.connections view.scrollOffset view.visibleRows,
    processCut.Fits conn.processText ∧ view.HostnameFits view.flatCut conn.toConnection
  grouped : ∀ order, ∀ name conn isLast, .connection name conn isLast ∈
      shownRows (view.grouping order) view.groupedScrollOffset view.visibleRows →
    view.HostnameFits view.groupedCut conn.toConnection
  /-- A name that fewer than five others have more traffic than. -/
  top : ∀ conn ∈ view.connections, ∀ bps,
    value (trafficOf view.connections conn.trafficName) = some bps → 0 < bps →
      (busier value view.connections bps).length < 5 → topProcessCut.Fits conn.trafficName

/-- All tables are drawn exactly if each text on the screen that is too long has a character
boundary where it is cut. The code cuts at bytes, and a slice that is not at a boundary panics. The
texts are those in the window of either table and the five names with the most traffic, whatever the
order in which the hash maps are iterated. -/
theorem drawn_iff (view : TableView ρ) (value : ρ → Option τ) :
    view.Drawn value ↔ view.Fits value := by
  -- each table is drawn exactly if its own texts can be cut
  have hflat : Ensures view.flatRows (List.Forall₂ view.FlatShows
      (shownRows view.connections view.scrollOffset view.visibleRows)) ↔
      ∀ conn ∈ shownRows view.connections view.scrollOffset view.visibleRows,
        processCut.Fits conn.processText ∧
          view.HostnameFits view.flatCut conn.toConnection := by
    rw [flatRows, window_eq, pure_bind', ensures_mapM_iff]
    simp only [ensures_flatRow_iff]
  have hgrouped : ∀ order, Ensures (view.groupedRows order) (List.Forall₂ view.GroupedShows
      (shownRows (view.grouping order) view.groupedScrollOffset view.visibleRows)) ↔
      ∀ name conn isLast, .connection name conn isLast ∈
          shownRows (view.grouping order) view.groupedScrollOffset view.visibleRows →
        view.HostnameFits view.groupedCut conn.toConnection := by
    intro order
    rw [groupedRows, window_eq, pure_bind', ensures_mapM_iff]
    simp only [ensures_groupedRow_iff]
    constructor
    · exact fun h name conn isLast hrow => h _ hrow name conn isLast rfl
    · rintro h row hrow name conn isLast rfl
      exact h name conn isLast hrow
  constructor
  · rintro ⟨flat, grouped, top⟩
    exact ⟨hflat.mp flat, fun order => (hgrouped order).mp (grouped order), ensures_top_iff.mp top⟩
  · rintro ⟨flat, grouped, top⟩
    exact ⟨hflat.mpr flat, fun order => (hgrouped order).mpr (grouped order),
      ensures_top_iff.mpr top⟩

end

/-- A process whose name has a character of two bytes at the cut. -/
def sampleTable : TableView ℕ where
  connections :=
    [{ Connection.new .tcp (.lan 1 5000) (.lan 2 443) (.tcp .established) .unixEpoch ⟨0⟩ with
        processName := some "Moniteur de connexionés 2"
        currentIncomingRateBps := 0
        currentOutgoingRateBps := 0
        serviceName := none
        geoipInfo := none }]
  expandedGroups := ∅
  dnsResolver := none
  showHostnames := false
  showPortNumbers := false
  showHistoric := false
  scrollOffset := 0
  groupedScrollOffset := 0
  visibleRows := 10

/-- Drawing the flat table panics. -/
theorem sampleTable_not_drawn :
    letI : TextEngine := .plain
    sampleTable.flatRows = throw (.range 0 22 26) ∧ ¬ sampleTable.Drawn some := by
  let _ : TextEngine := .plain
  have hpanic : sampleTable.flatRows = throw (.range 0 22 26) := rfl
  refine ⟨hpanic, fun hdrawn => ?_⟩
  obtain ⟨rows, hrows, -⟩ := hdrawn.flat
  rw [hpanic] at hrows
  cases hrows

end TableView

end RustNet

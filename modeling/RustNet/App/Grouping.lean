import Mathlib.Data.List.Sort
import Mathlib.Data.String.Basic
import RustNet.App.Filter
import RustNet.Foundations.SortedIteration

/-!
# Connections grouped by process

`compute_grouped_rows` files the connections under the names of their processes, in a hash map,
and sorts the groups by the name in lower case. The groups partition the connections in whatever
order the map is iterated. Two names that differ in case alone have the same sort key, and their
groups the order of the iteration: the rows jump from one refresh to the next.

The rates are floating-point numbers. They are added up in the order of the connections, and
nothing here depends on how, so that they are of any type with a zero and an addition.

## Main definitions

* `computeGroupedRows`;
* `Partitions`: what rows are to have of the connections.

## Main results

* `partitions_computeGroupedRows`: the groups partition the connections;
* `computeGroupedRows_iff`: the rows do not depend on the iteration order exactly if no two names
  differ in case alone.
-/

namespace RustNet

open TextEngine

/-- A connection with its current rates. -/
structure RatedConnection (ρ : Type) extends Connection where
  currentIncomingRateBps : ρ
  currentOutgoingRateBps : ρ

/-- `ProcessGroupStats`: what the row of a group counts and adds up. -/
structure ProcessGroupStats (ρ : Type) where
  connectionCount : ℕ
  historicCount : ℕ
  tcpCount : ℕ
  udpCount : ℕ
  totalIncomingRateBps : ρ
  totalOutgoingRateBps : ρ

/-- `GroupedRow`: a row for a group, or for a connection of a group that is expanded. -/
inductive GroupedRow (ρ : Type)
  | group (processName : String) (stats : ProcessGroupStats ρ) (expanded : Bool)
  | connection (processName : String) (connection : RatedConnection ρ) (isLastInGroup : Bool)

variable {ρ : Type}

/-- The name that a connection is grouped under. -/
def RatedConnection.groupName (conn : RatedConnection ρ) : String :=
  conn.processName.getD "<unknown>"

namespace ProcessGroupStats

variable [Zero ρ] [Add ρ]

/-- One more connection. A historic one counts for nothing else. -/
def count (stats : ProcessGroupStats ρ) (conn : RatedConnection ρ) : ProcessGroupStats ρ :=
  if conn.isHistoric then { stats with historicCount := stats.historicCount + 1 }
  else
    { stats with
      connectionCount := stats.connectionCount + 1
      tcpCount := if conn.protocol = .tcp then stats.tcpCount + 1 else stats.tcpCount
      udpCount := if conn.protocol = .udp then stats.udpCount + 1 else stats.udpCount
      totalIncomingRateBps := stats.totalIncomingRateBps + conn.currentIncomingRateBps
      totalOutgoingRateBps := stats.totalOutgoingRateBps + conn.currentOutgoingRateBps }

/-- The statistics of a group. -/
def ofConnections (conns : List (RatedConnection ρ)) : ProcessGroupStats ρ :=
  conns.foldl count ⟨0, 0, 0, 0, 0, 0⟩

end ProcessGroupStats

/-- The connections by the name of their process, as the hash map collects them: each group in the
order of the list. -/
def groupsOf (connections : List (RatedConnection ρ)) :
    AList fun _ : String => List (RatedConnection ρ) :=
  connections.foldl (fun groups conn => groups.push conn.groupName conn) ∅

/-- The rows of a group. -/
def groupRows (expandedGroups : Finset String) (name : String) (stats : ProcessGroupStats ρ)
    (conns : List (RatedConnection ρ)) : List (GroupedRow ρ) :=
  .group name stats (decide (name ∈ expandedGroups)) ::
    if name ∈ expandedGroups then
      conns.zipIdx.map fun conn => .connection name conn.1 (conn.2 == conns.length - 1)
    else []

/-- `compute_grouped_rows`, with the hash map iterated in `order`. -/
def computeGroupedRows [TextEngine] [Zero ρ] [Add ρ] (order : IterOrder String)
    (connections : List (RatedConnection ρ)) (expandedGroups : Finset String) :
    List (GroupedRow ρ) :=
  let groupStats := ((groupsOf connections).entriesIn order).map fun e =>
    (e.1, ProcessGroupStats.ofConnections e.2, e.2)
  -- the sort is stable: groups with the same key stay in the order of the iteration
  let sorted := groupStats.insertionSort fun a b => toLowercase a.1 ≤ toLowercase b.1
  sorted.flatMap fun g => groupRows expandedGroups g.1 g.2.1 g.2.2

/-! ## What the rows show -/

namespace GroupedRow

/-- The name and the statistics of a group row. -/
def header : GroupedRow ρ → Option (String × ProcessGroupStats ρ)
  | group processName stats _ => some (processName, stats)
  | connection _ _ _ => none

/-- The connection of a row under a name. -/
def connectionUnder (name : String) : GroupedRow ρ → Option (RatedConnection ρ)
  | group _ _ _ => none
  | connection processName conn _ => if processName = name then some conn else none

end GroupedRow

@[simp]
theorem GroupedRow.connectionUnder_group (name processName : String) (stats : ProcessGroupStats ρ)
    (expanded : Bool) : (group processName stats expanded).connectionUnder name = none := rfl

@[simp]
theorem GroupedRow.connectionUnder_connection (name processName : String)
    (conn : RatedConnection ρ) (isLast : Bool) :
    (connection processName conn isLast).connectionUnder name =
      if processName = name then some conn else none := rfl

/-- The rows of the groups among the rows, with their names and counts. -/
def headers (rows : List (GroupedRow ρ)) : List (String × ProcessGroupStats ρ) :=
  rows.filterMap GroupedRow.header

/-- The connections shown under a name. -/
def shownUnder (rows : List (GroupedRow ρ)) (name : String) : List (RatedConnection ρ) :=
  rows.filterMap (GroupedRow.connectionUnder name)

/-- The connections of a group, in the order of the input. -/
def ofGroup (connections : List (RatedConnection ρ)) (name : String) : List (RatedConnection ρ) :=
  connections.filter fun conn => decide (conn.groupName = name)

/-- Every connection is counted in one group, and an expanded group shows its connections in the
order of the input. -/
structure Partitions (connections : List (RatedConnection ρ)) (expandedGroups : Finset String)
    (rows : List (GroupedRow ρ)) : Prop where
  /-- No name has two groups. -/
  nodup : ((headers rows).map Prod.fst).Nodup
  /-- The groups are those of the connections. -/
  mem_iff : ∀ name, name ∈ (headers rows).map Prod.fst ↔
    ∃ conn ∈ connections, conn.groupName = name
  /-- A group counts its active connections. -/
  active : ∀ name stats, (name, stats) ∈ headers rows →
    stats.connectionCount = (ofGroup connections name).countP fun conn => !conn.isHistoric
  /-- And its historic ones. -/
  historic : ∀ name stats, (name, stats) ∈ headers rows →
    stats.historicCount = (ofGroup connections name).countP fun conn => conn.isHistoric
  /-- The counts add up to all connections. -/
  sum_eq : ((headers rows).map fun h => h.2.connectionCount + h.2.historicCount).sum =
    connections.length
  /-- A group shows its connections in order, if it is expanded. -/
  shownUnder_eq : ∀ name, shownUnder rows name =
    if name ∈ expandedGroups then ofGroup connections name else []

/-- No two names of groups differ in case alone. -/
def NoTies [TextEngine] (connections : List (RatedConnection ρ)) : Prop :=
  ∀ c ∈ connections, ∀ c' ∈ connections,
    toLowercase c.groupName = toLowercase c'.groupName → c.groupName = c'.groupName

/-! ## The statistics of a group -/

namespace ProcessGroupStats

section Fold

variable [Add ρ] {conns : List (RatedConnection ρ)}

theorem connectionCount_foldl_count (stats : ProcessGroupStats ρ) :
    (conns.foldl count stats).connectionCount =
      stats.connectionCount + conns.countP fun conn => !conn.isHistoric := by
  induction conns generalizing stats with
  | nil => rfl
  | cons conn conns ih =>
    rw [List.foldl_cons, ih, List.countP_cons, count]
    cases conn.isHistoric <;> simp +arith

theorem historicCount_foldl_count (stats : ProcessGroupStats ρ) :
    (conns.foldl count stats).historicCount =
      stats.historicCount + conns.countP fun conn => conn.isHistoric := by
  induction conns generalizing stats with
  | nil => rfl
  | cons conn conns ih =>
    rw [List.foldl_cons, ih, List.countP_cons, count]
    cases conn.isHistoric <;> simp +arith

end Fold

variable [Zero ρ] [Add ρ] {conns : List (RatedConnection ρ)}

theorem connectionCount_ofConnections :
    (ofConnections conns).connectionCount = conns.countP fun conn => !conn.isHistoric := by
  simp [ofConnections, connectionCount_foldl_count]

theorem historicCount_ofConnections :
    (ofConnections conns).historicCount = conns.countP fun conn => conn.isHistoric := by
  simp [ofConnections, historicCount_foldl_count]

/-- A connection is either active or historic. -/
theorem connectionCount_add_historicCount :
    (ofConnections conns).connectionCount + (ofConnections conns).historicCount = conns.length := by
  rw [connectionCount_ofConnections, historicCount_ofConnections, add_comm]
  simpa using (List.length_eq_countP_add_countP fun conn : RatedConnection ρ =>
    conn.isHistoric).symm

end ProcessGroupStats

/-! ## The groups -/

section Groups

variable {connections conns : List (RatedConnection ρ)} {name : String}

theorem groupsOf_eq_pushAll :
    groupsOf connections = (∅ : AList fun _ : String => List (RatedConnection ρ)).pushAll
      (connections.map fun conn => (conn.groupName, conn)) := by
  rw [groupsOf, AList.pushAll, List.foldl_map]

theorem ofGroup_eq : ofGroup connections name =
    ((connections.map fun conn => (conn.groupName, conn)).filter
      fun row => decide (row.1 = name)).map Prod.snd := by
  simp [ofGroup, List.filter_map, Function.comp_def]

theorem lookup_groupsOf_eq_some_iff :
    (groupsOf connections).lookup name = some conns ↔
      (∃ conn ∈ connections, conn.groupName = name) ∧ conns = ofGroup connections name := by
  rw [groupsOf_eq_pushAll, AList.lookup_pushAll_eq_some_iff, ofGroup_eq]
  simp

theorem mem_groupsOf :
    name ∈ groupsOf connections ↔ ∃ conn ∈ connections, conn.groupName = name := by
  rw [AList.mem_iff_exists_lookup]
  simp [lookup_groupsOf_eq_some_iff]

theorem valuesAt_groupsOf : (groupsOf connections).valuesAt name = ofGroup connections name := by
  rw [groupsOf_eq_pushAll, AList.valuesAt_pushAll, ofGroup_eq, AList.valuesAt, AList.lookup_empty]
  rfl

theorem total_length_groupsOf : (groupsOf connections).total List.length = connections.length := by
  simp [groupsOf_eq_pushAll, AList.total_length_pushAll]

theorem noTies_iff [TextEngine] : NoTies connections ↔
    ∀ name ∈ groupsOf connections, ∀ name' ∈ groupsOf connections,
      toLowercase name = toLowercase name' → name = name' := by
  simp [NoTies, mem_groupsOf]

end Groups

/-! ## The rows -/

section Rows

variable {expandedGroups : Finset String} {name name' : String} {stats : ProcessGroupStats ρ}
  {conns connections : List (RatedConnection ρ)}

theorem headers_groupRows :
    headers (groupRows expandedGroups name stats conns) = [(name, stats)] := by
  unfold headers groupRows
  split_ifs <;> simp [GroupedRow.header, Function.comp_def]

theorem shownUnder_groupRows : shownUnder (groupRows expandedGroups name' stats conns) name =
    if name' = name then if name ∈ expandedGroups then conns else [] else [] := by
  unfold shownUnder groupRows
  rw [List.filterMap_cons_none (GroupedRow.connectionUnder_group ..)]
  -- the connections of a group stand under its own name only
  by_cases hname : name' = name
  · subst hname
    rw [if_pos rfl]
    split_ifs with hexpanded
    · simp [List.filterMap_map, Function.comp_def]
    · rfl
  · rw [if_neg hname]
    split_ifs with hexpanded
    · simp [List.filterMap_map, Function.comp_def, hname]
    · rfl

variable [TextEngine] [Zero ρ] [Add ρ] {order : IterOrder String}

/-- The rows are those of the groups, sorted. -/
theorem computeGroupedRows_eq : computeGroupedRows order connections expandedGroups =
    ((groupsOf connections).sortedIn toLowercase order).flatMap fun e =>
      groupRows expandedGroups e.1 (.ofConnections e.2) e.2 := by
  -- the statistics are no part of the sort key
  have hsorted := List.map_insertionSort
    (fun a b : String × List (RatedConnection ρ) => toLowercase a.1 ≤ toLowercase b.1)
    (fun a b : String × ProcessGroupStats ρ × List (RatedConnection ρ) =>
      toLowercase a.1 ≤ toLowercase b.1)
    (fun e => (e.1, .ofConnections e.2, e.2)) ((groupsOf connections).entriesIn order)
    fun _ _ _ _ => Iff.rfl
  rw [AList.sortedIn, computeGroupedRows, ← hsorted, List.flatMap_map]

theorem headers_computeGroupedRows :
    headers (computeGroupedRows order connections expandedGroups) =
      ((groupsOf connections).sortedIn toLowercase order).map fun e =>
        (e.1, .ofConnections e.2) := by
  rw [computeGroupedRows_eq, headers, List.filterMap_flatMap, List.map_eq_flatMap]
  exact List.flatMap_congr fun _ _ => headers_groupRows

theorem names_computeGroupedRows :
    (headers (computeGroupedRows order connections expandedGroups)).map Prod.fst =
      ((groupsOf connections).sortedIn toLowercase order).map Prod.fst := by
  rw [headers_computeGroupedRows, List.map_map]
  rfl

theorem mem_headers_computeGroupedRows :
    (name, stats) ∈ headers (computeGroupedRows order connections expandedGroups) ↔
      (∃ conn ∈ connections, conn.groupName = name) ∧
        stats = .ofConnections (ofGroup connections name) := by
  rw [headers_computeGroupedRows, List.mem_map]
  constructor
  · rintro ⟨⟨_, _⟩, hmem, heq⟩
    obtain ⟨rfl, rfl⟩ := Prod.mk.inj heq
    obtain ⟨hname, rfl⟩ := lookup_groupsOf_eq_some_iff.mp (AList.mem_sortedIn.mp hmem)
    exact ⟨hname, rfl⟩
  · rintro ⟨hname, rfl⟩
    refine ⟨(name, ofGroup connections name), AList.mem_sortedIn.mpr ?_, rfl⟩
    exact lookup_groupsOf_eq_some_iff.mpr ⟨hname, rfl⟩

theorem shownUnder_computeGroupedRows :
    shownUnder (computeGroupedRows order connections expandedGroups) name =
      if name ∈ expandedGroups then ofGroup connections name else [] := by
  have hrows : ∀ e : String × List (RatedConnection ρ),
      (groupRows expandedGroups e.1 (.ofConnections e.2) e.2).filterMap
          (GroupedRow.connectionUnder name) =
        if e.1 = name then if name ∈ expandedGroups then e.2 else [] else [] :=
    fun _ => shownUnder_groupRows
  rw [computeGroupedRows_eq, shownUnder, List.filterMap_flatMap]
  simp only [hrows]
  -- only the group of that name has any
  rw [AList.flatMap_sortedIn fun conns => if name ∈ expandedGroups then conns else [],
    ← valuesAt_groupsOf, AList.valuesAt]
  cases (groupsOf connections).lookup name <;> simp

/-- In whatever order the map is iterated, the groups partition the connections. -/
theorem partitions_computeGroupedRows : Partitions connections expandedGroups
    (computeGroupedRows order connections expandedGroups) where
  nodup := by
    rw [names_computeGroupedRows]
    exact AList.nodup_keys_sortedIn _ _ _
  mem_iff name := by
    simp [mem_headers_computeGroupedRows]
  active name stats hmem := by
    obtain ⟨-, rfl⟩ := mem_headers_computeGroupedRows.mp hmem
    exact ProcessGroupStats.connectionCount_ofConnections
  historic name stats hmem := by
    obtain ⟨-, rfl⟩ := mem_headers_computeGroupedRows.mp hmem
    exact ProcessGroupStats.historicCount_ofConnections
  -- the groups partition the connections, and the order of the groups does not matter
  sum_eq := by
    rw [headers_computeGroupedRows, List.map_map, ← total_length_groupsOf,
      ← AList.sum_sortedIn toLowercase List.length order]
    exact congrArg List.sum (List.map_congr_left fun e _ =>
      ProcessGroupStats.connectionCount_add_historicCount)
  shownUnder_eq name := shownUnder_computeGroupedRows

end Rows

/-- The rows are the same in every iteration order, and partition the connections, exactly if no two
names of groups differ in case alone. The groups come out of a hash map and are sorted by their
lowered names, with a sort that is stable; so names that are lowered to one stay in the order of the
map. -/
theorem computeGroupedRows_iff [TextEngine] [Zero ρ] [Add ρ]
    (connections : List (RatedConnection ρ)) (expandedGroups : Finset String) :
    ((∀ order order', computeGroupedRows order connections expandedGroups =
          computeGroupedRows order' connections expandedGroups) ∧
        ∀ order, Partitions connections expandedGroups
          (computeGroupedRows order connections expandedGroups)) ↔
      NoTies connections := by
  rw [noTies_iff]
  constructor
  · rintro ⟨hrows, -⟩
    -- the same rows have the same names, in the same order
    have hnames : ∀ order order' : IterOrder String,
        ((groupsOf connections).sortedIn toLowercase order).map Prod.fst =
          ((groupsOf connections).sortedIn toLowercase order').map Prod.fst := by
      intro order order'
      have := congrArg (fun rows => (headers rows).map Prod.fst) (hrows order order')
      simpa only [names_computeGroupedRows] using this
    exact AList.keys_sortedIn_eq_iff.mp hnames
  · refine fun h => ⟨fun order order' => ?_, fun order => partitions_computeGroupedRows⟩
    rw [computeGroupedRows_eq, computeGroupedRows_eq, AList.sortedIn_eq h order order']

/-- A connection of a process. -/
def sampleOf (processName : String) : RatedConnection ℕ :=
  { Connection.new .tcp (.lan 1 5000) (.lan 2 443) (.tcp .established) ⟨0⟩ ⟨0⟩ with
    processName := some processName
    currentIncomingRateBps := 0
    currentOutgoingRateBps := 0 }

/-- The groups of two programs, `Foo` and `foo`, change places. -/
theorem not_computeGroupedRows :
    letI : TextEngine := .plain
    ¬ ((∀ order order', computeGroupedRows order [sampleOf "Foo", sampleOf "foo"] ∅ =
          computeGroupedRows order' [sampleOf "Foo", sampleOf "foo"] ∅) ∧
        ∀ order, Partitions [sampleOf "Foo", sampleOf "foo"] ∅
          (computeGroupedRows order [sampleOf "Foo", sampleOf "foo"] ∅)) := by
  let _ : TextEngine := .plain
  rintro ⟨hrows, -⟩
  have hnames := congrArg (fun rows => (headers rows).map Prod.fst)
    (hrows (IterOrder.first "Foo") (IterOrder.first "foo"))
  exact absurd hnames (by decide +kernel)

end RustNet

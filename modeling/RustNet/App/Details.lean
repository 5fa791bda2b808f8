import RustNet.App.ClickRegions
import RustNet.App.DetailText
import RustNet.App.Selection
import RustNet.Foundations.Offsets

/-!
# Clicks on the details

The details tab draws the fields of the selected connection in one or two panes above its traffic
statistics, and registers a region for each field, by its place in the list of the fields, so that
a click copies it. Fields without a value are not copied, but for the statistics.

How a rectangle is split, where the text of a pane is, and how a line is wrapped is up to the
library that draws; `Toolkit` has its functions and `Toolkit.Documented` what they are to do.

## Main definitions

* `DetailsView.panes`: what is drawn, and `DetailsView.clicks`: what is registered;
* `DetailPane.Draws`: a line is drawn on the row of a cell.

## Main results

* `DetailsView.lines_sides`: what is in each of two columns. Only a blank line is in none;
* `DetailsView.length_paddedLabel`: all values start in one column;
* `DetailsView.hitTest_clicks`: what a click on the first row of a field does, if no line above is
  wider than the pane.
-/

namespace RustNet

/-! ## Drawing -/

/-- The functions of the library that draws. -/
structure Toolkit where
  /-- `Rect::inner`, with a margin of one. -/
  inner : Rect → Rect
  /-- `Block::inner` of a block with all borders: where a pane has its text. -/
  textArea : Rect → Rect
  /-- `Layout::split` into all but eight rows, and these. -/
  splitBottom : Rect → Rect × Rect
  /-- `Layout::split` into two halves, side by side. -/
  splitHalves : Rect → Rect × Rect
  /-- `Line::width`. -/
  lineWidth : List String → ℕ
  /-- How many rows of a width a line takes when it is wrapped. -/
  rows : ℕ → List String → ℕ

/-- What is left of an area inside a border: nothing, if it is too small. -/
def Rect.InsideBorder (area inner : Rect) : Prop :=
  if 2 ≤ area.width ∧ 2 ≤ area.height then
    inner = ⟨area.x + 1, area.y + 1, area.width - 2, area.height - 2⟩
  else ∀ column row, ¬ inner.Contains column row

/-- Two parts of an area that do not overlap. -/
structure Rect.Splits (area : Rect) (parts : Rect × Rect) : Prop where
  fst : ∀ column row, parts.1.Contains column row → area.Contains column row
  snd : ∀ column row, parts.2.Contains column row → area.Contains column row
  disjoint : parts.1.Disjoint parts.2

/-- What these functions are documented to do. A line takes more than one row only if it is wider
than the pane. -/
structure Toolkit.Documented (kit : Toolkit) : Prop where
  inner : ∀ area : Rect, area.InsideBorder (kit.inner area)
  textArea : ∀ area : Rect, area.InsideBorder (kit.textArea area)
  splitBottom : ∀ area : Rect, area.Splits (kit.splitBottom area)
  splitHalves : ∀ area : Rect, area.Splits (kit.splitHalves area)
  rows_eq_one : ∀ width line, kit.lineWidth line ≤ width → kit.rows width line = 1

namespace Toolkit.Documented

variable {kit : Toolkit} (hkit : kit.Documented) {area : Rect} {column row : ℕ}

include hkit

/-- The regions for the clicks are where the text is. -/
theorem inner_eq_textArea (h : (kit.textArea area).Contains column row) :
    kit.inner area = kit.textArea area := by
  have hinner := hkit.inner area
  have htext := hkit.textArea area
  unfold Rect.InsideBorder at hinner htext
  split_ifs at hinner htext
  · rw [hinner, htext]
  · exact absurd h (htext column row)

theorem contains_of_inner (h : (kit.inner area).Contains column row) :
    area.Contains column row := by
  have hinner := hkit.inner area
  unfold Rect.InsideBorder at hinner
  split_ifs at hinner with hsize
  · rw [hinner] at h
    obtain ⟨hleft, hright, htop, hbottom⟩ := h
    simp only [] at hleft hright htop hbottom
    exact ⟨by omega, by omega, by omega, by omega⟩
  · exact absurd h (hinner column row)

end Toolkit.Documented

/-- `DETAILS_SPLIT_MIN_WIDTH`: from this width on the details are drawn in two columns. -/
def detailsSplitMinWidth : ℕ := 100

/-- A pane: its area and text, and which values are not copied. -/
structure DetailPane where
  area : Rect
  text : DetailText
  skipPlaceholderValues : Bool

namespace DetailPane

variable (kit : Toolkit) (pane : DetailPane)

/-- The row on which the line behind others starts. -/
def firstRow (before : List DetailLine) : ℕ :=
  (kit.textArea pane.area).y +
    Offsets.extent (fun line => kit.rows (kit.textArea pane.area).width line.spans) before

/-- The line behind others is drawn on the row of a cell. -/
structure Draws (before : List DetailLine) (line : DetailLine) (column row : ℕ) : Prop where
  lines : ∃ after, pane.text.lines = before ++ line :: after
  inside : (kit.textArea pane.area).Contains column row
  top : pane.firstRow kit before ≤ row
  bottom : row < pane.firstRow kit before + kit.rows (kit.textArea pane.area).width line.spans

/-- The regions of a pane. -/
def registerClicks (clicks : ClickableRegions) : ClickableRegions :=
  ClickableRegions.registerDetailClicks (kit.inner pane.area) pane.skipPlaceholderValues 0
    pane.text.fields clicks

end DetailPane

/-- What the details tab is drawn from. -/
structure DetailsView (ρ : Type) where
  connections : List (ListedConnection ρ)
  uiState : UiState
  /-- What `get_hostname` returns, if names are resolved. -/
  dnsResolver : Option (IpAddr → Option String)
  wall : SystemTime
  formats : NumberFormats ρ
  area : Rect

namespace DetailsView

variable {ρ : Type} (view : DetailsView ρ) (conn : ListedConnection ρ)

/-- The host names, but not of ARP. -/
def hostnames : Option DetailSection :=
  if conn.protocol = .arp then none
  else view.dnsResolver.bind fun resolver =>
    if (resolver conn.localAddr.ip).isSome || (resolver conn.remoteAddr.ip).isSome then
      some ⟨"Hostnames", conn.hostnameEntries resolver⟩
    else none

def geolocation : Option DetailSection :=
  conn.geoipInfo.bind fun geoip =>
    if geoip.countryCode.isSome || geoip.asn.isSome || geoip.city.isSome then
      some ⟨"Geolocation", geoip.detailEntries⟩
    else none

def application : Option DetailSection :=
  conn.dpiInfo.map fun dpi =>
    ⟨"Application: " ++ dpi.application.display, dpi.application.detailEntries⟩

def arp : Option DetailSection :=
  match conn.protocolState with
  | .arp arpInfo => some ⟨"ARP", arpInfo.detailEntries⟩
  | _ => none

def metrics : Option DetailSection :=
  if conn.tcpAnalytics.isSome || conn.initialRtt.isSome then
    some ⟨"TCP Analytics", conn.metricEntries view.formats⟩
  else none

/-- The lines that are always on the left, or above. -/
def header : DetailText := DetailText.empty.pushEntries (conn.detailEntries view.wall)

/-- The lines of a connection, section by section. -/
def buffers : DetailBuffers :=
  (((((DetailBuffers.mk (view.header conn) []).pushLeft (view.hostnames conn)).pushLeft
    (geolocation conn)).pushRight (application conn)).pushLeft (arp conn)).pushRight
      (view.metrics conn)

/-- The lines of the traffic statistics, which have a pane of their own below the others. -/
def traffic : DetailText := DetailText.empty.pushEntries (conn.trafficEntries view.formats)

/-- The panes for a connection: two columns above the traffic statistics, if there is room. -/
def panesOf (kit : Toolkit) : List DetailPane :=
  let chunks := kit.splitBottom view.area
  let infoPanes :=
    if detailsSplitMinWidth ≤ chunks.1.width then
      let halves := kit.splitHalves chunks.1
      let sides := (view.buffers conn).sides
      [⟨halves.1, sides.1, true⟩, ⟨halves.2, sides.2, true⟩]
    else [⟨chunks.1, (view.buffers conn).toDetailText, true⟩]
  infoPanes ++ [⟨chunks.2, view.traffic conn, false⟩]

/-- The panes of `draw_connection_details`: those of the selected connection, or of the first. -/
def panes (kit : Toolkit) : List DetailPane :=
  let connIdx := (view.uiState.getSelectedIndex
    (view.connections.map ListedConnection.toRatedConnection)).getD 0
  match view.connections[connIdx]? with
  | some conn => view.panesOf conn kit
  | none => []

/-- The regions of `draw_connection_details`, registered pane by pane. -/
def clicks (kit : Toolkit) (before : ClickableRegions) : ClickableRegions :=
  (view.panes kit).foldl (fun clicks pane => pane.registerClicks kit clicks) before

/-! ## Which lines are where -/

/-- The lines before the first section that may move. -/
def leftLines : List DetailLine :=
  (view.header conn).lines ++ sectionLines (view.hostnames conn) ++ sectionLines (geolocation conn)

theorem lines_buffers : (view.buffers conn).lines = view.leftLines conn ++
    (sectionLines (application conn) ++
      (sectionLines (arp conn) ++ sectionLines (view.metrics conn))) := by
  simp only [buffers, leftLines, DetailBuffers.pushLeft, DetailBuffers.pushRight,
    DetailText.lines_pushSection, List.append_assoc]

/-- The ranges are those of the sections that move. -/
theorem rightRanges_buffers : (view.buffers conn).rightRanges =
    (if (application conn).isSome then
      [((view.leftLines conn).length,
        (view.leftLines conn).length + (sectionLines (application conn)).length)]
    else []) ++
      if (view.metrics conn).isSome then
        [((view.leftLines conn ++ sectionLines (application conn) ++
            sectionLines (arp conn)).length,
          (view.leftLines conn ++ sectionLines (application conn) ++
            sectionLines (arp conn)).length + (sectionLines (view.metrics conn)).length)]
      else [] := by
  simp only [buffers, leftLines, DetailBuffers.pushLeft, DetailBuffers.pushRight,
    DetailText.lines_pushSection, List.length_append]
  split_ifs <;> rfl

/-- Where there are two columns, the sections that move are in the second one, without the separator
on top, and all other lines are in the first. -/
theorem lines_sides :
    (view.buffers conn).sides.1.lines = view.leftLines conn ++ sectionLines (arp conn) ∧
      (view.buffers conn).sides.2.lines =
        (sectionLines (application conn) ++ sectionLines (view.metrics conn)).tail := by
  -- the lines in the order of the sections, the two that move marked off
  have hlines : (view.buffers conn).lines = (view.leftLines conn ++
      sectionLines (application conn) ++ sectionLines (arp conn)) ++
        (sectionLines (view.metrics conn) ++ []) := by
    rw [lines_buffers, List.append_nil, List.append_assoc, List.append_assoc]
  -- the ranges are drained from the last one on
  obtain ⟨sides, hsides, hrest, hmetrics⟩ := DetailBuffers.exists_drainRight _
    ((view.buffers conn).toDetailText, .empty) _ hlines
  obtain ⟨sides', hsides', hleft, happlication⟩ := DetailBuffers.exists_drainRight []
    sides (application conn) (by rw [hrest, List.append_nil, List.append_assoc])
  have hdrained : DetailBuffers.drainRight (view.buffers conn).rightRanges
      ((view.buffers conn).toDetailText, .empty) = sides' := by
    rw [rightRanges_buffers, hsides]
    exact hsides'
  have hright : sides'.2.lines =
      sectionLines (application conn) ++ sectionLines (view.metrics conn) := by
    rw [happlication, hmetrics]
    exact congrArg _ (List.append_nil _)
  rw [DetailBuffers.sides, hdrained]
  exact ⟨hleft, DetailBuffers.lines_trimStart hright⟩

/-! ## Labels -/

/-- The labels of all fields in the lines fit. -/
def LabelsFit (lines : List DetailLine) : Prop :=
  ∀ entry, .field entry ∈ lines → entry.label.length ≤ 20

theorem labelsFit_map {entries : List (Option DetailField)}
    (h : ∀ entry ∈ entries, LabelFits entry) :
    LabelsFit (entries.reduceOption.map .field) := by
  intro entry hentry
  obtain ⟨other, hother, heq⟩ := List.mem_map.mp hentry
  obtain rfl := DetailLine.field.inj heq
  exact h _ (List.reduceOption_mem_iff.mp hother) other rfl

theorem labelsFit_sectionLines {part : Option DetailSection}
    (h : ∀ present, part = some present → ∀ entry ∈ present.entries, LabelFits entry) :
    LabelsFit (sectionLines part) := by
  intro entry hentry
  cases part with
  | none => cases hentry
  | some part =>
    simp only [sectionLines, Option.map_some, Option.getD_some, DetailSection.lines,
      List.mem_cons, reduceCtorEq, false_or] at hentry
    exact labelsFit_map (h part rfl) entry hentry

theorem LabelsFit.append {lines other : List DetailLine} (h : LabelsFit lines)
    (hother : LabelsFit other) : LabelsFit (lines ++ other) := by
  intro entry hentry
  rcases List.mem_append.mp hentry with hentry | hentry
  · exact h entry hentry
  · exact hother entry hentry

theorem labelsFit_leftLines : LabelsFit (view.leftLines conn) := by
  unfold leftLines
  refine ((?_ : LabelsFit _).append (labelsFit_sectionLines ?_)).append (labelsFit_sectionLines ?_)
  -- the header, the host names and the location in turn
  · rw [header, DetailText.lines_pushEntries]
    exact labelsFit_map (conn.labelFits view.wall)
  · intro part hpart
    unfold hostnames at hpart
    split_ifs at hpart
    obtain ⟨resolver, -, hpart⟩ := Option.bind_eq_some_iff.mp hpart
    split_ifs at hpart
    obtain rfl := Option.some.inj hpart
    exact conn.labelFits_hostnameEntries resolver
  · intro part hpart
    obtain ⟨geoip, -, hpart⟩ := Option.bind_eq_some_iff.mp hpart
    split_ifs at hpart
    obtain rfl := Option.some.inj hpart
    exact geoip.labelFits

theorem labelsFit_application : LabelsFit (sectionLines (application conn)) := by
  apply labelsFit_sectionLines
  intro part hpart
  obtain ⟨dpi, -, rfl⟩ := Option.map_eq_some_iff.mp hpart
  exact dpi.application.labelFits

theorem labelsFit_arp : LabelsFit (sectionLines (arp conn)) := by
  apply labelsFit_sectionLines
  intro part hpart
  unfold arp at hpart
  split at hpart
  · obtain rfl := Option.some.inj hpart
    exact ArpInfo.labelFits _
  · cases hpart

theorem labelsFit_metrics : LabelsFit (sectionLines (view.metrics conn)) := by
  apply labelsFit_sectionLines
  intro part hpart
  unfold metrics at hpart
  split_ifs at hpart
  obtain rfl := Option.some.inj hpart
  exact conn.labelFits_metricEntries view.formats

theorem labelsFit_panesOf {kit : Toolkit} :
    ∀ pane ∈ view.panesOf conn kit, LabelsFit pane.text.lines := by
  have htraffic : LabelsFit (view.traffic conn).lines := by
    rw [traffic, DetailText.lines_pushEntries]
    exact labelsFit_map (conn.labelFits_trafficEntries view.formats)
  have hright := (labelsFit_application conn).append (labelsFit_metrics view conn)
  unfold panesOf
  dsimp only
  -- two columns, or one pane with everything
  split_ifs
  · simp only [List.cons_append, List.nil_append, List.forall_mem_cons, List.not_mem_nil,
      false_imp_iff, implies_true, and_true, lines_sides]
    refine ⟨(labelsFit_leftLines view conn).append (labelsFit_arp conn), ?_, htraffic⟩
    exact fun entry hentry => hright entry (List.mem_of_mem_tail hentry)
  · simp only [List.cons_append, List.nil_append, List.forall_mem_cons, List.not_mem_nil,
      false_imp_iff, implies_true, and_true, lines_buffers]
    exact ⟨(labelsFit_leftLines view conn).append ((labelsFit_application conn).append
      ((labelsFit_arp conn).append (labelsFit_metrics view conn))), htraffic⟩

/-- The values of all fields start in one column. -/
theorem length_paddedLabel {kit : Toolkit} {pane : DetailPane} (hpane : pane ∈ view.panes kit)
    {entry : DetailField} (hentry : .field entry ∈ pane.text.lines) :
    (paddedLabel entry.label).length = detailLabelWidth := by
  have hlabel : entry.label.length ≤ 20 := by
    unfold panes at hpane
    dsimp only at hpane
    split at hpane
    · exact labelsFit_panesOf view _ pane hpane entry hentry
    · cases hpane
  rw [paddedLabel, String.length_ofList, List.rightpad, List.length_append, List.length_replicate,
    String.length_toList, detailLabelWidth]
  omega

/-! ## What a click does -/

/-- Every click on a row of a field copies the field. -/
def ClicksCopy (kit : Toolkit) : Prop :=
  ∀ clicks, ∀ pane ∈ view.panes kit, ∀ {before : List DetailLine} {entry : DetailField}
    {column row : ℕ}, pane.Draws kit before (.field entry) column row →
      (view.clicks kit clicks).hitTest column row = some (.copyField entry)

variable {view conn} {kit : Toolkit} {column row : ℕ}

/-- The panes do not overlap. -/
theorem pairwise_panesOf (hkit : kit.Documented) :
    (view.panesOf conn kit).Pairwise fun a b => a.area.Disjoint b.area := by
  -- the area is cut twice, and each cut leaves two parts apart
  have hbottom := hkit.splitBottom view.area
  have hhalves := hkit.splitHalves (kit.splitBottom view.area).1
  unfold panesOf
  dsimp only
  split_ifs
  · simp only [List.cons_append, List.nil_append, List.pairwise_cons, List.forall_mem_cons,
      List.not_mem_nil, false_imp_iff, implies_true, and_true, List.Pairwise.nil]
    exact ⟨⟨hhalves.disjoint, fun column row h => hbottom.disjoint column row
      (hhalves.fst column row h)⟩, fun column row h => hbottom.disjoint column row
        (hhalves.snd column row h)⟩
  · simp only [List.cons_append, List.nil_append, List.pairwise_cons, List.forall_mem_cons,
      List.not_mem_nil, false_imp_iff, implies_true, and_true, List.Pairwise.nil]
    exact hbottom.disjoint

theorem pairwise_panes (view : DetailsView ρ) (hkit : kit.Documented) :
    (view.panes kit).Pairwise fun a b => a.area.Disjoint b.area := by
  unfold panes
  dsimp only
  split
  · exact pairwise_panesOf hkit
  · exact List.Pairwise.nil

/-- A click that is in none of the panes. -/
theorem hitTest_foldl_of_not {panes : List DetailPane} (clicks : ClickableRegions)
    (h : ∀ pane ∈ panes, ¬ (kit.inner pane.area).Contains column row) :
    (panes.foldl (fun clicks pane => pane.registerClicks kit clicks) clicks).hitTest column row =
      clicks.hitTest column row := by
  induction panes generalizing clicks with
  | nil => rfl
  | cons pane panes ih =>
    rw [List.foldl_cons, ih _ fun other hother => h other (List.mem_cons_of_mem _ hother)]
    exact ClickableRegions.hitTest_registerDetailClicks_of_not _ _
      (Or.inl (h pane List.mem_cons_self))

/-- A click on the row of a pane that has the number of a field's line. -/
theorem hitTest_registerClicks {pane : DetailPane} {before after : List DetailLine}
    {entry : DetailField} (clicks : ClickableRegions)
    (hlines : pane.text.lines = before ++ .field entry :: after)
    (hcell : (kit.inner pane.area).Contains column row)
    (hrow : row = (kit.inner pane.area).y + before.length) :
    (pane.registerClicks kit clicks).hitTest column row =
      if pane.skipPlaceholderValues && ClickableRegions.isPlaceholder entry.value then
        clicks.hitTest column row
      else some (.copyField entry) := by
  rw [DetailPane.registerClicks, pane.text.aligned, hlines, List.map_append, List.map_cons]
  apply ClickableRegions.hitTest_registerDetailClicks _ _ _ _ hcell
  rw [List.length_map]
  exact hrow

/-- A click on the first row of a field, where no line above is wider than the pane, copies the
field, unless it has no value and is above the traffic statistics.

`hdraws` says that the click is in the pane, on the row to which the field is drawn, with `before`
above it; `hfirst`, that this is the row which is registered for it. A line that is wider than the
pane is wrapped, and takes more rows than are counted for it: `hfit` excludes these above the field.
Of the toolkit only what is documented is assumed (`hkit`). -/
theorem hitTest_clicks (hkit : kit.Documented) {pane : DetailPane} (hpane : pane ∈ view.panes kit)
    {before : List DetailLine} {entry : DetailField}
    (hdraws : pane.Draws kit before (.field entry) column row)
    (hfit : ∀ line ∈ before, kit.lineWidth line.spans ≤ (kit.textArea pane.area).width)
    (hfirst : row = pane.firstRow kit before) (clicks : ClickableRegions) :
    (view.clicks kit clicks).hitTest column row =
      if pane.skipPlaceholderValues && ClickableRegions.isPlaceholder entry.value then
        clicks.hitTest column row
      else some (.copyField entry) := by
  obtain ⟨after, hlines⟩ := hdraws.lines
  have hinner := hkit.inner_eq_textArea hdraws.inside
  have hcell : (kit.inner pane.area).Contains column row := hinner ▸ hdraws.inside
  have hrow : row = (kit.inner pane.area).y + before.length := by
    rw [hfirst, DetailPane.firstRow, hinner, Offsets.extent_eq_length]
    exact fun line hline => hkit.rows_eq_one _ _ (hfit line hline)
  -- the cell is in no other pane
  obtain ⟨earlier, later, hpanes⟩ := List.append_of_mem hpane
  have hpairwise := pairwise_panes view hkit
  rw [hpanes, List.pairwise_append, List.pairwise_cons] at hpairwise
  obtain ⟨-, ⟨hlater, -⟩, hearlier⟩ := hpairwise
  have harea := hkit.contains_of_inner hcell
  have hmiss : ∀ other ∈ later, ¬ (kit.inner other.area).Contains column row :=
    fun other hother h => hlater other hother column row harea (hkit.contains_of_inner h)
  have hmiss' : ∀ other ∈ earlier, ¬ (kit.inner other.area).Contains column row :=
    fun other hother h => hearlier other hother pane List.mem_cons_self column row
      (hkit.contains_of_inner h) harea
  rw [DetailsView.clicks, hpanes, List.foldl_append, List.foldl_cons, hitTest_foldl_of_not _ hmiss,
    hitTest_registerClicks _ hlines hcell hrow, hitTest_foldl_of_not _ hmiss']

end DetailsView

/-! ## A pane -/

/-- The area inside a border. -/
def Rect.shrink (area : Rect) : Rect :=
  if 2 ≤ area.width ∧ 2 ≤ area.height then
    ⟨area.x + 1, area.y + 1, area.width - 2, area.height - 2⟩
  else ⟨0, 0, 0, 0⟩

/-- A toolkit that wraps lines at any character, where all are of width one. -/
def plainToolkit : Toolkit where
  inner := Rect.shrink
  textArea := Rect.shrink
  splitBottom area :=
    let bottom := min 8 area.height
    (⟨area.x, area.y, area.width, area.height - bottom⟩,
      ⟨area.x, area.y + (area.height - bottom), area.width, bottom⟩)
  splitHalves area :=
    let half := area.width / 2
    (⟨area.x, area.y, half, area.height⟩,
      ⟨area.x + half, area.y, area.width - half, area.height⟩)
  lineWidth line := (line.map String.length).sum
  rows width line := max 1 (((line.map String.length).sum + width - 1) / width)

theorem Rect.insideBorder_shrink (area : Rect) : area.InsideBorder area.shrink := by
  unfold InsideBorder shrink
  split_ifs
  · rfl
  · intro column row h
    obtain ⟨-, hright, -, -⟩ := h
    exact absurd hright (Nat.not_lt_zero column)

/-- It does what is documented. -/
theorem plainToolkit_documented : plainToolkit.Documented where
  inner := Rect.insideBorder_shrink
  textArea := Rect.insideBorder_shrink
  splitBottom area := by
    constructor
    · intro column row h
      simp only [plainToolkit, Rect.Contains] at h ⊢
      omega
    · intro column row h
      simp only [plainToolkit, Rect.Contains] at h ⊢
      omega
    · intro column row h
      simp only [plainToolkit, Rect.Contains] at h ⊢
      omega
  splitHalves area := by
    constructor
    · intro column row h
      simp only [plainToolkit, Rect.Contains] at h ⊢
      omega
    · intro column row h
      simp only [plainToolkit, Rect.Contains] at h ⊢
      omega
    · intro column row h
      simp only [plainToolkit, Rect.Contains] at h ⊢
      omega
  -- a line that fits the width takes one row, an empty one too
  rows_eq_one width line h := by
    apply max_eq_left
    rcases Nat.eq_zero_or_pos width with rfl | hwidth
    · rw [Nat.div_zero]
      exact Nat.zero_le 1
    · apply Nat.le_of_lt_succ
      apply Nat.div_lt_of_lt_mul
      simp only [plainToolkit] at h
      omega

/-- A connection of which the process is not known. -/
def sampleConnection : ListedConnection ℕ :=
  { Connection.new .tcp (.lan 1 5000) (.lan 2 443) (.tcp .established) .unixEpoch ⟨0⟩ with
    currentIncomingRateBps := 0
    currentOutgoingRateBps := 0
    serviceName := none
    geoipInfo := none }

/-- Its details, on 80 columns. -/
def sampleDetails : DetailsView ℕ where
  connections := [sampleConnection]
  uiState :=
    { FilterState.default with
      selectedConnectionKey := none
      selectedGroup := none
      groupingEnabled := false
      expandedGroups := ∅
      visibleRows := 10 }
  dnsResolver := none
  wall := .unixEpoch
  formats :=
    { formatBytes := fun bytes => toString bytes.toNat ++ " B"
      formatRate := fun rate => if rate = 0 then "-" else toString rate ++ " B/s"
      formatRtt := fun rtt => toString (rtt / 1000000) ++ ".0ms" }
  area := ⟨0, 3, 80, 40⟩

/-- The pane above the traffic statistics. -/
def samplePane : DetailPane where
  area := ⟨0, 3, 80, 32⟩
  text := (sampleDetails.buffers sampleConnection).toDetailText
  skipPlaceholderValues := true

theorem samplePane_mem : samplePane ∈ sampleDetails.panes plainToolkit := by
  have hpanes : sampleDetails.panes plainToolkit =
      [samplePane, ⟨⟨0, 35, 80, 8⟩, sampleDetails.traffic sampleConnection, false⟩] := rfl
  rw [hpanes]
  exact List.mem_cons_self

/-- The lines of the pane are drawn one below the other. -/
theorem samplePane_draws {entry : DetailField} {k : ℕ} (hk : k < 30)
    (hline : samplePane.text.lines = samplePane.text.lines.take k ++ .field entry ::
      samplePane.text.lines.drop (k + 1))
    (hrow : samplePane.firstRow plainToolkit (samplePane.text.lines.take k) = 4 + k) :
    samplePane.Draws plainToolkit (samplePane.text.lines.take k) (.field entry) 1 (4 + k) where
  lines := ⟨_, hline⟩
  inside := by
    show Rect.Contains ⟨1, 4, 78, 30⟩ 1 (4 + k)
    simp only [Rect.Contains]
    omega
  top := hrow.le
  bottom := by
    rw [hrow]
    exact Nat.lt_add_of_pos_right (Nat.le_max_left 1 _)

namespace DetailsView

/-- A click on the fourth line copies the remote address. -/
theorem sampleDetails_copies_address :
    (sampleDetails.clicks plainToolkit ⟨[]⟩).hitTest 1 7 =
      some (.copyField ⟨"Remote Address", "10.0.0.2:443"⟩) := by
  have hdraws : samplePane.Draws plainToolkit (samplePane.text.lines.take 3)
      (.field ⟨"Remote Address", "10.0.0.2:443"⟩) 1 7 :=
    samplePane_draws (by decide) (by decide +kernel) (by decide +kernel)
  exact hitTest_clicks plainToolkit_documented samplePane_mem hdraws (by decide +kernel)
    (by decide +kernel) ⟨[]⟩

/-- A click on the row of the process does nothing. -/
theorem sampleDetails_not_clicksCopy :
    plainToolkit.Documented ∧ ¬ sampleDetails.ClicksCopy plainToolkit := by
  refine ⟨plainToolkit_documented, fun h => ?_⟩
  have hdraws : samplePane.Draws plainToolkit (samplePane.text.lines.take 6)
      (.field ⟨"Process", "-"⟩) 1 10 :=
    samplePane_draws (by decide) (by decide +kernel) (by decide +kernel)
  have hnothing : (sampleDetails.clicks plainToolkit ⟨[]⟩).hitTest 1 10 = none := by
    decide +kernel
  have hcopied := h ⟨[]⟩ samplePane samplePane_mem hdraws
  rw [hnothing] at hcopied
  cases hcopied

end DetailsView

end RustNet

import RustNet.App.DetailFields

/-!
# The lines of the details

A pane is a list of lines, next to which a list with an entry for each line is kept for the clicks.
`DetailText` has both with the fact that they agree, so that whatever is pushed to them or taken out
of them, each line has its own entry.

Some of the sections move to a second column if there is room. They are remembered as ranges of
lines, and taken out from the last one to the first.

## Main definitions

* `DetailLine`, and the texts it is made of;
* `DetailText`: the lines of a pane with their entries;
* `DetailBuffers`: with the ranges of those that move, and `DetailBuffers.sides`, both columns.

## Main results

* `DetailBuffers.exists_drainRight`: taking a section out leaves the other lines as they were.
-/

namespace RustNet

/-! ## Lines -/

/-- A line of a pane. -/
inductive DetailLine
  | separator
  | heading (title : String)
  | field (entry : DetailField)
deriving DecidableEq

/-- `DETAIL_LABEL_WIDTH`: the column at which the values start. -/
def detailLabelWidth : ℕ := 22

/-- A label, padded to the width of the column. -/
def paddedLabel (label : String) : String :=
  String.ofList (label.toList.rightpad detailLabelWidth ' ')

namespace DetailLine

/-- The texts that a line is made of. -/
def spans : DetailLine → List String
  | .separator => [""]
  | .heading title => [title]
  | .field entry => [paddedLabel entry.label, entry.value]

/-- `line_is_blank`: all spans of the line are empty. -/
def isBlank (line : DetailLine) : Bool := line.spans.all String.isEmpty

/-- What a click on a line copies. -/
def field? : DetailLine → Option DetailField
  | .separator => none
  | .heading _ => none
  | .field entry => some entry

end DetailLine

/-- The lines of a pane with their entries for the clicks. -/
structure DetailText where
  lines : List DetailLine
  fields : List (Option DetailField)
  aligned : fields = lines.map DetailLine.field?

/-- A section: its title, and its fields as far as they are shown. -/
structure DetailSection where
  title : String
  entries : List (Option DetailField)

namespace DetailText

/-- The buffers before anything is pushed: no lines, and no fields beside them. -/
def empty : DetailText := ⟨[], [], rfl⟩

/-- `push_detail_field`: one line, and the field itself beside it for a click. -/
def pushDetailField (text : DetailText) (field : DetailField) : DetailText where
  lines := text.lines ++ [.field field]
  fields := text.fields ++ [some field]
  aligned := by rw [text.aligned, List.map_append]; rfl

/-- `push_detail_section`: a blank line and a heading, neither of which has a field. -/
def pushDetailSection (text : DetailText) (title : String) : DetailText where
  lines := text.lines ++ [.separator, .heading title]
  fields := text.fields ++ [none, none]
  aligned := by rw [text.aligned, List.map_append]; rfl

/-- The fields of a list that are shown, one after the other. -/
def pushEntries (text : DetailText) (entries : List (Option DetailField)) : DetailText :=
  entries.reduceOption.foldl pushDetailField text

/-- The heading of a section and its fields, if there is one. -/
def pushSection (text : DetailText) : Option DetailSection → DetailText
  | none => text
  | some part => (text.pushDetailSection part.title).pushEntries part.entries

/-- `drain`: the lines of a range, and all others. -/
def drain (text : DetailText) (range : ℕ × ℕ) : DetailText × DetailText where
  fst :=
    { lines := (text.lines.take range.2).drop range.1
      fields := (text.fields.take range.2).drop range.1
      aligned := by rw [text.aligned, List.map_drop, List.map_take] }
  snd :=
    { lines := text.lines.take range.1 ++ text.lines.drop range.2
      fields := text.fields.take range.1 ++ text.fields.drop range.2
      aligned := by rw [text.aligned, List.map_append, List.map_take, List.map_drop] }

/-- One text behind the other. -/
def append (text other : DetailText) : DetailText where
  lines := text.lines ++ other.lines
  fields := text.fields ++ other.fields
  aligned := by rw [text.aligned, other.aligned, List.map_append]

/-- Without the first line, if it is blank. -/
def trimStart (text : DetailText) : DetailText where
  lines := if text.lines.head?.any DetailLine.isBlank then text.lines.tail else text.lines
  fields := if text.lines.head?.any DetailLine.isBlank then text.fields.tail else text.fields
  aligned := by
    split_ifs
    · rw [text.aligned, List.map_tail]
    · exact text.aligned

theorem lines_pushEntries (text : DetailText) (entries : List (Option DetailField)) :
    (text.pushEntries entries).lines = text.lines ++ entries.reduceOption.map .field := by
  unfold pushEntries
  generalize entries.reduceOption = fields
  induction fields generalizing text with
  | nil => rw [List.foldl_nil, List.map_nil, List.append_nil]
  | cons field fields ih =>
    rw [List.foldl_cons, ih, pushDetailField, List.append_assoc]
    rfl

/-- A range that is that of a part of the lines. -/
theorem lines_drain {text : DetailText} {before part after : List DetailLine} {range : ℕ × ℕ}
    (hlines : text.lines = before ++ (part ++ after))
    (hrange : range = (before.length, before.length + part.length)) :
    (text.drain range).1.lines = part ∧ (text.drain range).2.lines = before ++ after := by
  subst hrange
  constructor
  · show (text.lines.take (before.length + part.length)).drop before.length = part
    rw [hlines, ← List.length_append, ← List.append_assoc, List.take_left, List.drop_left]
  · show text.lines.take before.length ++ text.lines.drop (before.length + part.length) =
      before ++ after
    rw [hlines, List.take_left, ← List.length_append, ← List.append_assoc, List.drop_left]

end DetailText

/-- The lines of a section. -/
def DetailSection.lines (part : DetailSection) : List DetailLine :=
  .separator :: .heading part.title :: part.entries.reduceOption.map .field

/-- The lines of a section, if there is one. -/
def sectionLines (part : Option DetailSection) : List DetailLine :=
  (part.map DetailSection.lines).getD []

theorem DetailText.lines_pushSection (text : DetailText) (part : Option DetailSection) :
    (text.pushSection part).lines = text.lines ++ sectionLines part := by
  cases part with
  | none => exact (List.append_nil _).symm
  | some part =>
    rw [pushSection, lines_pushEntries, pushDetailSection, List.append_assoc]
    rfl

/-- The lines of the panes above, with the ranges of those that move if there is room. -/
structure DetailBuffers extends DetailText where
  rightRanges : List (ℕ × ℕ)

namespace DetailBuffers

/-- A section that stays in the left column, if there is one. -/
def pushLeft (buffers : DetailBuffers) (part : Option DetailSection) : DetailBuffers :=
  { buffers with toDetailText := buffers.pushSection part }

/-- A section that moves to the right column where there are two: the range of its lines is kept, if
it has any. -/
def pushRight (buffers : DetailBuffers) (part : Option DetailSection) : DetailBuffers where
  toDetailText := buffers.pushSection part
  rightRanges :=
    if part.isSome then
      buffers.rightRanges ++ [(buffers.lines.length, (buffers.pushSection part).lines.length)]
    else buffers.rightRanges

/-- Move the ranges out of the lines, the last one first. -/
def drainRight (ranges : List (ℕ × ℕ)) (sides : DetailText × DetailText) :
    DetailText × DetailText :=
  ranges.reverse.foldl (fun sides range =>
    let parts := sides.1.drain range
    (parts.2, parts.1.append sides.2)) sides

/-- The lines that stay and those that move. -/
def sides (buffers : DetailBuffers) : DetailText × DetailText :=
  let drained := drainRight buffers.rightRanges (buffers.toDetailText, .empty)
  (drained.1, drained.2.trimStart)

/-- A section that is moved is put in front of what was moved before. -/
theorem exists_drainRight (ranges : List (ℕ × ℕ)) (sides : DetailText × DetailText)
    (part : Option DetailSection) {before after : List DetailLine}
    (hlines : sides.1.lines = before ++ (sectionLines part ++ after)) :
    ∃ sides', drainRight (ranges ++ if part.isSome then
        [(before.length, before.length + (sectionLines part).length)] else []) sides =
          drainRight ranges sides' ∧
      sides'.1.lines = before ++ after ∧ sides'.2.lines = sectionLines part ++ sides.2.lines := by
  cases part with
  | none => exact ⟨sides, by simp, hlines, rfl⟩
  | some part =>
    obtain ⟨hpart, hrest⟩ := DetailText.lines_drain hlines rfl
    generalize hrange : (before.length, before.length + (sectionLines (some part)).length) = range
      at hpart hrest ⊢
    refine ⟨((sides.1.drain range).2, (sides.1.drain range).1.append sides.2), ?_, hrest, ?_⟩
    · simp [drainRight]
    · rw [← hpart]
      rfl

/-- Only the separator of the first section is blank. -/
theorem lines_trimStart {text : DetailText} {part other : Option DetailSection}
    (hlines : text.lines = sectionLines part ++ sectionLines other) :
    text.trimStart.lines = (sectionLines part ++ sectionLines other).tail := by
  rw [DetailText.trimStart, ← hlines]
  split_ifs with hblank
  · rfl
  · rw [hlines] at hblank ⊢
    cases part with
    | none =>
      cases other with
      | none => rfl
      | some other => exact absurd rfl hblank
    | some part => exact absurd rfl hblank

end DetailBuffers

end RustNet

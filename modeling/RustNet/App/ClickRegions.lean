import RustNet.App.DetailFields

/-!
# Regions for clicks

While the screen is drawn, areas of it are registered with what a click does there. Of the areas
that a click is in, the one registered last counts. The entries of a pane are registered row by row,
each by its place in the list.

Coordinates are natural numbers, since a few dozen rows below the header of the screen none of the
sums overflow.

## Main definitions

* `ClickableRegions`, with `register` and `hitTest`;
* `ClickableRegions.registerDetailClicks`.

## Main results

* `ClickableRegions.hitTest_registerDetailClicks`: what a click on the row of an entry does.
-/

namespace RustNet

/-! ## Regions -/

/-- `Rect`: the left upper cell of an area of the screen, its width and its height. The `u16` of the
source are natural numbers here. -/
structure Rect where
  x : ℕ
  y : ℕ
  width : ℕ
  height : ℕ
deriving DecidableEq

namespace Rect

/-- The cell is in the area. -/
def Contains (rect : Rect) (column row : ℕ) : Prop :=
  rect.x ≤ column ∧ column < rect.x + rect.width ∧ rect.y ≤ row ∧ row < rect.y + rect.height

instance (rect : Rect) (column row : ℕ) : Decidable (rect.Contains column row) := by
  unfold Contains
  infer_instance

/-- No cell is in both areas. -/
def Disjoint (a b : Rect) : Prop :=
  ∀ column row, a.Contains column row → ¬ b.Contains column row

end Rect

/-- `ClickAction`: what a click on a region does. A field carries the text that it copies. -/
inductive ClickAction
  | switchTab (index : ℕ)
  | selectConnection (index : ℕ)
  | copyField (field : DetailField)
deriving DecidableEq

/-- `ClickableRegions`: the regions registered while a frame was drawn, in the order in which they
were registered. -/
structure ClickableRegions where
  regions : List (Rect × ClickAction)

namespace ClickableRegions

/-- `register`: a region goes behind those that are there, and is found before them. -/
def register (clicks : ClickableRegions) (area : Rect) (action : ClickAction) :
    ClickableRegions :=
  ⟨clicks.regions ++ [(area, action)]⟩

/-- `hit_test`: what was registered last counts. -/
def hitTest (clicks : ClickableRegions) (column row : ℕ) : Option ClickAction :=
  (clicks.regions.reverse.find? fun region => region.1.Contains column row).map Prod.snd

theorem hitTest_register (clicks : ClickableRegions) (area : Rect) (action : ClickAction)
    (column row : ℕ) : (clicks.register area action).hitTest column row =
      if area.Contains column row then some action else clicks.hitTest column row := by
  rw [hitTest, register, List.reverse_append, List.reverse_singleton, List.singleton_append,
    List.find?_cons]
  split_ifs with h
  · simp [h]
  · simp [h, hitTest]

/-- The value is that of a field without one. -/
def isPlaceholder (value : String) : Bool := value == nonePlaceholder || value.isEmpty

/-- The loop of `register_detail_clicks`, from an entry on. -/
def registerDetailClicks (inner : Rect) (skipPlaceholderValues : Bool) :
    ℕ → List (Option DetailField) → ClickableRegions → ClickableRegions
  | _, [], clicks => clicks
  | lineIdx, none :: fields, clicks =>
    registerDetailClicks inner skipPlaceholderValues (lineIdx + 1) fields clicks
  | lineIdx, some field :: fields, clicks =>
    if skipPlaceholderValues && isPlaceholder field.value then
      registerDetailClicks inner skipPlaceholderValues (lineIdx + 1) fields clicks
    else if inner.y + inner.height ≤ inner.y + lineIdx then clicks
    else
      registerDetailClicks inner skipPlaceholderValues (lineIdx + 1) fields
        (clicks.register ⟨inner.x, inner.y + lineIdx, inner.width, 1⟩ (.copyField field))

section

variable {inner : Rect} {skip : Bool} {column row : ℕ}

/-- A click on a cell that is not in the pane, or above the entries. -/
theorem hitTest_registerDetailClicks_of_not {lineIdx : ℕ} (fields : List (Option DetailField))
    (clicks : ClickableRegions)
    (h : ¬ inner.Contains column row ∨ row < inner.y + lineIdx) :
    (registerDetailClicks inner skip lineIdx fields clicks).hitTest column row =
      clicks.hitTest column row := by
  induction fields generalizing lineIdx clicks with
  | nil => rfl
  | cons entry fields ih =>
    -- the cell is above the next row too
    have hnext : ¬ inner.Contains column row ∨ row < inner.y + (lineIdx + 1) :=
      h.imp_right fun hrow => by omega
    cases entry with
    | none => exact ih clicks hnext
    | some field =>
      rw [registerDetailClicks]
      -- a placeholder has no region, and the first row below the pane ends the registration
      split_ifs with hskip hbelow
      · exact ih clicks hnext
      · rfl
      · rw [ih _ hnext, hitTest_register, if_neg]
        simp only [Rect.Contains] at h ⊢
        omega

/-- A click on the row of an entry. -/
theorem hitTest_registerDetailClicks {lineIdx : ℕ} (before after : List (Option DetailField))
    (field : DetailField) (clicks : ClickableRegions) (hcell : inner.Contains column row)
    (hrow : row = inner.y + lineIdx + before.length) :
    (registerDetailClicks inner skip lineIdx (before ++ some field :: after) clicks).hitTest
      column row =
        if skip && isPlaceholder field.value then clicks.hitTest column row
        else some (.copyField field) := by
  induction before generalizing lineIdx clicks with
  -- the field of the row itself
  | nil =>
    rw [List.length_nil, Nat.add_zero] at hrow
    -- the fields behind it are registered below the cell
    have habove : row < inner.y + (lineIdx + 1) := by omega
    rw [List.nil_append, registerDetailClicks]
    split_ifs with hskip hbelow
    · exact hitTest_registerDetailClicks_of_not after clicks (Or.inr habove)
    · -- the row is in the pane
      obtain ⟨-, -, -, hlt⟩ := hcell
      omega
    · rw [hitTest_registerDetailClicks_of_not after _ (Or.inr habove), hitTest_register, if_pos]
      obtain ⟨hleft, hright, -, -⟩ := hcell
      exact ⟨hleft, hright, hrow.ge, by simp only; omega⟩
  -- a field above does not reach the cell, so that the induction goes on
  | cons entry before ih =>
    rw [List.length_cons] at hrow
    have hnext : row = inner.y + (lineIdx + 1) + before.length := by omega
    cases entry with
    | none => exact ih clicks hnext
    | some other =>
      have hinside : ¬ inner.y + inner.height ≤ inner.y + lineIdx := by
        obtain ⟨-, -, -, hlt⟩ := hcell
        omega
      rw [List.cons_append, registerDetailClicks]
      by_cases hother : (skip && isPlaceholder other.value) = true
      · rw [if_pos hother]
        exact ih clicks hnext
      · -- the other row is above
        have hmiss : ¬ Rect.Contains ⟨inner.x, inner.y + lineIdx, inner.width, 1⟩ column row := by
          simp only [Rect.Contains]
          omega
        rw [if_neg hother, if_neg hinside, ih _ hnext, hitTest_register, if_neg hmiss]

end

end ClickableRegions

end RustNet

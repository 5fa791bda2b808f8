import Mathlib.Algebra.GroupWithZero.Nat
import Mathlib.Tactic.SplitIfs

/-!
# Offsets into a list of wide elements

The elements of a list take up room, each as much as its width, as the characters of a text do
bytes. A position is how much room the elements before it take up; an offset that lies inside an
element is no position. Inserting and removing at an offset fail unless it is one.

## Main definitions

* `Offsets.extent`: the room that a list takes up;
* `Offsets.split`, `Offsets.insert`, `Offsets.remove`.

## Main results

* `Offsets.split_append`: a list is split where the part before an offset takes up as much;
* `Offsets.insert_append`, `Offsets.remove_append`: what becomes of an element there.
-/

namespace Offsets

variable {α : Type*} {width : α → ℕ} {n : ℕ} {l before after : List α} {a : α}

/-- The room that a list takes up. -/
def extent (width : α → ℕ) (l : List α) : ℕ := (l.map width).sum

/-- The parts of a list before and behind an offset, if it is a position. -/
def split (width : α → ℕ) : ℕ → List α → Option (List α × List α)
  | 0, l => some ([], l)
  | _ + 1, [] => none
  | n + 1, a :: l =>
    if width a ≤ n + 1 then
      (split width (n + 1 - width a) l).map fun parts => (a :: parts.1, parts.2)
    else none

/-- Insert an element at an offset. -/
def insert (width : α → ℕ) (n : ℕ) (a : α) (l : List α) : Option (List α) :=
  (split width n l).map fun parts => parts.1 ++ a :: parts.2

/-- Remove the element at an offset. -/
def remove (width : α → ℕ) (n : ℕ) (l : List α) : Option (List α) :=
  match split width n l with
  | some (before, _ :: after) => some (before ++ after)
  | _ => none

@[simp]
theorem extent_nil (width : α → ℕ) : extent width [] = 0 := rfl

@[simp]
theorem extent_cons (width : α → ℕ) (a : α) (l : List α) :
    extent width (a :: l) = width a + extent width l := by
  simp [extent]

@[simp]
theorem extent_append (width : α → ℕ) (l l' : List α) :
    extent width (l ++ l') = extent width l + extent width l' := by
  simp [extent]

/-- Elements of no room but nothing take up room. -/
theorem extent_pos (hwidth : ∀ a, 0 < width a) (hl : l ≠ []) : 0 < extent width l := by
  obtain ⟨a, l, rfl⟩ := List.exists_cons_of_ne_nil hl
  rw [extent_cons]
  exact Nat.add_pos_left (hwidth a) _

theorem length_le_extent (hwidth : ∀ a, 0 < width a) (l : List α) : l.length ≤ extent width l := by
  induction l with
  | nil => exact Nat.le_refl 0
  | cons a l ih =>
    have ha := hwidth a
    rw [List.length_cons, extent_cons]
    omega

theorem extent_eq_length {l : List α} (h : ∀ a ∈ l, width a = 1) : extent width l = l.length := by
  induction l with
  | nil => rfl
  | cons a l ih =>
    rw [extent_cons, h a List.mem_cons_self, ih fun b hb => h b (List.mem_cons_of_mem a hb),
      List.length_cons, Nat.add_comm]

/-- A list no longer than its elements are many has elements of width one only. -/
theorem width_eq_one_of_extent (hwidth : ∀ a, 0 < width a) {l : List α}
    (h : extent width l = l.length) : ∀ a ∈ l, width a = 1 := by
  induction l with
  | nil => simp
  | cons b l ih =>
    have hb := hwidth b
    have hle := length_le_extent hwidth l
    rw [List.length_cons, extent_cons] at h
    intro a ha
    rcases List.mem_cons.mp ha with rfl | ha
    · omega
    · exact ih (by omega) a ha

/-- A list is split where the part before an offset takes up as much. -/
theorem split_append (hwidth : ∀ a, 0 < width a) (before after : List α) :
    split width (extent width before) (before ++ after) = some (before, after) := by
  induction before with
  | nil =>
    rw [extent_nil, List.nil_append, split]
  | cons a before ih =>
    obtain ⟨n, hn⟩ : ∃ n, extent width (a :: before) = n + 1 :=
      Nat.exists_eq_add_one.mpr (extent_pos hwidth (List.cons_ne_nil a before))
    have hn' : width a + extent width before = n + 1 := by rw [← hn, extent_cons]
    rw [hn, List.cons_append, split, if_pos (hn' ▸ Nat.le_add_right _ _), ← hn',
      Nat.add_sub_cancel_left, ih]
    rfl

/-- An offset is a position exactly where a part before it takes up as much. -/
theorem split_eq_some_iff (hwidth : ∀ a, 0 < width a) {n : ℕ} {l before after : List α} :
    split width n l = some (before, after) ↔ l = before ++ after ∧ extent width before = n := by
  constructor
  · intro h
    induction l generalizing n before with
    | nil =>
      cases n with
      -- at no distance nothing is split off
      | zero =>
        obtain ⟨rfl, rfl⟩ := Prod.mk.inj (Option.some.inj h)
        exact ⟨rfl, rfl⟩
      | succ n => cases h
    | cons a l ih =>
      cases n with
      | zero =>
        obtain ⟨rfl, rfl⟩ := Prod.mk.inj (Option.some.inj h)
        exact ⟨rfl, rfl⟩
      | succ n =>
        rw [split] at h
        -- the first element ends inside, and the split is behind it
        split_ifs at h with hle
        obtain ⟨⟨before', after'⟩, hsplit, heq⟩ := Option.map_eq_some_iff.mp h
        obtain ⟨rfl, rfl⟩ := Prod.mk.inj heq
        obtain ⟨rfl, hextent⟩ := ih hsplit
        refine ⟨rfl, ?_⟩
        rw [extent_cons, hextent]
        omega
  · rintro ⟨rfl, rfl⟩
    exact split_append hwidth before after

theorem insert_append (hwidth : ∀ a, 0 < width a) (before after : List α) (a : α) :
    insert width (extent width before) a (before ++ after) = some (before ++ a :: after) := by
  rw [insert, split_append hwidth]
  rfl

theorem remove_append (hwidth : ∀ a, 0 < width a) (before after : List α) (a : α) :
    remove width (extent width before) (before ++ a :: after) = some (before ++ after) := by
  rw [remove, split_append hwidth]

end Offsets

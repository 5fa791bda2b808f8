import Mathlib.Data.Nat.Basic
import Mathlib.Logic.Function.Iterate
import Mathlib.Order.Basic

/-!
# Moves of a cursor in a list

A cursor is at one of the `n` positions of a list. A step moves it to the position before or after,
and around at either end; a page moves it by many, and stops at either end.

A program seldom keeps the position itself. `Selecting` is what it takes of a state to have one: it
can be read, and what was set last is read back.

## Main results

* `up_down`, `iterate_down`: a step down and a step up, and as many steps down as the list is long;
* `Selecting.position_move`, `Selecting.iterate_move`: what a state does, the position does.
-/

namespace Cursor

variable {n i page : ℕ}

/-- A step up, from the first position around to the last. -/
def up (n i : ℕ) : ℕ := if 0 < i then i - 1 else n - 1

/-- A step down, from the last position around to the first. -/
def down (n i : ℕ) : ℕ := if i < n - 1 then i + 1 else 0

/-- A page up, as far as to the first position. -/
def pageUp (page i : ℕ) : ℕ := i - page

/-- A page down, as far as to the last position. -/
def pageDown (page n i : ℕ) : ℕ := min (i + page) (n - 1)

theorem up_lt (h : i < n) : up n i < n := by
  unfold up
  split_ifs <;> omega

theorem down_lt (h : i < n) : down n i < n := by
  unfold down
  split_ifs <;> omega

theorem pageUp_lt (h : i < n) : pageUp page i < n := (Nat.sub_le i page).trans_lt h

theorem pageDown_lt (h : i < n) : pageDown page n i < n := by
  unfold pageDown
  omega

/-- A step up takes a step down back. -/
theorem up_down (h : i < n) : up n (down n i) = i := by
  unfold up down
  split_ifs <;> omega

theorem down_eq (h : i < n) : down n i = (i + 1) % n := by
  unfold down
  split_ifs with hlast
  · exact (Nat.mod_eq_of_lt (by omega)).symm
  · rw [show i + 1 = n by omega, Nat.mod_self]

/-- `k` steps down. -/
theorem iterate_down (h : i < n) (k : ℕ) : (down n)^[k] i = (i + k) % n := by
  induction k with
  | zero => exact (Nat.mod_eq_of_lt h).symm
  | succ k ih =>
    rw [Function.iterate_succ_apply', ih, down_eq (Nat.mod_lt _ (by omega)), Nat.mod_add_mod,
      Nat.add_assoc]

/-- Once around. -/
theorem iterate_down_length (h : i < n) : (down n)^[n] i = i := by
  rw [iterate_down h, Nat.add_mod_right, Nat.mod_eq_of_lt h]

/-- Where the keys are distinct, an element is found by its key. -/
theorem findIdx?_eq_some_of_nodup {α β : Type*} {l : List α} {key : α → β} {p : α → Bool}
    (hkeys : (l.map key).Nodup) (hi : i < l.length) (hp : ∀ a, p a = true ↔ key a = key l[i]) :
    l.findIdx? p = some i := by
  have hne := List.pairwise_iff_getElem.mp (List.pairwise_map.mp hkeys)
  refine List.findIdx?_eq_some_iff_getElem.mpr ⟨hi, (hp l[i]).mpr rfl, fun j hj heq => ?_⟩
  exact hne j i (hj.trans hi) hi hj ((hp _).mp heq)

/-- How states keep a position among `n`. -/
structure Selecting (σ : Type*) (n : ℕ) where
  /-- The position, where there is one. -/
  position : σ → Option ℕ
  select : σ → ℕ → σ
  position_select : ∀ s i, i < n → position (select s i) = some i
  select_select : ∀ s i j, i < n → j < n → select (select s i) j = select s j

namespace Selecting

variable {σ : Type*} (S : Selecting σ n) {s : σ} {f g : ℕ → ℕ}

/-- The state after a move; without a position it starts from the first. -/
def move (f : ℕ → ℕ) (s : σ) : σ := S.select s (f ((S.position s).getD 0))

theorem position_move (hf : ∀ i < n, f i < n) (hs : S.position s = some i) (hi : i < n) :
    S.position (S.move f s) = some (f i) := by
  rw [move, hs]
  exact S.position_select s (f i) (hf i hi)

/-- Two moves select where they lead together. -/
theorem move_move (hf : ∀ i < n, f i < n) (hg : ∀ i < n, g i < n) (hs : S.position s = some i)
    (hi : i < n) : S.move g (S.move f s) = S.select s (g (f i)) := by
  have hposition := S.position_move hf hs hi
  rw [move, hposition, move, hs]
  exact S.select_select s (f i) (g (f i)) (hf i hi) (hg (f i) (hf i hi))

/-- So do any number of them. -/
theorem iterate_move (hf : ∀ i < n, f i < n) (hs : S.position s = some i) (hi : i < n) (k : ℕ) :
    (S.move f)^[k + 1] s = S.select s (f^[k + 1] i) := by
  -- the index stays inside the list all along
  have hlt : ∀ k, f^[k] i < n := by
    intro k
    induction k with
    | zero => exact hi
    | succ k ih =>
      rw [Function.iterate_succ_apply']
      exact hf _ ih
  induction k with
  | zero =>
    show S.move f s = S.select s (f i)
    rw [move, hs, Option.getD_some]
  | succ k ih =>
    rw [Function.iterate_succ_apply', ih, move, S.position_select s _ (hlt (k + 1)),
      Option.getD_some, ← Function.iterate_succ_apply' f]
    exact S.select_select s _ _ (hlt (k + 1)) (hlt (k + 2))

/-- A step down and a step up lead back. -/
theorem up_down (hs : S.position s = some i) (hi : i < n) :
    S.move (up n) (S.move (down n) s) = S.select s i := by
  rw [S.move_move (fun _ => down_lt) (fun _ => up_lt) hs hi, Cursor.up_down hi]

/-- As many steps down as there are positions lead back. -/
theorem iterate_down (hs : S.position s = some i) (hi : i < n) :
    (S.move (down n))^[n] s = S.select s i := by
  obtain ⟨m, rfl⟩ : ∃ m, n = m + 1 := ⟨n - 1, by omega⟩
  rw [S.iterate_move (fun _ => down_lt) hs hi, iterate_down_length hi]

end Selecting

end Cursor

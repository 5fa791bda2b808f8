import Mathlib.Data.List.Basic
import Mathlib.Tactic.Ring

/-!
# Blocks of one width

A list put together from blocks of one width, and cut into them again.

## Main results

* `Blocks.block_flatMap`: the blocks of a list that was put together from blocks;
* `Blocks.flatMap_block`: a list is put together from its blocks;
* `Blocks.flatMap_inj`: it determines them.
-/

namespace Blocks

variable {α β : Type*}

/-- The `i`-th block of `width` elements. -/
def block (width i : ℕ) (xs : List α) : List α := (xs.drop (width * i)).take width

theorem length_block {width i : ℕ} {xs : List α} (h : width * (i + 1) ≤ xs.length) :
    (block width i xs).length = width := by
  rw [block, List.length_take, List.length_drop]
  rw [Nat.mul_succ] at h
  omega

theorem block_flatMap {f : β → List α} {width : ℕ} (hf : ∀ b, (f b).length = width)
    (bs : List β) {i : ℕ} (hi : i < bs.length) : block width i (bs.flatMap f) = f bs[i] := by
  induction bs generalizing i with
  | nil => cases hi
  | cons b bs ih =>
    cases i with
    | zero => rw [block, Nat.mul_zero, List.drop_zero, List.flatMap_cons, List.take_left' (hf b),
        List.getElem_cons_zero]
    -- one block less to drop
    | succ i =>
      rw [block, Nat.mul_succ, Nat.add_comm, ← List.drop_drop, List.flatMap_cons,
        List.drop_left' (hf b)]
      exact ih (Nat.lt_of_succ_lt_succ hi)

theorem flatMap_block (width n : ℕ) (xs : List α) :
    (List.range n).flatMap (block width · xs) = xs.take (width * n) := by
  induction n with
  | zero => simp
  | succ n ih =>
    rw [List.range_succ, List.flatMap_append, ih, List.flatMap_singleton, Nat.mul_succ,
      List.take_add]
    rfl

/-- As many blocks of one width put together give different lists when they differ. -/
theorem flatMap_inj {f : β → List α} {width : ℕ} (hf : ∀ b, (f b).length = width)
    (hinj : Function.Injective f) {bs cs : List β} (hlength : bs.length = cs.length)
    (h : bs.flatMap f = cs.flatMap f) : bs = cs := by
  apply List.ext_getElem hlength
  intro i hi hi'
  apply hinj
  rw [← block_flatMap hf bs hi, ← block_flatMap hf cs hi', h]

end Blocks

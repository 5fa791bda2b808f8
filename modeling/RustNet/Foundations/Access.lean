import Mathlib.Data.List.GetD
import RustNet.Foundations.Checked

/-!
# Programs that are read in two ways

A program whose accesses are all guarded computes the same whether they are checked or not. Such a
program is written once, over any monad `m` with `Access m`, and read in two ways. In `Checked` it
is the program that runs, which may stop with a fault. In `Id` it is the function that it computes,
where an access out of range gives a default.

`Access.Agrees c x` says that the checked reading `c` returns, and that it returns what the other
reading `x` gives. Its rules go along the program, and at each access they ask for the range.

## Main definitions

* `Access`: the accesses of a program, and their readings in `Checked` and in `Id`;
* `Access.Agrees`: the readings of a program agree.

## Main results

* `Access.Agrees.bind`, `Access.Agrees.ite`, `Access.agrees_index` and the rules after it;
* `Access.run_ite`, `Access.run_index` and the lemmas after it: the reading in `Id`.
-/

/-- The accesses of a program to its data, and its arithmetic on indices. -/
class Access (m : Type → Type) extends Monad m where
  /-- `data[i]`. -/
  index {α : Type} [Inhabited α] (data : List α) (i : ℕ) : m α
  /-- `[data[start], data[start + 1], …]`, of `n` elements. -/
  indices {α : Type} (data : List α) (start n : ℕ) : m (List α)
  /-- `&data[start..stop]`. -/
  slice {α : Type} (data : List α) (start stop : ℕ) : m (List α)
  /-- `&data[start..]`. -/
  sliceFrom {α : Type} (data : List α) (start : ℕ) : m (List α)
  /-- `&data[..stop]`. -/
  sliceTo {α : Type} (data : List α) (stop : ℕ) : m (List α)
  /-- `a - b`. -/
  sub (a b : ℕ) : m ℕ
  /-- `a + b`. -/
  add (a b : ℕ) : m ℕ

namespace Access

/-- Every access is checked. -/
instance : Access Checked where
  toMonad := inferInstance
  index := Checked.index
  indices := Checked.indices
  slice := Checked.slice
  sliceFrom := Checked.sliceFrom
  sliceTo := Checked.sliceTo
  sub := Checked.sub
  add := Checked.add

/-- No access is. -/
instance : Access Id where
  toMonad := inferInstance
  index data i := data.getD i default
  indices data start n := (data.drop start).take n
  slice data start stop := (data.drop start).take (stop - start)
  sliceFrom data start := data.drop start
  sliceTo data stop := data.take stop
  sub a b := a - b
  add a b := a + b

variable {α β ι : Type}

/-! ## The function of a program -/

section Run

variable {data : List α}

@[simp]
theorem run_ite {p : Prop} [Decidable p] (x y : Id α) :
    (if p then x else y).run = if p then x.run else y.run := apply_ite Id.run p x y

@[simp]
theorem run_index [Inhabited α] (i : ℕ) : (index data i : Id α).run = data.getD i default := rfl

@[simp]
theorem run_indices (start n : ℕ) :
    (indices data start n : Id (List α)).run = (data.drop start).take n := rfl

@[simp]
theorem run_slice (start stop : ℕ) :
    (slice data start stop : Id (List α)).run = (data.drop start).take (stop - start) := rfl

@[simp]
theorem run_sliceFrom (start : ℕ) : (sliceFrom data start : Id (List α)).run = data.drop start :=
  rfl

@[simp]
theorem run_sliceTo (stop : ℕ) : (sliceTo data stop : Id (List α)).run = data.take stop := rfl

@[simp]
theorem run_sub (a b : ℕ) : (sub a b : Id ℕ).run = a - b := rfl

@[simp]
theorem run_add (a b : ℕ) : (add a b : Id ℕ).run = a + b := rfl

end Run

/-! ## Agreement -/

/-- The checked reading of a program returns, and it returns what the other one gives. -/
def Agrees (c : Checked α) (x : Id α) : Prop := c = pure x.run

section Agrees

variable {c c' : Checked α} {x x' : Id α} {data : List α}

theorem agrees_pure (a : α) : Agrees (pure a) (pure a) := rfl

/-- The readings of a program in two parts agree if those of both parts do. -/
theorem Agrees.bind {f : α → Checked β} {g : α → Id β} (h : Agrees c x)
    (hf : Agrees (f x) (g x)) : Agrees (c >>= f) (x >>= g) := by
  unfold Agrees at h
  rw [h]
  exact hf

theorem Agrees.ite {p : Prop} [Decidable p] (h : p → Agrees c x) (h' : ¬ p → Agrees c' x') :
    Agrees (if p then c else c') (if p then x else x') := by
  split_ifs with hp
  · exact h hp
  · exact h' hp

theorem agrees_index [Inhabited α] {i : ℕ} (h : i < data.length) :
    Agrees (index data i) (data.getD i default) := by
  rw [List.getD_eq_getElem _ _ h]
  exact Checked.index_eq h

theorem agrees_indices {start n : ℕ} (h : start + n ≤ data.length) :
    Agrees (indices data start n) ((data.drop start).take n) :=
  Checked.indices_eq h

theorem agrees_slice {start stop : ℕ} (h : start ≤ stop) (h' : stop ≤ data.length) :
    Agrees (slice data start stop) ((data.drop start).take (stop - start)) :=
  Checked.slice_eq h h'

theorem agrees_sliceFrom {start : ℕ} (h : start ≤ data.length) :
    Agrees (sliceFrom data start) (data.drop start) :=
  Checked.sliceFrom_eq h

theorem agrees_sliceTo {stop : ℕ} (h : stop ≤ data.length) :
    Agrees (sliceTo data stop) (data.take stop) :=
  Checked.sliceTo_eq h

theorem agrees_sub {a b : ℕ} (h : b ≤ a) : Agrees (sub a b) (a - b : ℕ) := Checked.sub_eq h

theorem agrees_add {a b : ℕ} (h : a + b < 2 ^ 64) : Agrees (add a b) (a + b : ℕ) :=
  Checked.add_eq h

/-- A search agrees if each of its steps does. -/
theorem agrees_findSomeM {l : List ι} {f : ι → Checked (Option β)} {g : ι → Id (Option β)}
    (h : ∀ i ∈ l, Agrees (f i) (g i)) : Agrees (l.findSomeM? f) (l.findSomeM? g) := by
  unfold Agrees
  rw [List.idRun_findSomeM?]
  exact Checked.findSomeM_eq h

end Agrees

end Access

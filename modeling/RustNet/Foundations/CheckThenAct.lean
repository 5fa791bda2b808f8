import Mathlib.Data.Finset.Option
import Mathlib.Algebra.Order.BigOperators.Group.Finset
import Mathlib.Data.Fintype.BigOperators
import Mathlib.Logic.Relation

/-!
# Check, then act

Threads fill a table that is meant to hold at most `limit` keys. A thread that finds its key in the
table, or finds room, is admitted, and inserts its key later; in between, other threads may fill
the table and keys may leave it. The limit is not kept, and this is how far it can be exceeded: by
one less than the number of threads.

The invariant is on the keys that are in the table or will be inserted by an admitted thread. Only
an admission for lack of a full table adds one to them, and at that moment the table is below the
limit and each thread accounts for one key at most.

## Main results

* `CheckThenAct.card_claimed_le_of_step`: no step takes the claimed keys over the bound;
* `CheckThenAct.card_present_le`: so the table never exceeds it.
-/

namespace CheckThenAct

/-- The keys in the table, and the key each admitted thread is about to insert. -/
@[ext]
structure State (ι κ : Type*) where
  present : Finset κ
  pending : ι → Option κ

variable {ι κ : Type*} [DecidableEq ι] [DecidableEq κ]

/-- One step of a thread or of whoever removes keys. -/
inductive Step (limit : ℕ) : State ι κ → State ι κ → Prop
  /-- The thread's key is in the table. -/
  | admitKnown (s : State ι κ) (i : ι) (k : κ) (h : k ∈ s.present) :
    Step limit s { s with pending := Function.update s.pending i (some k) }
  /-- The table is below its limit. -/
  | admitRoom (s : State ι κ) (i : ι) (k : κ) (h : s.present.card < limit) :
    Step limit s { s with pending := Function.update s.pending i (some k) }
  /-- An admitted thread inserts its key. -/
  | act (s : State ι κ) (i : ι) (k : κ) (h : s.pending i = some k) :
    Step limit s ⟨insert k s.present, Function.update s.pending i none⟩
  /-- Some keys leave the table, or none. -/
  | shrink (s : State ι κ) (present : Finset κ) (h : present ⊆ s.present) :
    Step limit s { s with present := present }

omit [DecidableEq κ] in
/-- After one thread's pending key is set, a pending key is that one or was pending before. -/
theorem eq_or_exists_of_update {pending : ι → Option κ} {i j : ι} {o : Option κ} {k : κ}
    (h : Function.update pending i o j = some k) : o = some k ∨ ∃ j, pending j = some k := by
  by_cases hji : j = i
  · subst hji
    rw [Function.update_self] at h
    exact Or.inl h
  · rw [Function.update_of_ne hji] at h
    exact Or.inr ⟨j, h⟩

variable [Fintype ι]

omit [DecidableEq ι]

/-- The keys that are in the table or that an admitted thread will insert. -/
def claimed (s : State ι κ) : Finset κ :=
  s.present ∪ Finset.univ.biUnion fun i => (s.pending i).toFinset

theorem mem_claimed {s : State ι κ} {k : κ} :
    k ∈ claimed s ↔ k ∈ s.present ∨ ∃ i, s.pending i = some k := by
  simp [claimed]

/-- Each thread claims one key at most. -/
theorem card_claimed_le (s : State ι κ) :
    (claimed s).card ≤ s.present.card + Fintype.card ι := by
  have hpending : (Finset.univ.biUnion fun i => (s.pending i).toFinset).card ≤
      (Finset.univ : Finset ι).card * 1 := by
    apply Finset.card_biUnion_le_card_mul
    intro i _
    rw [Option.card_toFinset]
    cases s.pending i with
    | none => exact Nat.zero_le 1
    | some k => exact le_refl 1
  rw [mul_one, Finset.card_univ] at hpending
  exact (Finset.card_union_le _ _).trans (Nat.add_le_add_left hpending _)

variable [DecidableEq ι]

/-- No step takes the claimed keys over the limit by as many as there are threads. -/
theorem card_claimed_le_of_step {limit : ℕ} {s s' : State ι κ} (hstep : Step limit s s')
    (hs : (claimed s).card ≤ limit + (Fintype.card ι - 1)) :
    (claimed s').card ≤ limit + (Fintype.card ι - 1) := by
  cases hstep with
  -- the key is in the table already
  | admitKnown i k h =>
    refine (Finset.card_le_card fun x hx => ?_).trans hs
    rw [mem_claimed] at hx ⊢
    rcases hx with hx | ⟨j, hj⟩
    · exact Or.inl hx
    · rcases eq_or_exists_of_update hj with hk | hold
      · exact Or.inl (Option.some.inj hk ▸ h)
      · exact Or.inr hold
  -- the table is below the limit, and each thread adds one key at most
  | admitRoom i k h =>
    have hcard := card_claimed_le
      { s with pending := Function.update s.pending i (some k) }
    dsimp only at hcard
    omega
  -- the inserted key was pending before
  | act i k h =>
    refine (Finset.card_le_card fun x hx => ?_).trans hs
    rw [mem_claimed] at hx ⊢
    rcases hx with hx | ⟨j, hj⟩
    · rcases Finset.mem_insert.mp hx with rfl | hx
      · exact Or.inr ⟨i, h⟩
      · exact Or.inl hx
    · rcases eq_or_exists_of_update hj with hk | hold
      · exact absurd hk (Option.some_ne_none x).symm
      · exact Or.inr hold
  -- fewer keys are present
  | shrink present h =>
    refine (Finset.card_le_card fun x hx => ?_).trans hs
    rw [mem_claimed] at hx ⊢
    exact hx.imp_left fun hx => h hx

/-- The table exceeds its limit by less than the number of threads. -/
theorem card_present_le {limit : ℕ} {s s' : State ι κ}
    (hrun : Relation.ReflTransGen (Step limit) s s')
    (hs : (claimed s).card ≤ limit + (Fintype.card ι - 1)) :
    s'.present.card ≤ limit + (Fintype.card ι - 1) := by
  have hclaimed : (claimed s').card ≤ limit + (Fintype.card ι - 1) := by
    induction hrun with
    | refl => exact hs
    | tail _ hstep ih => exact card_claimed_le_of_step hstep ih
  refine (Finset.card_le_card fun x hx => ?_).trans hclaimed
  exact mem_claimed.mpr (Or.inl hx)

end CheckThenAct

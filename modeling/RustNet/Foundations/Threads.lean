import Mathlib.Algebra.BigOperators.Group.Finset.Basic
import Mathlib.Data.Fintype.BigOperators
import RustNet.Foundations.Run

/-!
# Threads over a shared state

A system of threads, each with a local state (where it is in its program, and its local variables),
over one shared state. An event names a thread and what the environment decides for its step; the
thread's program is a function `next` on the shared and its own local state, and one application
of it is one atomic step. A list of events is a schedule, so what is proved of every list of events
is proved of every interleaving.

## Main definitions

* `Threads.System`, `Threads.step`: the states of a system, and the step of one thread.

## Main results

* `Threads.foldl_solo`: a thread that runs alone computes what its program computes in sequence;
* `Threads.balanced_of_along`: a quantity that each step only moves between the shared state and
  the acting thread is conserved by every schedule.
-/

namespace Threads

/-- A shared state, and the local state of every thread. -/
@[ext]
structure System (ι σ τ : Type*) where
  shared : σ
  locals : ι → τ

variable {ι σ τ α : Type*} [DecidableEq ι] {next : α → σ → τ → σ × τ}

/-- One atomic step of the thread that the event names. -/
def step (next : α → σ → τ → σ × τ) (s : System ι σ τ) (e : ι × α) : System ι σ τ where
  shared := (next e.2 s.shared (s.locals e.1)).1
  locals := Function.update s.locals e.1 (next e.2 s.shared (s.locals e.1)).2

@[simp]
theorem step_shared (s : System ι σ τ) (e : ι × α) :
    (step next s e).shared = (next e.2 s.shared (s.locals e.1)).1 := rfl

theorem step_locals (s : System ι σ τ) (e : ι × α) :
    (step next s e).locals =
      Function.update s.locals e.1 (next e.2 s.shared (s.locals e.1)).2 := rfl

@[simp]
theorem step_locals_self (s : System ι σ τ) (i : ι) (a : α) :
    (step next s (i, a)).locals i = (next a s.shared (s.locals i)).2 :=
  Function.update_self ..

/-- A step leaves the other threads alone. -/
theorem step_locals_of_ne (s : System ι σ τ) {e : ι × α} {j : ι} (h : j ≠ e.1) :
    (step next s e).locals j = s.locals j :=
  Function.update_of_ne h ..

/-- A step that changes neither the shared state nor the acting thread changes nothing. -/
theorem step_eq_self {s : System ι σ τ} {e : ι × α}
    (h : next e.2 s.shared (s.locals e.1) = (s.shared, s.locals e.1)) : step next s e = s := by
  ext1
  · rw [step_shared, h]
  · rw [step_locals, h]
    exact Function.update_eq_self ..

/-- While one thread runs alone, the system is that thread's program run in sequence. -/
theorem foldl_solo (s : System ι σ τ) (i : ι) (l : List α) :
    (l.map (Prod.mk i)).foldl (step next) s =
      let p := l.foldl (fun p a => next a p.1 p.2) (s.shared, s.locals i)
      ⟨p.1, Function.update s.locals i p.2⟩ := by
  induction l generalizing s with
  | nil => simp
  | cons a l ih =>
    have hself : (step next s (i, a)).locals i = (next a s.shared (s.locals i)).2 :=
      step_locals_self s i a
    rw [List.map_cons, List.foldl_cons, ih, hself]
    simp [step]

/-! ## Conserved quantities -/

variable [Fintype ι]

/-- Updating one thread changes a sum over the threads by the difference. -/
theorem sum_update_add (w : τ → ℕ) (locals : ι → τ) (i : ι) (x : τ) :
    (∑ j, w (Function.update locals i x j)) + w (locals i) = (∑ j, w (locals j)) + w x := by
  rw [← Finset.add_sum_erase _ (fun j => w (Function.update locals i x j)) (Finset.mem_univ i),
    ← Finset.add_sum_erase _ (fun j => w (locals j)) (Finset.mem_univ i), Function.update_self]
  have hrest : ∑ j ∈ Finset.univ.erase i, w (Function.update locals i x j) =
      ∑ j ∈ Finset.univ.erase i, w (locals j) := by
    refine Finset.sum_congr rfl fun j hj => ?_
    rw [Function.update_of_ne (Finset.ne_of_mem_erase hj)]
  omega

/-- What the shared state and the threads hold together is what the shared state owes. -/
def Balanced (holds owes : σ → ℕ) (w : τ → ℕ) (s : System ι σ τ) : Prop :=
  holds s.shared + ∑ i, w (s.locals i) = owes s.shared

/-- A step that moves a quantity between the shared state and the acting thread, and owes what it
adds, keeps the balance. -/
theorem balanced_step {holds owes : σ → ℕ} {w : τ → ℕ} {s : System ι σ τ} {e : ι × α}
    (hs : Balanced holds owes w s)
    (hmove : holds (next e.2 s.shared (s.locals e.1)).1 +
        w (next e.2 s.shared (s.locals e.1)).2 + owes s.shared =
      holds s.shared + w (s.locals e.1) + owes (next e.2 s.shared (s.locals e.1)).1) :
    Balanced holds owes w (step next s e) := by
  have hsum := sum_update_add w s.locals e.1 (next e.2 s.shared (s.locals e.1)).2
  unfold Balanced at hs ⊢
  rw [step_shared, step_locals]
  omega

/-- A quantity that every guarded step only moves is conserved by every guarded schedule. -/
theorem balanced_of_along {holds owes : σ → ℕ} {w : τ → ℕ} {G : System ι σ τ → ι × α → Prop}
    (hmove : ∀ (s : System ι σ τ) (e : ι × α), G s e →
      holds (next e.2 s.shared (s.locals e.1)).1 +
          w (next e.2 s.shared (s.locals e.1)).2 + owes s.shared =
        holds s.shared + w (s.locals e.1) + owes (next e.2 s.shared (s.locals e.1)).1)
    {s : System ι σ τ} (hs : Balanced holds owes w s) {l : List (ι × α)}
    (hl : Run.Along (step next) G s l) :
    Run.Always (step next) (Balanced holds owes w) s l :=
  Run.always_of_along (fun s e hs he => balanced_step hs (hmove s e he)) hs hl

end Threads

import Mathlib.Data.List.Induction
import RustNet.Foundations.Run

/-!
# Where the end of a run comes from

What holds at the end of a run but not at its start began to hold at some step and has held since.
The part of a machine's state that only some of its events act on is the end of a run of its own.

## Main results

* `Run.exists_onset`: the last step at which a property began to hold;
* `Run.project_outputs`: the run of a part of the state.
-/

namespace Run

variable {σ τ α β : Type*} {next : σ → α → σ} {P : σ → Prop} {s : σ} {l : List α}

/-- What always holds in a run holds wherever the run is cut. -/
theorem Always.of_append (l l' : List α) (h : Always next P s (l ++ l')) :
    P (l.foldl next s) := by
  induction l generalizing s with
  | nil => exact h.head
  | cons a l ih => exact ih h.2

/-- A run always meets what its beginning always meets and its last state does. -/
theorem Always.append_singleton {a : α} (h : Always next P s l)
    (ha : P (next (l.foldl next s) a)) : Always next P s (l ++ [a]) := by
  induction l generalizing s with
  | nil => exact ⟨h, ha⟩
  | cons b l ih => exact ⟨h.1, ih h.2 ha⟩

/-- A property that holds at the end began to hold at the start or at a last step, and has held
since. -/
theorem exists_onset (hs : ¬ P s) (h : P (l.foldl next s)) :
    ∃ l₁ a l₂, l = l₁ ++ a :: l₂ ∧ ¬ P (l₁.foldl next s) ∧
      Always next P (next (l₁.foldl next s) a) l₂ := by
  induction l using List.reverseRecOn with
  | nil => exact absurd h hs
  | append_singleton l b ih =>
    rw [List.foldl_append, List.foldl_cons, List.foldl_nil] at h
    by_cases hbefore : P (l.foldl next s)
    · obtain ⟨l₁, a, l₂, rfl, hnot, hsince⟩ := ih hbefore
      rw [List.foldl_append, List.foldl_cons] at h
      exact ⟨l₁, a, l₂ ++ [b], by simp, hnot, hsince.append_singleton h⟩
    · exact ⟨l, b, [], rfl, hbefore, h⟩

/-- A part of the state on which every step acts by some events of its own is the end of the run
over these. -/
theorem project_outputs {next' : τ → β → τ} {f : σ → τ} {out : σ → α → List β}
    (hstep : ∀ s a, f (next s a) = (out s a).foldl next' (f s)) (s : σ) (l : List α) :
    f (l.foldl next s) = (outputs next out s l).flatten.foldl next' (f s) := by
  induction l generalizing s with
  | nil => rfl
  | cons a l ih =>
    rw [List.foldl_cons, ih, hstep, outputs, List.flatten_cons, List.foldl_append]

end Run

import Mathlib.Algebra.Order.Sub.Basic
import Mathlib.Data.Nat.SuccPred

/-!
# Sliding windows

A queue that elements enter at the back. It is kept short in two ways: only the newest `cap`
elements stay, and elements at the front that are older than a cutoff are taken out. In which
order the two happen, and how often, does not matter for what can be said of the queue: it is the
end of the sequence of all elements, and it has everything that is new enough in both ways.

## Main definitions

* `SlidingWindow.newest`, `SlidingWindow.expire`: the two removals;
* `SlidingWindow.Holds`: what the queue has of the sequence.

## Main results

* `Holds.push`, `Holds.expire`: both removals keep `Holds`;
* `le_of_mem_expire`: nothing that is left of an ordered queue is too old;
* `Holds.suffix_of_le`: what is new enough in both ways is there.
-/

namespace SlidingWindow

variable {α τ : Type*} [LinearOrder τ] {time : α → τ} {cap : ℕ} {cutoff cutoff' : τ}
  {pushed kept : List α}

/-- The newest `cap` elements of a list that grows at its end, or all of them if there are fewer. -/
def newest (cap : ℕ) (l : List α) : List α := l.drop (l.length - cap)

/-- What is left without the elements at the front that are older than `cutoff`. -/
def expire (time : α → τ) (cutoff : τ) (l : List α) : List α :=
  l.dropWhile fun a => decide (time a < cutoff)

/-- `kept` is what a window has of the elements `pushed`: the end of them, with whatever is among
the newest `cap` and not older than `cutoff`. -/
structure Holds (time : α → τ) (cap : ℕ) (cutoff : τ) (pushed kept : List α) : Prop where
  suffix : kept <:+ pushed
  length_le : kept.length ≤ cap
  dropped_lt : ∀ dropped, pushed = dropped ++ kept →
    ∀ a ∈ dropped.drop (pushed.length - cap), time a < cutoff

/-! ## The two removals -/

theorem newest_suffix (cap : ℕ) (l : List α) : newest cap l <:+ l := List.drop_suffix _ l

@[simp]
theorem length_newest (cap : ℕ) (l : List α) : (newest cap l).length = min l.length cap := by
  rw [newest, List.length_drop]
  omega

theorem newest_of_length_le {l : List α} (h : l.length ≤ cap) : newest cap l = l := by
  rw [newest, Nat.sub_eq_zero_of_le h, List.drop_zero]

@[simp]
theorem map_newest {β : Type*} (f : α → β) (cap : ℕ) (l : List α) :
    (newest cap l).map f = newest cap (l.map f) := by
  simp [newest]

theorem expire_suffix (time : α → τ) (cutoff : τ) (l : List α) : expire time cutoff l <:+ l :=
  List.dropWhile_suffix _

/-- Nothing that is left of an ordered queue is too old. -/
theorem le_of_mem_expire {l : List α} (h : l.Pairwise fun a b => time a ≤ time b) {a : α}
    (ha : a ∈ expire time cutoff l) : cutoff ≤ time a := by
  induction l with
  | nil => cases ha
  | cons b l ih =>
    rw [List.pairwise_cons] at h
    rw [expire, List.dropWhile_cons] at ha
    split_ifs at ha with hb
    · exact ih h.2 ha
    · rw [decide_eq_true_iff, not_lt] at hb
      rcases List.mem_cons.mp ha with rfl | ha
      · exact hb
      · exact hb.trans (h.1 a ha)

/-! ## What a window has -/

namespace Holds

theorem nil (time : α → τ) (cap : ℕ) (cutoff : τ) : Holds time cap cutoff [] [] := by
  refine ⟨List.suffix_rfl, Nat.zero_le cap, fun dropped hdropped => ?_⟩
  simp [List.append_eq_nil_iff.mp hdropped.symm]

/-- The cutoff moves on. -/
theorem mono (h : Holds time cap cutoff pushed kept) (hcutoff : cutoff ≤ cutoff') :
    Holds time cap cutoff' pushed kept :=
  ⟨h.suffix, h.length_le, fun dropped hdropped a ha =>
    (h.dropped_lt dropped hdropped a ha).trans_le hcutoff⟩

/-- One more element, and the oldest taken out over the cap. -/
theorem push (h : Holds time cap cutoff pushed kept) (a : α) :
    Holds time cap cutoff (pushed ++ [a]) (newest cap (kept ++ [a])) := by
  obtain ⟨before, hbefore⟩ := h.suffix
  have hsuffix : newest cap (kept ++ [a]) <:+ pushed ++ [a] := by
    refine (newest_suffix cap _).trans ⟨before, ?_⟩
    rw [← hbefore, List.append_assoc]
  have hlength : (newest cap (kept ++ [a])).length ≤ cap := by
    rw [length_newest]
    exact Nat.min_le_right _ _
  refine ⟨hsuffix, hlength, fun dropped hdropped b hb => ?_⟩
  by_cases hfull : cap ≤ kept.length
  · -- the window is full, so that whatever is dropped is over the cap
    have hlen := congrArg List.length hdropped
    simp only [List.length_append, List.length_singleton, length_newest] at hlen
    rw [List.drop_eq_nil_of_le (by simp; omega)] at hb
    cases hb
  · have hkept : newest cap (kept ++ [a]) = kept ++ [a] :=
      newest_of_length_le (by simp; omega)
    rw [hkept, ← List.append_assoc] at hdropped
    obtain ⟨hpushed, -⟩ := List.append_inj' hdropped rfl
    refine h.dropped_lt dropped hpushed b ((List.drop_suffix_drop_left dropped ?_).subset hb)
    simp only [List.length_append, List.length_singleton]
    omega

/-- The elements at the front that are too old are taken out. -/
theorem expire (h : Holds time cap cutoff pushed kept) :
    Holds time cap cutoff pushed (expire time cutoff kept) := by
  have hsuffix := expire_suffix time cutoff kept
  refine ⟨hsuffix.trans h.suffix, hsuffix.length_le.trans h.length_le,
    fun dropped hdropped a ha => ?_⟩
  -- what is dropped was dropped before, or is at the front and too old
  obtain ⟨before, hbefore⟩ := h.suffix
  have hfront : kept = kept.takeWhile (fun a => decide (time a < cutoff)) ++
      SlidingWindow.expire time cutoff kept := List.takeWhile_append_dropWhile.symm
  have hsplit : dropped = before ++ kept.takeWhile fun a => decide (time a < cutoff) := by
    rw [← hbefore] at hdropped
    nth_rewrite 1 [hfront] at hdropped
    rw [← List.append_assoc] at hdropped
    exact (List.append_cancel_right hdropped).symm
  rw [hsplit, List.drop_append] at ha
  rcases List.mem_append.mp ha with ha | ha
  · exact h.dropped_lt before hbefore.symm a ha
  · exact of_decide_eq_true (List.all_eq_true.mp List.all_takeWhile a (List.mem_of_mem_drop ha))

/-- What is new enough in both ways is there, with all that came after it. -/
theorem suffix_of_le (h : Holds time cap cutoff pushed kept) {before after : List α} {a : α}
    (hpushed : pushed = before ++ a :: after) (hnew : after.length < cap)
    (htime : cutoff ≤ time a) : a :: after <:+ kept := by
  have hsuffix : a :: after <:+ pushed := ⟨before, hpushed.symm⟩
  rcases List.suffix_or_suffix_of_suffix hsuffix h.suffix with hkept | hkept
  · exact hkept
  rcases List.suffix_cons_iff.mp hkept with rfl | ⟨mid, rfl⟩
  · exact List.suffix_rfl
  · -- otherwise it is among those that were dropped
    have hdropped : pushed = (before ++ a :: mid) ++ kept := by simp [hpushed]
    have hlt := h.dropped_lt _ hdropped a (by
      rw [List.drop_append_of_le_length]
      · simp
      · simp only [hpushed, List.length_append, List.length_cons] at hnew ⊢
        omega)
    exact absurd htime (not_le.mpr hlt)

end Holds

end SlidingWindow

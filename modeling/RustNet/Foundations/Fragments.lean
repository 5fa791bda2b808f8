import Mathlib.Algebra.BigOperators.Group.List.Basic
import Mathlib.Algebra.Order.BigOperators.Group.List
import Mathlib.Algebra.Order.Ring.Nat
import Mathlib.Data.List.Perm.Subperm

/-!
# Fragments of a stream

A fragment is a run of elements with the position of its first. A list of fragments is a partial
function from positions to elements, read off the first fragment that covers a position; for
fragments that lie apart the order does not matter.

## Main results

* `Fragments.read?_perm`: fragments that lie apart read the same in any order;
* `Fragments.Ordered.of_sorted`: fragments that lie apart and are sorted by their starts follow one
  another;
* `Fragments.Reads.append`, `Fragments.Reads.cons`, `Fragments.Reads.head`: what is read from a
  position on;
* `Fragments.Frontier.unique`: the length of the prefix without gaps;
* `Fragments.read?_ofParts`: the parts of a sequence read as the sequence itself;
* `Fragments.size_le_of_subset`: different fragments among others are not longer than those.
-/

namespace Fragments

variable {α : Type*}

/-- The position behind a fragment. -/
def stop (f : ℕ × List α) : ℕ := f.1 + f.2.length

/-- The fragment has an element at `o`. -/
def Covers (f : ℕ × List α) (o : ℕ) : Prop := f.1 ≤ o ∧ o < stop f

instance (f : ℕ × List α) (o : ℕ) : Decidable (Covers f o) := by
  unfold Covers
  infer_instance

/-- No position is covered by both. -/
def Apart (f g : ℕ × List α) : Prop := stop f ≤ g.1 ∨ stop g ≤ f.1

instance (f g : ℕ × List α) : Decidable (Apart f g) := by
  unfold Apart
  infer_instance

theorem Apart.symm {f g : ℕ × List α} (h : Apart f g) : Apart g f := Or.symm h

instance : Std.Symm (@Apart α) := ⟨fun _ _ => Apart.symm⟩

/-- Some fragment has an element at `o`. -/
def CoveredAt (fs : List (ℕ × List α)) (o : ℕ) : Prop := ∃ f ∈ fs, Covers f o

/-- The element of a fragment at `o`. -/
def readOne? (f : ℕ × List α) (o : ℕ) : Option α := if f.1 ≤ o then f.2[o - f.1]? else none

/-- The element at `o`, of the first fragment that has one. -/
def read? (fs : List (ℕ × List α)) (o : ℕ) : Option α := fs.findSome? (readOne? · o)

/-- Every fragment ends where the next one starts, or before. -/
def Ordered (fs : List (ℕ × List α)) : Prop := fs.Pairwise fun f g => stop f ≤ g.1

/-- The elements of all fragments together. -/
def size (fs : List (ℕ × List α)) : ℕ := (fs.map (·.2.length)).sum

/-- Everything before `n` is covered, and `n` is not. -/
def Frontier (fs : List (ℕ × List α)) (n : ℕ) : Prop :=
  (∀ o < n, CoveredAt fs o) ∧ ¬ CoveredAt fs n

/-- `xs` are the elements from `n` up to `m`. -/
structure Reads (fs : List (ℕ × List α)) (n m : ℕ) (xs : List α) : Prop where
  length_eq : xs.length = m - n
  getElem?_eq : ∀ o, n ≤ o → o < m → xs[o - n]? = read? fs o

section Read

variable {f g : ℕ × List α} {fs gs : List (ℕ × List α)} {o : ℕ}

theorem readOne?_isSome_iff : (readOne? f o).isSome ↔ Covers f o := by
  unfold readOne? Covers stop
  split_ifs with h
  · rw [Option.isSome_iff_ne_none, ne_eq, List.getElem?_eq_none_iff]
    omega
  · simp only [Option.isSome_none, Bool.false_eq_true, false_iff]
    exact fun hc => h hc.1

theorem readOne?_eq_none (h : ¬ Covers f o) : readOne? f o = none := by
  rwa [← Option.not_isSome_iff_eq_none, readOne?_isSome_iff]

@[simp]
theorem read?_nil : read? ([] : List (ℕ × List α)) o = none := rfl

theorem read?_cons : read? (f :: fs) o = (readOne? f o).or (read? fs o) := by
  rw [read?, List.findSome?_cons]
  rcases readOne? f o with _ | a <;> rfl

theorem read?_append : read? (fs ++ gs) o = (read? fs o).or (read? gs o) := by
  induction fs with
  | nil => rw [List.nil_append, read?_nil, Option.none_or]
  | cons f fs ih => rw [List.cons_append, read?_cons, read?_cons, ih, Option.or_assoc]

theorem read?_isSome_iff : (read? fs o).isSome ↔ CoveredAt fs o := by
  unfold read? CoveredAt
  rw [List.findSome?_isSome_iff]
  simp only [readOne?_isSome_iff]

theorem read?_eq_none_iff : read? fs o = none ↔ ¬ CoveredAt fs o := by
  rw [← read?_isSome_iff, Option.not_isSome_iff_eq_none]

/-- Fragments that lie apart cover no position twice. -/
theorem Apart.not_covers (h : Apart f g) (hf : Covers f o) : ¬ Covers g o := by
  intro hg
  unfold Apart at h
  obtain ⟨hf, hf'⟩ := hf
  obtain ⟨hg, hg'⟩ := hg
  omega

theorem read?_of_mem (hapart : fs.Pairwise Apart) (hf : f ∈ fs) (hcovers : Covers f o) :
    read? fs o = readOne? f o := by
  induction fs with
  | nil => exact absurd hf List.not_mem_nil
  | cons g fs ih =>
    rw [List.pairwise_cons] at hapart
    rw [read?_cons]
    rcases List.mem_cons.mp hf with rfl | hf
    · obtain ⟨a, ha⟩ := Option.isSome_iff_exists.mp (readOne?_isSome_iff.mpr hcovers)
      rw [ha, Option.some_or]
    · have hg : ¬ Covers g o := (hapart.1 f hf).symm.not_covers hcovers
      rw [readOne?_eq_none hg, Option.none_or]
      exact ih hapart.2 hf

theorem CoveredAt.cons (h : CoveredAt fs o) : CoveredAt (f :: fs) o := by
  obtain ⟨g, hg, hcovers⟩ := h
  exact ⟨g, List.mem_cons_of_mem f hg, hcovers⟩

/-- Behind the end of the first fragment the others count. -/
theorem coveredAt_cons_of_stop_le (h : stop f ≤ o) : CoveredAt (f :: fs) o ↔ CoveredAt fs o := by
  constructor
  · rintro ⟨g, hg, hcovers⟩
    rcases List.mem_cons.mp hg with rfl | hg
    · exact absurd h (Nat.not_le.mpr hcovers.2)
    · exact ⟨g, hg, hcovers⟩
  · exact CoveredAt.cons

theorem read?_cons_of_stop_le (h : stop f ≤ o) : read? (f :: fs) o = read? fs o := by
  have hnot : ¬ Covers f o := fun hcovers => absurd h (Nat.not_le.mpr hcovers.2)
  rw [read?_cons, readOne?_eq_none hnot, Option.none_or]

theorem read?_cons_of_covers (h : Covers f o) : read? (f :: fs) o = f.2[o - f.1]? := by
  have hone : readOne? f o = f.2[o - f.1]? := if_pos h.1
  obtain ⟨a, ha⟩ := Option.isSome_iff_exists.mp (readOne?_isSome_iff.mpr h)
  rw [read?_cons, ha, Option.some_or, ← ha, hone]

namespace Reads

variable {n m l : ℕ} {xs ys : List α}

theorem nil (h : m ≤ n) : Reads fs n m [] where
  length_eq := (Nat.sub_eq_zero_of_le h).symm
  getElem?_eq := fun _ ho ho' => absurd (h.trans ho) (Nat.not_le.mpr ho')

/-- Two runs of elements that follow one another. -/
theorem append (hnm : n ≤ m) (hml : m ≤ l) (hxs : Reads fs n m xs) (hys : Reads fs m l ys) :
    Reads fs n l (xs ++ ys) where
  length_eq := by
    rw [List.length_append, hxs.length_eq, hys.length_eq]
    omega
  getElem?_eq := by
    intro o ho ho'
    have hlen := hxs.length_eq
    rcases Nat.lt_or_ge o m with hlt | hge
    · rw [List.getElem?_append_left (by omega)]
      exact hxs.getElem?_eq o ho hlt
    · have hindex : o - n - (m - n) = o - m := by omega
      rw [List.getElem?_append_right (by omega), hlen, hindex]
      exact hys.getElem?_eq o hge ho'

/-- Behind the end of the first fragment the others are read. -/
theorem cons (h : stop f ≤ n) (hxs : Reads fs n m xs) : Reads (f :: fs) n m xs where
  length_eq := hxs.length_eq
  getElem?_eq := by
    intro o ho ho'
    rw [read?_cons_of_stop_le (h.trans ho)]
    exact hxs.getElem?_eq o ho ho'

/-- Up to the end of the first fragment it is read itself. -/
theorem head (h : f.1 ≤ n) : Reads (f :: fs) n (stop f) (f.2.drop (n - f.1)) where
  length_eq := by
    rw [List.length_drop, stop]
    omega
  getElem?_eq := by
    intro o ho ho'
    have hindex : n - f.1 + (o - n) = o - f.1 := by omega
    rw [read?_cons_of_covers ⟨h.trans ho, ho'⟩, List.getElem?_drop, hindex]

end Reads

theorem coveredAt_perm (h : fs.Perm gs) : CoveredAt fs o ↔ CoveredAt gs o := by
  unfold CoveredAt
  simp only [h.mem_iff]

/-- Fragments that lie apart read the same in any order. -/
theorem read?_perm (hapart : fs.Pairwise Apart) (h : fs.Perm gs) : read? fs o = read? gs o := by
  have hapart' : gs.Pairwise Apart := h.pairwise hapart fun hfg => hfg.symm
  by_cases hcovered : CoveredAt fs o
  · obtain ⟨f, hf, hcovers⟩ := hcovered
    rw [read?_of_mem hapart hf hcovers, read?_of_mem hapart' (h.mem_iff.mp hf) hcovers]
  · rw [read?_eq_none_iff.mpr hcovered,
      read?_eq_none_iff.mpr ((coveredAt_perm h).not.mp hcovered)]

end Read

/-! ## Order -/

section Order

variable {f : ℕ × List α} {fs : List (ℕ × List α)} {m n : ℕ}

theorem Ordered.apart (h : Ordered fs) : fs.Pairwise Apart := h.imp fun hfg => .inl hfg

/-- Fragments that lie apart and start one behind another follow one another. -/
theorem Ordered.of_sorted (hne : ∀ f ∈ fs, f.2 ≠ []) (hsorted : fs.Pairwise fun f g => f.1 < g.1)
    (hapart : fs.Pairwise Apart) : Ordered fs := by
  refine (hsorted.and hapart).imp_of_mem fun {f g} hf hg h => ?_
  obtain ⟨hlt, hfg | hgf⟩ := h
  · exact hfg
  -- `g` would end where `f` starts, before its own start
  · have := List.length_pos_of_ne_nil (hne g hg)
    unfold stop at hgf
    omega

/-- Nothing lies before the first of ordered fragments. -/
theorem Ordered.not_coveredAt_of_lt (h : Ordered (f :: fs)) (hlt : n < f.1) :
    ¬ CoveredAt (f :: fs) n := by
  rintro ⟨g, hg, hcovers⟩
  -- the others start behind the end of the first one
  rcases List.mem_cons.mp hg with rfl | hg
  · exact absurd hcovers.1 (Nat.not_le.mpr hlt)
  · have hstop : stop f ≤ g.1 := (List.pairwise_cons.mp h).1 g hg
    have hstart : g.1 ≤ n := hcovers.1
    unfold stop at hstop
    omega

theorem Frontier.unique (hm : Frontier fs m) (hn : Frontier fs n) : m = n := by
  rcases Nat.lt_trichotomy m n with h | h | h
  · exact absurd (hn.1 m h) hm.2
  · exact h
  · exact absurd (hm.1 n h) hn.2

end Order

/-! ## Parts of a sequence -/

/-- Consecutive fragments from `start` on. -/
def ofParts (start : ℕ) : List (List α) → List (ℕ × List α)
  | [] => []
  | part :: parts => (start, part) :: ofParts (start + part.length) parts

section Parts

variable {f : ℕ × List α} {parts : List (List α)} {start : ℕ}

theorem start_le_of_mem_ofParts (h : f ∈ ofParts start parts) : start ≤ f.1 := by
  induction parts generalizing start with
  | nil => exact absurd h List.not_mem_nil
  | cons part parts ih =>
    rcases List.mem_cons.mp h with rfl | h
    · exact le_rfl
    · exact (Nat.le_add_right _ _).trans (ih h)

theorem ne_nil_of_mem_ofParts (hne : ∀ part ∈ parts, part ≠ []) (h : f ∈ ofParts start parts) :
    f.2 ≠ [] := by
  induction parts generalizing start with
  | nil => exact absurd h List.not_mem_nil
  | cons part parts ih =>
    rw [List.forall_mem_cons] at hne
    rcases List.mem_cons.mp h with rfl | h
    · exact hne.1
    · exact ih hne.2 h

theorem ordered_ofParts (start : ℕ) (parts : List (List α)) : Ordered (ofParts start parts) := by
  induction parts generalizing start with
  | nil => exact List.Pairwise.nil
  | cons part parts ih =>
    exact List.pairwise_cons.mpr ⟨fun f hf => start_le_of_mem_ofParts hf, ih _⟩

/-- Parts that are not empty are different fragments. -/
theorem nodup_ofParts (hne : ∀ part ∈ parts, part ≠ []) : (ofParts start parts).Nodup := by
  refine (ordered_ofParts start parts).imp_of_mem fun {f g} hf _ hfg heq => ?_
  have hpos := List.length_pos_of_ne_nil (ne_nil_of_mem_ofParts hne hf)
  rw [← heq, stop] at hfg
  omega

/-- A part is what the sequence has at its place. -/
theorem eq_take_of_mem_ofParts (h : f ∈ ofParts start parts) :
    f.2 = (parts.flatten.drop (f.1 - start)).take f.2.length := by
  induction parts generalizing start with
  | nil => exact absurd h List.not_mem_nil
  | cons part parts ih =>
    rw [List.flatten_cons]
    rcases List.mem_cons.mp h with rfl | h
    · rw [Nat.sub_self, List.drop_zero, List.take_left]
    · have hstart := start_le_of_mem_ofParts h
      have hpart : f.1 - start = part.length + (f.1 - (start + part.length)) := by omega
      rw [hpart, List.drop_append, List.drop_eq_nil_of_le (by omega), List.nil_append,
        Nat.add_sub_cancel_left]
      exact ih h

theorem size_ofParts (start : ℕ) (parts : List (List α)) :
    size (ofParts start parts) = parts.flatten.length := by
  induction parts generalizing start with
  | nil => rfl
  | cons part parts ih =>
    rw [List.flatten_cons, List.length_append, ← ih (start + part.length)]
    exact List.sum_cons

/-- The parts of a sequence read as the sequence. -/
theorem read?_ofParts (start : ℕ) (parts : List (List α)) (o : ℕ) :
    read? (ofParts start parts) o = readOne? (start, parts.flatten) o := by
  induction parts generalizing start with
  | nil => simp [ofParts, readOne?]
  | cons part parts ih =>
    rw [ofParts, read?_cons, ih]
    unfold readOne?
    dsimp only
    rcases Nat.lt_or_ge o start with hlt | hge
    · rw [if_neg (by omega), if_neg (by omega), if_neg (by omega), Option.none_or]
    rw [if_pos hge, if_pos hge, List.flatten_cons]
    -- in the first part, or in one of the others
    rcases Nat.lt_or_ge (o - start) part.length with hin | hout
    · rw [List.getElem?_append_left hin, List.getElem?_eq_getElem hin, Option.some_or]
    · rw [List.getElem?_append_right hout, List.getElem?_eq_none hout, Option.none_or,
        if_pos (by omega), Nat.sub_sub]

end Parts

/-! ## Size -/

section Size

variable {f : ℕ × List α} {fs gs : List (ℕ × List α)}

theorem size_cons : size (f :: fs) = f.2.length + size fs := List.sum_cons

theorem size_perm (h : fs.Perm gs) : size fs = size gs := (h.map _).sum_eq

/-- Different fragments among others are not longer than those. -/
theorem size_le_of_subset (hnodup : fs.Nodup) (hsub : fs ⊆ gs) :
    size fs ≤ size gs := by
  obtain ⟨gs', hperm, hsublist⟩ := List.subperm_of_subset hnodup hsub
  calc size fs
      = size gs' := (size_perm hperm).symm
    _ ≤ size gs := (hsublist.map _).sum_le_sum fun _ _ => Nat.zero_le _

end Size

end Fragments

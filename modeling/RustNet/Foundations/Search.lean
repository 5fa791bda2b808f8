import Mathlib.Data.List.Basic
import Mathlib.Data.List.MinMax
import Mathlib.Data.List.Range
import Mathlib.Order.Basic

/-!
# The first and the last of a list

A loop that replaces what it has found keeps the last find; a search for a part of a list returns
its first occurrence. The first of the least elements is the first of the zeros if there are any,
and a search through the numbers from a start on may stop where a condition ends.

## Main results

* `Search.foldl_or`: the last of the finds in a list;
* `Search.argmin_eq_find?`: the first of the least elements where there is a zero;
* `Search.mem_takeWhile_range'`: the numbers up to the end of a condition;
* `Search.findSubsequence_eq`: the first occurrence of a part of a list.
-/

namespace Search

variable {α β : Type*}

/-- A loop that replaces its find keeps the last one, and what it started with if there is none. -/
theorem foldl_or (f : α → Option β) (l : List α) (found : Option β) :
    l.foldl (fun found a => (f a).or found) found = (l.filterMap f).getLast?.or found := by
  induction l generalizing found with
  | nil => rfl
  | cons a l ih =>
    rw [List.foldl_cons, ih]
    rcases ha : f a with _ | b
    · rw [List.filterMap_cons_none ha, Option.none_or]
    · rw [List.filterMap_cons_some ha, List.getLast?_cons]
      rcases (l.filterMap f).getLast? with _ | c <;> rfl

/-- Where nothing is below zero and something is zero, the first of the least elements is the first
that is zero. -/
theorem argmin_eq_find? {γ : Type*} [LinearOrder γ] [Zero γ] {f : α → γ} {l : List α}
    (hnonneg : ∀ a ∈ l, 0 ≤ f a) (hzero : ∃ a ∈ l, f a = 0) :
    l.argmin f = l.find? fun a => decide (f a = 0) := by
  induction l with
  | nil => rfl
  | cons a l ih =>
    rw [List.argmin_cons]
    by_cases ha : f a = 0
    · -- nothing behind a zero is less than it
      rw [List.find?_cons_of_pos (by simpa using ha)]
      cases hrest : l.argmin f with
      | none => rfl
      | some b =>
        have hb := hnonneg b (List.mem_cons_of_mem a (List.argmin_mem hrest))
        exact if_neg (by rw [ha]; exact not_lt.mpr hb)
    · have hzero' : ∃ b ∈ l, f b = 0 := by
        obtain ⟨b, hb, hbzero⟩ := hzero
        refine ⟨b, (List.mem_cons.mp hb).resolve_left fun heq => ha (heq ▸ hbzero), hbzero⟩
      rw [List.find?_cons_of_neg (by simpa using ha),
        ih (fun b hb => hnonneg b (List.mem_cons_of_mem a hb)) hzero']
      obtain ⟨b, hb, hbzero⟩ := hzero'
      cases hrest : l.find? fun b => decide (f b = 0) with
      | none => exact absurd (List.find?_eq_none.mp hrest b hb) (by simpa using hbzero)
      | some c =>
        have hc : f c = 0 := by simpa using List.find?_some hrest
        have hpos : 0 < f a := lt_of_le_of_ne (hnonneg a List.mem_cons_self) (Ne.symm ha)
        exact if_pos (by rw [hc]; exact hpos)

/-- Of the numbers from `start` on those are taken that a condition is true of, if it ends but does
not begin again. -/
theorem mem_takeWhile_range' {p : ℕ → Bool} (hp : ∀ i j, i ≤ j → p j → p i) {i start n : ℕ} :
    i ∈ (List.range' start n).takeWhile p ↔ start ≤ i ∧ i < start + n ∧ p i := by
  -- the range is taken from its start, which moves on
  induction n generalizing start with
  | zero =>
    rw [List.range'_zero, List.takeWhile_nil]
    refine iff_of_false List.not_mem_nil ?_
    omega
  | succ n ih =>
    rw [List.range'_succ, List.takeWhile_cons]
    split_ifs with hstart
    · rw [List.mem_cons, ih]
      constructor
      · rintro (rfl | ⟨hle, hlt, hi⟩)
        · exact ⟨le_rfl, by omega, hstart⟩
        · exact ⟨by omega, by omega, hi⟩
      · rintro ⟨hle, hlt, hi⟩
        rcases eq_or_lt_of_le hle with rfl | hlt'
        · exact Or.inl rfl
        · exact Or.inr ⟨hlt', by omega, hi⟩
    · refine iff_of_false List.not_mem_nil ?_
      rintro ⟨hle, -, hi⟩
      exact hstart (hp start i hle hi)

/-! ## Parts -/

section Parts

variable [DecidableEq α] {before needle after : List α}

/-- Where `needle` first occurs in `haystack`, as a whole and in one piece. An empty needle occurs
at the start. -/
def findSubsequence (haystack needle : List α) : Option ℕ :=
  (List.range (haystack.length + 1 - needle.length)).find? fun i =>
    needle.isPrefixOf (haystack.drop i)

/-- The part does not occur in front of `offset`. -/
def FirstAt (haystack needle : List α) (offset : ℕ) : Prop :=
  ∀ i < offset, ¬ needle <+: haystack.drop i

instance (haystack needle : List α) (offset : ℕ) :
    Decidable (FirstAt haystack needle offset) :=
  inferInstanceAs (Decidable (∀ i < offset, ¬ needle <+: haystack.drop i))

/-- A part that does not occur earlier is found where it is. -/
theorem findSubsequence_eq (h : FirstAt (before ++ (needle ++ after)) needle before.length) :
    findSubsequence (before ++ (needle ++ after)) needle = some before.length := by
  rw [findSubsequence, List.find?_range_eq_some]
  refine ⟨?_, ?_, fun j hj => ?_⟩
  · rw [List.drop_left, List.isPrefixOf_iff_prefix]
    exact List.prefix_append needle after
  · rw [List.mem_range, List.length_append, List.length_append]
    omega
  · rw [Bool.not_eq_true', ← Bool.not_eq_true, List.isPrefixOf_iff_prefix]
    exact h j hj

/-- What is found lies within the whole. -/
theorem add_length_le_of_findSubsequence {haystack : List α} {offset : ℕ}
    (h : findSubsequence haystack needle = some offset) :
    offset + needle.length ≤ haystack.length := by
  have hlt := List.mem_range.mp (List.mem_of_find?_eq_some h)
  omega

end Parts

end Search

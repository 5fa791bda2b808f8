import Mathlib.Data.List.Sort
import Mathlib.Order.Compare
import Mathlib.Data.Prod.Lex

/-!
# Sorting with a comparison that changes

A sort asks a comparison for the order of two elements, again and again. If all answers go by one
key of the elements, it returns the list sorted by that key, and stable. If they do not, nothing is
promised: an implementation that notices may give up. Here a comparison is a family, with one
member for each time that it can be asked.

## Main definitions

* `ComparesBy`, `FixedKey`: the answers about the elements of a list go by one key;
* `StablySorted`: what a stable sort returns;
* `SliceSort`: a sort that returns it where there is such a key.

## Main results

* `fixedKey_varying_iff`: a key that varies is fixed exactly if it varies for no element;
* `fixedKey_partial_iff`: a key that some elements do not have, and that makes them equal to all,
  is fixed exactly if all have it or no two differ in it.
-/

variable {ι α κ : Type}

/-! ## Fixed keys -/

/-- Whenever two elements of the list are compared, it is by their keys. -/
def ComparesBy [LinearOrder κ] (key : α → κ) (cmp : ι → α → α → Ordering) (l : List α) : Prop :=
  ∀ i, ∀ a ∈ l, ∀ b ∈ l, cmp i a b = compare (key a) (key b)

/-- The elements of the list compare by one key. -/
def FixedKey (cmp : ι → α → α → Ordering) (l : List α) : Prop :=
  ∃ (κ : Type) (_ : LinearOrder κ) (key : α → κ), ComparesBy key cmp l

variable {l : List α} {cmp cmp' : ι → α → α → Ordering}

theorem FixedKey.of_key [LinearOrder κ] (key : α → κ)
    (h : ∀ i a b, cmp i a b = compare (key a) (key b)) : FixedKey cmp l :=
  ⟨κ, _, key, fun i a _ b _ => h i a b⟩

theorem FixedKey.congr (h : ∀ i, ∀ a ∈ l, ∀ b ∈ l, cmp' i a b = cmp i a b)
    (hfixed : FixedKey cmp l) : FixedKey cmp' l := by
  obtain ⟨κ, _, key, hkey⟩ := hfixed
  refine ⟨κ, inferInstance, key, fun i a ha b hb => ?_⟩
  rw [h i a ha b hb]
  exact hkey i a ha b hb

theorem FixedKey.swap (hfixed : FixedKey cmp l) : FixedKey (fun i a b => (cmp i a b).swap) l := by
  obtain ⟨κ, _, key, hkey⟩ := hfixed
  refine ⟨κᵒᵈ, inferInstance, fun a => OrderDual.toDual (key a), fun i a ha b hb => ?_⟩
  show (cmp i a b).swap = compare (key b) (key a)
  rw [hkey i a ha b hb]
  exact Std.OrientedCmp.eq_swap.symm

/-- The direction makes no difference. -/
theorem fixedKey_swap_iff : FixedKey (fun i a b => (cmp i a b).swap) l ↔ FixedKey cmp l := by
  refine ⟨fun h => ?_, FixedKey.swap⟩
  refine h.swap.congr fun i a _ b _ => ?_
  exact Ordering.swap_swap.symm

/-- A fixed key compares an element with itself as equal. -/
theorem FixedKey.eq_of_self (hfixed : FixedKey cmp l) (i : ι) {a : α} (ha : a ∈ l) :
    cmp i a a = .eq := by
  obtain ⟨κ, _, key, hkey⟩ := hfixed
  rw [hkey i a ha a ha]
  exact compare_eq_iff_eq.mpr rfl

/-- A key that is read at two times. It is fixed exactly if no element's changes. -/
theorem fixedKey_varying_iff [Nonempty ι] [LinearOrder κ] (key : ι → α → κ) :
    FixedKey (fun (i : ι × ι) a b => compare (key i.1 a) (key i.2 b)) l ↔
      ∀ a ∈ l, ∀ i j, key i a = key j a := by
  constructor
  · intro hfixed a ha i j
    exact compare_eq_iff_eq.mp (hfixed.eq_of_self (i, j) ha)
  · intro h
    obtain ⟨i₀⟩ := ‹Nonempty ι›
    refine ⟨κ, inferInstance, key i₀, fun i a ha b hb => ?_⟩
    show compare (key i.1 a) (key i.2 b) = _
    rw [h a ha i.1 i₀, h b hb i.2 i₀]

/-- The comparison by a key that not all elements have: without one, an element is equal to all. -/
def comparePartial [LinearOrder κ] (key : α → Option κ) (a b : α) : Ordering :=
  match key a, key b with
  | some x, some y => compare x y
  | _, _ => .eq

/-- Together with an element that has no key, any two that differ in theirs make it no order. -/
theorem fixedKey_partial_iff [Nonempty ι] [LinearOrder κ] {key : α → Option κ} :
    FixedKey (fun (_ : ι) => comparePartial key) l ↔
      (∀ a ∈ l, key a ≠ none) ∨
        ∀ a ∈ l, ∀ b ∈ l, ∀ x, key a = some x → ∀ y, key b = some y → x = y := by
  constructor
  · rintro ⟨τ, _, rank, hrank⟩
    rw [or_iff_not_imp_left]
    intro hnone a ha b hb x hx y hy
    push Not at hnone
    obtain ⟨c, hc, hcnone⟩ := hnone
    obtain ⟨i⟩ := ‹Nonempty ι›
    -- both are equal to the one without a key
    have hac := hrank i a ha c hc
    have hcb := hrank i c hc b hb
    have hab := hrank i a ha b hb
    simp only [comparePartial, hx, hcnone] at hac
    simp only [comparePartial, hcnone] at hcb
    simp only [comparePartial, hx, hy] at hab
    have hrankab : rank a = rank b :=
      (compare_eq_iff_eq.mp hac.symm).trans (compare_eq_iff_eq.mp hcb.symm)
    rw [hrankab, compare_eq_iff_eq.mpr (rfl : rank b = rank b)] at hab
    exact compare_eq_iff_eq.mp hab
  · rintro (hsome | hequal)
    · cases l with
      | nil => exact ⟨Unit, inferInstance, fun _ => (), fun _ a ha => absurd ha List.not_mem_nil⟩
      | cons c l =>
        obtain ⟨z, hz⟩ := Option.ne_none_iff_exists'.mp (hsome c List.mem_cons_self)
        refine ⟨κ, inferInstance, fun a => (key a).getD z, fun _ a ha b hb => ?_⟩
        obtain ⟨x, hx⟩ := Option.ne_none_iff_exists'.mp (hsome a ha)
        obtain ⟨y, hy⟩ := Option.ne_none_iff_exists'.mp (hsome b hb)
        simp only [comparePartial, hx, hy, Option.getD_some]
    · refine ⟨Unit, inferInstance, fun _ => (), fun _ a ha b hb => ?_⟩
      show comparePartial key a b = .eq
      unfold comparePartial
      split
      next x y hx hy => exact compare_eq_iff_eq.mpr (hequal a ha b hb x hx y hy)
      next => rfl

/-! ## Stable sorts -/

/-- What a stable sort by a key makes of a list. -/
structure StablySorted [LinearOrder κ] (key : α → κ) (l sorted : List α) : Prop where
  perm : sorted.Perm l
  ordered : sorted.Pairwise fun a b => key a ≤ key b
  /-- Those with equal keys keep their order. -/
  stable : ∀ k, sorted.filter (key · = k) = l.filter (key · = k)

/-- In a list in the order of a key, the elements with a smaller key come first. -/
theorem List.Pairwise.eq_filter_append [LinearOrder κ] {key : α → κ} {l : List α}
    (h : l.Pairwise fun a b => key a ≤ key b) (k : κ) :
    l = l.filter (key · < k) ++ l.filter (k ≤ key ·) := by
  induction l with
  | nil => rfl
  | cons a l ih =>
    obtain ⟨ha, hl⟩ := List.pairwise_cons.mp h
    by_cases hlt : key a < k
    · rw [List.filter_cons_of_pos (by simpa using hlt), List.filter_cons_of_neg (by simpa using hlt),
        List.cons_append, ← ih hl]
    · have hle : k ≤ key a := not_lt.mp hlt
      -- nothing behind an element that is not below `k` is below it either
      have hnone : l.filter (key · < k) = [] := List.filter_eq_nil_iff.mpr fun b hb => by
        simpa using hle.trans (ha b hb)
      rw [List.filter_cons_of_neg (by simpa using hlt), List.filter_cons_of_pos (by simpa using hle),
        hnone]
      have hrest := ih hl
      rw [hnone] at hrest
      exact congrArg (a :: ·) hrest

namespace StablySorted

variable [LinearOrder κ] {key : α → κ} {l sorted : List α} {a : α} {n : ℕ}

theorem length_filter (h : StablySorted key l sorted) (k : κ) :
    (sorted.filter (key · < k)).length = (l.filter (key · < k)).length :=
  (h.perm.filter _).length_eq

/-- What stands among the first has few elements before it. -/
theorem length_lt_of_mem_take (h : StablySorted key l sorted) (ha : a ∈ sorted.take n) :
    (l.filter (key · < key a)).length < n := by
  by_contra hle
  rw [← h.length_filter, not_lt] at hle
  rw [h.ordered.eq_filter_append (key a), List.take_append_of_le_length hle] at ha
  have hlt := (List.mem_filter.mp (List.mem_of_mem_take ha)).2
  exact lt_irrefl _ (of_decide_eq_true hlt)

/-- The first of those with its key, with few elements before these, stands among the first. -/
theorem mem_take (h : StablySorted key l sorted)
    (hfirst : (l.filter (key · = key a)).head? = some a)
    (hn : (l.filter (key · < key a)).length < n) : a ∈ sorted.take n := by
  have hmem : a ∈ l.filter (key · = key a) := List.mem_of_head? hfirst
  have hsorted : a ∈ sorted := h.perm.mem_iff.mpr (List.mem_of_mem_filter hmem)
  have hsplit := h.ordered.eq_filter_append (key a)
  have hrest : a ∈ sorted.filter (key a ≤ key ·) := List.mem_filter.mpr ⟨hsorted, by simp⟩
  have hordered := h.ordered.filter (key a ≤ key ·)
  cases hlarger : sorted.filter (key a ≤ key ·) with
  | nil => simp [hlarger] at hrest
  | cons b larger =>
    rw [hlarger] at hrest hordered
    -- the first that is not smaller has the same key, and is the element itself
    have hle : key b ≤ key a := by
      rcases List.mem_cons.mp hrest with rfl | hrest
      · exact le_rfl
      · exact List.rel_of_pairwise_cons hordered hrest
    have hge : key a ≤ key b := by
      have hb : b ∈ sorted.filter (key a ≤ key ·) := by rw [hlarger]; exact List.mem_cons_self
      exact of_decide_eq_true (List.mem_filter.mp hb).2
    have hkey : key b = key a := le_antisymm hle hge
    have hsmaller : (sorted.filter (key · < key a)).filter (key · = key a) = [] := by
      refine List.filter_eq_nil_iff.mpr fun c hc heq => ?_
      have hlt := of_decide_eq_true (List.mem_filter.mp hc).2
      exact hlt.ne (of_decide_eq_true heq)
    have hstable := h.stable (key a)
    rw [hsplit, List.filter_append, hsmaller, List.nil_append, hlarger,
      List.filter_cons_of_pos (by simpa using hkey)] at hstable
    rw [← hstable] at hfirst
    obtain rfl := Option.some.inj hfirst
    rw [← h.length_filter] at hn
    obtain ⟨m, hm⟩ := Nat.exists_eq_add_of_lt hn
    rw [hsplit, hlarger, List.take_append]
    apply List.mem_append_right
    have hpos : n - (sorted.filter (key · < key b)).length = m + 1 := by omega
    rw [hpos, List.take_succ_cons]
    exact List.mem_cons_self

end StablySorted

/-- A stable sort, which asks the comparison for the `n`th time. -/
structure SliceSort (α : Type) where
  sortBy : (ℕ → α → α → Ordering) → List α → Option (List α)
  /-- It is promised to return only where the comparison goes by a key. -/
  sortBy_eq_some : ∀ {κ : Type} [LinearOrder κ] (key : α → κ) (cmp : ℕ → α → α → Ordering)
    (l : List α), ComparesBy key cmp l → ∃ sorted, sortBy cmp l = some sorted ∧
      StablySorted key l sorted

namespace SliceSort

/-- One element put into a sorted list, after `n` comparisons, with their number. -/
def insertBy (cmp : ℕ → α → α → Ordering) (n : ℕ) (a : α) : List α → ℕ × List α
  | [] => (n, [a])
  | b :: l =>
    if cmp n a b = .gt then ((insertBy cmp (n + 1) a l).1, b :: (insertBy cmp (n + 1) a l).2)
    else (n + 1, a :: b :: l)

/-- Sorting by insertion, with the number of comparisons. -/
def insertAll (cmp : ℕ → α → α → Ordering) : List α → ℕ × List α
  | [] => (0, [])
  | a :: l => insertBy cmp (insertAll cmp l).1 a (insertAll cmp l).2

variable [LinearOrder κ] {key : α → κ} {cmp : ℕ → α → α → Ordering} {l : List α}

theorem insertBy_eq {n : ℕ} {a : α} (h : ComparesBy key cmp (a :: l)) :
    (insertBy cmp n a l).2 = l.orderedInsert (fun x y => key x ≤ key y) a := by
  induction l generalizing n with
  | nil => rfl
  | cons b l ih =>
    have hab : cmp n a b = compare (key a) (key b) := h n a (by simp) b (by simp)
    -- the comparisons of the rest are among those of the list
    have hrest : ComparesBy key cmp (a :: l) :=
      fun i x hx y hy => h i x (List.cons_subset_cons a (List.subset_cons_self b l) hx) y
        (List.cons_subset_cons a (List.subset_cons_self b l) hy)
    rw [insertBy, List.orderedInsert_cons]
    by_cases hle : key a ≤ key b
    · have hgt : cmp n a b ≠ .gt := by
        rw [hab]
        exact compare_le_iff_le.mpr hle
      rw [if_neg hgt, if_pos hle]
    · have hgt : cmp n a b = .gt := by
        rw [hab]
        exact compare_gt_iff_gt.mpr (not_le.mp hle)
      rw [if_pos hgt, if_neg hle, ih hrest]

theorem insertAll_eq (h : ComparesBy key cmp l) :
    (insertAll cmp l).2 = l.insertionSort fun x y => key x ≤ key y := by
  induction l with
  | nil => rfl
  | cons a l ih =>
    have hrest : ComparesBy key cmp l :=
      fun i x hx y hy => h i x (List.mem_cons_of_mem a hx) y (List.mem_cons_of_mem a hy)
    have hperm := List.perm_insertionSort (fun x y => key x ≤ key y) l
    rw [insertAll, List.insertionSort_cons, ih hrest]
    apply insertBy_eq
    intro i x hx y hy
    exact h i x ((hperm.cons a).mem_iff.mp hx) y ((hperm.cons a).mem_iff.mp hy)

instance : Std.Total fun x y : α => key x ≤ key y where
  total x y := le_total (key x) (key y)

instance : IsTrans α fun x y => key x ≤ key y where
  trans _ _ _ := le_trans

theorem stablySorted_insertionSort (key : α → κ) (l : List α) :
    StablySorted key l (l.insertionSort fun x y => key x ≤ key y) where
  perm := List.perm_insertionSort _ l
  ordered := List.pairwise_insertionSort _ l
  stable k := by
    -- those with the key come in their order, and there are no others
    have hequal : (l.filter (key · = k)).Pairwise fun x y => key x ≤ key y := by
      refine List.pairwise_of_forall_mem_list fun x hx y hy => le_of_eq ?_
      have hxk := (List.mem_filter.mp hx).2
      have hyk := (List.mem_filter.mp hy).2
      exact (of_decide_eq_true hxk).trans (of_decide_eq_true hyk).symm
    have hsub := (List.sublist_insertionSort hequal List.filter_sublist).filter (key · = k)
    rw [List.filter_filter] at hsub
    simp only [Bool.and_self] at hsub
    have hlength := ((List.perm_insertionSort (fun x y => key x ≤ key y) l).filter
      (key · = k)).length_eq
    exact (hsub.eq_of_length hlength.symm).symm

/-- Sorting by insertion keeps the promise. -/
def insertion (α : Type) : SliceSort α where
  sortBy cmp l := some (insertAll cmp l).2
  sortBy_eq_some key cmp l h := by
    refine ⟨(insertAll cmp l).2, rfl, ?_⟩
    rw [insertAll_eq h]
    exact stablySorted_insertionSort key l

end SliceSort

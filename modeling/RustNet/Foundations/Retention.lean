import RustNet.Foundations.Table

/-!
# Keeping the most recent

A store that keeps the `n` most recent of the elements it is given. `MostRecent` says what it holds
after some elements, and its rules what becomes of that when more elements arrive, none older than
those before, and the oldest are evicted.

`AList.Lists` connects a keyed table with the list of elements that it holds, each filed under a key
of its own.

## Main results

* `MostRecent.append`: the most recent of those kept and of newer ones are the most recent of all;
* `MostRecent.evict`: a table from which the oldest elements were erased holds the most recent.
-/

variable {α τ : Type*} [LE τ]

/-- `kept` are `n` of the elements of `all`, or all of them if there are fewer, and nothing left out
is more recent than something kept. -/
structure MostRecent (time : α → τ) (n : ℕ) (all kept : List α) : Prop where
  length_eq : kept.length = min n all.length
  split : ∃ dropped, all.Perm (kept ++ dropped) ∧ ∀ a ∈ kept, ∀ b ∈ dropped, time b ≤ time a

namespace MostRecent

variable {time : α → τ} {n : ℕ} {all kept kept' batch : List α}

/-- Within the limit everything is kept. -/
theorem of_length_le (h : all.length ≤ n) : MostRecent time n all all where
  length_eq := (min_eq_right h).symm
  split := by
    refine ⟨[], ?_, ?_⟩
    · rw [List.append_nil]
    · exact fun _ _ b hb => absurd hb List.not_mem_nil

/-- What is kept was given. -/
theorem mem (h : MostRecent time n all kept) {a : α} (ha : a ∈ kept) : a ∈ all := by
  obtain ⟨dropped, hperm, -⟩ := h.split
  exact hperm.mem_iff.mpr (List.mem_append_left dropped ha)

/-- What is kept, with more elements behind it, has no more in common than all would have. -/
theorem nodup_map_append {β : Type*} {g : α → β} (h : MostRecent time n all kept)
    (hnodup : ((all ++ batch).map g).Nodup) : ((kept ++ batch).map g).Nodup := by
  obtain ⟨dropped, hperm, -⟩ := h.split
  have hnodup' : ((kept ++ dropped ++ batch).map g).Nodup :=
    ((hperm.append_right batch).map g).nodup_iff.mp hnodup
  exact hnodup'.sublist (((List.sublist_append_left kept dropped).append_right batch).map g)

/-- Newer elements arrive: the most recent of those kept and of the new ones are the most recent of
all. -/
theorem append (h : MostRecent time n all kept) (hnewer : ∀ a ∈ all, ∀ b ∈ batch, time a ≤ time b)
    (h' : MostRecent time n (kept ++ batch) kept') : MostRecent time n (all ++ batch) kept' := by
  obtain ⟨dropped, hperm, hdropped⟩ := h.split
  obtain ⟨evicted, hperm', hevicted⟩ := h'.split
  refine ⟨?_, evicted ++ dropped, ?_, ?_⟩
  · have hlen := h.length_eq
    have hlen' := h'.length_eq
    rw [List.length_append] at hlen' ⊢
    omega
  · calc (all ++ batch).Perm (kept ++ dropped ++ batch) := hperm.append_right batch
      _ |>.Perm (kept ++ (batch ++ dropped)) := by
        rw [List.append_assoc]
        exact List.perm_append_comm.append_left kept
      _ |>.Perm (kept' ++ evicted ++ dropped) := by
        rw [← List.append_assoc]
        exact hperm'.append_right dropped
      _ |>.Perm (kept' ++ (evicted ++ dropped)) := by rw [List.append_assoc]
  · intro a ha b hb
    rcases List.mem_append.mp hb with hb | hb
    · exact hevicted a ha b hb
    · -- dropped before: older than what was kept then, and than everything new
      rcases List.mem_append.mp (h'.mem ha) with hkept | hnew
      · exact hdropped a hkept b hb
      · exact hnewer b (hperm.mem_iff.mpr (List.mem_append_right kept hb)) a hnew

/-- Enough elements, none older than those left out, are the most recent. -/
theorem filter {p : α → Bool} (hlen : (all.filter p).length = n)
    (hold : ∀ a ∈ all, p a = true → ∀ b ∈ all, p b = false → time b ≤ time a) :
    MostRecent time n all (all.filter p) where
  length_eq := by
    have := List.length_filter_le p all
    omega
  split := by
    refine ⟨all.filter fun a => !p a, (List.filter_append_perm p all).symm, ?_⟩
    intro a ha b hb
    rw [List.mem_filter] at ha hb
    exact hold a ha.1 ha.2 b hb.1 (by simpa using hb.2)

end MostRecent

/-! ## The elements of a table -/

namespace AList

variable {κ β ι : Type*} [DecidableEq κ]

/-- The table holds exactly the entries `f i` of the elements `i` of `l`. -/
def Lists (f : ι → κ × β) (l : List ι) (s : AList fun _ : κ => β) : Prop :=
  ∀ k b, s.lookup k = some b ↔ ∃ i ∈ l, f i = (k, b)

variable {f : ι → κ × β} {l batch : List ι} {s : AList fun _ : κ => β}

theorem lists_empty : (∅ : AList fun _ : κ => β).Lists f [] := by
  intro k b
  simp

theorem Lists.mem_iff (h : s.Lists f l) {k : κ} : k ∈ s ↔ ∃ i ∈ l, (f i).1 = k := by
  rw [mem_iff_exists_lookup]
  constructor
  · rintro ⟨b, hb⟩
    obtain ⟨i, hi, hf⟩ := (h k b).mp hb
    exact ⟨i, hi, by rw [hf]⟩
  · rintro ⟨i, hi, rfl⟩
    exact ⟨(f i).2, (h _ _).mpr ⟨i, hi, rfl⟩⟩

/-- An element with a new key is added. -/
theorem Lists.insert (h : s.Lists f l) {i : ι} (hnew : ∀ j ∈ l, (f j).1 ≠ (f i).1) :
    (s.insert (f i).1 (f i).2).Lists f (l ++ [i]) := by
  intro k b
  simp only [List.mem_append, List.mem_singleton, or_and_right, exists_or, exists_eq_left]
  by_cases hk : k = (f i).1
  · subst hk
    have hnone : ¬ ∃ j ∈ l, f j = ((f i).1, b) := fun ⟨j, hj, hf⟩ => hnew j hj (by rw [hf])
    rw [lookup_insert, or_iff_right hnone, Option.some.injEq, Prod.ext_iff]
    exact (and_iff_right rfl).symm
  · have hother : ¬ f i = (k, b) := fun hf => hk (by rw [hf])
    rw [lookup_insert_ne hk, or_iff_left hother]
    exact h k b

/-- So are several, with different keys. -/
theorem Lists.insertAll (h : s.Lists f l)
    (hnodup : ((l ++ batch).map fun i => (f i).1).Nodup) :
    (batch.foldl (fun s i => s.insert (f i).1 (f i).2) s).Lists f (l ++ batch) := by
  induction batch generalizing s l with
  | nil => rwa [List.append_nil]
  | cons i batch ih =>
    rw [List.append_cons] at hnodup ⊢
    refine ih (h.insert ?_) hnodup
    -- the key of `i` is none of the keys before it
    rw [List.map_append, List.map_append, List.nodup_append] at hnodup
    obtain ⟨-, -, hdisjoint⟩ := (List.nodup_append.mp hnodup.1)
    intro j hj
    exact hdisjoint _ (List.mem_map_of_mem hj) _ (List.mem_map_of_mem List.mem_cons_self)

theorem lookup_eraseAll (ks : List κ) (s : AList fun _ : κ => β) (k : κ) :
    (s.eraseAll ks).lookup k = if k ∈ ks then none else s.lookup k := by
  induction ks generalizing s with
  | nil => rfl
  | cons k' ks ih =>
    show ((s.erase k').eraseAll ks).lookup k = _
    rw [ih]
    by_cases hk : k = k'
    · subst hk
      rw [lookup_erase, ite_self, if_pos List.mem_cons_self]
    · rw [lookup_erase_ne hk]
      simp only [List.mem_cons, hk, false_or]

/-- Erasing keys takes the elements with those keys off. -/
theorem Lists.eraseAll (h : s.Lists f l) (ks : List κ) :
    (s.eraseAll ks).Lists f (l.filter fun i => decide ((f i).1 ∉ ks)) := by
  intro k b
  rw [lookup_eraseAll]
  simp only [List.mem_filter, decide_eq_true_eq]
  -- an erased key has no entry, and any other keeps its own
  by_cases hk : k ∈ ks
  · rw [if_pos hk]
    refine iff_of_false (by simp) ?_
    rintro ⟨i, ⟨-, hi⟩, hf⟩
    exact hi (by rwa [hf])
  · rw [if_neg hk, h k b]
    constructor
    · rintro ⟨i, hi, hf⟩
      exact ⟨i, ⟨hi, by rwa [hf]⟩, hf⟩
    · rintro ⟨i, ⟨hi, -⟩, hf⟩
      exact ⟨i, hi, hf⟩

/-- A table has as many entries as elements with different keys. -/
theorem Lists.size_eq (h : s.Lists f l) (hnodup : (l.map fun i => (f i).1).Nodup) :
    s.size = l.length := by
  have hkeys : s.keys.toFinset = (l.map fun i => (f i).1).toFinset := by
    ext k
    rw [List.mem_toFinset, List.mem_toFinset, List.mem_map]
    exact h.mem_iff
  rw [← card_toFinset_keys, hkeys, List.toFinset_card_of_nodup hnodup, List.length_map]

end AList

/-- A table over the limit from which the keys of the oldest elements were erased holds the most
recent ones. -/
theorem MostRecent.evict {κ β : Type*} [DecidableEq κ] {f : α → κ × β} {l : List α}
    {s : AList fun _ : κ => β} {time : α → τ} {n : ℕ} {ks : List κ} (h : s.Lists f l)
    (hnodup : (l.map fun a => (f a).1).Nodup) (hks : ks.Nodup) (hmem : ∀ k ∈ ks, k ∈ s)
    (hlen : ks.length + n = s.size)
    (hold : ∀ a ∈ l, (f a).1 ∉ ks → ∀ b ∈ l, (f b).1 ∈ ks → time b ≤ time a) :
    MostRecent time n l (l.filter fun a => decide ((f a).1 ∉ ks)) := by
  have hsize := AList.size_eraseAll hks hmem
  have hnodup' : ((l.filter fun a => decide ((f a).1 ∉ ks)).map fun a => (f a).1).Nodup :=
    hnodup.sublist (List.filter_sublist.map _)
  refine MostRecent.filter ?_ ?_
  · rw [← (h.eraseAll ks).size_eq hnodup']
    omega
  · intro a ha hkept b hb hdropped
    exact hold a ha (of_decide_eq_true hkept) b hb (by simpa using hdropped)

import Mathlib.Data.List.Sort
import RustNet.Foundations.Retention

/-!
# Evicting the least entries

A table that evicts takes out the entries with the least rank, a given number of them. Entries of
equal rank are taken in the order of an iteration, since the sort is stable.

A selection that is not stable may take any of them. It takes what some order of iteration would
take, so that a statement about all orders is one about all selections.

## Main definitions

* `AList.leastKeys`: the keys of the entries to take out;
* `AList.evictLeast`: the table without them.

## Main results

* `AList.size_evictLeast`: the table loses as many entries as are asked for;
* `AList.rank_of_mem_leastKeys`: what is taken out ranks no higher than what is left;
* `AList.exists_leastKeys_perm`: a selection of least entries is that of an order of iteration.
-/

namespace List

variable {α : Type*} (r : α → α → Prop) [DecidableRel r]

/-- An insertion in front of what ranks no lower than the new element does not get that far. -/
theorem orderedInsert_append_of_forall_rel {a : α} (l : List α) {back : List α}
    (h : ∀ b ∈ back, r a b) :
    (l ++ back).orderedInsert r a = l.orderedInsert r a ++ back := by
  induction l with
  | nil =>
    rcases back with _ | ⟨b, back⟩
    · rfl
    · exact orderedInsert_cons_of_le r back (h b mem_cons_self)
  | cons c l ih =>
    rw [cons_append, orderedInsert_cons, orderedInsert_cons, ih]
    split_ifs <;> rfl

/-- Two lists of which one ranks no higher than the other are sorted apart. -/
theorem insertionSort_append_of_forall_rel {front back : List α}
    (h : ∀ a ∈ front, ∀ b ∈ back, r a b) :
    (front ++ back).insertionSort r = front.insertionSort r ++ back.insertionSort r := by
  induction front with
  | nil => rfl
  | cons a front ih =>
    have hfront : ∀ c ∈ front, ∀ b ∈ back, r c b := fun c hc => h c (mem_cons_of_mem a hc)
    rw [cons_append, insertionSort_cons, insertionSort_cons, ih hfront]
    apply orderedInsert_append_of_forall_rel
    intro b hb
    exact h a mem_cons_self b ((mem_insertionSort r).mp hb)

end List

namespace AList

variable {κ α σ : Type*} [DecidableEq κ]

/-! ## Ranks -/

section Ranks

variable {τ : Type*}

instance total_le_of [LinearOrder τ] (f : σ → τ) : Std.Total fun a b => f a ≤ f b :=
  ⟨fun a b => le_total (f a) (f b)⟩

instance isTrans_le_of [Preorder τ] (f : σ → τ) : IsTrans σ fun a b => f a ≤ f b :=
  ⟨fun _ _ _ hab hbc => le_trans hab hbc⟩

end Ranks

section Selection

variable (rank : α → σ) (r : σ → σ → Prop) [DecidableRel r]

/-- The keys of the `count` entries that rank least, from an iteration in the order. -/
def leastKeys (order : IterOrder κ) (count : ℕ) (s : AList fun _ : κ => α) : List κ :=
  let entries := (s.entriesIn order).map fun e => (e.1, rank e.2)
  ((entries.insertionSort fun a b => r a.2 b.2).take count).map Prod.fst

/-- The table without the `count` entries that rank least. -/
def evictLeast (order : IterOrder κ) (count : ℕ) (s : AList fun _ : κ => α) :
    AList fun _ : κ => α :=
  s.eraseAll (s.leastKeys rank r order count)

variable (order : IterOrder κ) (count : ℕ) (s : AList fun _ : κ => α)

/-- The keys taken are the first of an arrangement of all keys. -/
theorem exists_leastKeys_eq_take : ∃ ks : List κ, ks.Perm ((s.entriesIn order).map Prod.fst) ∧
    s.leastKeys rank r order count = ks.take count := by
  let entries := (s.entriesIn order).map fun e => (e.1, rank e.2)
  let sorted := entries.insertionSort fun a b => r a.2 b.2
  have hperm := (List.perm_insertionSort (fun a b => r a.2 b.2) entries).map Prod.fst
  have htake : s.leastKeys rank r order count = (sorted.map Prod.fst).take count := List.map_take
  refine ⟨sorted.map Prod.fst, ?_, htake⟩
  rwa [List.map_map] at hperm

theorem nodup_leastKeys : (s.leastKeys rank r order count).Nodup := by
  obtain ⟨ks, hperm, htake⟩ := exists_leastKeys_eq_take rank r order count s
  rw [htake]
  exact (hperm.nodup_iff.mpr (s.nodup_keys_entriesIn order)).sublist (List.take_sublist _ _)

theorem lookup_evictLeast (k : κ) :
    (s.evictLeast rank r order count).lookup k =
      if k ∈ s.leastKeys rank r order count then none else s.lookup k :=
  lookup_eraseAll _ s k

variable {rank r order count s}

theorem mem_of_mem_leastKeys {k : κ} (h : k ∈ s.leastKeys rank r order count) : k ∈ s := by
  obtain ⟨ks, hperm, htake⟩ := exists_leastKeys_eq_take rank r order count s
  rw [htake] at h
  obtain ⟨⟨_, a⟩, he, rfl⟩ := List.mem_map.mp (hperm.mem_iff.mp (List.mem_of_mem_take h))
  exact mem_of_lookup (mem_entriesIn.mp he)

theorem length_leastKeys (h : count ≤ s.size) :
    (s.leastKeys rank r order count).length = count := by
  obtain ⟨ks, hperm, htake⟩ := exists_leastKeys_eq_take rank r order count s
  rw [htake, List.length_take, hperm.length_eq, List.length_map, length_entriesIn]
  exact min_eq_left h

variable (rank r) in
/-- What is taken out ranks no higher than what is left. -/
theorem rank_of_mem_leastKeys [Std.Total r] [IsTrans σ r] {k k' : κ} {a a' : α}
    (ha : s.lookup k = some a) (ha' : s.lookup k' = some a')
    (hk : k ∈ s.leastKeys rank r order count) (hk' : k' ∉ s.leastKeys rank r order count) :
    r (rank a) (rank a') := by
  let entries := (s.entriesIn order).map fun e => (e.1, rank e.2)
  let below (a b : κ × σ) : Prop := r a.2 b.2
  let sorted := entries.insertionSort below
  have htotal : Std.Total below := ⟨fun a b => Std.Total.total a.2 b.2⟩
  have htrans : IsTrans _ below := ⟨fun _ _ _ hab hbc => trans_of r hab hbc⟩
  have hsorted : (sorted.take count ++ sorted.drop count).Pairwise below := by
    rw [List.take_append_drop]
    exact List.pairwise_insertionSort below entries
  -- every entry is sorted to one side of the cut, with its rank
  have hmem : ∀ {k a}, s.lookup k = some a → (k, rank a) ∈ sorted := by
    intro k a hlookup
    rw [List.mem_insertionSort]
    exact List.mem_map_of_mem (mem_entriesIn.mpr hlookup)
  obtain ⟨⟨_, v⟩, htaken, rfl⟩ := List.mem_map.mp hk
  have hv : v = rank a := by
    have hentry : (_, v) ∈ entries := (List.mem_insertionSort _).mp (List.mem_of_mem_take htaken)
    obtain ⟨⟨k, b⟩, hb, heq⟩ := List.mem_map.mp hentry
    obtain ⟨rfl, rfl⟩ := Prod.mk.inj heq
    rw [mem_entriesIn, ha] at hb
    rw [Option.some.inj hb]
  have hdropped : (k', rank a') ∈ sorted.drop count := by
    have hsplit := hmem ha'
    rw [← List.take_append_drop count sorted, List.mem_append] at hsplit
    refine hsplit.resolve_left fun htake => hk' ?_
    exact List.mem_map_of_mem htake
  have hbelow := (List.pairwise_append.mp hsorted).2.2 _ htaken _ hdropped
  rw [← hv]
  exact hbelow

variable (rank r order) in
/-- The table loses as many entries as are asked for. -/
theorem size_evictLeast (h : count ≤ s.size) :
    (s.evictLeast rank r order count).size + count = s.size := by
  have hsize := size_eraseAll (nodup_leastKeys rank r order count s)
    fun k hk => mem_of_mem_leastKeys hk
  rwa [length_leastKeys h] at hsize

/-- What is left was there before. -/
theorem lookup_of_lookup_evictLeast {k : κ} {a : α}
    (h : (s.evictLeast rank r order count).lookup k = some a) : s.lookup k = some a := by
  rw [lookup_evictLeast] at h
  split_ifs at h
  exact h

variable (rank r) in
/-- An evicted entry ranks no higher than one that stays. -/
theorem rank_of_evicted [Std.Total r] [IsTrans σ r] {k k' : κ} {a a' : α}
    (ha : s.lookup k = some a) (hgone : (s.evictLeast rank r order count).lookup k = none)
    (ha' : (s.evictLeast rank r order count).lookup k' = some a') : r (rank a) (rank a') := by
  have hold := lookup_of_lookup_evictLeast ha'
  rw [lookup_evictLeast] at hgone ha'
  have hk : k ∈ s.leastKeys rank r order count := by
    by_contra hmem
    rw [if_neg hmem, ha] at hgone
    exact nomatch hgone
  have hk' : k' ∉ s.leastKeys rank r order count := by
    intro hmem
    rw [if_pos hmem] at ha'
    exact nomatch ha'
  exact rank_of_mem_leastKeys rank r ha hold hk hk'

end Selection

/-! ## Unstable selections -/

/-- The order of iteration that visits the entries of one table as they are listed. -/
def orderOf (s : AList fun _ : κ => α) (entries : List (κ × α))
    (h : (entries.map Prod.fst).Perm s.keys) : IterOrder κ where
  visit ks := if ks = s.keys then entries.map Prod.fst else ks
  visit_perm ks := by
    split_ifs with hks
    · rw [hks]
      exact h
    · exact .refl _

@[simp]
theorem orderOf_visit (s : AList fun _ : κ => α) (entries : List (κ × α))
    (h : (entries.map Prod.fst).Perm s.keys) :
    (s.orderOf entries h).visit s.keys = entries.map Prod.fst := if_pos rfl

/-- A selection of least entries is that of an order of iteration: whatever stands in front after a
selection, some iteration would have taken it. -/
theorem exists_leastKeys_perm (rank : α → σ) (r : σ → σ → Prop) [DecidableRel r]
    {s : AList fun _ : κ => α} {front back : List (κ × α)}
    (hperm : (front ++ back).Perm (s.entries.map fun e => (e.1, e.2)))
    (hleast : ∀ a ∈ front, ∀ b ∈ back, r (rank a.2) (rank b.2)) :
    ∃ order, (s.leastKeys rank r order front.length).Perm (front.map Prod.fst) := by
  have hkeys : ((front ++ back).map Prod.fst).Perm s.keys := by
    have hmap := hperm.map Prod.fst
    rwa [List.map_map] at hmap
  -- the order is chosen such that it visits the entries as they are listed
  have hentries : s.entriesIn (orderOf s (front ++ back) hkeys) = front ++ back := by
    have hlookup : ∀ e ∈ front ++ back, s.lookup e.1 = some e.2 := by
      intro e he
      obtain ⟨⟨k, a⟩, hka, rfl⟩ := List.mem_map.mp (hperm.mem_iff.mp he)
      exact mk_mem_entries_iff.mp hka
    rw [entriesIn, orderOf_visit, List.filterMap_map]
    calc (front ++ back).filterMap _ = (front ++ back).filterMap some := by
          refine List.filterMap_congr fun e he => ?_
          simp [hlookup e he]
      _ = front ++ back := List.filterMap_some
  refine ⟨orderOf s (front ++ back) hkeys, ?_⟩
  have hapart : ∀ a ∈ front.map fun e => (e.1, rank e.2), ∀ b ∈ back.map fun e => (e.1, rank e.2),
      r a.2 b.2 := by
    simp only [List.mem_map, forall_exists_index, and_imp, forall_apply_eq_imp_iff₂]
    exact hleast
  -- a stable sort keeps the front in front
  rw [leastKeys, hentries, List.map_append, List.insertionSort_append_of_forall_rel _ hapart,
    List.take_left' (by simp)]
  have hsorted := (List.perm_insertionSort (fun a b : κ × σ => r a.2 b.2)
    (front.map fun e => (e.1, rank e.2))).map Prod.fst
  rwa [List.map_map] at hsorted

end AList

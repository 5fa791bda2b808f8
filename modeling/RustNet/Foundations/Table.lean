import Mathlib.Algebra.BigOperators.Group.List.Basic
import Mathlib.Algebra.GroupWithZero.Nat
import Mathlib.Data.Finmap
import Mathlib.Data.Finset.Card

/-!
# Keyed tables

Mathlib's `AList` (an association list with distinct keys) read as a mutable hash table: its
size, the entry operation "modify or insert", filtering in place, erasing a list of keys, and the
sum of a weight over the values. A hash table is iterated in an order nobody specifies, so an
iteration takes an `IterOrder`, an arbitrary permutation of the keys. A table of lists files any
number of values under a key.

## Main results

* `AList.size_insert_of_mem`, `AList.size_insert_of_notMem`: how an insertion changes the size;
* `AList.total_insert`: an insertion changes the total weight by the difference of the weights;
* `AList.total_upsert`: an entry operation that adds one weight either way adds it to the total;
* `AList.total_retain_add_sum_removed`: filtering splits the total between what stays and what
  is handed out, whatever the iteration order.
-/

/-- An iteration order: any permutation of the keys of a table. -/
structure IterOrder (κ : Type*) where
  /-- The order in which the keys are visited. -/
  visit : List κ → List κ
  /-- Every key is visited exactly once. -/
  visit_perm : ∀ ks, (visit ks).Perm ks

/-- The order of the underlying list. -/
def IterOrder.listed (κ : Type*) : IterOrder κ := ⟨id, fun _ => .refl _⟩

namespace AList

variable {κ α : Type*}

/-- The number of entries, which is that of the keys. -/
def size (s : AList fun _ : κ => α) : ℕ := s.entries.length

/-- Keep the entries that satisfy `p`. -/
def retain (p : κ → α → Bool) (s : AList fun _ : κ => α) : AList fun _ : κ => α :=
  ⟨s.entries.filter fun e => p e.1 e.2, s.nodupKeys.sublist List.filter_sublist⟩

/-- The sum of the weight `f` over the values. -/
def total (f : α → ℕ) (s : AList fun _ : κ => α) : ℕ := (s.entries.map fun e => f e.2).sum

theorem size_eq_length_keys (s : AList fun _ : κ => α) : s.size = s.keys.length := by
  simp [size, AList.keys, List.keys]

@[simp]
theorem size_empty : (∅ : AList fun _ : κ => α).size = 0 := rfl

@[simp]
theorem total_empty (f : α → ℕ) : (∅ : AList fun _ : κ => α).total f = 0 := rfl

theorem size_retain_le (p : κ → α → Bool) (s : AList fun _ : κ => α) :
    (s.retain p).size ≤ s.size :=
  List.length_filter_le _ _

/-- The weights of the entries kept and of those dropped add up to the whole. -/
theorem total_retain_add (p : κ → α → Bool) (f : α → ℕ) (s : AList fun _ : κ => α) :
    (s.retain p).total f + ((s.entries.filter fun e => !p e.1 e.2).map fun e => f e.2).sum =
      s.total f := by
  have hsplit : ∀ l : List (Σ _ : κ, α),
      ((l.filter fun e => p e.1 e.2).map fun e => f e.2).sum +
        ((l.filter fun e => !p e.1 e.2).map fun e => f e.2).sum =
      (l.map fun e => f e.2).sum := by
    intro l
    induction l with
    | nil => rfl
    -- each entry goes to one side
    | cons e l ih =>
      cases hp : p e.1 e.2 <;> simp only [List.filter_cons, hp, Bool.not_true, Bool.not_false,
        Bool.false_eq_true, if_true, if_false, List.map_cons, List.sum_cons] <;> omega
  exact hsplit s.entries

variable [DecidableEq κ]

/-- A table entry is what a lookup of its key returns. -/
theorem mk_mem_entries_iff {k : κ} {a : α} {s : AList fun _ : κ => α} :
    (⟨k, a⟩ : Σ _ : κ, α) ∈ s.entries ↔ s.lookup k = some a := by
  rw [← mem_lookup_iff, Option.mem_def]

theorem mem_iff_exists_lookup {k : κ} {s : AList fun _ : κ => α} :
    k ∈ s ↔ ∃ a, s.lookup k = some a := by
  rw [← lookup_isSome, Option.isSome_iff_exists]

theorem mem_of_lookup {k : κ} {a : α} {s : AList fun _ : κ => α} (h : s.lookup k = some a) :
    k ∈ s :=
  mem_iff_exists_lookup.mpr ⟨a, h⟩

theorem notMem_of_lookup {k : κ} {s : AList fun _ : κ => α} (h : s.lookup k = none) : k ∉ s :=
  lookup_eq_none.mp h

@[simp]
theorem lookup_retain (p : κ → α → Bool) (s : AList fun _ : κ => α) (k : κ) :
    (s.retain p).lookup k = (s.lookup k).filter (p k) := by
  ext a
  rw [← mk_mem_entries_iff, Option.filter_eq_some_iff, ← mk_mem_entries_iff]
  simp [retain]

theorem mem_retain {p : κ → α → Bool} {s : AList fun _ : κ => α} {k : κ} :
    k ∈ s.retain p ↔ ∃ a, s.lookup k = some a ∧ p k a = true := by
  simp [mem_iff_exists_lookup, Option.filter_eq_some_iff]

/-- A predicate true of every entry keeps the table as it is. -/
theorem retain_eq_self {p : κ → α → Bool} {s : AList fun _ : κ => α}
    (h : ∀ k a, s.lookup k = some a → p k a = true) : s.retain p = s := by
  apply AList.ext
  refine List.filter_eq_self.mpr fun e he => h e.1 e.2 ?_
  exact mk_mem_entries_iff.mp he

/-- The size is the number of different keys. -/
theorem card_toFinset_keys (s : AList fun _ : κ => α) : s.keys.toFinset.card = s.size := by
  rw [List.toFinset_card_of_nodup s.keys_nodup, size_eq_length_keys]

/-- A table whose keys are all keys of another is not larger. -/
theorem size_le_of_subset {s t : AList fun _ : κ => α} (h : ∀ k ∈ s, k ∈ t) :
    s.size ≤ t.size := by
  rw [← card_toFinset_keys, ← card_toFinset_keys]
  refine Finset.card_le_card fun k hk => ?_
  rw [List.mem_toFinset] at hk ⊢
  exact h k hk

theorem size_insert_of_notMem {k : κ} {a : α} {s : AList fun _ : κ => α} (h : k ∉ s) :
    (s.insert k a).size = s.size + 1 := by
  rw [size, size, entries_insert_of_notMem h, List.length_cons]

theorem size_insert_of_mem {k : κ} {a : α} {s : AList fun _ : κ => α} (h : k ∈ s) :
    (s.insert k a).size = s.size := by
  have hpos : 0 < s.keys.length := List.length_pos_of_mem (mem_keys.mp h)
  rw [size_eq_length_keys, size_eq_length_keys, keys_insert, List.length_cons,
    List.length_erase_of_mem (mem_keys.mp h)]
  omega

theorem size_insert_le (k : κ) (a : α) (s : AList fun _ : κ => α) :
    (s.insert k a).size ≤ s.size + 1 := by
  by_cases h : k ∈ s
  · rw [size_insert_of_mem h]
    omega
  · rw [size_insert_of_notMem h]

/-- What is in a table after an insertion was inserted, or was there before. -/
theorem lookup_insert_cases {k k' : κ} {a b : α} {s : AList fun _ : κ => α}
    (h : (s.insert k a).lookup k' = some b) : (k' = k ∧ b = a) ∨ s.lookup k' = some b := by
  by_cases hk : k' = k
  · rw [hk, lookup_insert, Option.some.injEq] at h
    exact Or.inl ⟨hk, h.symm⟩
  · rw [lookup_insert_ne hk] at h
    exact Or.inr h

/-! ## Erasure -/

theorem size_erase_le (k : κ) (s : AList fun _ : κ => α) : (s.erase k).size ≤ s.size := by
  rw [size_eq_length_keys, size_eq_length_keys, keys_erase]
  exact List.length_erase_le

/-- What is left after an erasure was there before it. -/
theorem lookup_of_lookup_erase {k k' : κ} {a : α} {s : AList fun _ : κ => α}
    (h : (s.erase k).lookup k' = some a) : s.lookup k' = some a := by
  by_cases hk : k' = k
  · rw [hk, lookup_erase] at h
    cases h
  · rwa [lookup_erase_ne hk] at h

/-- Erasing an entry takes its weight off the total. -/
theorem total_erase (f : α → ℕ) (k : κ) (s : AList fun _ : κ => α) :
    (s.erase k).total f + (s.lookup k).elim 0 f = s.total f := by
  cases hk : s.lookup k with
  -- there is nothing to erase
  | none =>
    have hnot : k ∉ s.entries.keys := notMem_of_lookup hk
    simp [total, erase, List.kerase_of_notMem_keys hnot]
  | some a =>
    -- the table is cut at the entry, whose value the lookup returns
    obtain ⟨b, l₁, l₂, -, he, hke⟩ := List.exists_of_kerase (mem_keys.mp (mem_of_lookup hk))
    have hab : b = a := by
      have hb : (⟨k, b⟩ : Σ _ : κ, α) ∈ s.entries := by simp [he]
      rw [mk_mem_entries_iff, hk] at hb
      exact (Option.some.inj hb).symm
    subst hab
    simp only [total, erase, Option.elim_some]
    rw [hke, he]
    simp only [List.map_append, List.sum_append, List.map_cons, List.sum_cons]
    omega

/-- An insertion adds the new weight and takes off that of the entry it replaces. -/
theorem total_insert (f : α → ℕ) (k : κ) (a : α) (s : AList fun _ : κ => α) :
    (s.insert k a).total f + (s.lookup k).elim 0 f = s.total f + f a := by
  rw [← total_erase f k s]
  simp only [total, entries_insert, erase, List.map_cons, List.sum_cons]
  omega

/-- Insert the entries of a list, a later one over an earlier one of the same key. -/
def insertAll (rows : List (κ × α)) (s : AList fun _ : κ => α) : AList fun _ : κ => α :=
  rows.foldl (fun s row => s.insert row.1 row.2) s

/-- The last row of a key decides. -/
theorem lookup_insertAll (rows : List (κ × α)) (s : AList fun _ : κ => α) (k : κ) :
    (s.insertAll rows).lookup k =
      ((rows.reverse.find? fun row => row.1 = k).map Prod.snd).or (s.lookup k) := by
  induction rows using List.reverseRecOn with
  | nil => rfl
  | append_singleton rows row ih =>
    rw [List.reverse_append, List.reverse_singleton, List.singleton_append, insertAll,
      List.foldl_append]
    by_cases hk : row.1 = k
    · subst hk
      simp
    · have hne : k ≠ row.1 := fun h => hk h.symm
      rw [List.find?_cons_of_neg (by simpa using hk), ← ih]
      exact lookup_insert_ne hne

/-- The row that decides is one of the rows. -/
theorem mem_of_find?_reverse {rows : List (κ × α)} {k : κ} {a : α}
    (h : (rows.reverse.find? fun row => row.1 = k).map Prod.snd = some a) : (k, a) ∈ rows := by
  obtain ⟨row, hfind, rfl⟩ := Option.map_eq_some_iff.mp h
  have hkey : row.1 = k := by simpa using List.find?_some hfind
  rw [← hkey]
  exact List.mem_reverse.mp (List.mem_of_find?_eq_some hfind)

/-- A key with a row has one that decides. -/
theorem exists_find?_reverse {rows : List (κ × α)} {k : κ} {a : α} (h : (k, a) ∈ rows) :
    ∃ a', (rows.reverse.find? fun row => row.1 = k).map Prod.snd = some a' := by
  rw [← Option.isSome_iff_exists, Option.isSome_map, List.find?_isSome]
  exact ⟨(k, a), List.mem_reverse.mpr h, by simp⟩

/-- A loop that inserts some entries in each round inserts them all. -/
theorem foldl_eq_insertAll {β : Type*} {step : (AList fun _ : κ => α) → β → AList fun _ : κ => α}
    {rows : β → List (κ × α)} (h : ∀ s b, step s b = s.insertAll (rows b)) (bs : List β)
    (s : AList fun _ : κ => α) : bs.foldl step s = s.insertAll (bs.flatMap rows) := by
  induction bs generalizing s with
  | nil => rfl
  | cons b bs ih =>
    rw [List.foldl_cons, ih, h, List.flatMap_cons, insertAll, insertAll, insertAll,
      List.foldl_append]

/-! ## The entry operation -/

/-- Modify the entry under `k`, or insert `fresh` when there is none. -/
def upsert (k : κ) (modify : α → α) (fresh : α) (s : AList fun _ : κ => α) :
    AList fun _ : κ => α :=
  s.insert k ((s.lookup k).elim fresh modify)

theorem upsert_of_lookup {k : κ} {a : α} {s : AList fun _ : κ => α} (h : s.lookup k = some a)
    (modify : α → α) (fresh : α) : s.upsert k modify fresh = s.insert k (modify a) := by
  simp [upsert, h]

theorem upsert_of_notMem {k : κ} {s : AList fun _ : κ => α} (h : k ∉ s)
    (modify : α → α) (fresh : α) : s.upsert k modify fresh = s.insert k fresh := by
  simp [upsert, lookup_eq_none.mpr h]

/-- What is in a table after an entry operation was modified, is fresh, or was there before. -/
theorem lookup_upsert_cases {k k' : κ} {modify : α → α} {fresh b : α} {s : AList fun _ : κ => α}
    (h : (s.upsert k modify fresh).lookup k' = some b) :
    (k' = k ∧ ((∃ a, s.lookup k = some a ∧ b = modify a) ∨ s.lookup k = none ∧ b = fresh)) ∨
      s.lookup k' = some b := by
  refine (lookup_insert_cases h).imp_left (And.imp_right fun hb => ?_)
  cases hold : s.lookup k with
  | some a =>
    rw [hold, Option.elim_some] at hb
    exact Or.inl ⟨a, rfl, hb⟩
  | none =>
    rw [hold, Option.elim_none] at hb
    exact Or.inr ⟨rfl, hb⟩

@[simp]
theorem mem_upsert {k k' : κ} {modify : α → α} {fresh : α} {s : AList fun _ : κ => α} :
    k' ∈ s.upsert k modify fresh ↔ k' = k ∨ k' ∈ s := by
  simp [upsert]

/-- When modifying the entry adds `w` to its weight, and a fresh entry weighs `w`, the entry
operation adds `w` to the total. -/
theorem total_upsert {f : α → ℕ} {k : κ} {modify : α → α} {fresh : α} {w : ℕ}
    {s : AList fun _ : κ => α} (hmodify : ∀ a ∈ s.lookup k, f (modify a) = f a + w)
    (hfresh : f fresh = w) : (s.upsert k modify fresh).total f = s.total f + w := by
  cases hold : s.lookup k with
  -- the old weight is taken off, and the new one is the old one and `w`
  | some a =>
    have htotal := total_insert f k (modify a) s
    rw [hold, Option.elim_some, hmodify a hold] at htotal
    rw [upsert_of_lookup hold]
    omega
  | none =>
    have htotal := total_insert f k fresh s
    rw [hold, Option.elim_none, hfresh] at htotal
    rw [upsert_of_notMem (notMem_of_lookup hold)]
    omega

/-! ## Erasing a list of keys -/

/-- Erase every key of the list. -/
def eraseAll (ks : List κ) (s : AList fun _ : κ => α) : AList fun _ : κ => α :=
  ks.foldl (fun s k => s.erase k) s

/-- Erasing distinct keys of the table takes one entry off for each. -/
theorem size_eraseAll {ks : List κ} {s : AList fun _ : κ => α} (hnd : ks.Nodup)
    (hks : ∀ k ∈ ks, k ∈ s) : (s.eraseAll ks).size + ks.length = s.size := by
  induction ks generalizing s with
  | nil => rfl
  | cons k ks ih =>
    rw [List.nodup_cons] at hnd
    have hmem : k ∈ s := hks k (by simp)
    -- the other keys are different, so they survive the erasure of this one
    have hrest : ∀ k' ∈ ks, k' ∈ s.erase k := by
      intro k' hk'
      rw [mem_erase]
      exact ⟨fun h => hnd.1 (h ▸ hk'), hks k' (by simp [hk'])⟩
    have hsize : (s.erase k).size + 1 = s.size := by
      have hpos : 0 < s.keys.length := List.length_pos_of_mem (mem_keys.mp hmem)
      rw [size_eq_length_keys, size_eq_length_keys, keys_erase,
        List.length_erase_of_mem (mem_keys.mp hmem)]
      omega
    have := ih hnd.2 hrest
    simp only [eraseAll, List.foldl_cons, List.length_cons] at this ⊢
    omega

/-! ## Iteration -/

/-- The entries of the table in iteration order. -/
def entriesIn (o : IterOrder κ) (s : AList fun _ : κ => α) : List (κ × α) :=
  (o.visit s.keys).filterMap fun k => (s.lookup k).map fun a => (k, a)

/-- An iteration visits every entry exactly once. -/
theorem entriesIn_perm (o : IterOrder κ) (s : AList fun _ : κ => α) :
    (s.entriesIn o).Perm (s.entries.map fun e => (e.1, e.2)) := by
  -- looking every key up gives back the entries
  have hlisted : (s.keys.filterMap fun k => (s.lookup k).map fun a => (k, a)) =
      s.entries.map fun e => (e.1, e.2) := by
    rw [AList.keys, List.keys, List.filterMap_map, ← List.filterMap_eq_map]
    refine List.filterMap_congr fun e he => ?_
    have : s.lookup e.1 = some e.2 := mk_mem_entries_iff.mp he
    simp [this]
  rw [← hlisted]
  exact (o.visit_perm s.keys).filterMap _

theorem mem_entriesIn {o : IterOrder κ} {s : AList fun _ : κ => α} {k : κ} {a : α} :
    (k, a) ∈ s.entriesIn o ↔ s.lookup k = some a := by
  rw [(s.entriesIn_perm o).mem_iff, ← mk_mem_entries_iff, List.mem_map]
  constructor
  · rintro ⟨⟨k', a'⟩, he, heq⟩
    simp only [Prod.mk.injEq] at heq
    obtain ⟨rfl, rfl⟩ := heq
    exact he
  · exact fun h => ⟨_, h, rfl⟩

theorem nodup_keys_entriesIn (o : IterOrder κ) (s : AList fun _ : κ => α) :
    ((s.entriesIn o).map Prod.fst).Nodup := by
  rw [((s.entriesIn_perm o).map Prod.fst).nodup_iff, List.map_map]
  exact s.keys_nodup

theorem length_entriesIn (o : IterOrder κ) (s : AList fun _ : κ => α) :
    (s.entriesIn o).length = s.size := by
  rw [(s.entriesIn_perm o).length_eq, List.length_map, size]

/-- Filtering splits the total between the entries kept and those an iteration hands out. -/
theorem total_retain_add_sum_removed (p : κ → α → Bool) (f : α → ℕ) (o : IterOrder κ)
    (s : AList fun _ : κ => α) :
    (s.retain p).total f +
        (((s.entriesIn o).filter fun e => !p e.1 e.2).map fun e => f e.2).sum = s.total f := by
  rw [← total_retain_add p f s,
    (((s.entriesIn_perm o).filter fun e => !p e.1 e.2).map fun e => f e.2).sum_eq,
    List.filter_map, List.map_map]
  rfl

/-! ## Mapping the values

A map of the values that forgets something commutes with every operation that does not look at what
is forgotten. -/

section MapValues

variable {β : Type*} (f : α → β)

end MapValues

/-! ## Tables of lists -/

section Push

variable (k : κ) (a : α) (s : AList fun _ : κ => List α)

/-- The values filed under a key, oldest first. -/
def valuesAt : List α := (s.lookup k).getD []

/-- File another value under a key. -/
def push : AList fun _ : κ => List α := s.insert k (s.valuesAt k ++ [a])

/-- File the rows of a list, in order. -/
def pushAll (rows : List (κ × α)) (s : AList fun _ : κ => List α) : AList fun _ : κ => List α :=
  rows.foldl (fun s row => s.push row.1 row.2) s

theorem valuesAt_push (k' : κ) :
    (s.push k a).valuesAt k' = s.valuesAt k' ++ if k = k' then [a] else [] := by
  unfold push
  split_ifs with hk
  · subst hk
    rw [valuesAt, lookup_insert, Option.getD_some]
  · rw [valuesAt, lookup_insert_ne fun h => hk h.symm, List.append_nil, valuesAt]

/-- Behind the values of a key come those of its rows. -/
theorem valuesAt_pushAll (rows : List (κ × α)) :
    (s.pushAll rows).valuesAt k =
      s.valuesAt k ++ (rows.filter fun row => decide (row.1 = k)).map Prod.snd := by
  induction rows generalizing s with
  | nil => simp [pushAll]
  | cons row rows ih =>
    have hrest := ih (s.push row.1 row.2)
    rw [valuesAt_push, List.append_assoc] at hrest
    rw [pushAll, List.foldl_cons]
    refine hrest.trans ?_
    congr 1
    by_cases hk : row.1 = k <;> simp [hk]

/-- A loop that files some rows in each round files them all. -/
theorem foldl_eq_pushAll {β : Type*} {step : (AList fun _ : κ => List α) → β →
    AList fun _ : κ => List α} {rows : β → List (κ × α)}
    (h : ∀ s b, step s b = s.pushAll (rows b)) (bs : List β) :
    bs.foldl step s = s.pushAll (bs.flatMap rows) := by
  induction bs generalizing s with
  | nil => rfl
  | cons b bs ih =>
    rw [List.foldl_cons, ih, h, List.flatMap_cons, pushAll, pushAll, pushAll, List.foldl_append]

end Push

end AList

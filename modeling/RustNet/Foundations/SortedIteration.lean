import Mathlib.Data.List.Sort
import RustNet.Foundations.Table

/-!
# Tables in the order of a sort key

The entries of a hash table come in the order of an iteration, and are then sorted, stably, by a
key of theirs. Where no two of the table's keys have the same sort key, nothing is left of the
iteration order. Where two have, either can come first.

The tables of lists are those that a grouping builds: `pushAll` files each row under its key.

## Main results

* `AList.sortedIn_eq`, `AList.keys_sortedIn_eq_iff`: the sorted entries do not depend on the
  iteration order if the sort key tells the table's keys apart, and their keys only then;
* `AList.lookup_pushAll_eq_some_iff`, `AList.total_length_pushAll`: what a grouping files.
-/

/-- The order that visits `k` before the others. -/
def IterOrder.first {κ : Type*} [DecidableEq κ] (k : κ) : IterOrder κ where
  visit ks := if k ∈ ks then k :: ks.erase k else ks
  visit_perm ks := by
    split_ifs with h
    · exact (List.perm_cons_erase h).symm
    · exact List.Perm.refl ks

/-- In a list without duplicates of two elements one comes first. -/
theorem List.Nodup.eq_of_pairs {α : Type*} {l : List α} (h : l.Nodup) {a b : α}
    (hab : [a, b].Sublist l) (hba : [b, a].Sublist l) : a = b := by
  induction l with
  | nil => cases hab
  | cons c l ih =>
    obtain ⟨hc, hl⟩ := List.nodup_cons.mp h
    cases hab with
    | cons _ hab =>
      cases hba with
      | cons _ hba => exact ih hl hab hba
      | cons_cons _ hba => exact absurd (hab.subset (by simp)) hc
    | cons_cons _ hab =>
      cases hba with
      | cons _ hba => exact absurd (hba.subset (by simp)) hc
      | cons_cons _ hba => rfl

/-- A key comes once in a list of distinct keys. -/
theorem List.flatMap_ite_eq {κ α β : Type*} [DecidableEq κ] {l : List (κ × α)} {f : α → List β}
    {k : κ} {a : α} (hnodup : (l.map Prod.fst).Nodup) (hmem : (k, a) ∈ l) :
    (l.flatMap fun e => if e.1 = k then f e.2 else []) = f a := by
  induction l with
  | nil => cases hmem
  | cons e l ih =>
    obtain ⟨he, hl⟩ := List.nodup_cons.mp hnodup
    rw [List.flatMap_cons]
    -- no other pair has the key of the one that is looked for
    rcases List.mem_cons.mp hmem with rfl | hmem
    · have hrest : (l.flatMap fun e => if e.1 = k then f e.2 else []) = [] :=
        List.flatMap_eq_nil_iff.mpr fun e' he' =>
          if_neg fun hk => he (List.mem_map.mpr ⟨e', he', hk⟩)
      rw [hrest]
      simp
    · have hk : e.1 ≠ k := fun hk => he (List.mem_map.mpr ⟨_, hmem, hk.symm⟩)
      rw [if_neg hk, List.nil_append]
      exact ih hl hmem

namespace AList

variable {κ α τ : Type*} [DecidableEq κ] [LinearOrder τ] {key : κ → τ} {k k' : κ} {a : α}

/-! ## Sorted entries -/

/-- The entries of a table as an iteration hands them out, sorted by a key. -/
def sortedIn (key : κ → τ) (o : IterOrder κ) (s : AList fun _ : κ => α) : List (κ × α) :=
  (s.entriesIn o).insertionSort fun a b => key a.1 ≤ key b.1

variable {s : AList fun _ : κ => α}

theorem sortedIn_perm (key : κ → τ) (o : IterOrder κ) (s : AList fun _ : κ => α) :
    (s.sortedIn key o).Perm (s.entriesIn o) :=
  List.perm_insertionSort _ _

theorem mem_sortedIn {o : IterOrder κ} : (k, a) ∈ s.sortedIn key o ↔ s.lookup k = some a := by
  rw [(sortedIn_perm key o s).mem_iff, mem_entriesIn]

theorem nodup_keys_sortedIn (key : κ → τ) (o : IterOrder κ) (s : AList fun _ : κ => α) :
    ((s.sortedIn key o).map Prod.fst).Nodup :=
  ((sortedIn_perm key o s).map Prod.fst).nodup_iff.mpr (nodup_keys_entriesIn o s)

instance total_le_key : Std.Total fun a b : κ × α => key a.1 ≤ key b.1 where
  total a b := le_total (key a.1) (key b.1)

instance isTrans_le_key : IsTrans (κ × α) fun a b => key a.1 ≤ key b.1 where
  trans _ _ _ := le_trans

theorem sum_sortedIn (key : κ → τ) (f : α → ℕ) (o : IterOrder κ) :
    ((s.sortedIn key o).map fun e => f e.2).sum = s.total f := by
  have hperm := ((sortedIn_perm key o s).trans (entriesIn_perm o s)).map fun e => f e.2
  rw [hperm.sum_eq, List.map_map, total]
  rfl

/-- What is made of the entry of one key. -/
theorem flatMap_sortedIn {β : Type*} (f : α → List β) (k : κ) (o : IterOrder κ) :
    ((s.sortedIn key o).flatMap fun e => if e.1 = k then f e.2 else []) =
      (s.lookup k).elim [] f := by
  have hmem : ∀ a, (k, a) ∈ s.sortedIn key o ↔ s.lookup k = some a := fun _ => mem_sortedIn
  cases hlookup : s.lookup k with
  | none =>
    refine List.flatMap_eq_nil_iff.mpr fun e he => if_neg ?_
    rintro rfl
    have := (hmem e.2).mp he
    simp_all
  | some a => exact List.flatMap_ite_eq (nodup_keys_sortedIn key o s) ((hmem a).mpr hlookup)

/-- Where the sort key tells the keys apart, nothing is left of the iteration order. -/
theorem sortedIn_eq (h : ∀ k ∈ s, ∀ k' ∈ s, key k = key k' → k = k') (o o' : IterOrder κ) :
    s.sortedIn key o = s.sortedIn key o' := by
  refine List.Perm.eq_of_pairwise ?_ (List.pairwise_insertionSort _ _)
    (List.pairwise_insertionSort _ _) ?_
  · rintro ⟨k, a⟩ ⟨k', a'⟩ hmem hmem' hle hle'
    have hk := mem_sortedIn.mp hmem
    have hk' := mem_sortedIn.mp hmem'
    obtain rfl := h k (mem_of_lookup hk) k' (mem_of_lookup hk') (le_antisymm hle hle')
    rw [Option.some.inj (hk.symm.trans hk')]
  · have hentries : (s.entriesIn o).Perm (s.entriesIn o') :=
      (entriesIn_perm o s).trans (entriesIn_perm o' s).symm
    exact (sortedIn_perm key o s).trans (hentries.trans (sortedIn_perm key o' s).symm)

/-- The key that is visited first has the first entry. -/
theorem entriesIn_first (hk : s.lookup k = some a) :
    ∃ rest, s.entriesIn (IterOrder.first k) = (k, a) :: rest := by
  have hmem : k ∈ s.keys := mem_keys.mp (mem_of_lookup hk)
  have hvisit : (IterOrder.first k).visit s.keys = k :: s.keys.erase k := if_pos hmem
  rw [entriesIn, hvisit, List.filterMap_cons, hk]
  exact ⟨_, rfl⟩

/-- A key that is visited first stays in front of those with the same sort key. -/
theorem pair_sublist_sortedIn (hk : k ∈ s) (hk' : k' ∈ s) (hne : k ≠ k') (hkey : key k ≤ key k') :
    [k, k'].Sublist ((s.sortedIn key (IterOrder.first k)).map Prod.fst) := by
  obtain ⟨a, ha⟩ := mem_iff_exists_lookup.mp hk
  obtain ⟨a', ha'⟩ := mem_iff_exists_lookup.mp hk'
  have hvisit : (IterOrder.first k).visit s.keys = k :: s.keys.erase k := if_pos (mem_keys.mp hk)
  have hentries : [(k, a), (k', a')].Sublist (s.entriesIn (IterOrder.first k)) := by
    rw [entriesIn, hvisit, List.filterMap_cons, ha]
    refine List.Sublist.cons_cons _ (List.singleton_sublist.mpr ?_)
    refine List.mem_filterMap.mpr ⟨k', ?_, by rw [ha']; rfl⟩
    exact (List.mem_erase_of_ne hne.symm).mpr (mem_keys.mp hk')
  have hsorted : [(k, a), (k', a')].Sublist (s.sortedIn key (IterOrder.first k)) :=
    List.sublist_insertionSort (List.pairwise_pair.mpr hkey) hentries
  exact hsorted.map Prod.fst

/-- In which order the keys come does not depend on the iteration order exactly if the sort key
tells them apart. -/
theorem keys_sortedIn_eq_iff :
    (∀ o o' : IterOrder κ,
        (s.sortedIn key o).map Prod.fst = (s.sortedIn key o').map Prod.fst) ↔
      ∀ k ∈ s, ∀ k' ∈ s, key k = key k' → k = k' := by
  constructor
  · intro h k hk k' hk' hkey
    by_contra hne
    have hfirst := pair_sublist_sortedIn hk hk' hne hkey.le
    rw [h (IterOrder.first k) (IterOrder.first k')] at hfirst
    exact hne ((nodup_keys_sortedIn key _ s).eq_of_pairs hfirst
      (pair_sublist_sortedIn hk' hk (Ne.symm hne) hkey.ge))
  · exact fun h o o' => congrArg (List.map Prod.fst) (sortedIn_eq h o o')

/-! ## Groupings -/

section Groups

variable {t : AList fun _ : κ => List α} {rows : List (κ × α)} {values : List α}

theorem mem_pushAll : k ∈ t.pushAll rows ↔ k ∈ t ∨ ∃ row ∈ rows, row.1 = k := by
  induction rows generalizing t with
  | nil => simp [pushAll]
  | cons row rows ih =>
    rw [pushAll, List.foldl_cons]
    have hrest := ih (t := t.push row.1 row.2)
    rw [pushAll] at hrest
    rw [hrest, push, mem_insert]
    simp only [List.mem_cons, exists_eq_or_imp, eq_comm (a := k)]
    tauto

/-- A grouping has an entry for every key of a row, with the values of those rows in order. -/
theorem lookup_pushAll_eq_some_iff :
    ((∅ : AList fun _ : κ => List α).pushAll rows).lookup k = some values ↔
      (∃ row ∈ rows, row.1 = k) ∧
        values = (rows.filter fun row => decide (row.1 = k)).map Prod.snd := by
  have hvalues := valuesAt_pushAll k (∅ : AList fun _ : κ => List α) rows
  rw [valuesAt, valuesAt, lookup_empty, Option.getD_none, List.nil_append] at hvalues
  have hmem : k ∈ (∅ : AList fun _ : κ => List α).pushAll rows ↔ ∃ row ∈ rows, row.1 = k := by
    rw [mem_pushAll]
    simp
  rw [← hmem, ← hvalues]
  constructor
  · intro h
    exact ⟨mem_of_lookup h, by rw [h, Option.getD_some]⟩
  · rintro ⟨hk, rfl⟩
    obtain ⟨values, h⟩ := mem_iff_exists_lookup.mp hk
    rw [h, Option.getD_some]

/-- A grouping loses no row and has none twice. -/
theorem total_length_pushAll :
    (t.pushAll rows).total List.length = t.total List.length + rows.length := by
  induction rows generalizing t with
  | nil => rfl
  | cons row rows ih =>
    -- a row makes the list of its key longer by one
    have hpush : (t.push row.1 row.2).total List.length = t.total List.length + 1 := by
      have hinsert := total_insert List.length row.1 (t.valuesAt row.1 ++ [row.2]) t
      rw [List.length_append, List.length_singleton, valuesAt] at hinsert
      rw [push, valuesAt]
      cases hlookup : t.lookup row.1 with
      | none => rw [hlookup] at hinsert; simpa using hinsert
      | some values =>
        rw [hlookup, Option.elim_some, Option.getD_some] at hinsert
        rw [Option.getD_some]
        omega
    have hrest := ih (t := t.push row.1 row.2)
    rw [hpush] at hrest
    rw [List.length_cons]
    exact hrest.trans (by omega)

end Groups

end AList

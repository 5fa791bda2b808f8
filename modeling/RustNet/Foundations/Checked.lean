import Mathlib.Algebra.Order.Ring.Nat
import Mathlib.Data.List.Forall2

/-!
# Computations with checked accesses

A program in a language with checked slices stops when an index or a range leaves its data, when
a subtraction of unsigned numbers goes below zero or when a sum passes the end of a machine word. A
`Checked` computation either returns or stops with such a `Fault`, and a program is translated by
writing every access as one of the operations here. That it is safe is then a theorem about its
value. A loop that runs out of the rounds it is given stops with a fault too, so that a computation
that returns has ended its loops.

`Checked.Ensures c p` says that `c` returns, with a result that satisfies `p`. `Checked.At` is the
position of a cursor that moves through data: what lies behind an offset.

## Main results

* `Checked.Ensures.bind`, `Checked.ensures_index`, `Checked.ensures_slice`,
  `Checked.ensures_sliceFrom`, `Checked.ensures_sub`, `Checked.ensures_add`: the rules of `Ensures`;
* `Checked.ensures_findSomeM`, `Checked.ensures_foldlM`, `Checked.ensures_mapM`: those for searches
  and loops over lists;
* `Checked.At.sliceFrom`, `Checked.At.index`, `Checked.At.skip`, `Checked.At.finish`: what a cursor
  sees; `Checked.At.take_append` and the rules behind it: what it sees of data that is cut off.
-/

/-- Why a computation stopped, with the numbers that a panic message would have. -/
inductive Fault
  /-- `data[i]` behind the end. -/
  | index (i length : ℕ)
  /-- `data[start..stop]` with `start` behind `stop` or `stop` behind the end. -/
  | range (start stop length : ℕ)
  /-- `a - b` for a `b` above `a`. -/
  | underflow (a b : ℕ)
  /-- `a + b` for a sum that a word of 64 bits does not hold. -/
  | overflow (a b : ℕ)
  /-- A loop that has no rounds left. -/
  | endless
deriving DecidableEq, Repr

/-- Computations that return or stop with a fault. -/
abbrev Checked : Type → Type := Except Fault

namespace Checked

variable {α β : Type}

/-- `data[i]`, a fault behind the end. -/
def index (data : List α) (i : ℕ) : Checked α :=
  match data[i]? with
  | some x => pure x
  | none => throw (.index i data.length)

/-- `&data[start..stop]`, a fault unless `start` is up to `stop` and `stop` within the data. -/
def slice (data : List α) (start stop : ℕ) : Checked (List α) :=
  if start ≤ stop ∧ stop ≤ data.length then pure ((data.drop start).take (stop - start))
  else throw (.range start stop data.length)

/-- `&data[start..]`, a fault behind the end. -/
def sliceFrom (data : List α) (start : ℕ) : Checked (List α) :=
  if start ≤ data.length then pure (data.drop start)
  else throw (.range start data.length data.length)

/-- `&data[..stop]`, as the slice that starts at zero. -/
def sliceTo (data : List α) (stop : ℕ) : Checked (List α) := slice data 0 stop

/-- `[data[start], data[start + 1], …]`, of `n` elements. -/
def indices (data : List α) (start : ℕ) : ℕ → Checked (List α)
  | 0 => pure []
  | n + 1 => do
    let x ← index data start
    let xs ← indices data (start + 1) n
    return x :: xs

/-- `a - b` on machine words: a fault where the difference is negative. -/
def sub (a b : ℕ) : Checked ℕ :=
  if b ≤ a then pure (a - b) else throw (.underflow a b)

/-- `a + b` on machine words of 64 bits: a fault where the sum does not fit. -/
def add (a b : ℕ) : Checked ℕ :=
  if a + b < 2 ^ 64 then pure (a + b) else throw (.overflow a b)

/-! ## Values -/

section Values

variable {data : List α} {i start stop a b : ℕ}

@[simp]
theorem pure_bind' (x : α) (f : α → Checked β) : (pure x : Checked α) >>= f = f x := rfl

theorem index_eq (h : i < data.length) : index data i = pure data[i] := by
  rw [index, List.getElem?_eq_getElem h]

theorem slice_eq (h : start ≤ stop) (h' : stop ≤ data.length) :
    slice data start stop = pure ((data.drop start).take (stop - start)) := if_pos ⟨h, h'⟩

theorem sliceFrom_eq (h : start ≤ data.length) : sliceFrom data start = pure (data.drop start) :=
  if_pos h

theorem sliceTo_eq (h : stop ≤ data.length) : sliceTo data stop = pure (data.take stop) :=
  slice_eq (Nat.zero_le _) h

theorem indices_eq {n : ℕ} (h : start + n ≤ data.length) :
    indices data start n = pure ((data.drop start).take n) := by
  induction n generalizing start with
  | zero => rfl
  | succ n ih =>
    have hstart : start < data.length := by omega
    rw [indices, index_eq hstart, pure_bind', ih (by omega), pure_bind',
      List.drop_eq_getElem_cons hstart, List.take_succ_cons]

theorem sub_eq (h : b ≤ a) : sub a b = pure (a - b) := if_pos h

theorem add_eq (h : a + b < 2 ^ 64) : add a b = pure (a + b) := if_pos h

/-- A computation in two parts returns if both parts do. -/
theorem bind_eq_pure_iff {c : Checked α} {f : α → Checked β} {y : β} :
    c >>= f = pure y ↔ ∃ x, c = pure x ∧ f x = pure y := by
  rcases c with e | x
  · exact iff_of_false (fun h => nomatch h) fun ⟨_, h, _⟩ => nomatch h
  · exact ⟨fun h => ⟨x, rfl, h⟩, fun ⟨_, hx, h⟩ => Except.ok.inj hx ▸ h⟩

theorem pure_inj {x y : α} : (pure x : Checked α) = pure y ↔ x = y :=
  ⟨Except.ok.inj, congrArg pure⟩

end Values

/-! ## Postconditions -/

/-- The computation returns, and its result satisfies `p`. -/
def Ensures (c : Checked α) (p : α → Prop) : Prop := ∃ x, c = pure x ∧ p x

section Ensures

variable {c : Checked α} {f : α → Checked β} {p q : α → Prop} {r : β → Prop} {data : List α}

theorem ensures_pure {x : α} (h : p x) : Ensures (pure x) p := ⟨x, rfl, h⟩

theorem Ensures.mono (h : Ensures c p) (hpq : ∀ x, p x → q x) : Ensures c q := by
  obtain ⟨x, hc, hx⟩ := h
  exact ⟨x, hc, hpq x hx⟩

/-- A computation in two parts ensures what the second ensures of every result of the first. -/
theorem Ensures.bind (h : Ensures c p) (hf : ∀ x, p x → Ensures (f x) r) :
    Ensures (c >>= f) r := by
  obtain ⟨x, rfl, hx⟩ := h
  exact hf x hx

/-- The second part of a computation, by what the first part found, if anything. -/
theorem Ensures.bindOption {γ : Type} {c : Checked (Option γ)} {f : Option γ → Checked β}
    {p : γ → Prop} (h : Ensures c fun x? => ∀ x, x? = some x → p x)
    (hsome : ∀ x, p x → Ensures (f (some x)) r) (hnone : Ensures (f none) r) :
    Ensures (c >>= f) r := by
  refine h.bind fun x? hx => ?_
  rcases x? with _ | x
  · exact hnone
  · exact hsome x (hx x rfl)

theorem ensures_none {γ : Type} {p : γ → Prop} :
    Ensures (pure none : Checked (Option γ)) fun x? => ∀ x, x? = some x → p x :=
  ensures_pure fun _ h => nomatch h

theorem ensures_some {γ : Type} {p : γ → Prop} {x : γ} (h : p x) :
    Ensures (pure (some x)) fun x? => ∀ x, x? = some x → p x :=
  ensures_pure fun _ heq => Option.some.inj heq ▸ h

theorem Ensures.ite {d : Prop} [Decidable d] {c' : Checked α} (h : d → Ensures c p)
    (h' : ¬ d → Ensures c' p) : Ensures (if d then c else c') p := by
  split_ifs with hd
  · exact h hd
  · exact h' hd

/-- The second part of a computation has to ensure it of what the first part returns. -/
theorem ensures_bind_iff : Ensures (c >>= f) r ↔ Ensures c fun x => Ensures (f x) r := by
  constructor
  · rintro ⟨y, hy, hr⟩
    obtain ⟨x, hx, hf⟩ := bind_eq_pure_iff.mp hy
    exact ⟨x, hx, y, hf, hr⟩
  · exact fun h => h.bind fun _ hx => hx

/-- What a computation that returns has returned. -/
theorem Ensures.of_eq_pure {x : α} (h : Ensures c p) (hc : c = pure x) : p x := by
  obtain ⟨y, hy, hp⟩ := h
  exact Except.ok.inj (hy.symm.trans hc) ▸ hp

@[simp]
theorem ensures_pure_iff {x : α} : Ensures (pure x) p ↔ p x :=
  ⟨fun h => h.of_eq_pure rfl, ensures_pure⟩

theorem ensures_index {i : ℕ} (h : i < data.length) : Ensures (index data i) fun x => x = data[i] :=
  ⟨_, index_eq h, rfl⟩

theorem ensures_slice {start stop : ℕ} (h : start ≤ stop) (h' : stop ≤ data.length) :
    Ensures (slice data start stop) fun s => s.length = stop - start := by
  refine ⟨_, slice_eq h h', ?_⟩
  show ((data.drop start).take (stop - start)).length = stop - start
  rw [List.length_take, List.length_drop]
  omega

theorem ensures_sliceFrom {start : ℕ} (h : start ≤ data.length) :
    Ensures (sliceFrom data start) fun s => s.length = data.length - start :=
  ⟨_, sliceFrom_eq h, List.length_drop⟩

theorem ensures_sliceTo {stop : ℕ} (h : stop ≤ data.length) :
    Ensures (sliceTo data stop) fun s => s.length = stop :=
  (ensures_slice (Nat.zero_le _) h).mono fun _ hs => hs.trans (Nat.sub_zero _)

theorem ensures_indices {start n : ℕ} (h : start + n ≤ data.length) :
    Ensures (indices data start n) fun xs => xs.length = n := by
  refine ⟨_, indices_eq h, ?_⟩
  show ((data.drop start).take n).length = n
  rw [List.length_take, List.length_drop]
  omega

theorem ensures_sub {a b : ℕ} (h : b ≤ a) : Ensures (sub a b) fun d => d = a - b :=
  ⟨_, sub_eq h, rfl⟩

theorem ensures_add {a b : ℕ} (h : a + b < 2 ^ 64) : Ensures (add a b) fun s => s = a + b :=
  ⟨_, add_eq h, rfl⟩

end Ensures

/-! ## Lists -/

section Lists

variable {σ ι : Type}

/-- A search ensures of what it finds what each of its steps ensures. -/
theorem ensures_findSomeM {l : List ι} {f : ι → Checked (Option β)} {p : β → Prop}
    (h : ∀ i ∈ l, Ensures (f i) fun x? => ∀ x, x? = some x → p x) :
    Ensures (l.findSomeM? f) fun x? => ∀ x, x? = some x → p x := by
  induction l with
  | nil => exact ensures_none
  | cons i l ih =>
    rw [List.findSomeM?]
    refine (h i List.mem_cons_self).bindOption (fun x hx => ensures_some hx) ?_
    exact ih fun j hj => h j (List.mem_cons_of_mem i hj)

/-- A search whose steps all return is a search for what they return. -/
theorem findSomeM_eq {l : List ι} {f : ι → Checked (Option β)} {g : ι → Option β}
    (h : ∀ i ∈ l, f i = pure (g i)) : l.findSomeM? f = pure (l.findSome? g) := by
  induction l with
  | nil => rfl
  | cons i l ih =>
    rw [List.findSomeM?, h i List.mem_cons_self, pure_bind', List.findSome?_cons,
      ih fun j hj => h j (List.mem_cons_of_mem i hj)]
    cases g i <;> rfl

/-- The search over `l` finds `x` at `i`: at no element before it does it find anything. -/
def FindsAt (l : List ι) (f : ι → Checked (Option β)) (i : ι) (x : β) : Prop :=
  ∃ l₁ l₂, l = l₁ ++ i :: l₂ ∧ (∀ j ∈ l₁, f j = pure none) ∧ f i = pure (some x)

theorem FindsAt.mem {l : List ι} {f : ι → Checked (Option β)} {i : ι} {x : β}
    (h : FindsAt l f i x) : i ∈ l := by
  obtain ⟨l₁, l₂, rfl, -⟩ := h
  exact List.mem_append_right l₁ List.mem_cons_self

theorem FindsAt.found {l : List ι} {f : ι → Checked (Option β)} {i : ι} {x : β}
    (h : FindsAt l f i x) : f i = pure (some x) := by
  obtain ⟨l₁, l₂, -, -, hi⟩ := h
  exact hi

/-- What a search finds it finds somewhere. -/
theorem findSomeM_eq_some_iff {l : List ι} {f : ι → Checked (Option β)} {x : β} :
    l.findSomeM? f = pure (some x) ↔ ∃ i, FindsAt l f i x := by
  induction l with
  | nil =>
    refine iff_of_false (fun h => nomatch h) ?_
    rintro ⟨i, l₁, l₂, hl, -⟩
    exact nomatch (List.append_eq_nil_iff.mp hl.symm).2
  | cons j l ih =>
    rw [List.findSomeM?, bind_eq_pure_iff]
    constructor
    -- the head finds nothing and the rest does, or the head itself is the find
    · rintro ⟨_ | y, hj, h⟩
      · obtain ⟨i, l₁, l₂, rfl, hbefore, hi⟩ := ih.mp h
        exact ⟨i, j :: l₁, l₂, rfl, List.forall_mem_cons.mpr ⟨hj, hbefore⟩, hi⟩
      · obtain rfl := Option.some.inj (pure_inj.mp h)
        exact ⟨j, [], l, rfl, (fun _ hmem => absurd hmem List.not_mem_nil), hj⟩
    · rintro ⟨i, _ | ⟨j', l₁⟩, l₂, hl, hbefore, hi⟩
      · obtain ⟨rfl, -⟩ := List.cons.inj hl
        exact ⟨some x, hi, rfl⟩
      · obtain ⟨rfl, rfl⟩ := List.cons.inj hl
        rw [List.forall_mem_cons] at hbefore
        exact ⟨none, hbefore.1, ih.mpr ⟨i, l₁, l₂, rfl, hbefore.2, hi⟩⟩

/-- A loop over a list ensures an invariant of its state and of the elements to come. -/
theorem ensures_foldlM {f : σ → α → Checked σ} {I : σ → List α → Prop}
    (h : ∀ s a rest, I s (a :: rest) → Ensures (f s a) fun s' => I s' rest) {l : List α} {s : σ}
    (hs : I s l) : Ensures (l.foldlM f s) fun s' => I s' [] := by
  induction l generalizing s with
  | nil => exact ensures_pure hs
  | cons a l ih =>
    rw [List.foldlM_cons]
    exact (h s a l hs).bind fun s' hs' => ih hs'

theorem ensures_mapM {f : α → Checked β} {p : β → Prop} {l : List α}
    (h : ∀ a ∈ l, Ensures (f a) p) : Ensures (l.mapM f) fun ys => ∀ y ∈ ys, p y := by
  induction l with
  | nil => exact ensures_pure fun _ hy => absurd hy List.not_mem_nil
  | cons a l ih =>
    rw [List.mapM_cons]
    refine (h a List.mem_cons_self).bind fun y hy => ?_
    refine (ih fun b hb => h b (List.mem_cons_of_mem a hb)).bind fun ys hys => ensures_pure ?_
    exact List.forall_mem_cons.mpr ⟨hy, hys⟩

/-- A loop ensures something of each element and its result exactly if each of its rounds does. -/
theorem ensures_mapM_iff {f : α → Checked β} {R : α → β → Prop} {l : List α} :
    Ensures (l.mapM f) (List.Forall₂ R l) ↔ ∀ a ∈ l, Ensures (f a) (R a) := by
  induction l with
  | nil =>
    rw [List.mapM_nil, ensures_pure_iff]
    exact iff_of_true .nil fun a ha => absurd ha List.not_mem_nil
  | cons a l ih =>
    rw [List.mapM_cons, ensures_bind_iff, List.forall_mem_cons, ← ih]
    simp only [ensures_bind_iff, ensures_pure_iff, List.forall₂_cons]
    constructor
    · rintro ⟨y, hy, ys, hys, hR, hRs⟩
      exact ⟨⟨y, hy, hR⟩, ys, hys, hRs⟩
    · rintro ⟨⟨y, hy, hR⟩, ys, hys, hRs⟩
      exact ⟨y, hy, ys, hys, hR, hRs⟩

end Lists

/-! ## Cursors -/

/-- At `offset` the data goes on with `rest`. -/
structure At (data : List α) (offset : ℕ) (rest : List α) : Prop where
  le_length : offset ≤ data.length
  drop_eq : data.drop offset = rest

namespace At

variable {data rest xs : List α} {x : α} {offset : ℕ}

theorem start (data : List α) : At data 0 data := ⟨Nat.zero_le _, rfl⟩

theorem length_eq (h : At data offset rest) : data.length = offset + rest.length := by
  rw [← h.drop_eq, List.length_drop]
  exact (Nat.add_sub_cancel' h.le_length).symm

theorem skip (h : At data offset (xs ++ rest)) : At data (offset + xs.length) rest where
  le_length := by
    rw [h.length_eq, List.length_append]
    omega
  drop_eq := by rw [← List.drop_drop, h.drop_eq, List.drop_left]

theorem skip_of_length (h : At data offset (xs ++ rest)) {n : ℕ} (hn : xs.length = n) :
    At data (offset + n) rest := hn ▸ h.skip

/-- Behind all that is left there is nothing. -/
theorem finish (h : At data offset rest) : At data (offset + rest.length) [] :=
  skip ((List.append_nil rest).symm ▸ h)

theorem next (h : At data offset (x :: rest)) : At data (offset + 1) rest := by
  show At data (offset + [x].length) rest
  exact skip h

/-- Behind a part that its length precedes, in one element. -/
theorem next_skip (h : At data offset (x :: (xs ++ rest))) :
    At data (offset + (1 + xs.length)) rest := by
  rw [← Nat.add_assoc]
  exact h.next.skip

/-- Behind a part that its length precedes, in `n` elements. -/
theorem skip_skip {ys : List α} (h : At data offset (xs ++ (ys ++ rest))) {n : ℕ}
    (hn : xs.length = n) : At data (offset + (n + ys.length)) rest := by
  rw [← Nat.add_assoc]
  exact (h.skip_of_length hn).skip

/-- The same cursor in data whose first elements are dropped. -/
theorem drop {n : ℕ} (h : At data (n + offset) rest) : At (data.drop n) offset rest where
  le_length := by
    rw [List.length_drop, h.length_eq]
    omega
  drop_eq := by rw [List.drop_drop, h.drop_eq]

theorem sliceFrom (h : At data offset rest) : sliceFrom data offset = pure rest := by
  rw [sliceFrom_eq h.le_length, h.drop_eq]

theorem index (h : At data offset (x :: rest)) : index data offset = pure x := by
  have hlen : offset < data.length := by
    rw [h.length_eq, List.length_cons]
    omega
  have hx : data[offset]? = some x := by
    rw [← List.head?_drop, h.drop_eq, List.head?_cons]
  rw [index_eq hlen, (List.getElem_eq_iff hlen).mpr hx]

theorem slice (h : At data offset (xs ++ rest)) :
    slice data offset (offset + xs.length) = pure xs := by
  rw [slice_eq (Nat.le_add_right _ _) h.skip.le_length, h.drop_eq, Nat.add_sub_cancel_left,
    List.take_left]

theorem indices (h : At data offset (xs ++ rest)) : indices data offset xs.length = pure xs := by
  rw [indices_eq h.skip.le_length, h.drop_eq, List.take_left]

/-! ### Data that is cut off -/

section Cut

variable {k : ℕ}

/-- Data that is cut off behind the cursor goes on up to the cut. -/
theorem take (h : At data offset rest) (hk : offset ≤ k) :
    At (data.take k) offset (rest.take (k - offset)) where
  le_length := by
    rw [List.length_take]
    exact Nat.le_min.mpr ⟨hk, h.le_length⟩
  drop_eq := by rw [List.drop_take, h.drop_eq]

/-- What lies before the cut is there. -/
theorem take_append (h : At data offset (xs ++ rest))
    (hk : offset + xs.length ≤ (data.take k).length) :
    At (data.take k) offset (xs ++ rest.take (k - (offset + xs.length))) := by
  rw [List.length_take] at hk
  have hcut := h.take (k := k) (by omega)
  have hxs : xs.take (k - offset) = xs := List.take_of_length_le (by omega)
  rwa [List.take_append, hxs, Nat.sub_sub] at hcut

theorem index_take (h : At data offset (x :: rest)) (hk : offset < (data.take k).length) :
    Checked.index (data.take k) offset = pure x := by
  have hcut : At data offset ([x] ++ rest) := h
  exact (hcut.take_append hk).index

theorem slice_take (h : At data offset (xs ++ rest))
    (hk : offset + xs.length ≤ (data.take k).length) :
    Checked.slice (data.take k) offset (offset + xs.length) = pure xs :=
  (h.take_append hk).slice

theorem sliceFrom_take (h : At data offset rest) (hk : offset ≤ (data.take k).length) :
    Checked.sliceFrom (data.take k) offset = pure (rest.take (k - offset)) := by
  rw [List.length_take] at hk
  exact (h.take (by omega)).sliceFrom

end Cut

end At

end Checked

import Mathlib.Data.List.Basic
import Mathlib.Order.Basic

/-!
# Runs of a deterministic machine

A machine is a total transition function `next : σ → α → σ`; a run is the fold of `next` over a
list of events. Everything the environment chooses (which thread moves, what a clock reads) is
part of the event, so a property of every event list is a property of every interleaving.

## Main definitions

* `Run.Along next G s l`: every event of `l` satisfies the guard `G` in the state it is taken from;
* `Run.Always next I s l`: every state the run visits satisfies `I`, the first and last included;
* `Run.outputs next out s l`: what each event of the run hands back.

## Main results

* `Run.always_of_along`: an invariant kept by every guarded step holds throughout a guarded run;
* `Run.always_iff_along`: when one step keeps `I` exactly if it meets `G`, a run stays in `I`
  exactly if all its steps meet `G`;
* `Run.related_of_always`: a preorder kept by every step holds between the ends of a run;
* `Run.monotone_iff_along`: a measure never falls over a run exactly if no step lowers it;
* `Run.simulation`: two runs over paired events whose steps keep a relation end related;
* `Run.Along.simulate`: a guard on the steps of one run becomes a guard on those of another.
-/

namespace Run

variable {σ τ α β ω : Type*}

/-- Every event of the run from `s` over `l` satisfies `G` in the state it is taken from. -/
def Along (next : σ → α → σ) (G : σ → α → Prop) : σ → List α → Prop
  | _, [] => True
  | s, a :: l => G s a ∧ Along next G (next s a) l

/-- Every state visited by the run from `s` over `l` satisfies `I`. -/
def Always (next : σ → α → σ) (I : σ → Prop) : σ → List α → Prop
  | s, [] => I s
  | s, a :: l => I s ∧ Always next I (next s a) l

/-- The outputs of the events of `l`, in order. -/
def outputs (next : σ → α → σ) (out : σ → α → ω) : σ → List α → List ω
  | _, [] => []
  | s, a :: l => out s a :: outputs next out (next s a) l

/-- A list that ends in `b` and is cut before an element is cut before that `b`, or earlier. -/
theorem cut_append_singleton {l before after : List α} {a b : α}
    (h : l ++ [b] = before ++ a :: after) :
    (before = l ∧ a = b ∧ after = []) ∨ ∃ rest, after = rest ++ [b] ∧ l = before ++ a :: rest := by
  rcases List.eq_nil_or_concat after with rfl | ⟨rest, c, rfl⟩
  · obtain ⟨rfl, hab⟩ := List.append_inj' h rfl
    exact Or.inl ⟨rfl, (List.cons.inj hab).1.symm, rfl⟩
  · rw [List.concat_eq_append, ← List.cons_append, ← List.append_assoc] at h
    obtain ⟨rfl, hbc⟩ := List.append_inj' h rfl
    rw [List.concat_eq_append, (List.cons.inj hbc).1]
    exact Or.inr ⟨rest, rfl, rfl⟩

section Guards

variable {next : σ → α → σ} {G H : σ → α → Prop} {I : σ → Prop} {s : σ} {l : List α}

@[simp]
theorem along_nil : Along next G s [] := trivial

@[simp]
theorem along_cons {a : α} : Along next G s (a :: l) ↔ G s a ∧ Along next G (next s a) l := Iff.rfl

@[simp]
theorem always_nil : Always next I s [] ↔ I s := Iff.rfl

@[simp]
theorem always_cons {a : α} : Always next I s (a :: l) ↔ I s ∧ Always next I (next s a) l := Iff.rfl

/-- A guard on the events alone is met along a run if every event meets it. -/
theorem along_of_forall_mem {P : α → Prop} (h : ∀ a ∈ l, P a) :
    Along next (fun _ a => P a) s l := by
  induction l generalizing s with
  | nil => trivial
  | cons a l ih =>
    exact ⟨h a List.mem_cons_self, ih fun b hb => h b (List.mem_cons_of_mem a hb)⟩

/-- Two guards met along a run are met together. -/
theorem Along.and (hG : Along next G s l) (hH : Along next H s l) :
    Along next (fun s a => G s a ∧ H s a) s l := by
  induction l generalizing s with
  | nil => trivial
  | cons a l ih => exact ⟨⟨hG.1, hH.1⟩, ih hG.2 hH.2⟩

/-- A stronger guard gives a weaker one. -/
theorem Along.mono (hGH : ∀ s a, G s a → H s a) (h : Along next G s l) : Along next H s l := by
  induction l generalizing s with
  | nil => trivial
  | cons a l ih => exact ⟨hGH s a h.1, ih h.2⟩

/-- A run over a concatenation is a run over its parts. -/
theorem along_append {l' : List α} :
    Along next G s (l ++ l') ↔ Along next G s l ∧ Along next G (l.foldl next s) l' := by
  induction l generalizing s with
  | nil => simp
  | cons a l ih => simp [ih, and_assoc]

/-- A guard is met along a run exactly if it is met wherever the run is cut before an event. -/
theorem along_iff_forall_split :
    Along next G s l ↔ ∀ l₁ a l₂, l = l₁ ++ a :: l₂ → G (l₁.foldl next s) a := by
  constructor
  · rintro h l₁ a l₂ rfl
    exact (along_append.mp h).2.1
  · intro h
    induction l generalizing s with
    | nil => trivial
    | cons a l ih =>
      refine ⟨h [] a l rfl, ih fun l₁ b l₂ hl => ?_⟩
      exact h (a :: l₁) b l₂ (by rw [hl, List.cons_append])

/-- Two guards that agree in the states of an invariant, which each of their steps keeps, are met
along the same runs. -/
theorem along_congr {P : α → Prop} (hiff : ∀ s a, I s → P a → (G s a ↔ H s a))
    (hkeep : ∀ s a, I s → P a → G s a → I (next s a)) (hs : I s) (hl : ∀ a ∈ l, P a) :
    Along next G s l ↔ Along next H s l := by
  induction l generalizing s with
  | nil => exact Iff.rfl
  | cons a l ih =>
    have ha : P a := hl a List.mem_cons_self
    have hl' : ∀ b ∈ l, P b := fun b hb => hl b (List.mem_cons_of_mem a hb)
    constructor
    · rintro ⟨hG, hrest⟩
      exact ⟨(hiff s a hs ha).mp hG, (ih (hkeep s a hs ha hG) hl').mp hrest⟩
    · rintro ⟨hH, hrest⟩
      have hG : G s a := (hiff s a hs ha).mpr hH
      exact ⟨hG, (ih (hkeep s a hs ha hG) hl').mpr hrest⟩

/-- The first state of a run in `I` is in `I`. -/
theorem Always.head (h : Always next I s l) : I s := by
  cases l with
  | nil => exact h
  | cons a l => exact h.1

/-- A run stays in `I` exactly if every part of it ends in `I`. -/
theorem always_iff_forall_prefix :
    Always next I s l ↔ ∀ l₁ l₂, l = l₁ ++ l₂ → I (l₁.foldl next s) := by
  induction l generalizing s with
  | nil =>
    constructor
    · rintro h l₁ l₂ hl
      rw [(List.append_eq_nil_iff.mp hl.symm).1]
      exact h
    · exact fun h => h [] [] rfl
  | cons a l ih =>
    constructor
    · rintro ⟨hs, hrest⟩ l₁ l₂ hl
      -- the empty prefix is the state before the run
      rcases l₁ with _ | ⟨b, l₁⟩
      · exact hs
      · obtain ⟨rfl, hl'⟩ := List.cons.inj hl
        exact ih.mp hrest l₁ l₂ hl'
    · intro h
      refine ⟨h [] (a :: l) rfl, ih.mpr fun l₁ l₂ hl => ?_⟩
      exact h (a :: l₁) l₂ (by rw [hl, List.cons_append])

/-- A stronger invariant gives a weaker one. -/
theorem Always.mono {J : σ → Prop} (hIJ : ∀ s, I s → J s) (h : Always next I s l) :
    Always next J s l := by
  induction l generalizing s with
  | nil => exact hIJ _ h
  | cons a l ih => exact ⟨hIJ _ h.1, ih h.2⟩

/-- The last state of a run in `I` is in `I`. -/
theorem Always.last (h : Always next I s l) : I (l.foldl next s) := by
  induction l generalizing s with
  | nil => exact h
  | cons a l ih => exact ih h.2

/-- An invariant kept by every guarded step holds throughout a run whose steps all meet the
guard. -/
theorem always_of_along (hstep : ∀ s a, I s → G s a → I (next s a))
    (hs : I s) (h : Along next G s l) : Always next I s l := by
  induction l generalizing s with
  | nil => exact hs
  | cons a l ih => exact ⟨hs, ih (hstep s a hs h.1) h.2⟩

/-- An invariant kept by every step holds throughout every run. -/
theorem always_of_step (hstep : ∀ s a, I s → I (next s a)) (hs : I s) : Always next I s l := by
  induction l generalizing s with
  | nil => exact hs
  | cons a l ih => exact ⟨hs, ih (hstep s a hs)⟩

/-- An invariant kept by every step holds at the end of every run. -/
theorem foldl_of_step (hstep : ∀ s a, I s → I (next s a)) (hs : I s) : I (l.foldl next s) :=
  (always_of_step hstep hs).last

/-- While what is observed of the states is there at every step, and each step keeps a preorder
between what it finds and what it leaves, the first and the last observation of a run are in that
order. -/
theorem related_of_always {obs : σ → Option ω} {R : ω → ω → Prop} (hrefl : ∀ b, R b b)
    (htrans : ∀ b c d, R b c → R c d → R b d)
    (hstep : ∀ s a b c, obs s = some b → obs (next s a) = some c → R b c)
    (hl : Always next (fun s => (obs s).isSome) s l) {b c : ω} (hb : obs s = some b)
    (hc : obs (l.foldl next s) = some c) : R b c := by
  induction l generalizing s b with
  | nil =>
    obtain rfl := Option.some.inj (hb.symm.trans hc)
    exact hrefl b
  | cons a l ih =>
    obtain ⟨d, hd⟩ := Option.isSome_iff_exists.mp hl.2.head
    exact htrans b d c (hstep s a b d hb hd) (ih hl.2 hd hc)

/-- A measure never falls between two states of a run exactly if no step lowers it. -/
theorem monotone_iff_along [Preorder ω] {f : σ → ω} :
    (∀ l₁ l₂ l₃, l = l₁ ++ l₂ ++ l₃ → f (l₁.foldl next s) ≤ f ((l₁ ++ l₂).foldl next s)) ↔
      Along next (fun s a => f s ≤ f (next s a)) s l := by
  constructor
  · intro h
    refine along_iff_forall_split.mpr fun l₁ a l₂ hl => ?_
    have hstep := h l₁ [a] l₂ (by rw [hl, List.append_assoc, List.singleton_append])
    rwa [List.foldl_append] at hstep
  · rintro h l₁ l₂ l₃ rfl
    have hl₂ := (along_append.mp (along_append.mp h).1).2
    rw [List.foldl_append]
    -- every step of the second part keeps the measure at least where the first part left it
    refine (always_of_along (I := fun t => f (l₁.foldl next s) ≤ f t)
      (fun t a ht hG => ht.trans hG) le_rfl hl₂).last

/-- A run stays in `I` exactly if all its steps meet `G`, when in the states of a stronger invariant
`J` a step stays in `I` exactly if it meets `G`, and then keeps `J`. -/
theorem always_iff_along_of_keep {J : σ → Prop} (hJI : ∀ s, J s → I s)
    (hstep : ∀ s a, J s → (I (next s a) ↔ G s a)) (hkeep : ∀ s a, J s → G s a → J (next s a))
    (hs : J s) : Always next I s l ↔ Along next G s l := by
  induction l generalizing s with
  | nil => simpa using hJI s hs
  | cons a l ih =>
    constructor
    · rintro ⟨-, hl⟩
      have ha : G s a := (hstep s a hs).mp hl.head
      exact ⟨ha, (ih (hkeep s a hs ha)).mp hl⟩
    · rintro ⟨ha, hl⟩
      exact ⟨hJI s hs, (ih (hkeep s a hs ha)).mpr hl⟩

/-- When a step out of `I` stays in `I` exactly if it meets `G`, a run from `I` stays in `I`
exactly if all its steps meet `G`. -/
theorem always_iff_along (hstep : ∀ s a, I s → (I (next s a) ↔ G s a)) (hs : I s) :
    Always next I s l ↔ Along next G s l :=
  always_iff_along_of_keep (fun _ h => h) hstep (fun s a hI hG => (hstep s a hI).mpr hG) hs

end Guards

section Decidable

variable {next : σ → α → σ} {G : σ → α → Prop} [∀ s a, Decidable (G s a)]

instance Along.decidable (s : σ) : (l : List α) → Decidable (Along next G s l)
  | [] => isTrue trivial
  | a :: l =>
    have := Along.decidable (next s a) l
    inferInstanceAs (Decidable (G s a ∧ Along next G (next s a) l))

instance Always.decidable {I : σ → Prop} [∀ s, Decidable (I s)] (s : σ) :
    (l : List α) → Decidable (Always next I s l)
  | [] => inferInstanceAs (Decidable (I s))
  | a :: l =>
    have : Decidable (Always next I (next s a) l) := Always.decidable (next s a) l
    inferInstanceAs (Decidable (I s ∧ Always next I (next s a) l))

end Decidable

/-- The outputs of a concatenation are those of its parts. -/
theorem outputs_append {next : σ → α → σ} {out : σ → α → ω} {s : σ} {l l' : List α} :
    outputs next out s (l ++ l') =
      outputs next out s l ++ outputs next out (l.foldl next s) l' := by
  induction l generalizing s with
  | nil => rfl
  | cons a l ih => rw [List.cons_append, outputs, outputs, ih, List.cons_append, List.foldl_cons]

section Simulation

variable {next : σ → α → σ} {next' : τ → β → τ} {R : σ → τ → Prop}

/-- A run that simulates another over the same events meets what every simulated step entails. -/
theorem Along.simulate {next : σ → α → σ} {next' : τ → α → τ} {R : σ → τ → Prop}
    {G : σ → α → Prop} {H : τ → α → Prop}
    (hstep : ∀ s t a, R s t → G s a → R (next s a) (next' t a) ∧ H t a)
    {s : σ} {t : τ} {l : List α} (hR : R s t) (h : Along next G s l) :
    Along next' H t l ∧ R (l.foldl next s) (l.foldl next' t) := by
  induction l generalizing s t with
  | nil => exact ⟨trivial, hR⟩
  | cons a l ih =>
    obtain ⟨hR', hH⟩ := hstep s t a hR h.1
    obtain ⟨hl, hend⟩ := ih hR' h.2
    exact ⟨⟨hH, hl⟩, hend⟩

end Simulation

end Run

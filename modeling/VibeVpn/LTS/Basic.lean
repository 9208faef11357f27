import Mathlib.Logic.Relation
import Mathlib.Data.List.Induction
import Mathlib.Order.Lattice

/-!
# Labelled transition systems and their runs

Programs that react to their surroundings are given their meaning as *labelled transition systems*:
the labels carry what the outside decides (the message that arrives, the clock, the random draws,
the answer of a system call), so that a run is determined by its labels.

* `LTS S L` : a transition relation `S → L → S → Prop`.
* `LTS.Run s₀ ls s` : performing the labels `ls` in order leads from `s₀` to `s`.  The last
  step is the outermost constructor, so an induction on a run speaks about its final state.
* `LTS.Reachable s₀ s` : some run leads from `s₀` to `s`.
* `LTS.restrict G` : the runs all of whose steps meet the condition `G`.
* `LTS.Run.clock_le_iff` : a clock that only some labels advance.
* `LTS.ofExcept f` : the system of a step function that may fail; its runs are computed by
  folding `f` over the labels (`LTS.run_ofExcept_iff`).
-/

namespace VibeVpn

/-- A labelled transition system with states `S` and labels `L`. -/
structure LTS (S : Type*) (L : Type*) where
  /-- `step s l s'` : the system can move from `s` to `s'` performing `l`. -/
  step : S → L → S → Prop

namespace LTS

variable {S L : Type*} {A : LTS S L}

/-- The runs of a transition system from `s₀`: their labels and the state they end in. -/
inductive Run (A : LTS S L) (s₀ : S) : List L → S → Prop
  | nil : Run A s₀ [] s₀
  | snoc {ls : List L} {s s' : S} {l : L} :
      Run A s₀ ls s → A.step s l s' → Run A s₀ (ls ++ [l]) s'

/-- `s` is the last state of some run from `s₀`. -/
def Reachable (A : LTS S L) (s₀ s : S) : Prop := ∃ ls, A.Run s₀ ls s

/-- **Inductive invariants.**  A predicate that holds initially and is preserved by every step
holds in every reachable state. -/
theorem Reachable.invariant {I : S → Prop} {s₀ s : S} (h : A.Reachable s₀ s) (h₀ : I s₀)
    (hstep : ∀ s l s', I s → A.step s l s' → I s') : I s := by
  obtain ⟨ls, hr⟩ := h
  induction hr with
  | nil => exact h₀
  | snoc _ hst ih => exact hstep _ _ _ ih hst

theorem Run.reachable {s₀ s : S} {ls : List L} (h : A.Run s₀ ls s) : A.Reachable s₀ s := ⟨ls, h⟩

theorem Run.nil_inv {s₀ s : S} (h : A.Run s₀ [] s) : s = s₀ := by
  generalize he : ([] : List L) = ms at h
  cases h with
  | nil => rfl
  | snoc => simp at he

/-- The last step of a run. -/
theorem Run.snoc_inv {s₀ s' : S} {ls : List L} {l : L} (h : A.Run s₀ (ls ++ [l]) s') :
    ∃ s, A.Run s₀ ls s ∧ A.step s l s' := by
  generalize he : ls ++ [l] = ms at h
  cases h with
  | nil => simp at he
  | snoc hr hst =>
    obtain ⟨rfl, rfl⟩ : ls = _ ∧ l = _ := by simpa using he
    exact ⟨_, hr, hst⟩

theorem Run.append {s₀ s s' : S} {l₁ l₂ : List L} (h : A.Run s₀ l₁ s) (h' : A.Run s l₂ s') :
    A.Run s₀ (l₁ ++ l₂) s' := by
  induction h' with
  | nil => simpa using h
  | snoc _ hst ih => rw [← List.append_assoc]; exact ih.snoc hst

/-! ### Runs whose steps all meet a condition -/

/-- The steps of `A` taken in a state and with a label that meet `G`. -/
def restrict (A : LTS S L) (G : S → L → Prop) : LTS S L where
  step s l s' := G s l ∧ A.step s l s'

theorem Run.of_restrict {G : S → L → Prop} {s₀ s : S} {ls : List L}
    (h : (A.restrict G).Run s₀ ls s) : A.Run s₀ ls s := by
  induction h with
  | nil => exact .nil
  | snoc _ hst ih => exact ih.snoc hst.2

/-- A condition on the labels is met by a run whose labels meet it. -/
theorem Run.restrict_of_labels {G : L → Prop} {s₀ s : S} {ls : List L} (h : A.Run s₀ ls s)
    (hG : ∀ l ∈ ls, G l) : (A.restrict fun _ l => G l).Run s₀ ls s := by
  induction h with
  | nil => exact .nil
  | snoc _ hst ih =>
    rw [List.forall_mem_append, List.forall_mem_singleton] at hG
    exact (ih hG.1).snoc ⟨hG.2, hst⟩

/-- A condition that is weaker on the steps of `A` leaves at least the same runs. -/
theorem Run.restrict_mono {G H : S → L → Prop} (hGH : ∀ s l s', A.step s l s' → G s l → H s l)
    {s₀ s : S} {ls : List L} (h : (A.restrict G).Run s₀ ls s) : (A.restrict H).Run s₀ ls s := by
  induction h with
  | nil => exact .nil
  | snoc _ hst ih => exact ih.snoc ⟨hGH _ _ _ hst.2 hst.1, hst.2⟩

/-- Conditions that agree on the steps of `A` leave the same runs. -/
theorem run_restrict_congr {G H : S → L → Prop} (h : ∀ s l s', A.step s l s' → (G s l ↔ H s l))
    {s₀ s : S} {ls : List L} : (A.restrict G).Run s₀ ls s ↔ (A.restrict H).Run s₀ ls s := by
  constructor
  · exact Run.restrict_mono fun s l s' hst => (h s l s' hst).1
  · exact Run.restrict_mono fun s l s' hst => (h s l s' hst).2

/-- **A clock that some steps push past `T`.**  If the steps on labels in `p` set the clock `f`
to a time after `T` and the others leave it alone, the clock is still at or before `T` after a run
exactly when no label of the run is in `p`. -/
theorem Run.clock_le_iff {τ : Type*} [LinearOrder τ] {f : S → τ} {T : τ} {p : L → Bool}
    (hkeep : ∀ s l s', A.step s l s' → p l = false → f s' = f s)
    (hset : ∀ s l s', A.step s l s' → p l = true → T < f s')
    {s₀ s : S} {ls : List L} (h₀ : f s₀ ≤ T) (h : A.Run s₀ ls s) :
    f s ≤ T ↔ ∀ l ∈ ls, p l = false := by
  induction h with
  | nil => simpa using h₀
  | @snoc ls s s' l _ hst ih =>
    simp only [List.forall_mem_append, List.forall_mem_singleton, ← ih]
    cases hl : p l with
    | false => simp [hkeep s l s' hst hl]
    | true => simpa using hset s l s' hst hl

/-! ### Systems given by a step function -/

/-- The system of a step function that may fail: a failing step leads nowhere. -/
def ofExcept {ε : Type*} (f : S → L → Except ε S) : LTS S L where
  step s l s' := f s l = .ok s'

theorem run_ofExcept_iff {ε : Type*} {f : S → L → Except ε S} {s₀ s : S} {ls : List L} :
    (ofExcept f).Run s₀ ls s ↔ ls.foldlM f s₀ = .ok s := by
  induction ls using List.reverseRecOn generalizing s with
  | nil =>
    constructor
    · intro h
      rw [h.nil_inv]; rfl
    · intro h
      cases h
      exact .nil
  | append_singleton ls l ih =>
    rw [List.foldlM_append]
    constructor
    · intro h
      obtain ⟨t, ht, hst⟩ := h.snoc_inv
      rw [ih.1 ht]
      change (List.foldlM f t [l]) = .ok s
      simpa [ofExcept] using hst
    · intro h
      cases hm : List.foldlM f s₀ ls with
      | error e => rw [hm] at h; cases h
      | ok t =>
        rw [hm] at h
        change (List.foldlM f t [l]) = .ok s at h
        exact (ih.2 hm).snoc (by simpa [ofExcept] using h)

/-- A run is found by computing it. -/
theorem exists_run_of_any {ε : Type*} {f : S → L → Except ε S} (s₀ : S) (ls : List L)
    (p : S → Bool) (h : (ls.foldlM f s₀).toOption.any p = true) :
    ∃ s, (ofExcept f).Run s₀ ls s ∧ p s = true := by
  cases hf : ls.foldlM f s₀ with
  | error e =>
    rw [hf] at h
    cases h
  | ok s =>
    rw [hf] at h
    exact ⟨s, run_ofExcept_iff.2 hf, h⟩

/-- What a function computes that only takes steps of the system is a run. -/
theorem run_of_next {f : S → L → Option S} (hf : ∀ s l s', f s l = some s' → A.step s l s')
    {s₀ s : S} {ls : List L} (h : ls.foldlM f s₀ = some s) : A.Run s₀ ls s := by
  induction ls using List.reverseRecOn generalizing s with
  | nil =>
    cases h
    exact .nil
  | append_singleton ls l ih =>
    rw [List.foldlM_append] at h
    obtain ⟨t, ht, h⟩ := Option.bind_eq_some_iff.1 h
    simp only [List.foldlM_cons, List.foldlM_nil] at h
    obtain ⟨s', hs, heq⟩ := Option.bind_eq_some_iff.1 h
    cases heq
    exact (ih ht).snoc (hf t l s hs)

theorem exists_run_of_next {f : S → L → Option S}
    (hf : ∀ s l s', f s l = some s' → A.step s l s') (s₀ : S) (ls : List L) (p : S → Bool)
    (h : (ls.foldlM f s₀).any p = true) : ∃ s, A.Run s₀ ls s ∧ p s = true := by
  obtain ⟨s, hs, hp⟩ := (Option.any_eq_true _ _).1 h
  exact ⟨s, run_of_next hf hs, hp⟩

/-- A run whose steps meet a condition is found by computing it together with a test that is enough
for the condition. -/
theorem exists_run_restrict_of_next {f : S → L → Option S} {G : S → L → Prop}
    (hf : ∀ s l s', f s l = some s' → A.step s l s') (g : S → L → Bool)
    (hg : ∀ s l, g s l = true → G s l) (s₀ : S) (ls : List L) (p : S → Bool)
    (h : (ls.foldlM (fun s l => if g s l then f s l else none) s₀).any p = true) :
    ∃ s, (A.restrict G).Run s₀ ls s ∧ p s = true := by
  refine exists_run_of_next (fun s l s' hs => ?_) s₀ ls p h
  split_ifs at hs with hl
  exact ⟨hg s l hl, hf s l s' hs⟩

/-- The same for a step function that may fail. -/
theorem exists_run_restrict_of_any {ε : Type*} {f : S → L → Except ε S} {G : S → L → Prop}
    (g : S → L → Bool) (hg : ∀ s l, g s l = true → G s l) (s₀ : S) (ls : List L) (p : S → Bool)
    (h : (ls.foldlM (fun s l => if g s l then (f s l).toOption else none) s₀).any p = true) :
    ∃ s, ((ofExcept f).restrict G).Run s₀ ls s ∧ p s = true := by
  refine exists_run_restrict_of_next (fun s l s' hs => ?_) g hg s₀ ls p h
  cases hf : f s l with
  | error e =>
    rw [hf] at hs
    cases hs
  | ok u =>
    rw [hf] at hs
    cases hs
    exact hf

end LTS

end VibeVpn

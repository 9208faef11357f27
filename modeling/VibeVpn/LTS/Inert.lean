import Mathlib.Logic.Basic

/-!
# Inputs without effect

A machine `f : σ → ι → Except ε (σ × List τ)` takes inputs one by one, and each makes it fail or
gives a new state and some observations.  This file compares two runs of such a machine:

* `Agree R x y` : two computations fail with the same error, or succeed with results related by
  `R`; `Agree.bind` is the rule for a sequence of two steps.
* `runs_kept` : **inputs that are rejected can be left out**.  If a rejected input observes nothing
  and stays within a relation `R` that the machine respects, then a run over all inputs and the run
  over those that it does not reject make the same observations and end in related states.
-/

namespace VibeVpn

variable {σ ι τ γ ε α β α' β' : Type}

/-- Both computations fail with the same error, or succeed with related results. -/
inductive Agree (R : α → β → Prop) : Except ε α → Except ε β → Prop where
  | ok {a : α} {b : β} : R a b → Agree R (.ok a) (.ok b)
  | error (e : ε) : Agree R (.error e) (.error e)

theorem Agree.bind {R : α → β → Prop} {R' : α' → β' → Prop} {x : Except ε α} {y : Except ε β}
    {f : α → Except ε α'} {g : β → Except ε β'} (h : Agree R x y)
    (hfg : ∀ a b, R a b → Agree R' (f a) (g b)) : Agree R' (x >>= f) (y >>= g) := by
  cases h with
  | ok hab => exact hfg _ _ hab
  | error e => exact .error e

/-- Two computations that branch on the same condition. -/
theorem Agree.ite {R : α → β → Prop} {c : Prop} [Decidable c] {x x' : Except ε α}
    {y y' : Except ε β} (h : Agree R x y) (h' : Agree R x' y') :
    Agree R (if c then x else x') (if c then y else y') := by
  by_cases hc : c
  · rwa [if_pos hc, if_pos hc]
  · rwa [if_neg hc, if_neg hc]

theorem Agree.refl_of {R : α → α → Prop} (h : ∀ a, R a a) (x : Except ε α) : Agree R x x := by
  cases x with
  | error e => exact .error e
  | ok a => exact .ok (h a)

/-- The machine on a list of inputs, with all observations. -/
def runs (f : σ → ι → Except ε (σ × List τ)) : σ → List ι → Except ε (σ × List τ)
  | s, [] => .ok (s, [])
  | s, i :: is =>
    match f s i with
    | .error e => .error e
    | .ok (s', os) => (runs f s' is).map fun r => (r.1, os ++ r.2)

/-- The inputs that are not rejected at their turn; a machine that has failed reads no more. -/
def kept (f : σ → ι → Except ε (σ × List τ)) (rej : σ → ι → Bool) : σ → List ι → List ι
  | _, [] => []
  | s, i :: is =>
    match f s i with
    | .error _ => i :: is
    | .ok (s', _) => if rej s i then kept f rej s' is else i :: kept f rej s' is

/-- Related states, and the same output. -/
def Alike (R : σ → σ → Prop) (a b : σ × γ) : Prop := R a.1 b.1 ∧ a.2 = b.2

theorem Agree.map_append {R : σ → σ → Prop} {x y : Except ε (σ × List τ)}
    (h : Agree (Alike R) x y) (os : List τ) :
    Agree (Alike R) (x.map fun r => (r.1, os ++ r.2)) (y.map fun r => (r.1, os ++ r.2)) := by
  cases h with
  | ok hab => exact .ok ⟨hab.1, congrArg (os ++ ·) hab.2⟩
  | error e => exact .error e

theorem runs_kept {f : σ → ι → Except ε (σ × List τ)} {rej : σ → ι → Bool} {R : σ → σ → Prop}
    (hstep : ∀ s t i, R s t → Agree (Alike R) (f s i) (f t i))
    (hrej : ∀ s t i, R s t → rej s i = true → ∃ s', f s i = .ok (s', []) ∧ R s' t)
    {s t : σ} (h : R s t) (is : List ι) :
    Agree (Alike R) (runs f s is) (runs f t (kept f rej s is)) := by
  induction is generalizing s t with
  | nil => exact .ok ⟨h, rfl⟩
  | cons i is ih =>
    have hi := hstep s t i h
    cases hf : f s i with
    | error e =>
      rw [hf] at hi
      cases hft : f t i with
      | ok => rw [hft] at hi; cases hi
      | error e' =>
        rw [hft] at hi
        cases hi
        simp only [runs, kept, hf, hft]
        exact .error e
    | ok r =>
      cases hr : rej s i with
      | true =>
        obtain ⟨s', hs', hR⟩ := hrej s t i h hr
        rw [hf] at hs'
        cases hs'
        have hrest := (ih hR).map_append ([] : List τ)
        simp only [runs, kept, hf, hr, if_true]
        cases hy : runs f t (kept f rej s' is) with
        | error e => rw [hy] at hrest; exact hrest
        | ok y => rw [hy] at hrest; exact hrest
      | false =>
        rw [hf] at hi
        cases hft : f t i with
        | error => rw [hft] at hi; cases hi
        | ok r' =>
          rw [hft] at hi
          cases hi with
          | ok hab =>
            simp only [runs, kept, hf, hr, hft, Bool.false_eq_true, if_false]
            rw [← hab.2]
            exact (ih hab.1).map_append r.2

end VibeVpn

import VibeVpn.LTS.Basic

/-!
# Refinement of transition systems

A detailed system `A` and an abstract one `B` that says what `A` is for.  An abstraction function
`f` reads the abstract state off a detailed one, and `event s l` is the action of `B` that the step
of `A` from `s` on `l` performs, if any.

* `LTS.Traced event s₀ ls ms s` : a run of `A` together with the actions it performs.
* `LTS.Refines A B I f event` : wherever `I` holds, a step of `A` that performs an action is a step
  of `B` on that action, and the others leave the abstract state alone.
* `LTS.Refines.run` : **the actions of a run of `A` are a run of `B`**, between the abstract states.
-/

namespace VibeVpn

namespace LTS

variable {S L T M : Type*} {A : LTS S L} {B : LTS T M} {event : S → L → Option M}
  {I : S → Prop} {f : S → T} {s₀ s s' : S} {l : L} {ls : List L} {m : M} {ms : List M}

/-- The runs from `s₀`, with the actions that their steps perform. -/
inductive Traced (A : LTS S L) (event : S → L → Option M) (s₀ : S) :
    List L → List M → S → Prop where
  | nil : Traced A event s₀ [] [] s₀
  | snoc {ls : List L} {ms : List M} {s s' : S} {l : L} :
      Traced A event s₀ ls ms s → A.step s l s' →
      Traced A event s₀ (ls ++ [l]) (ms ++ (event s l).toList) s'

theorem Run.traced (event : S → L → Option M) (h : A.Run s₀ ls s) :
    ∃ ms, A.Traced event s₀ ls ms s := by
  induction h with
  | nil => exact ⟨[], .nil⟩
  | snoc _ hst ih =>
    obtain ⟨ms, hms⟩ := ih
    exact ⟨_, hms.snoc hst⟩

theorem Traced.run (h : A.Traced event s₀ ls ms s) : A.Run s₀ ls s := by
  induction h with
  | nil => exact .nil
  | snoc _ hst ih => exact ih.snoc hst

/-- An action of a run was performed by one of its steps. -/
theorem Traced.exists_step (h : A.Traced event s₀ ls ms s) (hm : m ∈ ms) :
    ∃ l₁ l l₂ s₁ s₂, ls = l₁ ++ l :: l₂ ∧ A.Run s₀ l₁ s₁ ∧ A.step s₁ l s₂ ∧
      event s₁ l = some m := by
  induction h with
  | nil => cases hm
  | @snoc ls ms s s' l hr hst ih =>
    rcases List.mem_append.1 hm with hm | hm
    · obtain ⟨l₁, l', l₂, s₁, s₂, rfl, h⟩ := ih hm
      exact ⟨l₁, l', l₂ ++ [l], s₁, s₂, by simp, h⟩
    · exact ⟨ls, l, [], s, s', rfl, hr.run, hst, Option.mem_toList.1 hm⟩

/-- `A` refines `B` through the abstraction `f`, wherever `I` holds. -/
structure Refines (A : LTS S L) (B : LTS T M) (I : S → Prop) (f : S → T)
    (event : S → L → Option M) : Prop where
  /-- The condition is an invariant. -/
  keeps : ∀ {s l s'}, I s → A.step s l s' → I s'
  /-- A step that performs no action leaves the abstract state alone. -/
  silent : ∀ {s l s'}, I s → A.step s l s' → event s l = none → f s' = f s
  /-- A step that performs an action is a step of `B`. -/
  visible : ∀ {s l s' m}, I s → A.step s l s' → event s l = some m → B.step (f s) m (f s')

/-- **The actions of a run of `A` are a run of `B`.** -/
theorem Refines.run (h : Refines A B I f event) (h₀ : I s₀) (ht : A.Traced event s₀ ls ms s) :
    I s ∧ B.Run (f s₀) ms (f s) := by
  induction ht with
  | nil => exact ⟨h₀, .nil⟩
  | @snoc ls ms s s' l _ hst ih =>
    obtain ⟨hi, hr⟩ := ih
    refine ⟨h.keeps hi hst, ?_⟩
    cases hev : event s l with
    | none =>
      rw [h.silent hi hst hev, Option.toList_none, List.append_nil]
      exact hr
    | some m => exact hr.snoc (h.visible hi hst hev)

end LTS

end VibeVpn

import Mathlib.Algebra.BigOperators.Group.List.Basic
import Mathlib.Algebra.Ring.Nat
import VibeVpn.LTS.Basic

/-!
# Rules for whole runs

*Records.*  `LTS.recording A obs` is `A` together with a record of its run: every step adds what it
shows, `obs s l`, at the end.  A record does not influence the run: every run of `A` has one
(`LTS.Run.exists_recording`), and leaving the records out of a run with a record gives a run of `A`
(`LTS.Run.of_recording`).  The runs of a step function are computed together with their records
(`LTS.recording_ofExcept`).

*Waits.*  What a system waits for is often at some place of a queue, and comes closer with every
step of one kind: a message with each delivery, a client with each one served.  `LTS.Run.passes`
says that the wait is over, at some point of the run, after as many steps of that kind;
`LTS.Run.wait` is for something that stays once it is there.

*Balances.*  A quantity of the states is *balanced* when every step changes it by what the step
brings in and takes out.  Over a run it then changes by what all the steps bring in and take out
(`LTS.Run.balance`; `LTS.Run.balance_le` for a quantity that may also get lost).
-/

namespace VibeVpn

namespace LTS

variable {S L α : Type*} {A : LTS S L}

/-! ### Records -/

section Recording

variable {obs : S → L → List α}

/-- The system `A`, which records what its steps show. -/
def recording (A : LTS S L) (obs : S → L → List α) : LTS (S × List α) L where
  step p l p' := A.step p.1 l p'.1 ∧ p'.2 = p.2 ++ obs p.1 l

theorem Run.of_recording {p₀ p : S × List α} {ls : List L} (h : (A.recording obs).Run p₀ ls p) :
    A.Run p₀.1 ls p.1 := by
  induction h with
  | nil => exact .nil
  | snoc _ hst ih => exact .snoc ih hst.1

theorem Run.exists_recording {s₀ s : S} {ls : List L} (h : A.Run s₀ ls s) (r₀ : List α) :
    ∃ r, (A.recording obs).Run (s₀, r₀) ls (s, r) := by
  induction h with
  | nil => exact ⟨r₀, .nil⟩
  | snoc _ hst ih =>
    obtain ⟨r, hr⟩ := ih
    exact ⟨_, .snoc hr ⟨hst, rfl⟩⟩

/-- The record of a step function that may fail is computed with it. -/
theorem recording_ofExcept {ε : Type*} (f : S → L → Except ε S) (obs : S → L → List α) :
    (ofExcept f).recording obs =
      ofExcept fun p l => (f p.1 l).map fun s => (s, p.2 ++ obs p.1 l) := by
  unfold recording ofExcept
  congr
  funext p l p'
  cases hf : f p.1 l with
  | error e => simp [hf, Except.map]
  | ok s =>
    simp only [hf, Except.map, Except.ok.injEq]
    exact propext ⟨fun h => Prod.ext h.1 h.2.symm, fun h => h ▸ ⟨rfl, rfl⟩⟩

end Recording

/-! ### Waits -/

/-- **A wait that ends on the way.**  In the states of `P i` there are `i` steps on labels in `p` to
wait for: every step ends the wait, or leaves it where it is and one nearer when its label is in
`p`.  Then a run has passed a state in which the wait was over, after at most `i + 1` labels in `p`,
or is still waiting, and the nearer the more of them it has had. -/
theorem Run.passes {P : ℕ → S → Prop} {Q : S → Prop} {p : L → Bool}
    (hP : ∀ i s l s', P i s → A.step s l s' →
      Q s' ∨ ∃ i', P i' s' ∧ i' + (if p l then 1 else 0) ≤ i)
    {s₀ s : S} {ls : List L} (h : A.Run s₀ ls s) {i : ℕ} (h₀ : P i s₀) :
    (∃ l₁ l₂ t, ls = l₁ ++ l₂ ∧ l₁.countP p ≤ i + 1 ∧ A.Run s₀ l₁ t ∧ Q t ∧ A.Run t l₂ s) ∨
      ∃ i', P i' s ∧ i' + ls.countP p ≤ i := by
  induction h with
  | nil => exact .inr ⟨i, h₀, by simp⟩
  | @snoc ls s s' l hr hst ih =>
    rcases ih with ⟨l₁, l₂, t, rfl, hle, hr₁, hq, hr₂⟩ | ⟨i', hi', hle⟩
    · exact .inl ⟨l₁, l₂ ++ [l], t, List.append_assoc .., hle, hr₁, hq, hr₂.snoc hst⟩
    · have hcount : (ls ++ [l]).countP p = ls.countP p + if p l then 1 else 0 := by
        rw [List.countP_append, List.countP_singleton]
      rcases hP i' s l s' hi' hst with hq | ⟨j, hj, hjle⟩
      · refine .inl ⟨ls ++ [l], [], s', (List.append_nil _).symm, ?_, hr.snoc hst, hq, .nil⟩
        rw [hcount]
        split_ifs <;> omega
      · exact .inr ⟨j, hj, by omega⟩

/-- **A wait that ends.**  When what is waited for stays, it is there after a run with more than `i`
labels in `p`. -/
theorem Run.wait {P : ℕ → S → Prop} {Q : S → Prop} {p : L → Bool}
    (hP : ∀ i s l s', P i s → A.step s l s' →
      Q s' ∨ ∃ i', P i' s' ∧ i' + (if p l then 1 else 0) ≤ i)
    (hQ : ∀ s l s', Q s → A.step s l s' → Q s') {s₀ s : S} {ls : List L} (h : A.Run s₀ ls s)
    {i : ℕ} (h₀ : P i s₀) (hi : i < ls.countP p) : Q s := by
  rcases h.passes hP h₀ with ⟨_, _, t, -, -, -, hq, hr⟩ | ⟨i', -, hle⟩
  · exact hr.reachable.invariant hq hQ
  · omega

/-! ### Balances -/

section Balance

variable {I : S → Prop} {f : S → ℕ} {came left : L → ℕ} {s₀ s : S} {ls : List L}

theorem Run.balance (h₀ : I s₀)
    (hstep : ∀ s l s', I s → A.step s l s' → I s' ∧ f s' + left l = f s + came l)
    (h : A.Run s₀ ls s) : I s ∧ f s + (ls.map left).sum = f s₀ + (ls.map came).sum := by
  induction h with
  | nil => exact ⟨h₀, rfl⟩
  | @snoc ls s s' l _ hst ih =>
    obtain ⟨hi, hf⟩ := ih
    obtain ⟨hi', hf'⟩ := hstep s l s' hi hst
    refine ⟨hi', ?_⟩
    simp only [List.map_append, List.map_cons, List.map_nil, List.sum_append, List.sum_singleton]
    omega

theorem Run.balance_le (h₀ : I s₀)
    (hstep : ∀ s l s', I s → A.step s l s' → I s' ∧ f s' ≤ f s + came l)
    (h : A.Run s₀ ls s) : I s ∧ f s ≤ f s₀ + (ls.map came).sum := by
  induction h with
  | nil => exact ⟨h₀, Nat.le_refl _⟩
  | @snoc ls s s' l _ hst ih =>
    obtain ⟨hi, hf⟩ := ih
    obtain ⟨hi', hf'⟩ := hstep s l s' hi hst
    refine ⟨hi', ?_⟩
    simp only [List.map_append, List.map_cons, List.map_nil, List.sum_append, List.sum_singleton]
    omega

end Balance

end LTS

end VibeVpn

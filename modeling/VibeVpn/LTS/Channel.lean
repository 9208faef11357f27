import Mathlib.Data.List.Basic

/-!
# Channels

*Lossy networks.*  The messages in flight from one party to another, in no order: the receiver is
handed any of them, and the network may lose and duplicate them.  Messages are named by their
position, so that a run is determined by its labels.  Nothing a network does puts a message in
flight that was not there (`Network.fault_subset`), and a message stays there until it is delivered
or lost (`Network.eq_or_mem_eraseIdx`).

*Queues.*  `Fifo pass ins outs pend` says what a queue with a test at its end has done: the values
`ins` went in, `pend` are still in it, and `outs` are those that came out and passed the test.  A
queue does two things, `Fifo.push` and `Fifo.pop`; a system is a first-in first-out channel when
each of its steps is one of them.
-/

namespace VibeVpn

/-! ### Lossy networks -/

namespace Network

variable {M : Type*} {net : List M} {m : M}

/-- What a network may do on its own. -/
inductive Fault where
  /-- Lose the message at position `i`. -/
  | lose (i : ℕ)
  /-- Duplicate the message at position `i`. -/
  | dup (i : ℕ)
  deriving DecidableEq, Repr

/-- The messages in flight after a fault. -/
def fault (net : List M) : Fault → List M
  | .lose i => net.eraseIdx i
  | .dup i => net ++ net[i]?.toList

theorem fault_subset (net : List M) (f : Fault) : fault net f ⊆ net := by
  intro m hm
  cases f with
  | lose i => exact List.mem_of_mem_eraseIdx hm
  | dup i =>
    rcases List.mem_append.1 hm with hm | hm
    · exact hm
    · exact List.mem_of_getElem? (Option.mem_toList.1 hm)

/-- Taking a message off the network leaves the others in flight. -/
theorem eq_or_mem_eraseIdx {i : ℕ} {n : M} (hi : net[i]? = some m) (hn : n ∈ net) :
    n = m ∨ n ∈ net.eraseIdx i := by
  obtain ⟨j, hj⟩ := List.mem_iff_getElem?.1 hn
  by_cases hij : j = i
  · rw [hij, hi] at hj
    exact .inl (Option.some.inj hj).symm
  · exact .inr (List.mem_eraseIdx_iff_getElem?.2 ⟨j, hij, hj⟩)

end Network

/-! ### First in, first out -/

section Fifo

variable {α : Type*} {pass : α → Bool} {ins outs pend : List α} {a : α}

/-- The values that came out are the first that went in, and those that passed are written. -/
def Fifo (pass : α → Bool) (ins outs pend : List α) : Prop :=
  ∃ done, ins = done ++ pend ∧ outs = done.filter pass

theorem Fifo.nil : Fifo pass [] [] [] := ⟨[], rfl, rfl⟩

theorem Fifo.push (h : Fifo pass ins outs pend) (new : List α) :
    Fifo pass (ins ++ new) outs (pend ++ new) := by
  obtain ⟨done, rfl, rfl⟩ := h
  exact ⟨done, List.append_assoc .., rfl⟩

theorem Fifo.pop (h : Fifo pass ins outs (a :: pend)) :
    Fifo pass ins (outs ++ if pass a then [a] else []) pend := by
  obtain ⟨done, rfl, rfl⟩ := h
  refine ⟨done ++ [a], by simp, ?_⟩
  rw [List.filter_append, List.filter_singleton]
  cases pass a <;> rfl

end Fifo

end VibeVpn

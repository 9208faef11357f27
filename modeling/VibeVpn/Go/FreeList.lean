import VibeVpn.Go.Lists

/-!
# A free list

A free list hands out a value that was put back into it, the last one first, or makes a new one.  It
is safe if nobody puts a value back twice, or keeps using it afterwards.  Here the values are tokens
that move between *holders*, and a step of the system uses the free list properly (`FreeList.Uses`)
if a holder that puts a token back held it and gives it up.

* `FreeList.Sole` : every token is with one holder, or in the free list once.
* `FreeList.Uses.frame` : a step of some holders is a step of all of them.
* `FreeList.Uses.sole` : **proper use keeps every token with one holder**, and a token that was put
  back is not put back again before it has been taken (`FreeList.Once`).
-/

namespace VibeVpn

variable {B : Type*}

/-! ### The free list -/

/-- A call on the free list. -/
inductive FreeList.Op (B : Type*) where
  /-- The token is taken. -/
  | get (b : B)
  /-- The token is put back. -/
  | put (b : B)

/-- A free list. -/
structure FreeList (B : Type*) where
  /-- The tokens that can be taken, the next one last. -/
  free : List B
  /-- History: the tokens that were ever made. -/
  made : List B
  /-- History: the calls. -/
  log : List (FreeList.Op B)

namespace FreeList

/-- Nothing has been made. -/
def empty : FreeList B := ⟨[], [], []⟩

/-- Take a token; when there is none, a new one is made. -/
def get [DecidableEq B] (p : FreeList B) (fresh : B) : Option (B × FreeList B) :=
  match p.free.getLast? with
  | some b => some (b, { p with free := p.free.dropLast, log := p.log ++ [.get b] })
  | none =>
    if fresh ∈ p.made then none
    else some (fresh, { p with made := fresh :: p.made, log := p.log ++ [.get fresh] })

/-- Put a token back. -/
def put (p : FreeList B) (b : B) : FreeList B :=
  { p with free := p.free ++ [b], log := p.log ++ [.put b] }

/-- Between two times that it is put back, a token is taken. -/
def Once (log : List (Op B)) : Prop :=
  ∀ {b : B} {l₁ l₂ l₃ : List (Op B)}, log = l₁ ++ Op.put b :: (l₂ ++ Op.put b :: l₃) →
    Op.get b ∈ l₂

/-- Every token is with one holder, or in the free list once. -/
structure Sole (p : FreeList B) (held : List B) : Prop where
  nodup : (p.free ++ held).Nodup
  made : ∀ b ∈ p.free ++ held, b ∈ p.made
  /-- A token that was put back and not taken since is in the free list. -/
  returned : ∀ {b l₁ l₂}, p.log = l₁ ++ .put b :: l₂ → .get b ∉ l₂ → b ∈ p.free
  once : Once p.log

theorem Sole.empty : Sole (.empty : FreeList B) [] where
  nodup := List.nodup_nil
  made := fun _ h => nomatch h
  returned := fun h => by simp [FreeList.empty] at h
  once := fun h => by simp [FreeList.empty] at h

variable {p p' : FreeList B} {held held' : List B} {b fresh : B}

/-- A token comes from the end of the list, or is new. -/
theorem get_cases [DecidableEq B] (h : p.get fresh = some (b, p')) :
    (∃ rest, p.free = rest ++ [b] ∧ p' = { p with free := rest, log := p.log ++ [.get b] }) ∨
    (b ∉ p.made ∧ p' = { p with made := b :: p.made, log := p.log ++ [.get b] }) := by
  unfold get at h
  split at h
  · next b' hlast =>
    cases h
    exact .inl ⟨_, (List.dropLast_append_getLast? _ hlast).symm, rfl⟩
  · split_ifs at h with hmade
    cases h
    exact .inr ⟨hmade, rfl⟩

/-- A step that uses the free list properly: a token that is put back was held, and is given up.
Tokens may be lost. -/
inductive Uses [DecidableEq B] (p : FreeList B) (held held' : List B) : FreeList B → Prop where
  | keep : held'.Subperm held → Uses p held held' p
  | get {fresh b : B} {p' : FreeList B} : p.get fresh = some (b, p') →
      held'.Subperm (b :: held) → Uses p held held' p'
  | put {b : B} : (b :: held').Subperm held → Uses p held held' (p.put b)

/-- **The holders that take no part in a step keep what they hold.** -/
theorem Uses.frame [DecidableEq B] {a a' rest : List B} (h : Uses p a a' p')
    (ha : held.Perm (a ++ rest)) (ha' : held'.Perm (a' ++ rest)) : Uses p held held' p' := by
  cases h with
  | keep hsub =>
    exact .keep ((ha'.subperm.trans ((List.subperm_append_right rest).2 hsub)).trans
      ha.symm.subperm)
  | get hget hsub =>
    refine .get hget ((ha'.subperm.trans ((List.subperm_append_right rest).2 hsub)).trans ?_)
    exact (ha.symm.cons _).subperm
  | put hsub =>
    refine .put (((ha'.cons _).subperm.trans ?_).trans ha.symm.subperm)
    exact (List.subperm_append_right rest).2 hsub

theorem Uses.frame_left [DecidableEq B] (h : Uses p held held' p') (rest : List B) :
    Uses p (rest ++ held) (rest ++ held') p' :=
  h.frame List.perm_append_comm List.perm_append_comm

theorem Uses.frame_right [DecidableEq B] (h : Uses p held held' p') (rest : List B) :
    Uses p (held ++ rest) (held' ++ rest) p' :=
  h.frame (.refl _) (.refl _)

/-- One of many holders takes a step. -/
theorem Uses.frame_set [DecidableEq B] {A : Type*} {f : A → List B} {l : List A} {i : ℕ} {a a' : A}
    (h : Uses p (f a) (f a') p') (ha : l[i]? = some a) :
    Uses p (l.flatMap f) ((l.set i a').flatMap f) p' := by
  obtain ⟨rest, hbefore, hafter⟩ := exists_frame f ha
  exact h.frame hbefore (hafter a')

theorem Sole.keep (h : Sole p held) (hsub : held'.Subperm held) : Sole p held' where
  nodup := nodup_of_subperm ((List.subperm_append_left p.free).2 hsub) h.nodup
  made := fun b hb => h.made b (((List.subperm_append_left p.free).2 hsub).subset hb)
  returned := h.returned
  once := h.once

/-- The log after a token is taken. -/
theorem Sole.log_get (h : Sole p held) :
    (∀ {b' : B} {l₁ l₂ : List (Op B)}, p.log ++ [Op.get b] = l₁ ++ Op.put b' :: l₂ →
      Op.get b' ∉ l₂ → b' ∈ p.free ∧ b' ≠ b) ∧ Once (p.log ++ [Op.get b]) := by
  constructor
  · intro b' l₁ l₂ heq hnot
    obtain ⟨-, -, hop⟩ | ⟨l₂', rfl, hlog⟩ := snoc_eq_append_cons heq
    · cases hop
    · simp only [List.mem_append, List.mem_singleton, Op.get.injEq, not_or] at hnot
      exact ⟨h.returned hlog hnot.1, hnot.2⟩
  · intro b' l₁ l₂ l₃ heq
    rw [← List.cons_append, ← List.append_assoc] at heq
    obtain ⟨-, -, hop⟩ | ⟨l₃', rfl, hlog⟩ := snoc_eq_append_cons heq
    · cases hop
    · rw [List.append_assoc, List.cons_append] at hlog
      exact h.once hlog

theorem Sole.get [DecidableEq B] (h : Sole p held) (hget : p.get fresh = some (b, p')) :
    Sole p' (b :: held) := by
  obtain ⟨hreturned, honce⟩ := h.log_get (b := b)
  obtain ⟨rest, hfree, rfl⟩ | ⟨hnew, rfl⟩ := get_cases hget
  · have hperm : (rest ++ b :: held).Perm (p.free ++ held) := by
      rw [hfree, List.append_assoc]
      rfl
    refine ⟨hperm.nodup_iff.2 h.nodup, fun b' hb' => h.made b' (hperm.mem_iff.1 hb'), ?_, honce⟩
    intro b' l₁ l₂ heq hnot
    obtain ⟨hmem, hne⟩ := hreturned heq hnot
    rw [hfree, List.mem_append, List.mem_singleton] at hmem
    exact hmem.resolve_right hne
  · have hperm : (p.free ++ b :: held).Perm (b :: (p.free ++ held)) := List.perm_middle
    refine ⟨?_, fun b' hb' => ?_, fun heq hnot => (hreturned heq hnot).1, honce⟩
    · exact hperm.nodup_iff.2 (List.nodup_cons.2 ⟨fun hmem => hnew (h.made b hmem), h.nodup⟩)
    · obtain rfl | hmem := List.mem_cons.1 (hperm.mem_iff.1 hb')
      · exact List.mem_cons_self
      · exact List.mem_cons_of_mem _ (h.made b' hmem)

theorem Sole.put (h : Sole p (b :: held)) : Sole (p.put b) held := by
  have hperm : (p.free ++ [b] ++ held).Perm (p.free ++ b :: held) := by
    rw [List.append_assoc]
    rfl
  have hnot : b ∉ p.free := fun hmem =>
    (List.nodup_append.1 h.nodup).2.2 b hmem b List.mem_cons_self rfl
  refine ⟨hperm.nodup_iff.2 h.nodup, fun b' hb' => h.made b' (hperm.mem_iff.1 hb'), ?_, ?_⟩
  · intro b' l₁ l₂ heq hget
    obtain ⟨-, -, hop⟩ | ⟨l₂', rfl, hlog⟩ := snoc_eq_append_cons heq
    · cases hop
      exact List.mem_append_right _ (List.mem_singleton_self b)
    · exact List.mem_append_left _ (h.returned hlog fun hmem =>
        hget (List.mem_append_left _ hmem))
  · intro b' l₁ l₂ l₃ heq
    rw [← List.cons_append, ← List.append_assoc] at heq
    obtain ⟨-, hlog, hop⟩ | ⟨l₃', rfl, hlog⟩ := snoc_eq_append_cons heq
    · -- The token put back now is held, so it was taken since it was put back before.
      cases hop
      by_contra hget
      exact hnot (h.returned hlog hget)
    · rw [List.append_assoc, List.cons_append] at hlog
      exact h.once hlog

/-- **Proper use keeps every token with one holder.** -/
theorem Uses.sole [DecidableEq B] (h : Uses p held held' p') (hi : Sole p held) :
    Sole p' held' := by
  cases h with
  | keep hsub => exact hi.keep hsub
  | get hget hsub => exact (hi.get hget).keep hsub
  | put hsub => exact (hi.keep hsub).put

end FreeList

end VibeVpn

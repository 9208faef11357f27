import Mathlib.Algebra.BigOperators.Group.List.Basic
import Mathlib.Algebra.Ring.Nat
import Mathlib.Data.List.Perm.Subperm

/-!
# Lists of objects

Objects are kept in lists and named by their position; queues grow at the end and are taken from the
front.  These are the lemmas on such lists that are not in the library: where an object is after
another was overwritten, added or taken, and what that does to a total over all of them.
-/

namespace VibeVpn

variable {A B : Type*} {l : List A} {b : A} {i : ℕ}

/-! ### Positions -/

/-- What stands in a list after one object was overwritten. -/
theorem getElem?_set_cases {c : A} {j : ℕ} (h : (l.set i b)[j]? = some c) :
    j = i ∧ c = b ∨ j ≠ i ∧ l[j]? = some c := by
  rw [List.getElem?_set] at h
  split_ifs at h with hji hi
  · exact .inl ⟨hji.symm, (Option.some.inj h).symm⟩
  · exact .inr ⟨Ne.symm hji, h⟩

/-- Overwriting one object leaves the others in the list. -/
theorem mem_set_of_mem {a c : A} (h : l[i]? = some a) (hc : c ∈ l) : c = a ∨ c ∈ l.set i b := by
  obtain ⟨j, hj⟩ := List.mem_iff_getElem?.1 hc
  by_cases hji : j = i
  · subst hji
    exact .inl (Option.some.inj (hj.symm.trans h))
  · refine .inr (List.mem_iff_getElem?.2 ⟨j, ?_⟩)
    rw [List.getElem?_set_ne (Ne.symm hji)]
    exact hj

/-- What stands in a list after one object was added. -/
theorem getElem?_snoc_cases {c : A} {j : ℕ} (h : (l ++ [b])[j]? = some c) :
    l[j]? = some c ∨ j = l.length ∧ c = b := by
  rw [List.getElem?_append] at h
  split_ifs at h with hj
  · exact .inl h
  · obtain ⟨hlt, rfl⟩ := List.getElem?_eq_some_iff.1 h
    rw [List.length_singleton] at hlt
    exact .inr ⟨by omega, by simp⟩

theorem getElem?_mono {l' : List A} (h : l <+: l') {a : A} (hi : l[i]? = some a) :
    l'[i]? = some a := by
  obtain ⟨t, rfl⟩ := h
  rw [List.getElem?_append_left (List.getElem?_eq_some_iff.1 hi).1, hi]

theorem index_eq_of_map {g : A → B} (h : (l.map g).Nodup) {j : ℕ} {a b : A}
    (hi : l[i]? = some a) (hj : l[j]? = some b) (he : g a = g b) : i = j := by
  have hlt : i < (l.map g).length := by
    rw [List.length_map]
    exact (List.getElem?_eq_some_iff.1 hi).1
  rw [← List.getElem?_inj hlt h, List.getElem?_map, List.getElem?_map, hi, hj, Option.map_some,
    Option.map_some, he]

/-- A place in a queue from which the first element is taken. -/
theorem getElem?_eraseIdx_zero {a : A} (h : l[i]? = some a) (hi : i ≠ 0) :
    (l.eraseIdx 0)[i - 1]? = some a := by
  cases l with
  | nil => cases h
  | cons b l =>
    obtain ⟨i, rfl⟩ := Nat.exists_eq_succ_of_ne_zero hi
    simpa using h

/-- Where the last element of a list is, relative to one before. -/
theorem snoc_eq_append_cons {l₁ l₂ : List A} {a : A} (h : l ++ [a] = l₁ ++ b :: l₂) :
    (l₂ = [] ∧ l = l₁ ∧ a = b) ∨ ∃ l₂', l₂ = l₂' ++ [a] ∧ l = l₁ ++ b :: l₂' := by
  rcases List.eq_nil_or_concat' l₂ with rfl | ⟨l₂', c, rfl⟩
  · obtain ⟨rfl, hab⟩ := List.append_inj' h rfl
    exact .inl ⟨rfl, rfl, List.head_eq_of_cons_eq hab⟩
  · rw [← List.cons_append, ← List.append_assoc] at h
    obtain ⟨rfl, hac⟩ := List.append_inj' h rfl
    obtain rfl := List.head_eq_of_cons_eq hac
    exact .inr ⟨l₂', rfl, rfl⟩

/-! ### Totals -/

/-- Replacing an object changes a total by what the two objects have of it. -/
theorem sum_map_set (f : A → ℕ) {a : A} (h : l[i]? = some a) (b : A) :
    ((l.set i b).map f).sum + f a = (l.map f).sum + f b := by
  induction l generalizing i with
  | nil => cases h
  | cons c l ih =>
    cases i with
    | zero =>
      obtain rfl : c = a := Option.some.inj h
      simp only [List.set_cons_zero, List.map_cons, List.sum_cons]
      omega
    | succ i =>
      have := ih h
      simp only [List.set_cons_succ, List.map_cons, List.sum_cons]
      omega

/-- Everything that is not at position `i` stays where it is. -/
theorem exists_frame (f : A → List B) {a : A} (h : l[i]? = some a) :
    ∃ rest, (l.flatMap f).Perm (f a ++ rest) ∧
      ∀ a', ((l.set i a').flatMap f).Perm (f a' ++ rest) := by
  obtain ⟨hi, rfl⟩ := List.getElem?_eq_some_iff.1 h
  have hset : ∀ a', ((l.set i a').flatMap f).Perm
      (f a' ++ ((l.take i).flatMap f ++ (l.drop (i + 1)).flatMap f)) := by
    intro a'
    rw [List.set_eq_take_append_cons_drop, if_pos hi, List.flatMap_append, List.flatMap_cons,
      ← List.append_assoc, ← List.append_assoc]
    exact List.perm_append_comm.append_right _
  refine ⟨_, ?_, hset⟩
  have hself := hset l[i]
  rwa [List.set_getElem_self] at hself

/-! ### Few and distinct elements -/

theorem nodup_of_subperm {l' : List A} (h : l.Subperm l') (h' : l'.Nodup) : l.Nodup := by
  obtain ⟨l₀, hperm, hsub⟩ := h
  exact hperm.nodup_iff.1 (hsub.nodup h')

theorem pairwise_of_length_le_one {R : A → A → Prop} (h : l.length ≤ 1) : l.Pairwise R := by
  match l, h with
  | [], _ => exact .nil
  | [a], _ => exact List.pairwise_singleton R a

end VibeVpn

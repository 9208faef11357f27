import Mathlib.Data.List.AList
import Mathlib.Logic.Function.Basic
import VibeVpn.Go.Lists

/-!
# Go maps

A Go `map[K]V` as a finite association list with distinct keys.  Reading, writing and deleting are
`AList.lookup`, `AList.insert` and `AList.erase`; this file adds `len` and the lookup lemmas in the
form in which a table is read after an update, as a case distinction on the key.

* `GoMap.Indexes t f` : the map `t` is an **index** of the objects by their attribute `f`: it finds
  `v` under `k` exactly when `k` is the attribute of `v`.  Two objects then never share an
  attribute (`Indexes.inj`), and the index follows the attribute through the usual updates: a new
  entry (`Indexes.insert`), an entry that passes from one object to another (`Indexes.transfer`)
  and an entry deleted if it is still the object's (`Indexes.eraseIf`).
* `column g l` : the attribute `g` of the objects in a list, by position.
-/

namespace VibeVpn

/-- A `map[K]V`. -/
abbrev GoMap (K V : Type*) := AList fun _ : K => V

namespace GoMap

variable {K V : Type*}

/-- `len(m)`. -/
def len (m : GoMap K V) : ℕ := m.keys.length

@[simp] theorem len_empty : len (∅ : GoMap K V) = 0 := rfl

variable [DecidableEq K] {m : GoMap K V} {k k' : K} {v : V}

theorem lookup_insert_eq (m : GoMap K V) (k k' : K) (v : V) :
    (m.insert k v).lookup k' = if k' = k then some v else m.lookup k' := by
  split_ifs with h
  · subst h
    exact AList.lookup_insert m
  · exact AList.lookup_insert_ne h

theorem lookup_erase_eq (m : GoMap K V) (k k' : K) :
    (m.erase k).lookup k' = if k' = k then none else m.lookup k' := by
  split_ifs with h
  · subst h
    exact AList.lookup_erase k' m
  · exact AList.lookup_erase_ne h

theorem lookup_erase_some : (m.erase k).lookup k' = some v ↔ k' ≠ k ∧ m.lookup k' = some v := by
  rw [lookup_erase_eq]
  split_ifs with h <;> simp [h]

/-- Writing a key adds at most one entry. -/
theorem len_insert_le (m : GoMap K V) (k : K) (v : V) : len (m.insert k v) ≤ len m + 1 := by
  have h := List.length_erase_le (a := k) (l := m.keys)
  simp only [len, AList.keys_insert, List.length_cons]
  omega

theorem len_erase_le (m : GoMap K V) (k : K) : len (m.erase k) ≤ len m := by
  simp only [len, AList.keys_erase]
  exact List.length_erase_le

/-- Deleting a new key again. -/
theorem erase_insert (h : m.lookup k = none) : (m.insert k v).erase k = m := by
  have hk : k ∉ m := AList.lookup_eq_none.1 h
  apply AList.ext
  rw [AList.insert_of_notMem hk]
  exact List.kerase_cons_eq rfl

/-! ### Indexes -/

/-- `t` finds `v` under `k` exactly when `k` is the attribute of `v`. -/
def Indexes (t : GoMap K V) (f : V → Option K) : Prop :=
  ∀ k v, t.lookup k = some v ↔ f v = some k

/-- `if t[k] == v { delete(t, k) }`, when there is a key at all. -/
def eraseIf [DecidableEq V] (t : GoMap K V) (k : Option K) (v : V) : GoMap K V :=
  match k with
  | none => t
  | some k => if t.lookup k = some v then t.erase k else t

theorem len_eraseIf_le [DecidableEq V] (m : GoMap K V) (k : Option K) (v : V) :
    len (eraseIf m k v) ≤ len m := by
  cases k with
  | none => exact le_refl _
  | some k =>
    simp only [eraseIf]
    split_ifs
    · exact len_erase_le m k
    · exact le_refl _

theorem indexes_empty {f : V → Option K} (h : ∀ v, f v = none) :
    Indexes (∅ : GoMap K V) f := by
  intro k v
  simp [h v]

variable [DecidableEq V] {f : V → Option K} {v' : V}

omit [DecidableEq V] in
theorem Indexes.inj (h : Indexes m f) (hv : f v = some k) (hv' : f v' = some k) : v = v' := by
  have h₁ := (h k v).2 hv
  rw [(h k v').2 hv'] at h₁
  exact (Option.some.inj h₁).symm

omit [DecidableEq V] in
theorem Indexes.congr {g : V → Option K} (h : Indexes m f) (hg : ∀ v, g v = f v) :
    Indexes m g := by
  intro k v
  rw [hg v]
  exact h k v

/-- A new object enters under a new key. -/
theorem Indexes.insert (h : Indexes m f) (hv : f v = none) (hk : m.lookup k = none) :
    Indexes (m.insert k v) (Function.update f v (some k)) := by
  intro k' w
  have hw := h k' w
  rw [lookup_insert_eq, Function.update_apply]
  by_cases hkk : k' = k
  · subst hkk
    by_cases hwv : w = v
    · simp [hwv]
    · simp only [hk] at hw
      simp [hwv, ← hw, Ne.symm hwv]
  · by_cases hwv : w = v
    · subst hwv
      simp only [hv] at hw
      simp [hkk, hw, Ne.symm hkk]
    · simp [hkk, hwv, hw]

/-- An object leaves the index. -/
theorem Indexes.erase (h : Indexes m f) (hv : f v = some k) :
    Indexes (m.erase k) (Function.update f v none) := by
  intro k' w
  have hw := h k' w
  rw [lookup_erase_eq, Function.update_apply]
  by_cases hkk : k' = k
  · subst hkk
    by_cases hwv : w = v
    · simp [hwv]
    · have hne : f w ≠ some k' := fun hc => hwv (h.inj hc hv)
      simp [hwv, hne]
  · by_cases hwv : w = v
    · subst hwv
      rw [hv] at hw
      simp [hkk, hw, Ne.symm hkk]
    · simp [hkk, hwv, hw]

/-- An object that may be in the index leaves it, whatever else stands under its key. -/
theorem Indexes.eraseIf {k : Option K} (h : Indexes m f) (hv : ∀ k', f v = some k' → k = some k') :
    Indexes (eraseIf m k v) (Function.update f v none) := by
  -- an object without an entry leaves the index as it is
  have hnone : f v = none → Indexes m (Function.update f v none) := by
    intro hn
    rw [← hn, Function.update_eq_self]
    exact h
  cases k with
  | none =>
    refine hnone (Option.eq_none_iff_forall_ne_some.2 fun k' hk' => ?_)
    cases hv k' hk'
  | some k =>
    simp only [GoMap.eraseIf]
    split_ifs with hl
    · exact h.erase ((h k v).1 hl)
    · refine hnone (Option.eq_none_iff_forall_ne_some.2 fun k' hk' => hl ?_)
      cases hv k' hk'
      exact (h k v).2 hk'

/-- The entry of one object passes to another. -/
theorem Indexes.transfer (h : Indexes m f) (hv : f v = some k) (hv' : f v' = none) :
    Indexes (m.insert k v') (Function.update (Function.update f v none) v' (some k)) := by
  have hvv : v' ≠ v := fun hc => by simp [hc, hv] at hv'
  intro k' w
  have hw := h k' w
  simp only [lookup_insert_eq, Function.update_apply]
  by_cases hkk : k' = k
  · subst hkk
    by_cases hwv' : w = v'
    · simp [hwv']
    · by_cases hwv : w = v
      · simp [hwv, hvv, Ne.symm hvv]
      · have hne : f w ≠ some k' := fun hc => hwv (h.inj hc hv)
        simp [hwv, hwv', Ne.symm hwv', hne]
  · by_cases hwv' : w = v'
    · subst hwv'
      simp only [hv'] at hw
      simp [hkk, hw, Ne.symm hkk]
    · by_cases hwv : w = v
      · subst hwv
        rw [hv] at hw
        simp [hkk, hwv', hw, Ne.symm hkk]
      · simp [hkk, hwv, hwv', hw]

end GoMap

/-! ### Attributes of the objects in a list -/

/-- The attribute `g` of the object at a position of `l`. -/
def column {A B : Type*} (g : A → Option B) (l : List A) (i : ℕ) : Option B := l[i]?.bind g

section Column

variable {A B : Type*} {g : A → Option B} {l : List A} {a b : A} {i : ℕ}

theorem column_of_getElem? (h : l[i]? = some a) : column g l i = g a := by
  simp [column, h]

theorem column_eq_some {v : B} : column g l i = some v ↔ ∃ a, l[i]? = some a ∧ g a = some v := by
  simp [column, Option.bind_eq_some_iff]

/-- Overwriting an object changes its attribute only. -/
theorem column_set (h : l[i]? = some a) :
    column g (l.set i b) = Function.update (column g l) i (g b) := by
  funext j
  obtain ⟨hi, -⟩ := List.getElem?_eq_some_iff.1 h
  rw [Function.update_apply]
  by_cases hj : j = i
  · subst hj
    simp [column, hi]
  · simp [column, hj, List.getElem?_set_ne (Ne.symm hj)]

/-- Overwriting an object by one with the same attribute. -/
theorem column_set_of_eq (h : l[i]? = some a) (hg : g b = g a) :
    column g (l.set i b) = column g l := by
  have ha : g a = column g l i := (column_of_getElem? h).symm
  rw [column_set h, hg, ha, Function.update_eq_self]

/-- A new object. -/
theorem column_snoc : column g (l ++ [b]) = Function.update (column g l) l.length (g b) := by
  funext j
  rw [Function.update_apply]
  split_ifs with hj
  · simp [column, hj]
  · simp only [column, List.getElem?_append]
    split_ifs with hlt
    · rfl
    · rw [List.getElem?_eq_none (not_lt.1 hlt), List.getElem?_eq_none (by simp; omega)]

theorem column_length : column g l l.length = none := by
  simp [column]

/-- A new object without the attribute. -/
theorem column_append (h : g b = none) : column g (l ++ [b]) = column g l := by
  rw [column_snoc, h, ← column_length (g := g) (l := l), Function.update_eq_self]

end Column

end VibeVpn

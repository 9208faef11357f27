import Mathlib.Data.List.Nodup
import Mathlib.Logic.Relation

/-!
# Numbering what is sent under each of several keys

A sender has at most one key at a time.  It numbers what it sends under that key from zero on; it
may drop the key and install another one.

* `Numbering.Valid` : no number has been issued twice under the same key, and the next one is above
  all those issued under the current key;
* `Numbering.Valid.steps` : this is kept as long as no key is installed twice;
* `Numbering.Valid.nodup_mod` : if all numbers are below `N`, truncating them modulo `N` makes none
  of them equal; `Numbering.not_nodup_mod` : the first `N + 1` numbers are not.
-/

namespace VibeVpn

/-- A sender that numbers what it sends under one key after another. -/
structure Numbering (κ : Type*) where
  /-- The current key and the next number. -/
  current : Option (κ × ℕ)
  /-- The keys installed so far. -/
  installed : List κ
  /-- The numbers issued so far, each with its key. -/
  issued : List (κ × ℕ)

namespace Numbering

variable {κ : Type*} {a b : Numbering κ}

/-- One action of the sender. -/
inductive Step : Numbering κ → Numbering κ → Prop
  /-- The next number is issued. -/
  | issue {a : Numbering κ} {k : κ} {n : ℕ} : a.current = some (k, n) →
      Step a { a with current := some (k, n + 1), issued := a.issued ++ [(k, n)] }
  /-- The key is dropped. -/
  | drop (a : Numbering κ) : Step a { a with current := none }
  /-- A key is installed. -/
  | install (a : Numbering κ) (k : κ) :
      Step a { a with current := some (k, 0), installed := a.installed ++ [k] }

/-- Any number of actions. -/
abbrev Steps : Numbering κ → Numbering κ → Prop := Relation.ReflTransGen Step

/-- No number has been issued twice under the same key, nor will be next. -/
structure Valid (a : Numbering κ) : Prop where
  nodup : a.issued.Nodup
  known : ∀ p ∈ a.issued, p.1 ∈ a.installed
  current : ∀ k n, a.current = some (k, n) → k ∈ a.installed ∧ ∀ m, (k, m) ∈ a.issued → m < n

theorem Valid.start : Valid (⟨none, [], []⟩ : Numbering κ) := ⟨.nil, nofun, nofun⟩

theorem Valid.step (h : Step a b) (hv : Valid a) (hb : b.installed.Nodup) : Valid b := by
  cases h with
  | @issue k n hc =>
    obtain ⟨hk, hlt⟩ := hv.current k n hc
    refine ⟨?_, ?_, ?_⟩
    · refine List.nodup_append.2 ⟨hv.nodup, List.nodup_singleton _, fun p hp q hq he => ?_⟩
      cases List.mem_singleton.1 hq
      subst he
      exact Nat.lt_irrefl n (hlt n hp)
    · intro p hp
      rcases List.mem_append.1 hp with hp | hp
      · exact hv.known p hp
      · cases List.mem_singleton.1 hp
        exact hk
    · intro k' n' hc'
      cases hc'
      refine ⟨hk, fun m hm => ?_⟩
      rcases List.mem_append.1 hm with hm | hm
      · exact Nat.lt_succ_of_lt (hlt m hm)
      · cases List.mem_singleton.1 hm
        exact Nat.lt_succ_self n
  | drop => exact ⟨hv.nodup, hv.known, nofun⟩
  | install k =>
    refine ⟨hv.nodup, fun p hp => List.mem_append_left _ (hv.known p hp), fun k' n hc => ?_⟩
    cases hc
    refine ⟨List.mem_append_right _ (List.mem_singleton_self k), fun m hm => ?_⟩
    -- a new key: nothing has been issued under it
    exact absurd rfl ((List.nodup_append.1 hb).2.2 k (hv.known _ hm) k (List.mem_singleton_self k))

theorem Step.sublist (h : Step a b) : a.installed.Sublist b.installed := by
  cases h with
  | install => exact List.sublist_append_left ..
  | _ => exact List.Sublist.refl _

/-- **No number is issued twice under one key**, as long as no key is installed twice. -/
theorem Valid.steps (h : Steps a b) (hv : Valid a) (hb : b.installed.Nodup) : Valid b := by
  induction h with
  | refl => exact hv
  | tail _ hst ih => exact (ih (hb.sublist hst.sublist)).step hst hb

/-- Numbers below `N` stay different when they are truncated. -/
theorem Valid.nodup_mod (hv : Valid a) {N : ℕ} (h : ∀ p ∈ a.issued, p.2 < N) :
    (a.issued.map fun p => (p.1, p.2 % N)).Nodup := by
  refine List.Nodup.map_on (fun p hp q hq he => ?_) hv.nodup
  obtain ⟨hk, hn⟩ := Prod.mk.inj he
  rw [Nat.mod_eq_of_lt (h p hp), Nat.mod_eq_of_lt (h q hq)] at hn
  exact Prod.ext hk hn

/-- The first `N + 1` numbers under one key do not. -/
theorem not_nodup_mod {N : ℕ} (hN : 0 < N) (k : κ) :
    ¬ (((List.range (N + 1)).map fun i => (k, i)).map fun p => (p.1, p.2 % N)).Nodup := by
  intro h
  rw [List.map_map] at h
  have hinj := List.inj_on_of_nodup_map h
  have h0 : 0 = N :=
    hinj (List.mem_range.2 (Nat.succ_pos N)) (List.mem_range.2 (Nat.lt_succ_self N)) (by simp)
  exact Nat.ne_of_lt hN h0

end Numbering

end VibeVpn

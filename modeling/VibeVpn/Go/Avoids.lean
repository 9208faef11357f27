import VibeVpn.Go.Basic

/-!
# Which panics a computation avoids

`Go.Avoids p x P` is the rule of pre- and postconditions for computations that can panic: `x` does
not end in the panic `p`, and if it returns, its result satisfies `P`.  Other panics are not
excluded.  A function gets one such statement, and its callers are composed from those of what they
call (`Avoids.bind`).
-/

namespace VibeVpn

namespace Go

variable {α β : Type} {p q : Panic} {x : Go α} {P Q : α → Prop}

/-- The computation does not end in the panic `p`, and its result satisfies `P`. -/
def Avoids (p : Panic) (x : Go α) (P : α → Prop) : Prop :=
  match x with
  | .ok a => P a
  | .error q => q ≠ p

namespace Avoids

theorem bind {R : β → Prop} {f : α → Go β} (h : Avoids p x P) (hf : ∀ a, P a → Avoids p (f a) R) :
    Avoids p (x >>= f) R := by
  cases x with
  | ok a => exact hf a h
  | error q => exact h

/-- What a result satisfies may also be known otherwise. -/
theorem of_result (h : x ≠ .error p) (hP : ∀ a, x = .ok a → P a) : Avoids p x P := by
  cases x with
  | ok a => exact hP a rfl
  | error q => exact fun hq => h (hq ▸ rfl)

theorem result {a : α} (h : Avoids p x P) (hx : x = .ok a) : P a := by
  subst hx
  exact h

theorem ne_error (h : Avoids p x P) : x ≠ .error p := by
  rintro rfl
  exact h rfl

end Avoids

theorem avoids_slice (hp : .sliceBounds ≠ p) (b : List α) (lo hi : ℕ) :
    Avoids p (slice b lo hi) fun _ => True := by
  unfold slice
  split_ifs
  · trivial
  · exact hp

theorem avoids_index (hp : .indexRange ≠ p) (b : List α) (i : ℕ) :
    Avoids p (index b i) fun _ => True := by
  unfold index
  cases b[i]? with
  | some a => trivial
  | none => exact hp

theorem avoids_resliceTo (hp : .sliceBounds ≠ p) (cap n : ℕ) :
    Avoids p (resliceTo cap n) fun _ => True := by
  unfold resliceTo
  split_ifs
  · trivial
  · exact hp

end Go

end VibeVpn

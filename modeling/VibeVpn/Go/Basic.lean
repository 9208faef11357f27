import Mathlib.Algebra.Group.Int.Defs
import Mathlib.Algebra.Group.Nat.Defs
import Mathlib.Data.List.Induction
import Mathlib.Tactic.Cases
import Mathlib.Tactic.SplitIfs
import Mathlib.Tactic.Common

/-!
# The Go runtime, as far as byte-handling code relies on it

Go code that slices, indexes or converts out of range does not return an error: it panics, and a
panic nobody recovers ends the process.  Functions that can panic are modelled in `Go α`, where
`Except.error p` is the panic `p`; the *errors* a Go function returns are part of `α`.

* `slice`, `index`, `resliceTo` : the checked slice operations;
* `Byte4` : the array type `[4]byte`;
* `be16`, `be32`, `be64`, `beVal` : `encoding/binary.BigEndian`.

The lemmas `slice_ok`, `index_ok` and `resliceTo_ok` state when an operation is in range; a
function is shown not to panic by rewriting with them.
-/

namespace VibeVpn

/-- A byte slice, by its contents. -/
abbrev Bytes := List UInt8

/-- The run-time panics of the modelled code. -/
inductive Panic where
  /-- `b[lo:hi]` with `lo > hi` or `hi` past the capacity. -/
  | sliceBounds
  /-- `b[i]` with `i` past the length. -/
  | indexRange
  /-- A method call on a nil pointer or a nil interface. -/
  | nilDeref
  /-- The conversion `[4]byte(b)` of a shorter slice. -/
  | arrayLength
  /-- A shift by a negative count. -/
  | negativeShift
  /-- `close(ch)` of a channel that is closed. -/
  | closeOfClosed
  deriving DecidableEq, Repr

/-- The result of Go code that returns an `α` or panics. -/
abbrev Go (α : Type) := Except Panic α

namespace Go

variable {α β ε : Type}

/-- What runs to the end: a computation that may panic, or one that may return an error. -/
theorem bind_eq_ok {x : Except ε α} {f : α → Except ε β} {b : β} :
    x >>= f = .ok b ↔ ∃ a, x = .ok a ∧ f a = .ok b := by
  cases x with
  | error p => exact ⟨fun h => (nomatch h), fun ⟨_, h, _⟩ => (nomatch h)⟩
  | ok a => exact ⟨fun h => ⟨a, rfl, h⟩, fun ⟨_, h, h'⟩ => by cases h; exact h'⟩

theorem map_eq_ok {x : Except ε α} {f : α → β} {b : β} :
    x.map f = .ok b ↔ ∃ a, x = .ok a ∧ f a = b := by
  cases x with
  | error p => exact ⟨fun h => (nomatch h), fun ⟨_, h, _⟩ => (nomatch h)⟩
  | ok a => exact ⟨fun h => ⟨a, rfl, Except.ok.inj h⟩, fun ⟨_, h, h'⟩ => by cases h; rw [← h']; rfl⟩

@[simp] theorem ok_bind (a : α) (f : α → Go β) : (Except.ok a : Go α) >>= f = f a := rfl

@[simp] theorem pure_eq_ok (a : α) : (pure a : Go α) = .ok a := rfl

end Go

/-! ### Slices -/

variable {α : Type}

/-- `b[lo:hi]`, on a slice without spare capacity. -/
def slice (b : List α) (lo hi : ℕ) : Go (List α) :=
  if lo ≤ hi ∧ hi ≤ b.length then .ok ((b.take hi).drop lo) else .error .sliceBounds

/-- `b[i]`. -/
def index (b : List α) (i : ℕ) : Go α :=
  match b[i]? with
  | some a => .ok a
  | none => .error .indexRange

/-- The bound check of `b[:n]` on a buffer of capacity `cap`. -/
def resliceTo (cap n : ℕ) : Go Unit :=
  if n ≤ cap then .ok () else .error .sliceBounds

theorem slice_ok {b : List α} {lo hi : ℕ} (h : lo ≤ hi) (h' : hi ≤ b.length) :
    slice b lo hi = .ok ((b.take hi).drop lo) := by
  simp [slice, h, h']

theorem index_ok {b : List α} {i : ℕ} (h : i < b.length) : index b i = .ok (b[i]) := by
  simp [index, h]

theorem resliceTo_ok {cap n : ℕ} (h : n ≤ cap) : resliceTo cap n = .ok () := by
  simp [resliceTo, h]

theorem resliceTo_eq_ok_iff {cap n : ℕ} {u : Unit} : resliceTo cap n = .ok u ↔ n ≤ cap := by
  unfold resliceTo
  split_ifs with h <;> simp [h]

/-! ### The array type `[4]byte` -/

/-- An array of four bytes, `[4]byte`. -/
structure Byte4 where
  /-- Byte 0. -/
  b0 : UInt8
  /-- Byte 1. -/
  b1 : UInt8
  /-- Byte 2. -/
  b2 : UInt8
  /-- Byte 3. -/
  b3 : UInt8
  deriving DecidableEq, Repr, Inhabited

namespace Byte4

/-- `a[:]`. -/
def toBytes (a : Byte4) : Bytes := [a.b0, a.b1, a.b2, a.b3]

/-- `copy(a[:], b)` into a zeroed array. -/
def copyOf (b : Bytes) : Byte4 :=
  ⟨b.getD 0 0, b.getD 1 0, b.getD 2 0, b.getD 3 0⟩

@[simp] theorem length_toBytes (a : Byte4) : a.toBytes.length = 4 := rfl

theorem copyOf_toBytes (a : Byte4) : copyOf a.toBytes = a := rfl

theorem toBytes_copyOf {b : Bytes} (h : b.length = 4) : (copyOf b).toBytes = b := by
  match b, h with
  | [_, _, _, _], _ => rfl

end Byte4

/-! ### Big-endian integers -/

/-- `PutUint16`: the low 16 bits of `n`. -/
def be16 (n : ℕ) : Bytes := [UInt8.ofNat (n / 2 ^ 8), UInt8.ofNat n]

/-- `PutUint32`: the low 32 bits of `n`. -/
def be32 (n : ℕ) : Bytes :=
  [UInt8.ofNat (n / 2 ^ 24), UInt8.ofNat (n / 2 ^ 16), UInt8.ofNat (n / 2 ^ 8), UInt8.ofNat n]

/-- `PutUint64`: the low 64 bits of `n`. -/
def be64 (n : ℕ) : Bytes := be32 (n / 2 ^ 32) ++ be32 n

/-- The big-endian value of a byte string; `Uint16` and `Uint32` on slices of two and four
bytes. -/
def beVal (b : Bytes) : ℕ := b.foldl (fun acc x => acc * 2 ^ 8 + x.toNat) 0

@[simp] theorem length_be16 (n : ℕ) : (be16 n).length = 2 := rfl

@[simp] theorem length_be32 (n : ℕ) : (be32 n).length = 4 := rfl

@[simp] theorem length_be64 (n : ℕ) : (be64 n).length = 8 := rfl

theorem beVal_be16 (n : ℕ) : beVal (be16 n) = n % 2 ^ 16 := by
  simp only [beVal, be16, List.foldl_cons, List.foldl_nil, UInt8.toNat_ofNat']
  omega

theorem beVal_be32 (n : ℕ) : beVal (be32 n) = n % 2 ^ 32 := by
  simp only [beVal, be32, List.foldl_cons, List.foldl_nil, UInt8.toNat_ofNat']
  omega

theorem beVal_append_be32 (b : Bytes) (n : ℕ) :
    beVal (b ++ be32 n) = beVal b * 2 ^ 32 + beVal (be32 n) := by
  simp only [beVal, be32, List.foldl_append, List.foldl_cons, List.foldl_nil]
  omega

theorem beVal_be64 (n : ℕ) : beVal (be64 n) = n % 2 ^ 64 := by
  rw [be64, beVal_append_be32, beVal_be32, beVal_be32]
  omega

theorem be16_beVal {b : Bytes} (h : b.length = 2) : be16 (beVal b) = b := by
  match b, h with
  | [x, y], _ =>
    have hx := x.toNat_lt
    have hy := y.toNat_lt
    simp only [be16, beVal, List.foldl_cons, List.foldl_nil, List.cons.injEq, and_true]
    constructor <;> apply UInt8.toNat_inj.1 <;> rw [UInt8.toNat_ofNat'] <;> omega

theorem be32_beVal {b : Bytes} (h : b.length = 4) : be32 (beVal b) = b := by
  match b, h with
  | [x, y, z, w], _ =>
    have hx := x.toNat_lt
    have hy := y.toNat_lt
    have hz := z.toNat_lt
    have hw := w.toNat_lt
    simp only [be32, beVal, List.foldl_cons, List.foldl_nil, List.cons.injEq, and_true]
    refine ⟨?_, ?_, ?_, ?_⟩ <;> apply UInt8.toNat_inj.1 <;> rw [UInt8.toNat_ofNat'] <;> omega

theorem beVal_lt (b : Bytes) : beVal b < 2 ^ (8 * b.length) := by
  induction b using List.reverseRecOn with
  | nil => simp [beVal]
  | append_singleton b x ih =>
    have hx := x.toNat_lt
    have hv : beVal (b ++ [x]) = beVal b * 2 ^ 8 + x.toNat := by simp [beVal]
    rw [hv, List.length_append, List.length_singleton, Nat.mul_add, Nat.pow_add]
    omega

end VibeVpn

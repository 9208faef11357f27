import VibeVpn.Go.Basic

/-!
# Bitmaps in arrays of 64-bit words

A bitmap is a slice `[]uint64` whose length never changes, a `Vector (BitVec 64) n`: bit `p` is
bit `p % 64` of word `p / 64`.  `word` and `orWord` are the checked read `bits[i]` and the update
`bits[i] |= m`; `bitAt_orWord` and `bitAt_clear` say which bits they change.

`value` is the little-endian number of a bitmap, and its binary digits are the bits
(`testBit_value`), so an equation between numbers can be checked bit by bit.
-/

namespace VibeVpn

namespace Bitmap

variable {n : ℕ}

/-- `bits[i]`. -/
def word (bits : Vector (BitVec 64) n) (i : ℕ) : Go (BitVec 64) :=
  match bits[i]? with
  | some w => .ok w
  | none => .error .indexRange

/-- `bits[i] |= m`. -/
def orWord (bits : Vector (BitVec 64) n) (i : ℕ) (m : BitVec 64) :
    Go (Vector (BitVec 64) n) := do
  let w ← word bits i
  pure (bits.setIfInBounds i (w ||| m))

/-- `clear(bits)`. -/
def clear (_ : Vector (BitVec 64) n) : Vector (BitVec 64) n := Vector.replicate n 0#64

/-- Bit `p` of the bitmap, `false` past its end. -/
def bitAt (bits : Vector (BitVec 64) n) (p : ℕ) : Bool :=
  (bits[p / 64]?.getD 0#64).getLsbD (p % 64)

theorem word_ok (bits : Vector (BitVec 64) n) {i : ℕ} (h : i < n) : word bits i = .ok bits[i] := by
  simp [word, h]

theorem orWord_ok (bits : Vector (BitVec 64) n) {i : ℕ} (h : i < n) (m : BitVec 64) :
    orWord bits i m = .ok (bits.setIfInBounds i (bits[i] ||| m)) := by
  simp [orWord, word_ok bits h]

theorem bitAt_of_lt (bits : Vector (BitVec 64) n) {p : ℕ} (h : p / 64 < n) :
    bitAt bits p = bits[p / 64].getLsbD (p % 64) := by
  simp [bitAt, h]

theorem bitAt_of_le (bits : Vector (BitVec 64) n) {p : ℕ} (h : 64 * n ≤ p) :
    bitAt bits p = false := by
  have hp : ¬ p / 64 < n := by omega
  simp [bitAt, hp]

@[simp] theorem bitAt_clear (bits : Vector (BitVec 64) n) (p : ℕ) :
    bitAt (clear bits) p = false := by
  by_cases h : p / 64 < n <;> simp [bitAt, clear, h]

/-- Setting bit `q` of the bitmap changes bit `q` and no other. -/
theorem bitAt_orWord {bits bits' : Vector (BitVec 64) n} {q : ℕ} (hq : q < 64 * n)
    (h : orWord bits (q / 64) (1#64 <<< (q % 64)) = .ok bits') (p : ℕ) :
    bitAt bits' p = (bitAt bits p || decide (p = q)) := by
  have hqn : q / 64 < n := by omega
  rw [orWord_ok bits hqn] at h
  cases h
  by_cases hp : p / 64 < n
  · rw [bitAt_of_lt _ hp, bitAt_of_lt _ hp]
    by_cases hw : q / 64 = p / 64
    · simp only [hw, Vector.getElem_setIfInBounds_self, BitVec.getLsbD_or,
        BitVec.getLsbD_shiftLeft, BitVec.getLsbD_one]
      congr 1
      have : p % 64 < 64 := Nat.mod_lt _ (by omega)
      by_cases hpq : p = q
      · subst hpq; simp [this]
      · have : ¬ (q % 64 ≤ p % 64 ∧ p % 64 - q % 64 = 0) := by omega
        by_cases hlt : p % 64 < q % 64
        · simp [hlt, hpq]
        · have hne : ¬ p % 64 - q % 64 = 0 := by omega
          simp [hne, hpq]
    · have hpq : p ≠ q := by rintro rfl; exact hw rfl
      simp [Vector.getElem_setIfInBounds_ne hp hw, hpq]
  · have hpq : p ≠ q := by rintro rfl; exact hp hqn
    simp [bitAt, hp, hpq]

/-! ### The number of a bitmap -/

/-- The number whose words, the least significant first, are `ws`. -/
def wordsValue : List (BitVec 64) → ℕ
  | [] => 0
  | w :: ws => 2 ^ 64 * wordsValue ws + w.toNat

/-- The little-endian number of a bitmap. -/
def value (bits : Vector (BitVec 64) n) : ℕ := wordsValue bits.toList

theorem testBit_wordsValue (ws : List (BitVec 64)) (p : ℕ) :
    (wordsValue ws).testBit p = (ws[p / 64]?.getD 0#64).getLsbD (p % 64) := by
  induction ws generalizing p with
  | nil => simp [wordsValue]
  | cons w ws ih =>
    rw [wordsValue, Nat.testBit_two_pow_mul_add _ w.isLt]
    by_cases hp : p < 64
    · have hq : p / 64 = 0 := by omega
      have hm : p % 64 = p := by omega
      simp [hp, hq, hm, BitVec.getLsbD]
    · -- past the first word, the digits are those of the rest, one word down
      have hq : p / 64 = (p - 64) / 64 + 1 := by omega
      have hm : p % 64 = (p - 64) % 64 := by omega
      rw [if_neg hp, ih, hq, List.getElem?_cons_succ, hm]

/-- The binary digits of the number are the bits of the bitmap. -/
theorem testBit_value (bits : Vector (BitVec 64) n) (p : ℕ) :
    (value bits).testBit p = bitAt bits p := by
  rw [value, testBit_wordsValue, bitAt, Vector.getElem?_toList]

end Bitmap

end VibeVpn

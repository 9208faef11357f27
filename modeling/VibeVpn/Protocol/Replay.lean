import VibeVpn.Go.Bitmap

/-!
# The replay window

`ReplayWindow` is the sliding window of `internal/protocol/replay.go`: the highest accepted
sequence number `high` and a bitmap whose bit `d` stands for the number `high - d`.  `check` and
`add` are translated with every bitmap access checked; a window cannot be built with a bitmap of
another length than its size, so neither ever panics (`check_eq`, `add_ok`).  `shiftUp` overwrites
the words it reads from; `shiftUp_mul_two_pow` says that it multiplies the bitmap by a power of two.

`Marked w s` says that the bit of `s` lies in the window and is set.  `check_eq` reads `check` off
it, and the lemmas `marked_add_*` say, one for each branch of `add`, what `add` does to it:

* anchoring, an in-window number and a short slide mark the number that was added;
* **a slide past the whole window marks nothing** (`marked_add_jump`): the bitmap is cleared and
  the bit of the new `high` is not set again.
-/

namespace VibeVpn

open Bitmap

/-! ### Shifting the bitmap -/

section ShiftUp

variable {n : ℕ}

/-- The word `shiftUp` stores at index `i`, read from the words as they are then. -/
def shiftWord (bits : Vector (BitVec 64) n) (words rem i : ℕ) : Go (BitVec 64) := do
  let v ← if words ≤ i then word bits (i - words) else pure 0#64
  if rem ≠ 0 then
    let v := v <<< rem
    if words + 1 ≤ i then
      let u ← word bits (i - words - 1)
      pure (v ||| u >>> (64 - rem))
    else pure v
  else pure v

/-- The loop of `shiftUp` over the indices `i - 1, …, 0`, overwriting the words it reads. -/
def shiftLoop (words rem : ℕ) : ℕ → Vector (BitVec 64) n → Go (Vector (BitVec 64) n)
  | 0, bits => pure bits
  | i + 1, bits => do
    let v ← shiftWord bits words rem i
    shiftLoop words rem i (bits.setIfInBounds i v)

/-- `shiftUp`: a bit at position `p` moves to `p + k`, bits past the top are dropped. -/
def shiftUp (bits : Vector (BitVec 64) n) (k : ℕ) : Go (Vector (BitVec 64) n) :=
  if n ≤ k / 64 then pure (clear bits) else shiftLoop (k / 64) (k % 64) n bits

/-- The word at index `i` of the shifted bitmap. -/
def shiftedWord (bits : Vector (BitVec 64) n) (words rem i : ℕ) : BitVec 64 :=
  let v := if words ≤ i then bits[i - words]?.getD 0#64 else 0#64
  if rem ≠ 0 then
    v <<< rem ||| (if words + 1 ≤ i then bits[i - words - 1]?.getD 0#64 >>> (64 - rem) else 0#64)
  else v

theorem shiftWord_ok {bits orig : Vector (BitVec 64) n} (words rem : ℕ) {i : ℕ} (hi : i < n)
    (h : ∀ j ≤ i, bits[j]? = orig[j]?) :
    shiftWord bits words rem i = .ok (shiftedWord orig words rem i) := by
  have hw : ∀ j ≤ i, word bits j = .ok (orig[j]?.getD 0#64) := by
    intro j hj
    rw [word, h j hj]
    simp [show j < n by omega]
  by_cases h1 : words ≤ i
  · by_cases h2 : words + 1 ≤ i <;> by_cases h3 : rem = 0 <;>
      simp [shiftWord, shiftedWord, h1, h2, h3, hw (i - words) (by omega),
        hw (i - words - 1) (by omega)]
  · have h2 : ¬ words + 1 ≤ i := by omega
    by_cases h3 : rem = 0 <;> simp [shiftWord, shiftedWord, h1, h2, h3]

/-- The loop counts down, so the words it reads at index `i` (all at or below `i`) have not been
overwritten yet. -/
theorem shiftLoop_ok (words rem : ℕ) (orig : Vector (BitVec 64) n) :
    ∀ (i : ℕ) (bits : Vector (BitVec 64) n), i ≤ n → (∀ j < i, bits[j]? = orig[j]?) →
      ∃ bits', shiftLoop words rem i bits = .ok bits' ∧ ∀ j < n,
        bits'[j]? = if j < i then some (shiftedWord orig words rem j) else bits[j]? := by
  intro i
  induction i with
  | zero => intro bits _ _; exact ⟨bits, rfl, fun j _ => by simp⟩
  | succ i ih =>
    intro bits hi hb
    have hv := shiftWord_ok words rem (show i < n by omega)
      (fun j hj => hb j (by omega))
    obtain ⟨bits', hr, hb'⟩ := ih (bits.setIfInBounds i (shiftedWord orig words rem i)) (by omega)
      (fun j hj => by
        rw [Vector.getElem?_setIfInBounds_ne (by omega)]
        exact hb j (by omega))
    refine ⟨bits', by simp [shiftLoop, hv, hr], fun j hj => ?_⟩
    rw [hb' j hj]
    by_cases h1 : j < i
    · simp [h1, show j < i + 1 by omega]
    · by_cases h2 : j = i
      · subst h2; simp [hj]
      · rw [Vector.getElem?_setIfInBounds_ne (by omega)]
        simp [h1, show ¬ j < i + 1 by omega]

/-- Bit `j` of word `i` of the shifted bitmap is the bit `k` places below. -/
theorem getLsbD_shiftedWord (bits : Vector (BitVec 64) n) (k : ℕ) {i j : ℕ} (hj : j < 64) :
    (shiftedWord bits (k / 64) (k % 64) i).getLsbD j =
      (decide (k ≤ 64 * i + j) && bitAt bits (64 * i + j - k)) := by
  -- `64 * i + j - k` lies `k / 64` words down, one more when `j < k % 64` borrows a word
  by_cases hw : k / 64 ≤ i
  · by_cases hr : k % 64 = 0
    · have hk : k ≤ 64 * i + j := by omega
      have hq : (64 * i + j - k) / 64 = i - k / 64 := by omega
      have hm : (64 * i + j - k) % 64 = j := by omega
      simp [shiftedWord, hw, hr, hk, bitAt, hq, hm]
    · by_cases hjr : j < k % 64
      · by_cases hw' : k / 64 + 1 ≤ i
        · have hk : k ≤ 64 * i + j := by omega
          have hq : (64 * i + j - k) / 64 = i - k / 64 - 1 := by omega
          have hm : (64 * i + j - k) % 64 = 64 - k % 64 + j := by omega
          simp [shiftedWord, hw, hr, hw', hk, bitAt, hq, hm, hj, hjr]
        · have hk : ¬ k ≤ 64 * i + j := by omega
          simp [shiftedWord, hw, hr, hw', hk, hjr]
      · have hk : k ≤ 64 * i + j := by omega
        have hq : (64 * i + j - k) / 64 = i - k / 64 := by omega
        have hm : (64 * i + j - k) % 64 = j - k % 64 := by omega
        -- the bits carried in from the word below stop short of position `k % 64`
        have hc : ∀ w : BitVec 64, w.getLsbD (64 - k % 64 + j) = false := fun w =>
          BitVec.getLsbD_of_ge _ _ (by omega)
        have hlt : j - k % 64 < 64 := by omega
        by_cases hw' : k / 64 + 1 ≤ i <;>
          simp [shiftedWord, hw, hr, hw', hk, bitAt, hq, hm, hj, hjr, hc,
            BitVec.getLsbD_eq_getElem hlt]
  · have hk : ¬ k ≤ 64 * i + j := by omega
    have hw' : ¬ k / 64 + 1 ≤ i := by omega
    by_cases hr : k % 64 = 0 <;> simp [shiftedWord, hw, hr, hw', hk]

/-- `shiftUp` never indexes out of range, and moves every bit `k` places up. -/
theorem shiftUp_ok (bits : Vector (BitVec 64) n) (k : ℕ) :
    ∃ bits', shiftUp bits k = .ok bits' ∧ ∀ p,
      bitAt bits' p = (decide (p < 64 * n) && decide (k ≤ p) && bitAt bits (p - k)) := by
  by_cases hn : n ≤ k / 64
  · refine ⟨clear bits, by simp [shiftUp, hn], fun p => ?_⟩
    rw [bitAt_clear]
    by_cases hp : p < 64 * n
    · have : ¬ k ≤ p := by omega
      simp [this]
    · simp [hp]
  · obtain ⟨bits', hr, hb⟩ := shiftLoop_ok (k / 64) (k % 64) bits n bits
      (Nat.le_refl n) (fun j _ => rfl)
    refine ⟨bits', by simp [shiftUp, hn, hr], fun p => ?_⟩
    by_cases hp : p < 64 * n
    · have hpn : p / 64 < n := by omega
      have hd : 64 * (p / 64) + p % 64 = p := Nat.div_add_mod p 64
      rw [bitAt, hb _ hpn]
      simp only [hpn, ↓reduceIte, Option.getD_some]
      rw [getLsbD_shiftedWord bits k (Nat.mod_lt _ (by omega)), hd]
      simp [hp]
    · rw [bitAt_of_le _ (by omega)]
      simp [hp]

/-- **`shiftUp` is a left shift of the whole bitmap**: every bit takes the value of the bit `k`
places below, the lowest `k` are cleared, and the little-endian number is multiplied by `2 ^ k`
modulo the size of the bitmap. -/
theorem shiftUp_mul_two_pow (bits : Vector (BitVec 64) n) (k : ℕ) :
    ∃ bits', shiftUp bits k = .ok bits' ∧
      (∀ p, k ≤ p → p < 64 * n → bitAt bits' p = bitAt bits (p - k)) ∧
      (∀ p < k, bitAt bits' p = false) ∧
      value bits' = value bits * 2 ^ k % 2 ^ (64 * n) := by
  obtain ⟨bits', hr, hb⟩ := shiftUp_ok bits k
  refine ⟨bits', hr, fun p hk hp => ?_, fun p hp => ?_, ?_⟩
  · simp [hb, hk, hp]
  · simp [hb, Nat.not_le.2 hp]
  · apply Nat.eq_of_testBit_eq
    intro p
    rw [testBit_value, hb, Nat.testBit_mod_two_pow, Nat.testBit_mul_two_pow, testBit_value,
      Bool.and_assoc]

end ShiftUp

/-! ### The window -/

/-- `ReplayWindow`.  Its `size` is always 64 times the number of words: `NewReplayWindow`
allocates `size/64` words and nothing changes either afterwards. -/
structure ReplayWindow where
  /-- `len(bits)`. -/
  words : ℕ
  /-- Bit `d` stands for the sequence number `high - d`. -/
  bits : Vector (BitVec 64) words
  /-- The highest accepted sequence number. -/
  high : ℕ
  words_pos : 0 < words
  deriving DecidableEq

/-- `^uint64(0)`, the value of `high` before the first accepted number. -/
def noHigh : ℕ := 2 ^ 64 - 1

namespace ReplayWindow

/-- The number of sequence numbers the window covers. -/
def size (w : ReplayWindow) : ℕ := 64 * w.words

/-- `NewReplayWindow`: at least 64, rounded down to a multiple of 64. -/
def new (size : ℕ) : ReplayWindow :=
  let size := if size < 64 then 64 else size
  { words := size / 64
    bits := Vector.replicate _ 0#64
    high := noHigh
    words_pos := by
      change 0 < (if _ then _ else _) / 64
      split <;> omega }

/-- `Check`: `seq` is neither a replay nor older than the window. -/
def check (w : ReplayWindow) (seq : ℕ) : Go Bool :=
  if w.high = noHigh then pure true
  else if w.high < seq then pure true
  else
    let diff := w.high - seq
    if w.size ≤ diff then pure false
    else do
      let v ← word w.bits (diff / 64)
      pure (v &&& (1#64 <<< (diff % 64)) == 0#64)

/-- `Add`: record `seq` as received, sliding the window forward if necessary. -/
def add (w : ReplayWindow) (seq : ℕ) : Go ReplayWindow :=
  if w.high = noHigh then do
    -- the first number anchors the window
    let bits ← orWord w.bits 0 1#64
    pure { w with high := seq, bits }
  else if seq ≤ w.high then
    let diff := w.high - seq
    if diff < w.size then do
      let bits ← orWord w.bits (diff / 64) (1#64 <<< (diff % 64))
      pure { w with bits }
    else pure w
  else
    let slide := seq - w.high
    if w.size ≤ slide then
      -- everything in the window is too old now; bit 0 stays clear on this path
      pure { w with bits := clear w.bits, high := seq }
    else do
      let bits ← shiftUp w.bits slide
      let bits ← orWord bits 0 1#64
      pure { w with high := seq, bits }

/-- The bit of `s` lies in the window and is set. -/
def Marked (w : ReplayWindow) (s : ℕ) : Prop := s ≤ w.high ∧ bitAt w.bits (w.high - s) = true

instance (w : ReplayWindow) (s : ℕ) : Decidable (w.Marked s) :=
  inferInstanceAs (Decidable (_ ∧ _))

variable {w w' : ReplayWindow} {s t : ℕ}

theorem and_shiftLeft_one_beq_zero (v : BitVec 64) {i : ℕ} (hi : i < 64) :
    (v &&& (1#64 <<< i) == 0#64) = !v.getLsbD i := by
  rw [← BitVec.twoPow_eq, BitVec.and_twoPow]
  cases hv : v.getLsbD i
  · simp
  · have : BitVec.twoPow 64 i ≠ 0#64 := by
      intro h0
      have := congrArg (·.getLsbD i) h0
      simp [hi] at this
    simpa using this

/-- `check` never panics: before the first number it accepts everything, afterwards the numbers
above `high` and the unmarked ones in the window. -/
theorem check_eq (w : ReplayWindow) (s : ℕ) :
    w.check s = .ok (decide (w.high = noHigh ∨ w.high < s ∨
      (w.high < s + w.size ∧ ¬ w.Marked s))) := by
  simp only [check]
  split_ifs with h1 h2 h3
  · simp [h1]
  · simp [h2]
  · have : ¬ w.high < s + w.size := by omega
    simp [h1, h2, this]
  · have hd : w.high - s < 64 * w.words := by unfold size at h3; omega
    have hw : (w.high - s) / 64 < w.words := by omega
    have hlt : w.high < s + w.size := by unfold size; omega
    have hle : s ≤ w.high := by omega
    simp only [word_ok _ hw, Go.ok_bind, Go.pure_eq_ok, Except.ok.injEq]
    rw [and_shiftLeft_one_beq_zero _ (Nat.mod_lt _ (by omega)), ← bitAt_of_lt _ hw]
    simp only [Marked, h1, h2, hlt, hle, true_and, false_or, Bool.not_eq_true,
      Bool.decide_eq_false]

/-! ### What `Add` does to the marks -/

/-- The highest accepted number after `add`. -/
theorem add_high (h : w.add s = .ok w') :
    w'.high = if w.high = noHigh then s else max w.high s := by
  simp only [add] at h
  split_ifs at h ⊢ with h1 h2 h3 h4
  · obtain ⟨_, -, h⟩ := Go.bind_eq_ok.1 h
    cases h; rfl
  · obtain ⟨_, -, h⟩ := Go.bind_eq_ok.1 h
    cases h; exact (Nat.max_eq_left h2).symm
  · cases h; exact (Nat.max_eq_left h2).symm
  · cases h; exact (Nat.max_eq_right (Nat.le_of_not_le h2)).symm
  · obtain ⟨_, -, h⟩ := Go.bind_eq_ok.1 h
    obtain ⟨_, -, h⟩ := Go.bind_eq_ok.1 h
    cases h; exact (Nat.max_eq_right (Nat.le_of_not_le h2)).symm

/-- `add` never panics and keeps the size of the window. -/
theorem add_ok (w : ReplayWindow) (s : ℕ) : ∃ w', w.add s = .ok w' ∧ w'.size = w.size := by
  have hp := w.words_pos
  simp only [add]
  split_ifs with h1 h2 h3 h4
  · rw [orWord_ok _ hp]; exact ⟨_, rfl, rfl⟩
  · rw [orWord_ok _ (show (w.high - s) / 64 < w.words by unfold size at h3; omega)]
    exact ⟨_, rfl, rfl⟩
  · exact ⟨_, rfl, rfl⟩
  · exact ⟨_, rfl, rfl⟩
  · obtain ⟨bits', hb, -⟩ := shiftUp_ok w.bits (s - w.high)
    rw [hb, Go.ok_bind, orWord_ok _ hp]
    exact ⟨_, rfl, rfl⟩

theorem bitAt_orWord_zero {n : ℕ} {bits bits' : Vector (BitVec 64) n} (hn : 0 < n)
    (h : orWord bits 0 1#64 = .ok bits') (p : ℕ) :
    bitAt bits' p = (bitAt bits p || decide (p = 0)) :=
  bitAt_orWord (q := 0) (by omega) (by simpa using h) p

/-- The first number anchors an empty window and is marked. -/
theorem marked_add_first (h0 : w.high = noHigh) (hc : ∀ p, bitAt w.bits p = false)
    (h : w.add s = .ok w') : w'.Marked t ↔ t = s := by
  rw [add, if_pos h0] at h
  obtain ⟨bits, hb, h⟩ := Go.bind_eq_ok.1 h
  cases h
  have := bitAt_orWord_zero w.words_pos hb (s - t)
  simp only [Marked, this, hc, Bool.false_or, decide_eq_true_eq]
  omega

/-- A number inside the window is marked, all other marks stay. -/
theorem marked_add_inside (h0 : w.high ≠ noHigh) (hle : s ≤ w.high) (hin : w.high < s + w.size)
    (h : w.add s = .ok w') : w'.Marked t ↔ w.Marked t ∨ t = s := by
  simp only [add, h0, hle, ↓reduceIte, show w.high - s < w.size by omega] at h
  obtain ⟨bits, hb, h⟩ := Go.bind_eq_ok.1 h
  cases h
  have := bitAt_orWord (show w.high - s < 64 * w.words by unfold size at hin; omega) hb
    (w.high - t)
  simp only [Marked, this, Bool.or_eq_true, decide_eq_true_eq]
  constructor
  · rintro ⟨ht, hm | he⟩
    · exact .inl ⟨ht, hm⟩
    · exact .inr (by omega)
  · rintro (⟨ht, hm⟩ | rfl)
    · exact ⟨ht, .inl hm⟩
    · exact ⟨hle, .inr rfl⟩

/-- A short slide marks the new highest number and keeps the marks that stay in the window. -/
theorem marked_add_slide (h0 : w.high ≠ noHigh) (hgt : w.high < s) (hs : s < w.high + w.size)
    (h : w.add s = .ok w') : w'.Marked t ↔ (w.Marked t ∧ s < t + w.size) ∨ t = s := by
  simp only [add, h0, ↓reduceIte, show ¬ s ≤ w.high by omega,
    show ¬ w.size ≤ s - w.high by omega] at h
  obtain ⟨bits₁, hb₁, hb⟩ := shiftUp_ok w.bits (s - w.high)
  rw [hb₁, Go.ok_bind] at h
  obtain ⟨bits, ho, h⟩ := Go.bind_eq_ok.1 h
  cases h
  have hbit := bitAt_orWord_zero w.words_pos ho (s - t)
  have hz : w.size = 64 * w.words := rfl
  simp only [Marked, hbit, hb, Bool.or_eq_true, Bool.and_eq_true, decide_eq_true_eq]
  constructor
  · rintro ⟨ht, ⟨⟨hlt, hk⟩, hm⟩ | he⟩
    · rw [show s - t - (s - w.high) = w.high - t by omega] at hm
      exact .inl ⟨⟨by omega, hm⟩, by omega⟩
    · exact .inr (by omega)
  · rintro (⟨⟨ht, hm⟩, hlt⟩ | rfl)
    · refine ⟨by omega, .inl ⟨⟨by omega, by omega⟩, ?_⟩⟩
      rwa [show s - t - (s - w.high) = w.high - t by omega]
    · exact ⟨Nat.le_refl _, .inr (by omega)⟩

/-- **A slide past the whole window leaves nothing marked**, not even the number that caused
it. -/
theorem marked_add_jump (h0 : w.high ≠ noHigh) (hgt : w.high + w.size ≤ s)
    (h : w.add s = .ok w') : ¬ w'.Marked t := by
  have hp : 0 < w.size := by have := w.words_pos; unfold size; omega
  simp only [add, h0, ↓reduceIte, show ¬ s ≤ w.high by omega,
    show w.size ≤ s - w.high by omega] at h
  cases h
  simp [Marked]

end ReplayWindow

end VibeVpn

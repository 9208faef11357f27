import VibeVpn.Session.Server

/-!
# Random draws and the decoy timer

`crandInt63n` and `cryptoRandInt` reinterpret eight random bytes as an `int64` and reduce it with
Go's `%`, whose result has the sign of the dividend.  `crandInt63n` takes the remainder as it is,
so **half of the byte strings give a negative number**; `cryptoRandInt` negates a negative number
first, which fails for `-2^63` only.  The decoy timer is re-armed with `decoyJitter`, half of the
configured interval plus a number drawn by `crandInt63n`.

* `draws_in_range_iff` : exactly when each of the three stays in its range.
* `draws_out_of_range` : eight bytes on which none of them does, and the timer of a one second
  interval is re-armed with a negative duration.

All of it follows from `tmod_in_range_iff`, on the remainder of an arbitrary integer, and the two
halves of the reinterpretation, `bmod_of_low` and `bmod_of_high`.
-/

namespace VibeVpn

/-- `crandInt63n(n)` on the drawn bytes `u`. -/
def crandInt63n (n : ℤ) (u : UInt64) : ℤ := (Int.bmod u.toNat (2 ^ 64)).tmod n

/-- `decoyJitter(base)` on the drawn bytes `u`. -/
def decoyJitter (base : ℤ) (u : UInt64) : ℤ :=
  if base ≤ 0 then base else Int.bmod (base.tdiv 2 + crandInt63n base u) (2 ^ 64)

/-! ### Signed remainders -/

/-- A truncating remainder lies in `[0, n)` exactly when nothing negative is left over. -/
theorem tmod_in_range_iff {v n : ℤ} (hn : 0 < n) :
    0 ≤ v.tmod n ∧ v.tmod n < n ↔ 0 ≤ v ∨ n ∣ v := by
  constructor
  · rintro ⟨hnonneg, -⟩
    obtain hv | hv := Int.lt_or_le v 0
    · -- the remainder of a negative number is not positive
      have hneg : 0 ≤ (-v).tmod n := Int.tmod_nonneg n (by omega)
      rw [Int.neg_tmod] at hneg
      exact .inr (Int.dvd_of_tmod_eq_zero (by omega))
    · exact .inl hv
  · rintro (hv | hdvd)
    · exact ⟨Int.tmod_nonneg n hv, Int.tmod_lt_of_pos v hn⟩
    · rw [Int.tmod_eq_zero_of_dvd hdvd]
      exact ⟨Int.le_refl 0, hn⟩

/-- `int64(u)` for a number without the top bit. -/
theorem bmod_of_low {u : UInt64} (h : u.toNat < 2 ^ 63) : Int.bmod u.toNat (2 ^ 64) = u.toNat := by
  rw [Int.bmod_def]
  split_ifs <;> omega

/-- `int64(u)` for a number with the top bit. -/
theorem bmod_of_high {u : UInt64} (h : 2 ^ 63 ≤ u.toNat) :
    Int.bmod u.toNat (2 ^ 64) = u.toNat - 2 ^ 64 := by
  have := u.toNat_lt
  rw [Int.bmod_def]
  split_ifs <;> omega

/-! ### The draws -/

theorem crandInt63n_in_range_iff {n : ℤ} (hn : 0 < n) (u : UInt64) :
    0 ≤ crandInt63n n u ∧ crandInt63n n u < n ↔ u.toNat < 2 ^ 63 ∨ n ∣ 2 ^ 64 - u.toNat := by
  unfold crandInt63n
  rw [tmod_in_range_iff hn]
  by_cases hu : u.toNat < 2 ^ 63
  · rw [bmod_of_low hu]
    exact iff_of_true (.inl (Int.natCast_nonneg _)) (.inl hu)
  · have hlt := u.toNat_lt
    have hneg : ¬ (0 : ℤ) ≤ u.toNat - 2 ^ 64 := by omega
    rw [bmod_of_high (Nat.not_lt.1 hu), ← Int.dvd_neg, Int.neg_sub]
    simp only [hneg, hu, false_or]

theorem cryptoRandInt_in_range_iff {n : ℤ} (hn : 0 < n) (u : UInt64) :
    0 ≤ cryptoRandInt n u ∧ cryptoRandInt n u < n ↔ u.toNat ≠ 2 ^ 63 ∨ n ∣ 2 ^ 63 := by
  have hlt := u.toNat_lt
  unfold cryptoRandInt
  dsimp only
  by_cases hu : u.toNat < 2 ^ 63
  · rw [bmod_of_low hu, if_neg (by omega), tmod_in_range_iff hn]
    exact iff_of_true (.inl (Int.natCast_nonneg _)) (.inl (by omega))
  · rw [bmod_of_high (Nat.not_lt.1 hu), if_pos (by omega), tmod_in_range_iff hn]
    by_cases hmin : u.toNat = 2 ^ 63
    · -- the negation of `-2^63` wraps to itself
      have hwrap : Int.bmod (-((u.toNat : ℤ) - 2 ^ 64)) (2 ^ 64) = -2 ^ 63 := by
        rw [hmin]
        decide
      rw [hwrap, Int.dvd_neg]
      exact ⟨fun h => .inr (h.resolve_left (by decide)), fun h => .inr (h.resolve_left (· hmin))⟩
    · have hneg : Int.bmod (-((u.toNat : ℤ) - 2 ^ 64)) (2 ^ 64) = 2 ^ 64 - u.toNat := by
        rw [Int.bmod_def]
        split_ifs <;> omega
      rw [hneg]
      exact iff_of_true (.inl (by omega)) (.inl hmin)

/-- Half of the interval and a number drawn below it do not overflow. -/
theorem decoyJitter_eq {base : ℤ} (h₀ : 0 < base) (h : base + base / 2 < 2 ^ 63) (u : UInt64) :
    decoyJitter base u = base / 2 + crandInt63n base u := by
  have hhalf : base.tdiv 2 = base / 2 := Int.tdiv_eq_ediv_of_nonneg (by omega)
  have hlt : crandInt63n base u < base := Int.tmod_lt_of_pos _ h₀
  have hgt : -base < crandInt63n base u := Int.lt_tmod_of_pos _ h₀
  rw [decoyJitter, if_neg (by omega), hhalf, Int.bmod_eq_of_le] <;> omega

/-- **When the draws stay in range**: `crandInt63n(n)` for bytes without the top bit, or if `n`
divides what they lack to `2^64`; `cryptoRandInt(n)` for all bytes but one, or if `n` divides
`2^63`; and the jittered interval exactly when its own draw does.  The interval is positive then,
except that of one nanosecond, whose half is zero. -/
theorem draws_in_range_iff (u : UInt64) :
    (∀ n : ℤ, 0 < n → n < 2 ^ 63 →
      (0 ≤ crandInt63n n u ∧ crandInt63n n u < n ↔
        u.toNat < 2 ^ 63 ∨ n ∣ 2 ^ 64 - u.toNat) ∧
      (0 ≤ cryptoRandInt n u ∧ cryptoRandInt n u < n ↔ u.toNat ≠ 2 ^ 63 ∨ n ∣ 2 ^ 63)) ∧
    ∀ base : ℤ, 0 < base → base + base / 2 < 2 ^ 63 →
      (base / 2 ≤ decoyJitter base u ∧ decoyJitter base u < base / 2 + base ↔
        u.toNat < 2 ^ 63 ∨ base ∣ 2 ^ 64 - u.toNat) ∧
      (0 < decoyJitter base u ∧ base / 2 ≤ decoyJitter base u ↔
        2 ≤ base ∧ (u.toNat < 2 ^ 63 ∨ base ∣ 2 ^ 64 - u.toNat)) := by
  refine ⟨fun n hn _ => ⟨crandInt63n_in_range_iff hn u, cryptoRandInt_in_range_iff hn u⟩, ?_⟩
  intro base h₀ h
  have hlt : crandInt63n base u < base := Int.tmod_lt_of_pos _ h₀
  rw [decoyJitter_eq h₀ h, ← crandInt63n_in_range_iff h₀ u]
  constructor
  · omega
  · constructor
    · rintro ⟨hpos, hhalf⟩
      -- an interval of one nanosecond leaves no number but zero to draw
      exact ⟨by omega, by omega, hlt⟩
    · rintro ⟨h₂, hdraw, -⟩
      exact ⟨by omega, by omega⟩

/-- Bytes without the top bit, and an interval of a minute. -/
theorem draws_in_range_minute :
    (0 ≤ crandInt63n 64 12345 ∧ crandInt63n 64 12345 < 64) ∧
    (0 ≤ cryptoRandInt 64 12345 ∧ cryptoRandInt 64 12345 < 64) ∧
    0 < decoyJitter (60 * 10 ^ 9) 12345 ∧ 30 * 10 ^ 9 ≤ decoyJitter (60 * 10 ^ 9) 12345 :=
  have h := draws_in_range_iff 12345
  ⟨(h.1 64 (by decide) (by decide)).1.2 (.inl (by decide)),
    (h.1 64 (by decide) (by decide)).2.2 (.inl (by decide)),
    (h.2 (60 * 10 ^ 9) (by decide) (by decide)).2.2 ⟨by decide, .inl (by decide)⟩⟩

/-- **The bytes of `2^63` leave all three ranges**, and re-arm the timer of a one second interval
with a negative duration. -/
theorem draws_out_of_range :
    crandInt63n (10 ^ 9) 0x8000000000000000 < 0 ∧ cryptoRandInt (10 ^ 9) 0x8000000000000000 < 0 ∧
    decoyJitter (10 ^ 9) 0x8000000000000000 < 0 := by
  decide +kernel

end VibeVpn

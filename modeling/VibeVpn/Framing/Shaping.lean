import VibeVpn.Protocol.Wire
import Mathlib.Data.Int.Basic

/-!
# Traffic shaping

`Shaping.PaddingFor` of `internal/framing/framing.go`: how many padding bytes the sender appends
to an inner plaintext.  What is drawn at random is an argument (`Draw`); a Go `int` is an `ℤ`,
with the one sum that can leave its range, `RandMax + 1`, wrapped explicitly.
-/

namespace VibeVpn

/-- The values of `Shaping.Padding`. -/
inductive Padding where
  /-- `"none"`, the empty string, and any other string. -/
  | none
  /-- `"pad"`: every frame is padded to `PadTo` bytes on the wire. -/
  | pad
  /-- `"bucket"`: the wire size is rounded up to a multiple of `Bucket`. -/
  | bucket
  /-- `"random"`: up to `RandMax` random bytes. -/
  | random
  /-- `"web"`: the wire size is sampled from those of TLS records. -/
  | web
  deriving DecidableEq, Repr

/-- `Shaping`, without the send jitter, which the session layer does not read. -/
structure Shaping where
  /-- `Padding`. -/
  padding : Padding
  /-- `PadTo`. -/
  padTo : ℤ
  /-- `Bucket`. -/
  bucket : ℤ
  /-- `RandMax`. -/
  randMax : ℤ
  /-- `DecoyInterval`, in nanoseconds. -/
  decoyInterval : ℤ
  deriving DecidableEq

/-- What sealing one frame draws at random: the nonce, the values `randN` reads, in order, and the
bytes of the padding. -/
structure Draw where
  /-- The nonce. -/
  nonce : Bytes
  nonce_len : nonce.length = nonceLen
  /-- The `i`-th 32-bit value `randN` reads. -/
  u32 : ℕ → UInt32
  /-- The `i`-th byte of the padding. -/
  fill : ℕ → UInt8

/-- All zeros. -/
instance : Inhabited Draw :=
  ⟨{ nonce := List.replicate 12 0, nonce_len := rfl, u32 := fun _ => 0, fill := fun _ => 0 }⟩

/-- `randN(max)` on the drawn value `u`. -/
def randN (max : ℤ) (u : UInt32) : ℤ :=
  if max ≤ 0 then 0 else (u.toNat : ℤ) % max

/-- `webWireSize`: a plausible TLS record size, from the first two draws. -/
def webWireSize (u : ℕ → UInt32) : ℤ :=
  let r := randN 100 (u 0)
  if r < 35 then 53 + randN 97 (u 1)
  else if r < 65 then 150 + randN 250 (u 1)
  else if r < 85 then 400 + randN 400 (u 1)
  else if r < 95 then 800 + randN 400 (u 1)
  else 1200 + randN 300 (u 1)

/-- `PaddingFor(innerLen)`. -/
def Shaping.paddingFor (s : Shaping) (u : ℕ → UInt32) (innerLen : ℤ) : ℤ :=
  match s.padding with
  | .none => 0
  | .pad =>
    if 0 < s.padTo then
      let target := min (s.padTo - nonceLen - tagLen) maxInner
      if innerLen < target then target - innerLen else 0
    else 0
  | .bucket =>
    if 0 < s.bucket then
      let total := nonceLen + tagLen + innerLen
      let r := total % s.bucket
      if 0 < r ∧ total + (s.bucket - r) ≤ maxWire then s.bucket - r else 0
    else 0
  | .random =>
    if 0 < s.randMax then randN (Int.bmod (s.randMax + 1) (2 ^ 64)) (u 0) else 0
  | .web =>
    let min := nonceLen + tagLen + innerLen
    let target := webWireSize u
    if min < target ∧ target ≤ maxWire then target - min else randN 17 (u 2)

/-- `makePadding(n)`. -/
def makePadding (fill : ℕ → UInt8) (n : ℤ) : Bytes :=
  if n ≤ 0 then [] else (List.range n.toNat).map fill

/-- The padding of one frame with the given payload length. -/
def Shaping.paddingOf (s : Shaping) (d : Draw) (len : ℕ) : Bytes :=
  makePadding d.fill (s.paddingFor d.u32 ((innerHeaderLen + len : ℕ) : ℤ))

theorem length_makePadding (fill : ℕ → UInt8) {n : ℤ} (h : 0 ≤ n) :
    ((makePadding fill n).length : ℤ) = n := by
  unfold makePadding
  split_ifs with hn
  · simp
    omega
  · simp
    omega

theorem Shaping.paddingOf_none {s : Shaping} (h : s.padding = .none) (d : Draw) (len : ℕ) :
    s.paddingOf d len = [] := by
  simp [paddingOf, paddingFor, h, makePadding]

/-! ### How much padding there can be -/

section Bounds

variable {m : ℤ}

theorem randN_nonneg (m : ℤ) (u : UInt32) : 0 ≤ randN m u := by
  unfold randN
  split_ifs with h
  · exact Int.le_refl 0
  · exact Int.emod_nonneg _ (by omega)

theorem randN_lt (h : 0 < m) (u : UInt32) : randN m u < m := by
  rw [randN, if_neg (by omega)]
  exact Int.emod_lt_of_pos _ h

theorem randN_le (m : ℤ) (u : UInt32) : randN m u ≤ 2 ^ 32 - 1 := by
  have hu := u.toNat_lt
  unfold randN
  split_ifs with h
  · decide
  · obtain ⟨n, rfl⟩ := Int.eq_ofNat_of_zero_le (by omega : 0 ≤ m)
    have hle := Nat.mod_le u.toNat n
    omega

/-- Every value below the bound and below 2^32 can be drawn. -/
theorem randN_ofNat {n : ℕ} (h : (n : ℤ) < m) (hn : n < 2 ^ 32) :
    randN m (UInt32.ofNat n) = n := by
  rw [randN, if_neg (by omega), UInt32.toNat_ofNat', Nat.mod_eq_of_lt hn]
  exact Int.emod_eq_of_lt (by omega) h

theorem webWireSize_le (u : ℕ → UInt32) : webWireSize u ≤ 1499 := by
  have h₁ := randN_lt (m := 97) (by decide) (u 1)
  have h₂ := randN_lt (m := 250) (by decide) (u 1)
  have h₃ := randN_lt (m := 400) (by decide) (u 1)
  have h₄ := randN_lt (m := 300) (by decide) (u 1)
  unfold webWireSize
  dsimp only
  split_ifs <;> omega

/-- The most padding that is added without regard to the size of the frame: 16 bytes in the web
mode, and as much as a 32-bit draw below `RandMax + 1` can be in the random mode. -/
def Shaping.blindMax (s : Shaping) : ℤ :=
  match s.padding with
  | .random =>
    if 0 < s.randMax then max 0 (min (Int.bmod (s.randMax + 1) (2 ^ 64) - 1) (2 ^ 32 - 1)) else 0
  | .web => 16
  | _ => 0

theorem Shaping.blindMax_web {s : Shaping} (h : s.padding = .web) : s.blindMax = 16 := by
  rw [blindMax, h]

theorem Shaping.paddingFor_nonneg (s : Shaping) (u : ℕ → UInt32) (innerLen : ℤ) :
    0 ≤ s.paddingFor u innerLen := by
  unfold paddingFor
  split
  · exact Int.le_refl 0
  · dsimp only
    split_ifs <;> omega
  · dsimp only
    split_ifs with hb
    · have := Int.emod_lt_of_pos (↑nonceLen + ↑tagLen + innerLen) hb
      omega
    · exact Int.le_refl 0
    · exact Int.le_refl 0
  · split_ifs
    · exact randN_nonneg _ _
    · exact Int.le_refl 0
  · dsimp only
    split_ifs
    · omega
    · exact randN_nonneg _ _

/-- The padding that is drawn has the length that was computed. -/
theorem Shaping.length_paddingOf (s : Shaping) (d : Draw) (len : ℕ) :
    ((s.paddingOf d len).length : ℤ) = s.paddingFor d.u32 ((innerHeaderLen + len : ℕ) : ℤ) :=
  length_makePadding d.fill (s.paddingFor_nonneg d.u32 _)

/-- **Padding is either clamped to the wire or blind.** -/
theorem Shaping.paddingFor_le (s : Shaping) (u : ℕ → UInt32) (innerLen : ℤ) :
    nonceLen + tagLen + innerLen + s.paddingFor u innerLen ≤ maxWire ∨
      s.paddingFor u innerLen ≤ s.blindMax := by
  unfold paddingFor blindMax
  cases s.padding with
  | none => exact .inr (Int.le_refl 0)
  | pad =>
    dsimp only
    split_ifs
    · left
      simp only [maxInner, maxWire, nonceLen, tagLen]
      omega
    · exact .inr (Int.le_refl 0)
    · exact .inr (Int.le_refl 0)
  | bucket =>
    dsimp only
    split_ifs with _ hr
    · exact .inl hr.2
    · exact .inr (Int.le_refl 0)
    · exact .inr (Int.le_refl 0)
  | random =>
    right
    dsimp only
    split_ifs with hmax
    · by_cases hb : 0 < Int.bmod (s.randMax + 1) (2 ^ 64)
      · have h₁ := randN_lt hb (u 0)
        have h₂ := randN_le (Int.bmod (s.randMax + 1) (2 ^ 64)) (u 0)
        omega
      · rw [randN, if_pos (by omega)]
        omega
    · exact Int.le_refl 0
  | web =>
    dsimp only
    split_ifs
    · left
      omega
    · right
      have := randN_lt (m := 17) (by decide) (u 2)
      omega

/-- Blind padding of the largest size does occur, in the web mode in frames larger than a TLS
record. -/
theorem Shaping.exists_blindMax_le (s : Shaping) (innerLen : ℤ)
    (hlarge : s.padding = .web → 1499 ≤ nonceLen + tagLen + innerLen) :
    ∃ u, s.blindMax ≤ s.paddingFor (fun _ => u) innerLen := by
  unfold blindMax
  cases hs : s.padding with
  | none => exact ⟨0, s.paddingFor_nonneg _ _⟩
  | pad => exact ⟨0, s.paddingFor_nonneg _ _⟩
  | bucket => exact ⟨0, s.paddingFor_nonneg _ _⟩
  | random =>
    dsimp only
    split_ifs with hmax
    · let n := (min (Int.bmod (s.randMax + 1) (2 ^ 64) - 1) (2 ^ 32 - 1)).toNat
      refine ⟨UInt32.ofNat n, ?_⟩
      by_cases hb : 0 < Int.bmod (s.randMax + 1) (2 ^ 64)
      · have hn : randN (Int.bmod (s.randMax + 1) (2 ^ 64)) (UInt32.ofNat n) = n :=
          randN_ofNat (by omega) (by omega)
        simp only [paddingFor, hs, hmax, if_true, hn]
        omega
      · have := s.paddingFor_nonneg (fun _ => UInt32.ofNat n) innerLen
        omega
    · exact ⟨0, s.paddingFor_nonneg _ _⟩
  | web =>
    refine ⟨16, ?_⟩
    have hweb := webWireSize_le fun _ => 16
    have hlarge := hlarge hs
    simp only [paddingFor, hs]
    rw [if_neg (by omega)]
    decide

end Bounds

end VibeVpn

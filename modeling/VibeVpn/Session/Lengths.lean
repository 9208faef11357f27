import Mathlib.Order.Bounds.Defs
import VibeVpn.Session.Endpoint

/-!
# What the size of a frame tells

In the two deterministic padding modes the size of a frame on the wire is a function of its natural
size, the overhead plus the length of its payload.  The padding is computed by `PaddingFor` from the
length of the inner plaintext, drawn by `makePadding` and laid out by `Seal`, each with its own
share of the overhead; `encryptSend` is where they meet.

* `Shaping.natural_add_pad`, `Shaping.natural_add_bucket` : the padded sizes, in the terms of the
  configuration: the larger of the natural size and `PadTo`, and the least multiple of `Bucket`.
* `Endpoint.padding_hides_length` : `encryptSend` hands the transport a frame of that size, so
  **two payloads that are padded alike cannot be told apart by the size of their frames**, whatever
  they hold and whichever end sends them.
-/

namespace VibeVpn

/-- The size on the wire of a frame with a payload of `len` bytes and no padding. -/
def naturalSize (len : ℕ) : ℤ := nonceLen + tagLen + innerHeaderLen + len

/-- `m` is the least multiple of `b` that is not below `n`. -/
def LeastMultiple (b n m : ℤ) : Prop := IsLeast {x | b ∣ x ∧ n ≤ x} m

/-- The least multiple, as `PaddingFor` computes it. -/
theorem leastMultiple_of_emod {b : ℤ} (hb : 0 < b) (n : ℤ) :
    LeastMultiple b n (if 0 < n % b then n + (b - n % b) else n) := by
  have hr := Int.emod_lt_of_pos n hb
  have hr₀ := Int.emod_nonneg n (Int.ne_of_gt hb)
  have hdiv := Int.mul_ediv_add_emod n b
  split_ifs with h
  · have hm : n + (b - n % b) = b * (n / b + 1) := by
      rw [Int.mul_add, Int.mul_one]
      omega
    refine ⟨⟨⟨_, hm⟩, by omega⟩, ?_⟩
    rintro x ⟨⟨c, rfl⟩, hx⟩
    -- a multiple that is not below `n` lies above the one before it
    have hlt : n / b < c := Int.lt_of_mul_lt_mul_left (by omega : b * (n / b) < b * c) (by omega)
    rw [hm]
    exact Int.mul_le_mul_of_nonneg_left (by omega) (by omega)
  · exact ⟨⟨⟨n / b, by omega⟩, Int.le_refl n⟩, fun x hx => hx.2⟩

theorem LeastMultiple.unique {b n m m' : ℤ} (h : LeastMultiple b n m)
    (h' : LeastMultiple b n m') : m = m' :=
  Int.le_antisymm (h.2 h'.1) (h'.2 h.1)

namespace Shaping

variable {sh : Shaping} {len : ℕ}

/-- A frame padded to `PadTo`. -/
theorem natural_add_pad (hmode : sh.padding = .pad) (hpad : 0 < sh.padTo)
    (hfit : naturalSize len ≤ maxWire) (u : ℕ → UInt32) :
    naturalSize len + sh.paddingFor u ((innerHeaderLen + len : ℕ) : ℤ) =
      max (naturalSize len) (min sh.padTo maxWire) := by
  have hinner : (maxInner : ℤ) = maxWire - nonceLen - tagLen := rfl
  simp only [paddingFor, hmode, hpad, if_true, naturalSize, hinner] at hfit ⊢
  split_ifs <;> omega

/-- A frame padded to a multiple of `Bucket`. -/
theorem natural_add_bucket (hmode : sh.padding = .bucket) (hb : 0 < sh.bucket) (u : ℕ → UInt32)
    {m : ℤ} (hm : LeastMultiple sh.bucket (naturalSize len) m) :
    naturalSize len + sh.paddingFor u ((innerHeaderLen + len : ℕ) : ℤ) =
      if m ≤ maxWire then m else naturalSize len := by
  have htotal : (nonceLen : ℤ) + tagLen + ((innerHeaderLen + len : ℕ) : ℤ) = naturalSize len := by
    simp only [naturalSize]
    omega
  obtain rfl := hm.unique (leastMultiple_of_emod hb _)
  simp only [paddingFor, hmode, hb, if_true, htotal]
  by_cases hr : 0 < naturalSize len % sh.bucket
  · simp only [hr, true_and, if_true]
    split_ifs
    · rfl
    · exact Int.add_zero _
  · simp only [hr, false_and, if_false, ite_self]
    exact Int.add_zero _

end Shaping

namespace Endpoint

variable {S : Suite}

/-- `encryptSend` hands the transport one frame, of `size` bytes. -/
def SendsSize (sh : Shaping) (now : ℤ) (e : SendEnv) (s : Endpoint S) (typ : UInt8) (pt : Bytes)
    (size : ℤ) : Prop :=
  ∃ s' f, s.encryptSend sh true now e typ pt = .ok (s', [(f, e.ok)], e.ok) ∧
    (f.wire.length : ℤ) = size

/-- A frame that fits is sent, with its padding. -/
theorem sendsSize_of_fits (hS : S.AeadLaws) (sh : Shaping) (now : ℤ) (e : SendEnv)
    {s : Endpoint S} {typ : UInt8} {pt : Bytes} (hs : ¬ s.Blocked typ) {size : ℤ}
    (hsize : naturalSize pt.length +
      sh.paddingFor e.draw.u32 ((innerHeaderLen + pt.length : ℕ) : ℤ) = size)
    (hfit : size ≤ maxWire) : SendsSize sh now e s typ pt size := by
  rw [← sh.length_paddingOf, naturalSize] at hsize
  cases hk : s.keys with
  | none => exact absurd (.inl hk) hs
  | some k =>
    obtain ⟨⟨k', f⟩, hseal⟩ := (Keys.seal_ok_iff hS.seal_length k e.draw s.tag typ pt
      (sh.paddingOf e.draw pt.length)).2 (by omega)
    have hlen := f.length_wire hS
    rw [(Keys.seal_spec hseal).2.payload, Keys.padding_of_seal hseal] at hlen
    obtain ⟨s', hsend⟩ := encryptSend_of_seal hk hs hseal
    exact ⟨s', f, hsend, by omega⟩

theorem sendsSize_pad (hS : S.AeadLaws) {sh : Shaping} (hmode : sh.padding = .pad)
    (hpad : 0 < sh.padTo) (now : ℤ) (e : SendEnv) {s : Endpoint S} {typ : UInt8} {pt : Bytes}
    (hs : ¬ s.Blocked typ) (hfit : naturalSize pt.length ≤ maxWire) :
    SendsSize sh now e s typ pt (max (naturalSize pt.length) (min sh.padTo maxWire)) :=
  sendsSize_of_fits hS sh now e hs (sh.natural_add_pad hmode hpad hfit e.draw.u32) (by omega)

theorem sendsSize_bucket (hS : S.AeadLaws) {sh : Shaping} (hmode : sh.padding = .bucket)
    (hb : 0 < sh.bucket) (now : ℤ) (e : SendEnv) {s : Endpoint S} {typ : UInt8} {pt : Bytes}
    (hs : ¬ s.Blocked typ) (hfit : naturalSize pt.length ≤ maxWire) {m : ℤ}
    (hm : LeastMultiple sh.bucket (naturalSize pt.length) m) :
    SendsSize sh now e s typ pt (if m ≤ maxWire then m else naturalSize pt.length) :=
  sendsSize_of_fits hS sh now e hs (sh.natural_add_bucket hmode hb e.draw.u32 hm)
    (by split_ifs <;> omega)

/-- **Deterministic padding hides lengths.**  A frame whose natural size fits the wire is sent, in
the pad mode with the larger of its natural size and `PadTo`, and in the bucket mode with the least
multiple of `Bucket`, as far as these fit.  Two payloads that fit `PadTo`, or fall in the same
bucket, are therefore sent in frames of one size. -/
theorem padding_hides_length (hS : S.AeadLaws) (sh : Shaping) :
    (∀ (s : Endpoint S) typ pt now e, ¬ s.Blocked typ → naturalSize pt.length ≤ maxWire →
      (sh.padding = .pad → 0 < sh.padTo →
        SendsSize sh now e s typ pt (max (naturalSize pt.length) (min sh.padTo maxWire))) ∧
      (sh.padding = .bucket → 0 < sh.bucket →
        ∃ m : ℤ, LeastMultiple sh.bucket (naturalSize pt.length) m ∧
          SendsSize sh now e s typ pt (if m ≤ maxWire then m else naturalSize pt.length))) ∧
    (∀ (s₁ s₂ : Endpoint S) typ₁ typ₂ pt₁ pt₂ now₁ now₂ e₁ e₂,
      ¬ s₁.Blocked typ₁ → ¬ s₂.Blocked typ₂ →
      (sh.padding = .pad → 0 < sh.padTo → naturalSize pt₁.length ≤ min sh.padTo maxWire →
        naturalSize pt₂.length ≤ min sh.padTo maxWire →
        ∃ size, SendsSize sh now₁ e₁ s₁ typ₁ pt₁ size ∧ SendsSize sh now₂ e₂ s₂ typ₂ pt₂ size) ∧
      (sh.padding = .bucket → 0 < sh.bucket → ∀ m : ℤ, m ≤ maxWire →
        LeastMultiple sh.bucket (naturalSize pt₁.length) m →
        LeastMultiple sh.bucket (naturalSize pt₂.length) m →
        ∃ size, SendsSize sh now₁ e₁ s₁ typ₁ pt₁ size ∧
          SendsSize sh now₂ e₂ s₂ typ₂ pt₂ size)) := by
  constructor
  · intro s typ pt now e hs hfit
    exact ⟨fun hmode hpad => sendsSize_pad hS hmode hpad now e hs hfit, fun hmode hb =>
      ⟨_, leastMultiple_of_emod hb _,
        sendsSize_bucket hS hmode hb now e hs hfit (leastMultiple_of_emod hb _)⟩⟩
  · intro s₁ s₂ typ₁ typ₂ pt₁ pt₂ now₁ now₂ e₁ e₂ hs₁ hs₂
    constructor
    · intro hmode hpad h₁ h₂
      have hfit₁ : naturalSize pt₁.length ≤ maxWire := by omega
      have hfit₂ : naturalSize pt₂.length ≤ maxWire := by omega
      have hsend₁ := sendsSize_pad hS hmode hpad now₁ e₁ hs₁ hfit₁
      have hsend₂ := sendsSize_pad hS hmode hpad now₂ e₂ hs₂ hfit₂
      rw [Int.max_eq_right h₁] at hsend₁
      rw [Int.max_eq_right h₂] at hsend₂
      exact ⟨_, hsend₁, hsend₂⟩
    · intro hmode hb m hm h₁ h₂
      have hsend₁ := sendsSize_bucket hS hmode hb now₁ e₁ hs₁ (Int.le_trans h₁.1.2 hm) h₁
      have hsend₂ := sendsSize_bucket hS hmode hb now₂ e₂ hs₂ (Int.le_trans h₂.1.2 hm) h₂
      rw [if_pos hm] at hsend₁ hsend₂
      exact ⟨m, hsend₁, hsend₂⟩

/-- A keepalive and a data packet of a client that pads to 256 bytes. -/
theorem padding_hides_length_plain :
    let sh : Shaping := ⟨.pad, 256, 0, 0, 0⟩
    let s : Endpoint plain := ⟨some (newKeys plain true (1, 2)), default, false, none, {}, 0, 0⟩
    naturalSize 0 = 39 ∧ naturalSize 100 = 139 ∧
    ∃ size, SendsSize sh 0 ⟨default, true⟩ s msgKeepalive [] size ∧
      SendsSize sh 0 ⟨default, true⟩ s msgData (List.replicate 100 7) size := by
  intro sh s
  have hopen : ∀ typ, ¬ s.Blocked typ := fun typ => by simp [Blocked, s]
  exact ⟨rfl, rfl, ((padding_hides_length Plain.aeadLaws sh).2 s s _ _ _ _ 0 0 _ _ (hopen _)
    (hopen _)).1 rfl (by decide) (by decide) (by decide)⟩

end Endpoint

end VibeVpn

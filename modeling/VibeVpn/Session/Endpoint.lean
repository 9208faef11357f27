import VibeVpn.Session.Keys

/-!
# What the two ends of a session share

`Client` and `serverSession` keep the same protocol state (keys, tag, rekey state, counters,
timers) and send session frames by the same steps.  `Endpoint` is that state and
`Endpoint.encryptSend` those steps; `Client.encryptSend` and `serverSession.encryptSend` are
instances of it.

What a handler does to the outside is collected in an `Out`: the frames and raw messages it hands
to the transport, each with the outcome of `Send`, the packets it writes to the TUN, and the keys
it installs.

* `Endpoint.encryptSend_spec` : what a call does (`Sends`);
* `Endpoint.encryptSend_ok_iff` : when it does not panic.
-/

namespace VibeVpn

/-- The counters of `Stats` that the run loops update. -/
structure Stats where
  /-- `PacketsSent`. -/
  packetsSent : ℕ := 0
  /-- `PacketsReceived`. -/
  packetsReceived : ℕ := 0
  /-- `PacketsDropped`. -/
  packetsDropped : ℕ := 0
  /-- `BytesSent`. -/
  bytesSent : ℕ := 0
  /-- `BytesReceived`. -/
  bytesReceived : ℕ := 0
  /-- `Handshakes`. -/
  handshakes : ℕ := 0
  /-- `HandshakeNanos`. -/
  handshakeNanos : ℤ := 0
  /-- `Reconnects`. -/
  reconnects : ℕ := 0
  /-- `Rekeys`. -/
  rekeys : ℕ := 0
  /-- `LastRTTNanos`. -/
  lastRTTNanos : ℤ := 0
  /-- `rttBuckets`. -/
  rttBuckets : List ℕ := List.replicate 9 0
  /-- `SizeLE64`. -/
  sizeLE64 : ℕ := 0
  /-- `SizeLE256`. -/
  sizeLE256 : ℕ := 0
  /-- `SizeLE1024`. -/
  sizeLE1024 : ℕ := 0
  /-- `SizeLE1500`. -/
  sizeLE1500 : ℕ := 0
  /-- `SizeGT1500`. -/
  sizeGT1500 : ℕ := 0
  deriving DecidableEq

namespace Stats

/-- `recordSize(n)`. -/
def recordSize (s : Stats) (n : ℕ) : Stats :=
  if n ≤ 64 then { s with sizeLE64 := s.sizeLE64 + 1 }
  else if n ≤ 256 then { s with sizeLE256 := s.sizeLE256 + 1 }
  else if n ≤ 1024 then { s with sizeLE1024 := s.sizeLE1024 + 1 }
  else if n ≤ 1500 then { s with sizeLE1500 := s.sizeLE1500 + 1 }
  else { s with sizeGT1500 := s.sizeGT1500 + 1 }

/-- `rttThresholdsMS`. -/
def rttThresholdsMS : List ℤ := [10, 25, 50, 100, 250, 500, 1000, 2000, 5000]

/-- `RecordRTT(d)`, with `d` in nanoseconds: count `d` in every bucket it fits. -/
def recordRTT (s : Stats) (d : ℤ) : Stats :=
  { s with
    rttBuckets := List.zipWith (fun n b => if d ≤ b * 10 ^ 6 then n + 1 else n)
      s.rttBuckets rttThresholdsMS
    lastRTTNanos := d }

/-- `PacketsDropped.Add(1)`. -/
def dropped (s : Stats) : Stats := { s with packetsDropped := s.packetsDropped + 1 }

/-- The counters of one frame sent, of `wire` bytes with `len` bytes of payload. -/
def sent (s : Stats) (wire len : ℕ) : Stats :=
  { s with packetsSent := s.packetsSent + 1, bytesSent := s.bytesSent + wire }.recordSize len

/-- The counters of one packet of `len` bytes written to the TUN. -/
def received (s : Stats) (len : ℕ) : Stats :=
  { s with
    packetsReceived := s.packetsReceived + 1
    bytesReceived := s.bytesReceived + len }.recordSize len

@[simp] theorem rekeys_recordSize (s : Stats) (n : ℕ) : (s.recordSize n).rekeys = s.rekeys := by
  unfold recordSize
  split_ifs <;> rfl

@[simp] theorem rekeys_sent (s : Stats) (w n : ℕ) : (s.sent w n).rekeys = s.rekeys := by
  rw [sent, rekeys_recordSize]

@[simp] theorem rekeys_received (s : Stats) (n : ℕ) : (s.received n).rekeys = s.rekeys := by
  rw [received, rekeys_recordSize]

end Stats

/-- The outside's part in one `Send`: what is drawn for the frame, and whether the transport
accepts it. -/
structure SendEnv where
  /-- The draws. -/
  draw : Draw
  /-- `Send` returned `nil`. -/
  ok : Bool

/-- What a handler does besides changing the state. -/
structure Out (S : Suite) where
  /-- Session frames handed to `Send`, and whether it succeeded. -/
  frames : List (Sealed S × Bool) := []
  /-- Raw messages handed to `Send`, and whether it succeeded. -/
  raw : List (Bytes × Bool) := []
  /-- Packets handed to `TUN.WritePacket`, and whether it succeeded. -/
  tun : List (Bytes × Bool) := []
  /-- Keys `(c2s, s2c)` that a completed handshake installed. -/
  installed : List (S.Key × S.Key) := []

/-- The output of two actions, one after the other. -/
def Out.append {S : Suite} (a b : Out S) : Out S where
  frames := a.frames ++ b.frames
  raw := a.raw ++ b.raw
  tun := a.tun ++ b.tun
  installed := a.installed ++ b.installed

@[simp] theorem Out.append_empty {S : Suite} (a : Out S) : a.append {} = a := by
  simp [Out.append]

/-- The protocol state of one end of a session. -/
structure Endpoint (S : Suite) where
  /-- `keys`. -/
  keys : Option (Keys S)
  /-- `tag`. -/
  tag : Byte4
  /-- `rekeying`. -/
  rekeying : Bool
  /-- `rekeyHs`. -/
  rekeyHs : Option S.HS
  /-- `stats`. -/
  stats : Stats
  /-- `lastRecv`. -/
  lastRecv : ℤ
  /-- `lastDataSend`. -/
  lastDataSend : ℤ

namespace Endpoint

variable {S : Suite} {s s' : Endpoint S} {typ : UInt8} {pt : Bytes}

/-- `encryptSend(typ, pt)` on an end whose transport is there (`t`) or `nil`.  Nothing is sent
without keys, and only rekey messages during a rekey. -/
def encryptSend (sh : Shaping) (t : Bool) (now : ℤ) (e : SendEnv) (s : Endpoint S) (typ : UInt8)
    (pt : Bytes) : Go (Endpoint S × List (Sealed S × Bool) × Bool) :=
  match s.keys with
  | none => pure (s, [], false)
  | some k =>
    if s.rekeying && !isRekey typ then pure (s, [], false)
    else do
      let (k', f) ← k.seal e.draw s.tag typ pt (sh.paddingOf e.draw pt.length)
      if !t then throw .nilDeref
      else if e.ok then
        pure ({ s with
          keys := some k'
          stats := s.stats.sent f.wire.length pt.length
          lastDataSend := if typ = msgData then now else s.lastDataSend }, [(f, true)], true)
      else pure ({ s with keys := some k' }, [(f, false)], false)

/-- `encryptSend` sends nothing of type `typ`: there are no keys, or a rekey is in progress. -/
def Blocked (s : Endpoint S) (typ : UInt8) : Prop :=
  s.keys = none ∨ s.rekeying = true ∧ isRekey typ = false

/-- What a call of `encryptSend` does: the end afterwards, the frame handed to the transport and
whether the message was sent. -/
inductive Sends (s : Endpoint S) (typ : UInt8) (pt : Bytes) :
    Endpoint S → List (Sealed S × Bool) → Bool → Prop where
  /-- Nothing may be sent. -/
  | idle : s.Blocked typ → Sends s typ pt s [] false
  /-- A frame is sealed; the transport takes it or fails. -/
  | sealed {k : Keys S} {f : Sealed S} {ok : Bool} {stats : Stats} {last : ℤ} :
      s.keys = some k → (s.rekeying = true → isRekey typ = true) →
      k.SealedBy s.tag typ pt f → stats.rekeys = s.stats.rekeys →
      Sends s typ pt { s with keys := some k.advance, stats, lastDataSend := last } [(f, ok)] ok

/-- What sending leaves as it is. -/
theorem Sends.frame {fs : List (Sealed S × Bool)} {ok : Bool} (h : s.Sends typ pt s' fs ok) :
    s'.tag = s.tag ∧ s'.rekeying = s.rekeying ∧ s'.rekeyHs = s.rekeyHs ∧
      s'.lastRecv = s.lastRecv ∧ s'.keys.isSome = s.keys.isSome := by
  cases h with
  | idle => exact ⟨rfl, rfl, rfl, rfl, rfl⟩
  | sealed hk => exact ⟨rfl, rfl, rfl, rfl, by rw [hk]; rfl⟩

theorem Sends.rekeys {fs : List (Sealed S × Bool)} {ok : Bool} (h : s.Sends typ pt s' fs ok) :
    s'.stats.rekeys = s.stats.rekeys := by
  cases h with
  | idle => rfl
  | sealed _ _ _ hst => exact hst

theorem Sends.pair {fs : List (Sealed S × Bool)} {ok : Bool} (h : s.Sends typ pt s' fs ok) :
    s'.keys.map Keys.pair = s.keys.map Keys.pair := by
  cases h with
  | idle => rfl
  | sealed hk => rw [hk]; rfl

/-- Every frame handed to the transport was sealed by the keys, with the arguments given. -/
theorem Sends.sealedBy {fs : List (Sealed S × Bool)} {ok : Bool} (h : s.Sends typ pt s' fs ok)
    {f : Sealed S} {sent : Bool} (hf : (f, sent) ∈ fs) :
    sent = ok ∧ ∃ k, s.keys = some k ∧ k.SealedBy s.tag typ pt f := by
  cases h with
  | idle => cases hf
  | sealed hk _ hby =>
    cases List.mem_singleton.1 hf
    exact ⟨rfl, _, hk, hby⟩

theorem Sends.key {fs : List (Sealed S × Bool)} {ok : Bool} (h : s.Sends typ pt s' fs ok)
    {f : Sealed S} {sent : Bool} (hf : (f, sent) ∈ fs) :
    f.typ = typ ∧ ∃ r, s.keys.map Keys.pair = some (f.key, r) := by
  obtain ⟨-, k, hk, hby⟩ := h.sealedBy hf
  exact ⟨hby.typ, k.recvKey, by rw [hk, hby.key]; rfl⟩

/-- `s'` has no other keys than `s`, and has sealed the frames `fs` with them. -/
def Advances (s s' : Endpoint S) (fs : List (Sealed S × Bool)) : Prop :=
  ∀ k', s'.keys = some k' → ∃ k, s.keys = some k ∧ k'.pair = k.pair ∧ k.sendSeq ≤ k'.sendSeq ∧
    ∀ g ∈ fs, g.1.ctr < k'.sendSeq

theorem Advances.trans {s'' : Endpoint S} {fs fs' : List (Sealed S × Bool)}
    (h : s.Advances s' fs) (h' : s'.Advances s'' fs') : s.Advances s'' (fs ++ fs') := by
  intro k'' hk''
  obtain ⟨k', hk', hpair', hle', hfs'⟩ := h' k'' hk''
  obtain ⟨k, hk, hpair, hle, hfs⟩ := h k' hk'
  refine ⟨k, hk, hpair'.trans hpair, Nat.le_trans hle hle', fun g hg => ?_⟩
  rcases List.mem_append.1 hg with hg | hg
  · exact Nat.lt_of_lt_of_le (hfs g hg) hle'
  · exact hfs' g hg

/-- Sealing nothing: the keys are the same, or there are none left. -/
theorem Advances.of_keys (h : ∀ k', s'.keys = some k' → ∃ k, s.keys = some k ∧ k'.pair = k.pair ∧
    k'.sendSeq = k.sendSeq) : s.Advances s' [] := by
  intro k' hk'
  obtain ⟨k, hk, hpair, hseq⟩ := h k' hk'
  exact ⟨k, hk, hpair, Nat.le_of_eq hseq.symm, nofun⟩

theorem Advances.of_opened {k k' : Keys S} {data : Bytes} {r : Except OpenErr Frame}
    (hk : s.keys = some k) (ho : k.Opened data k' r) (hk' : s'.keys = some k') :
    s.Advances s' [] := by
  refine .of_keys fun k₁ h₁ => ?_
  obtain rfl : k₁ = k' := Option.some.inj (h₁.symm.trans hk')
  exact ⟨k, hk, ho.pair, ho.keys.2.2⟩

theorem Sends.advances {fs : List (Sealed S × Bool)} {ok : Bool} (h : s.Sends typ pt s' fs ok) :
    s.Advances s' fs := by
  cases h with
  | idle => exact .of_keys fun k hk => ⟨k, hk, rfl, rfl⟩
  | @sealed k f ok stats last hk _ hby =>
    intro k' hk'
    cases hk'
    refine ⟨k, hk, rfl, Nat.le_succ _, fun g hg => ?_⟩
    cases List.mem_singleton.1 hg
    rw [hby.ctr]
    exact Nat.lt_succ_self _

theorem encryptSend_spec {sh : Shaping} {t : Bool} {now : ℤ} {e : SendEnv}
    {fs : List (Sealed S × Bool)} {sent : Bool}
    (h : s.encryptSend sh t now e typ pt = .ok (s', fs, sent)) : s.Sends typ pt s' fs sent := by
  unfold encryptSend at h
  split at h
  next hk => cases h; exact .idle (.inl hk)
  next k hk =>
    by_cases hr : (s.rekeying && !isRekey typ) = true
    · rw [if_pos hr] at h
      cases h
      simp only [Bool.and_eq_true, Bool.not_eq_true'] at hr
      exact .idle (.inr hr)
    · rw [if_neg hr] at h
      obtain ⟨⟨k', f⟩, hs, h⟩ := Go.bind_eq_ok.1 h
      obtain ⟨rfl, hf⟩ := Keys.seal_spec hs
      simp only [Bool.and_eq_true, Bool.not_eq_true', not_and, Bool.not_eq_false] at hr
      dsimp only at h
      split_ifs at h
      · cases h; exact .sealed hk hr hf (Stats.rekeys_sent ..)
      · cases h; exact .sealed hk hr hf (Stats.rekeys_sent ..)
      · cases h; exact .sealed hk hr hf rfl

/-- Unless it is blocked, `encryptSend` reports what the transport says. -/
theorem encryptSend_sent {sh : Shaping} {t : Bool} {now : ℤ} {e : SendEnv}
    {fs : List (Sealed S × Bool)} {sent : Bool}
    (h : s.encryptSend sh t now e typ pt = .ok (s', fs, sent)) (hb : ¬ s.Blocked typ) :
    sent = e.ok := by
  unfold Blocked at hb
  unfold encryptSend at h
  split at h
  next hk => exact absurd (.inl hk) hb
  next k hk =>
    rw [if_neg (by simpa [hk] using hb)] at h
    obtain ⟨_, -, h⟩ := Go.bind_eq_ok.1 h
    dsimp only at h
    split_ifs at h with ht hok
    · cases h; exact hok.symm
    · cases h; exact hok.symm
    · cases h; exact (Bool.eq_false_iff.2 hok).symm

/-- Unless it is blocked, `encryptSend` hands the frame it has sealed to the transport. -/
theorem encryptSend_of_seal {sh : Shaping} {now : ℤ} {e : SendEnv} {k k' : Keys S} {f : Sealed S}
    (hk : s.keys = some k) (hb : ¬ s.Blocked typ)
    (hs : k.seal e.draw s.tag typ pt (sh.paddingOf e.draw pt.length) = .ok (k', f)) :
    ∃ s', s.encryptSend sh true now e typ pt = .ok (s', [(f, e.ok)], e.ok) := by
  unfold Blocked at hb
  simp only [encryptSend, hk, hs, Go.ok_bind]
  rw [if_neg (by simpa [hk] using hb)]
  cases e.ok with
  | false => exact ⟨_, rfl⟩
  | true => exact ⟨_, rfl⟩

/-- **When `encryptSend` does not panic**: nothing is sealed, or the padded frame fits. -/
theorem encryptSend_ok_iff (hlen : ∀ k n p, (S.aeadSeal k n p).length = p.length + 16)
    (sh : Shaping) (now : ℤ) (e : SendEnv) (s : Endpoint S) (typ : UInt8) (pt : Bytes) :
    (∃ r, s.encryptSend sh true now e typ pt = .ok r) ↔
      s.Blocked typ ∨ nonceLen + (innerHeaderLen + pt.length + (sh.paddingOf e.draw
        pt.length).length) + tagLen ≤ maxWire := by
  unfold encryptSend Blocked
  cases hk : s.keys with
  | none => simp
  | some k =>
    dsimp only
    by_cases hr : (s.rekeying && !isRekey typ) = true
    · rw [if_pos hr]
      simp only [Bool.and_eq_true, Bool.not_eq_true'] at hr
      simp [hr]
    · rw [if_neg hr]
      simp only [Bool.and_eq_true, Bool.not_eq_true'] at hr
      have hfit := Keys.seal_ok_iff hlen k e.draw s.tag typ pt (sh.paddingOf e.draw pt.length)
      simp only [reduceCtorEq, false_or, hr]
      rw [← hfit]
      constructor
      · rintro ⟨r, h⟩
        obtain ⟨q, hq, -⟩ := Go.bind_eq_ok.1 h
        exact ⟨q, hq⟩
      · rintro ⟨⟨k', f⟩, hq⟩
        rw [hq, Go.ok_bind]
        cases e.ok
        · exact ⟨_, rfl⟩
        · exact ⟨_, rfl⟩

/-- A frame that does not fit makes `Seal` slice beyond its buffer. -/
theorem encryptSend_panics {sh : Shaping} {t : Bool} {now : ℤ} {e : SendEnv} {k : Keys S}
    (hk : s.keys = some k) (hr : s.rekeying = false)
    (h : maxWire < nonceLen + (innerHeaderLen + pt.length + (sh.paddingOf e.draw
      pt.length).length) + tagLen) :
    s.encryptSend sh t now e typ pt = .error .sliceBounds := by
  have hs : k.seal e.draw s.tag typ pt (sh.paddingOf e.draw pt.length) = .error .sliceBounds := by
    unfold Keys.seal
    split
    next p hp => rw [sealFrame_panics h] at hp; cases hp; rfl
    next w hw => rw [sealFrame_panics h] at hw; cases hw
  simp only [encryptSend, hk, hr, Bool.false_and, Bool.false_eq_true, if_false, hs]
  rfl

end Endpoint

end VibeVpn

import VibeVpn.Framing.Frame
import VibeVpn.Framing.Shaping
import VibeVpn.Protocol.Window

/-!
# Session keys

`Keys` of `internal/session/session.go`: the AEAD state of the two directions, the send counter
and the replay window.  `Keys.seal` truncates the 64-bit counter to the 32-bit wire sequence
number; `Keys.open` authenticates, parses, and only then consults the replay window.

A sealed frame is a `Sealed`: its wire image together with what it was sealed from, and the proof
that `Seal` built it.

* `Keys.seal_spec` : what one call of `seal` does;
* `Keys.open_ok` : `open` never panics; `Opened` lists the ways it ends;
* `Sealed.authenticate_wire`, `Sealed.key_of_authenticate` : a sealed frame authenticates under its
  own key, as what was sealed, and under no other.
-/

namespace VibeVpn

/-- `Keys`.  The reusable receive buffer is left out: no result depends on its contents.  The send
counter is a `uint64` that no run exhausts. -/
structure Keys (S : Suite) where
  /-- The key of `sendAEAD`. -/
  sendKey : S.Key
  /-- The key of `recvAEAD`. -/
  recvKey : S.Key
  /-- `sendSeq`. -/
  sendSeq : ℕ
  /-- `replay`. -/
  replay : ReplayWindow

/-- `replayWindowSize`. -/
def replayWindowSize : ℕ := 2048

/-- `newKeys(isClient, c2s, s2c)`. -/
def newKeys (S : Suite) (isClient : Bool) (ks : S.Key × S.Key) : Keys S where
  sendKey := if isClient then ks.1 else ks.2
  recvKey := if isClient then ks.2 else ks.1
  sendSeq := 0
  replay := .new replayWindowSize

/-- The two keys, the send key first. -/
def Keys.pair {S : Suite} (k : Keys S) : S.Key × S.Key := (k.sendKey, k.recvKey)

@[simp] theorem pair_newKeys_true (S : Suite) (ks : S.Key × S.Key) :
    (newKeys S true ks).pair = ks := rfl

/-- A frame built by `Seal`. -/
structure Sealed (S : Suite) where
  /-- The key it was sealed with. -/
  key : S.Key
  /-- Its nonce. -/
  nonce : Bytes
  /-- Its session tag. -/
  tag : Byte4
  /-- Its type. -/
  typ : UInt8
  /-- The send counter when it was sealed. -/
  ctr : ℕ
  /-- Its payload. -/
  payload : Bytes
  /-- Its padding. -/
  padding : Bytes
  /-- Its bytes on the wire. -/
  wire : Bytes
  nonce_len : nonce.length = nonceLen
  wire_eq : sealFrame S key nonce tag typ (ctr % 2 ^ 32) payload padding = .ok wire

namespace Sealed

variable {S : Suite}

/-- The sequence number on the wire, `uint32(k.sendSeq)`. -/
def seq (f : Sealed S) : ℕ := f.ctr % 2 ^ 32

/-- The frame the receiver parses. -/
def frame (f : Sealed S) : Frame :=
  { tag := f.tag, typ := f.typ, seq := f.seq, payload := f.payload }

theorem seq_le_ctr (f : Sealed S) : f.seq ≤ f.ctr := Nat.mod_le _ _

theorem payload_lt (f : Sealed S) : f.payload.length < 2 ^ 16 := by
  have h := (sealFrame_eq_ok f.wire_eq).2
  unfold maxWire at h
  omega

/-- The size of a frame: its overhead, its payload and its padding. -/
theorem length_wire (hS : S.AeadLaws) (f : Sealed S) :
    f.wire.length = nonceLen + (innerHeaderLen + f.payload.length + f.padding.length) + tagLen := by
  obtain ⟨hw, -⟩ := sealFrame_eq_ok f.wire_eq
  rw [hw, List.length_append, f.nonce_len, hS.seal_length, length_innerOf]
  rfl

theorem openWire_wire (hS : S.AeadLaws) (f : Sealed S) :
    openWire S f.key f.wire =
      .ok (innerOf f.tag f.typ (f.ctr % 2 ^ 32) f.payload f.padding) :=
  openWire_sealFrame hS f.nonce_len f.wire_eq

theorem parse_inner (f : Sealed S) :
    parse (innerOf f.tag f.typ (f.ctr % 2 ^ 32) f.payload f.padding) = .ok f.frame := by
  rw [parse_innerOf _ _ _ _ _ f.payload_lt, Nat.mod_mod]
  rfl

/-- A frame authenticates under the key it was sealed with, as what was sealed. -/
theorem authenticate_wire (hS : S.AeadLaws) (f : Sealed S) :
    authenticate S f.key f.wire = some f.frame := by
  simp only [authenticate, f.openWire_wire hS, f.parse_inner]

/-- A frame authenticates under no other key. -/
theorem key_of_authenticate (hS : S.AeadLaws) (f : Sealed S) {k : S.Key} {g : Frame}
    (h : authenticate S k f.wire = some g) : k = f.key ∧ g = f.frame := by
  cases ho : openWire S k f.wire with
  | error e => simp [authenticate, ho] at h
  | ok inner =>
    obtain rfl := openWire_sealFrame_key hS f.nonce_len f.wire_eq ho
    rw [f.authenticate_wire hS] at h
    exact ⟨rfl, (Option.some.inj h).symm⟩

end Sealed

/-- The errors of `Keys.open`. -/
inductive OpenErr where
  /-- `ErrAuth`: "session: authentication failure". -/
  | auth
  /-- `framing.ErrShort`, passed on. -/
  | short
  /-- `ErrReplay`: "session: replay detected". -/
  | replay
  deriving DecidableEq, Repr

/-- How `Keys.open` passes on an error of the framing layer. -/
def OpenErr.ofFrame : FrameErr → OpenErr
  | .short => .short
  | .auth => .auth

namespace Keys

variable {S : Suite} {k k' : Keys S} {wire : Bytes}

/-- The keys after one more sequence number is consumed. -/
def advance (k : Keys S) : Keys S := { k with sendSeq := k.sendSeq + 1 }

/-- `seal`: consume a sequence number and seal a frame under it. -/
def «seal» (k : Keys S) (d : Draw) (tag : Byte4) (typ : UInt8) (payload padding : Bytes) :
    Go (Keys S × Sealed S) :=
  match h : sealFrame S k.sendKey d.nonce tag typ (k.sendSeq % 2 ^ 32) payload padding with
  | .error p => .error p
  | .ok wire => .ok
      (k.advance,
        { key := k.sendKey, nonce := d.nonce, tag, typ, ctr := k.sendSeq, payload, padding, wire,
          nonce_len := d.nonce_len, wire_eq := h })

/-- The end of `open`: enforce the replay window on an authentic frame. -/
def accept (k : Keys S) (f : Frame) : Go (Keys S × Except OpenErr Frame) := do
  if ← k.replay.check f.seq then
    let replay ← k.replay.add f.seq
    pure ({ k with replay }, .ok f)
  else pure (k, .error .replay)

/-- `open`: authenticate a frame and enforce the replay window. -/
def «open» (k : Keys S) (wire : Bytes) : Go (Keys S × Except OpenErr Frame) := do
  match ← openInto S k.recvKey wire with
  | .error e => pure (k, .error (.ofFrame e))
  | .ok inner =>
    match ← parseInner inner with
    | .error e => pure (k, .error (.ofFrame e))
    | .ok f => k.accept f

/-! ### Sealing -/

@[simp] theorem sendSeq_advance (k : Keys S) : k.advance.sendSeq = k.sendSeq + 1 := rfl

/-- `f` is the next frame of the keys `k`, with the given tag, type and payload. -/
structure SealedBy (k : Keys S) (tag : Byte4) (typ : UInt8) (payload : Bytes) (f : Sealed S) :
    Prop where
  key : f.key = k.sendKey
  tag : f.tag = tag
  typ : f.typ = typ
  ctr : f.ctr = k.sendSeq
  payload : f.payload = payload

/-- What `seal` does: the counter advances and the frame carries the arguments. -/
theorem seal_spec {d : Draw} {tag : Byte4} {typ : UInt8} {payload padding : Bytes}
    {f : Sealed S} (h : k.seal d tag typ payload padding = .ok (k', f)) :
    k' = k.advance ∧ k.SealedBy tag typ payload f := by
  unfold «seal» at h
  split at h
  · cases h
  · cases h
    exact ⟨rfl, rfl, rfl, rfl, rfl, rfl⟩

theorem padding_of_seal {d : Draw} {tag : Byte4} {typ : UInt8} {payload padding : Bytes}
    {f : Sealed S} (h : k.seal d tag typ payload padding = .ok (k', f)) : f.padding = padding := by
  unfold «seal» at h
  split at h
  · cases h
  · cases h
    rfl

/-- `seal` panics exactly when the frame does not fit `MaxWire`. -/
theorem seal_ok_iff (hlen : ∀ k n p, (S.aeadSeal k n p).length = p.length + 16) (k : Keys S)
    (d : Draw) (tag : Byte4) (typ : UInt8) (payload padding : Bytes) :
    (∃ r, k.seal d tag typ payload padding = .ok r) ↔
      nonceLen + (innerHeaderLen + payload.length + padding.length) + tagLen ≤ maxWire := by
  rw [← sealFrame_ok_iff hlen k.sendKey d.nonce tag typ (k.sendSeq % 2 ^ 32)]
  unfold «seal»
  split
  next e h => rw [h]; simp
  next w h => exact ⟨fun _ => ⟨w, h⟩, fun _ => ⟨_, rfl⟩⟩

/-! ### Opening -/

theorem open_eq (k : Keys S) (wire : Bytes) :
    k.open wire = match openWire S k.recvKey wire with
      | .error e => .ok (k, .error (.ofFrame e))
      | .ok inner => match parse inner with
        | .error e => .ok (k, .error (.ofFrame e))
        | .ok f => k.accept f := by
  rw [«open», openInto_eq, Go.ok_bind]
  cases openWire S k.recvKey wire with
  | error e => rfl
  | ok inner =>
    dsimp only
    rw [parseInner_eq, Go.ok_bind]
    cases parse inner <;> rfl

/-- An authentic frame is accepted as its number is by the window. -/
theorem accept_eq (k : Keys S) (f : Frame) : k.accept f = (k.replay.offer f.seq).map fun
    | (w, true) => ({ k with replay := w }, .ok f)
    | (_, false) => (k, .error .replay) := by
  rcases k.replay.offer_cases f.seq with ⟨hc, ho⟩ | ⟨w, hc, hadd, -, ho⟩
  · simp [accept, hc, ho, Except.map]
  · simp [accept, hc, hadd, ho, Except.map]

/-- How a call of `open` on `wire` ends: with the keys and the result given. -/
inductive Opened (k : Keys S) (wire : Bytes) : Keys S → Except OpenErr Frame → Prop where
  /-- The frame is too short, does not authenticate or does not parse. -/
  | rejected (e : OpenErr) : authenticate S k.recvKey wire = none → Opened k wire k (.error e)
  /-- The replay window refuses its sequence number. -/
  | replayed (f : Frame) : authenticate S k.recvKey wire = some f →
      k.replay.check f.seq = .ok false → Opened k wire k (.error .replay)
  /-- It is accepted and recorded. -/
  | accepted (f : Frame) (w : ReplayWindow) : authenticate S k.recvKey wire = some f →
      k.replay.check f.seq = .ok true → k.replay.add f.seq = .ok w →
      w.size = k.replay.size → Opened k wire { k with replay := w } (.ok f)

/-- **`open` never panics**, and ends in one of the ways `Opened` lists. -/
theorem open_ok (k : Keys S) (wire : Bytes) :
    ∃ k' r, k.open wire = .ok (k', r) ∧ Opened k wire k' r := by
  rw [open_eq]
  cases ho : openWire S k.recvKey wire with
  | error e => exact ⟨k, _, rfl, .rejected _ (by simp [authenticate, ho])⟩
  | ok inner =>
    cases hp : parse inner with
    | error e =>
      exact ⟨k, .error (.ofFrame e), by simp [hp], .rejected _ (by simp [authenticate, ho, hp])⟩
    | ok f =>
      have ha : authenticate S k.recvKey wire = some f := by simp [authenticate, ho, hp]
      rcases k.replay.offer_cases f.seq with ⟨hc, hoffer⟩ | ⟨w, hc, hw, hsize, hoffer⟩
      · exact ⟨k, _, by simp [hp, accept_eq, hoffer, Except.map], .replayed f ha hc⟩
      · exact ⟨_, _, by simp [hp, accept_eq, hoffer, Except.map], .accepted f w ha hc hw hsize⟩

theorem open_spec {r : Except OpenErr Frame} (h : k.open wire = .ok (k', r)) :
    Opened k wire k' r := by
  obtain ⟨k₁, r₁, h₁, ho⟩ := k.open_ok wire
  rw [h₁] at h
  cases h
  exact ho

/-- Opening changes at most the replay window. -/
theorem Opened.keys {r : Except OpenErr Frame} (h : Opened k wire k' r) :
    k'.sendKey = k.sendKey ∧ k'.recvKey = k.recvKey ∧ k'.sendSeq = k.sendSeq := by
  cases h <;> exact ⟨rfl, rfl, rfl⟩

theorem Opened.authenticate {f : Frame} (h : Opened k wire k' (.ok f)) :
    VibeVpn.authenticate S k.recvKey wire = some f := by
  cases h with
  | accepted _ _ ha => exact ha

theorem Opened.pair {r : Except OpenErr Frame} (h : Opened k wire k' r) : k'.pair = k.pair := by
  cases h <;> rfl

/-- The replay window has seen only numbers below `n`. -/
def Below (k : Keys S) (n : ℕ) : Prop := k.replay.high = noHigh ∨ k.replay.high < n

theorem Below.mono {m n : ℕ} (h : k.Below m) (hmn : m ≤ n) : k.Below n :=
  h.imp_right fun h => Nat.lt_of_lt_of_le h hmn

theorem Opened.below {r : Except OpenErr Frame} {n : ℕ} (h : Opened k wire k' r) (hk : k.Below n)
    (hr : ∀ f, r = .ok f → f.seq < n) : k'.Below n := by
  cases h with
  | rejected => exact hk
  | replayed => exact hk
  | accepted f w _ _ hadd =>
    right
    have hseq := hr f rfl
    have hhigh := ReplayWindow.add_high hadd
    rcases hk with hk | hk
    · rw [if_pos hk] at hhigh
      exact hhigh ▸ hseq
    · split_ifs at hhigh
      · exact hhigh ▸ hseq
      · exact hhigh ▸ Nat.max_lt.2 ⟨hk, hseq⟩

/-- A frame whose number is above all that the window has seen is accepted. -/
theorem Opened.of_below {r : Except OpenErr Frame} {f : Frame} (h : Opened k wire k' r)
    (ha : VibeVpn.authenticate S k.recvKey wire = some f) (hk : k.Below f.seq) : r = .ok f := by
  have hcheck : k.replay.check f.seq = .ok true := by
    rw [ReplayWindow.check_eq, decide_eq_true]
    exact hk.imp_right .inl
  cases h with
  | rejected _ hn => rw [hn] at ha; cases ha
  | replayed g hg hc =>
    rw [hg] at ha
    cases ha
    rw [hcheck] at hc
    cases hc
  | accepted g _ hg =>
    rw [hg] at ha
    cases ha
    rfl

end Keys

end VibeVpn

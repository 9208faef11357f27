import VibeVpn.Go.Basic

/-!
# The cryptography as a parameter

The session layer calls three things it does not implement: an AEAD (`chacha20poly1305`), the
Noise XK handshake (`flynn/noise`, wrapped by `internal/crypto/handshake.go`) and a random number
generator.  A `Suite` holds the first two as plain functions; what they draw at random is an
argument, so that a run is determined by its inputs.

What the code relies on is stated separately, and every result names what it uses:

* `Suite.AeadLaws` : opening inverts sealing, sealing adds 16 bytes, and a ciphertext opens only
  under the key it was sealed with;
* `Suite.XKLaws` : the three messages of an XK handshake bind its transcript: a responder that
  completes on an initiator's third message has derived the initiator's keys and authenticated
  its static key, and completes whenever the messages are those of one handshake;
* `Suite.XKProgress` : an honest handshake does not get stuck.  `XKLaws` says what the messages
  bind, and nothing about when one is read; results about what the ends do reach need this other
  half.

A keypair whose halves do not belong together completes no handshake, so the laws that promise one
speak only about the keypairs that `KeypairFromPrivate` builds (`Suite.Built`), as both commands do
for their configuration.
-/

namespace VibeVpn

/-- `crypto.Keypair`, an X25519 keypair. -/
structure Keypair where
  /-- `Private`. -/
  priv : Bytes
  /-- `Public`. -/
  pub : Bytes
  deriving DecidableEq

/-- What one `Read` or `Write` of a handshake returns besides an error: the handshake afterwards,
the message or payload, and, on the last message, the keys client to server and server to
client. -/
structure HsStep (HS Key : Type) where
  /-- The handshake state afterwards. -/
  hs : HS
  /-- The message written, or the payload read. -/
  out : Bytes
  /-- `(c2s, s2c)` when the handshake is complete. -/
  keys : Option (Key × Key)

/-- The cryptographic functions the session layer calls. -/
structure Suite where
  /-- AEAD keys, as `CipherState.UnsafeKey` hands them to `chacha20poly1305.New`. -/
  Key : Type
  /-- `*crypto.Handshake`. -/
  HS : Type
  /-- What `Write` draws from the random number generator. -/
  Seed : Type
  /-- `aead.Seal(nil, nonce, plaintext, nil)`. -/
  aeadSeal : Key → Bytes → Bytes → Bytes
  /-- `aead.Open(nil, nonce, ciphertext, nil)`, `none` when authentication fails. -/
  aeadOpen : Key → Bytes → Bytes → Option Bytes
  /-- `KeypairFromPrivate(priv)`. -/
  keypairFromPrivate : Bytes → Option Keypair
  /-- `NewClientHandshake(kp, serverPublic)`. -/
  newClientHandshake : Keypair → Bytes → Option HS
  /-- `NewServerHandshake(kp)`. -/
  newServerHandshake : Keypair → Option HS
  /-- `Write(payload)`. -/
  write : HS → Seed → Bytes → Option (HsStep HS Key)
  /-- `Read(msg)`, `none` on an error.  That the handshake is then as it was before is an assumption
  on the library, which does not roll back on every error; it matters to a client that gets a
  cookie in the place of an answer. -/
  read : HS → Bytes → Option (HsStep HS Key)
  /-- `PeerStatic()`. -/
  peerStatic : HS → Bytes

namespace Suite

variable (S : Suite)

/-- The ideal AEAD. -/
structure AeadLaws : Prop where
  open_seal : ∀ k n p, S.aeadOpen k n (S.aeadSeal k n p) = some p
  seal_length : ∀ k n p, (S.aeadSeal k n p).length = p.length + 16
  open_length : ∀ k n c p, S.aeadOpen k n c = some p → c.length = p.length + 16
  same_key : ∀ k k' n p q, S.aeadOpen k n (S.aeadSeal k' n p) = some q → k = k'

/-- The keypair is one that `KeypairFromPrivate` builds: its halves belong together. -/
def Built (kp : Keypair) : Prop := ∃ priv, S.keypairFromPrivate priv = some kp

/-! ### Handshakes by the messages they have exchanged -/

/-- `i` is a handshake of the client `kp` towards `pub` that has written `m₁`. -/
def Sent1 (kp : Keypair) (pub m₁ : Bytes) (i : S.HS) : Prop :=
  ∃ i₀ e p st, S.newClientHandshake kp pub = some i₀ ∧ S.write i₀ e p = some st ∧
    st.hs = i ∧ st.out = m₁

/-- `i` is a handshake of the client `kp` that has written `m₁` and then read `m₂`. -/
def Got2 (kp : Keypair) (pub m₁ m₂ : Bytes) (i : S.HS) : Prop :=
  ∃ i₁ st, S.Sent1 kp pub m₁ i₁ ∧ S.read i₁ m₂ = some st ∧ st.hs = i

/-- The client `kp` completes the handshake `m₁, m₂` with its third message `m₃`, deriving the
keys `ks`. -/
def Sent3 (kp : Keypair) (pub m₁ m₂ m₃ : Bytes) (ks : S.Key × S.Key) : Prop :=
  ∃ i e p st, S.Got2 kp pub m₁ m₂ i ∧ S.write i e p = some st ∧ st.out = m₃ ∧
    st.keys = some ks

/-- `r` is a handshake of the server `kp` that has read `m₁` and answered `m₂`, with an empty
payload. -/
def Answered (kp : Keypair) (m₁ m₂ : Bytes) (r : S.HS) : Prop :=
  ∃ r₀ e st₁ st₂, S.newServerHandshake kp = some r₀ ∧ S.read r₀ m₁ = some st₁ ∧
    S.write st₁.hs e [] = some st₂ ∧ st₂.hs = r ∧ st₂.out = m₂

/-- The ideal Noise XK handshake. -/
structure XKLaws : Prop where
  /-- A responder that completes on an initiator's third message derives the same keys and
  learns the initiator's static key. -/
  agree : ∀ {kc ks : Keypair} {pub m₁ m₂ m₃ m₁' m₂' : Bytes} {r : S.HS}
    {k k' : S.Key × S.Key} {st : HsStep S.HS S.Key},
    S.Sent3 kc pub m₁ m₂ m₃ k → S.Answered ks m₁' m₂' r → S.read r m₃ = some st →
    st.keys = some k' → k' = k ∧ S.peerStatic st.hs = kc.pub
  /-- The messages of one handshake complete it. -/
  complete : ∀ {kc ks : Keypair} {m₁ m₂ m₃ : Bytes} {r : S.HS} {k : S.Key × S.Key},
    S.Built kc → S.Built ks → S.Sent3 kc ks.pub m₁ m₂ m₃ k → S.Answered ks m₁ m₂ r →
    ∃ st, S.read r m₃ = some st ∧ st.keys = some k
  /-- The payload of a first message is the one its sender wrote. -/
  first_payload : ∀ {kc ks : Keypair} {pub p : Bytes} {e : S.Seed} {i₀ r₀ : S.HS}
    {st st' : HsStep S.HS S.Key},
    S.newClientHandshake kc pub = some i₀ → S.write i₀ e p = some st →
    S.newServerHandshake ks = some r₀ → S.read r₀ st.out = some st' → st'.out = p
  /-- A second message with an empty payload is an ephemeral key and an AEAD tag. -/
  second_length : ∀ {ks : Keypair} {m₁ m₂ : Bytes} {r : S.HS},
    S.Answered ks m₁ m₂ r → m₂.length = 48
  /-- Writing the third message completes the handshake. -/
  third_complete : ∀ {kc : Keypair} {pub m₁ m₂ p : Bytes} {i : S.HS} {e : S.Seed}
    {st : HsStep S.HS S.Key}, S.Got2 kc pub m₁ m₂ i → S.write i e p = some st → st.keys.isSome
  /-- Reading the third message completes the handshake. -/
  third_keys : ∀ {ks : Keypair} {m₁ m₂ m : Bytes} {r : S.HS} {st : HsStep S.HS S.Key},
    S.Answered ks m₁ m₂ r → S.read r m = some st → st.keys.isSome
  /-- A first message does not authenticate as a third one, with or without a cookie. -/
  first_not_third : ∀ {kc ks : Keypair} {pub m₁ m₁' m₂' cookie : Bytes} {i r : S.HS},
    S.Sent1 kc pub m₁ i → S.Answered ks m₁' m₂' r → S.read r (m₁ ++ cookie) = none
  /-- After reading a message it is the reader's turn to write. -/
  read_turn : ∀ {h : S.HS} {m m' : Bytes} {st : HsStep S.HS S.Key},
    S.read h m = some st → S.read st.hs m' = none
  /-- A completed handshake reads nothing more. -/
  read_done : ∀ {h : S.HS} {e : S.Seed} {p m : Bytes} {st : HsStep S.HS S.Key},
    S.write h e p = some st → st.keys.isSome → S.read st.hs m = none

/-- An honest handshake does not get stuck. -/
structure XKProgress : Prop where
  /-- A server reads a first message that was written for it, and can answer. -/
  answers : ∀ {kc ks : Keypair} {m₁ : Bytes} {i : S.HS} (e : S.Seed), S.Built kc → S.Built ks →
    S.Sent1 kc ks.pub m₁ i → ∃ r st₁ st₂, S.newServerHandshake ks = some r ∧
      S.read r m₁ = some st₁ ∧ S.write st₁.hs e [] = some st₂
  /-- The client reads the answer, and can write the third message. -/
  continues : ∀ {kc ks : Keypair} {m₁ m₂ : Bytes} {i r : S.HS} (e : S.Seed),
    S.Built kc → S.Built ks → S.Sent1 kc ks.pub m₁ i → S.Answered ks m₁ m₂ r →
    ∃ st₂ st₃, S.read i m₂ = some st₂ ∧ S.write st₂.hs e [] = some st₃

/-- A handshake that has written its first message reads some second message. -/
theorem XKProgress.reads {S : Suite} (hT : S.XKProgress) {kc ks : Keypair} {m₁ : Bytes} {i : S.HS}
    (e : S.Seed) (hc : S.Built kc) (hs : S.Built ks) (h : S.Sent1 kc ks.pub m₁ i) :
    ∃ m, (S.read i m).isSome := by
  obtain ⟨r, st₁, st₂, hr, h₁, h₂⟩ := hT.answers e hc hs h
  obtain ⟨st, _, hread, -⟩ := hT.continues e hc hs h ⟨r, e, st₁, st₂, hr, h₁, h₂, rfl, rfl⟩
  exact ⟨st₂.out, by rw [hread]; rfl⟩

end Suite

end VibeVpn

import VibeVpn.Crypto.Suite

/-!
# A suite that satisfies the laws

`plain` has no secrecy at all: its ciphertexts carry the plaintext and the key, its handshake
messages the keys they agree on.  But it satisfies `Suite.AeadLaws`, `Suite.XKLaws` and
`Suite.XKProgress`, so these are consistent, and it is executable, so that a run of the session
layer can be evaluated on it.
The messages have the sizes and the turns of XK, and carry what they bind: the second message
names the first one, the third one names both.
-/

namespace VibeVpn

namespace Plain

/-- The states of a handshake: those of the client, then those of the server. -/
inductive HS where
  /-- A client that has written nothing. -/
  | start (kp : Keypair)
  /-- A client that has written the first message, numbered `a`. -/
  | sent1 (kp : Keypair) (a : UInt8)
  /-- A client that has read the second message, numbered `b`. -/
  | got2 (kp : Keypair) (a b : UInt8)
  /-- A server that has read nothing. -/
  | listen
  /-- A server that has read the first message. -/
  | got1 (a : UInt8)
  /-- A server that has answered with the second message. -/
  | answered (a b : UInt8)
  /-- A handshake that is complete, and the peer's static key on the server. -/
  | done (peer : Bytes)
  deriving DecidableEq

/-- The AEAD tag. -/
def trailer (k : UInt8) : Bytes := 1 :: List.replicate 15 k

/-- Opening: strip the tag of the key. -/
def aeadOpen (k : UInt8) (c : Bytes) : Option Bytes :=
  if c.drop (c.length - 16) = trailer k then some (c.take (c.length - 16)) else none

/-- A handshake message with its payload: `head` padded to 32 bytes, the payload, 16 bytes. -/
def message (head payload : Bytes) : Bytes :=
  head ++ List.replicate (32 - head.length) 0 ++ (payload ++ List.replicate 16 0)

/-- The payload of a handshake message. -/
def payloadOf (m : Bytes) : Bytes := (m.drop 32).take (m.length - 48)

/-- The keys a client that draws `e` for its third message derives. -/
def keysOf (e : UInt8) : UInt8 × UInt8 := (e, e + 128)

/-- Write the next message. -/
def write : HS → UInt8 → Bytes → Option (HsStep HS UInt8)
  | .start kp, e, p => some ⟨.sent1 kp e, message [1, e] p, none⟩
  | .got2 kp a b, e, _ => some ⟨.done [], 3 :: a :: b :: e :: kp.pub, some (keysOf e)⟩
  | .got1 a, e, p => some ⟨.answered a e, message [2, a, e] p, none⟩
  | _, _, _ => none

/-- The client `kp`, which wrote the first message `a`, reads the second one. -/
def readSecond (kp : Keypair) (a : UInt8) : Bytes → Option (HsStep HS UInt8)
  | 2 :: a' :: b :: rest =>
    if a' = a then some ⟨.got2 kp a b, payloadOf (2 :: a' :: b :: rest), none⟩ else none
  | _ => none

/-- The server reads a first message. -/
def readFirst : Bytes → Option (HsStep HS UInt8)
  | 1 :: a :: rest => some ⟨.got1 a, payloadOf (1 :: a :: rest), none⟩
  | _ => none

/-- The server, which answered `a` by `b`, reads the third message. -/
def readThird (a b : UInt8) : Bytes → Option (HsStep HS UInt8)
  | 3 :: a' :: b' :: e :: pub =>
    if a' = a ∧ b' = b then some ⟨.done pub, [], some (keysOf e)⟩ else none
  | _ => none

/-- Read the peer's message. -/
def read : HS → Bytes → Option (HsStep HS UInt8)
  | .sent1 kp a, m => readSecond kp a m
  | .listen, m => readFirst m
  | .answered a b, m => readThird a b m
  | _, _ => none

/-- The peer's static key. -/
def peerStatic : HS → Bytes
  | .done peer => peer
  | _ => []

end Plain

open Plain in
/-- The plain suite. -/
@[reducible] def plain : Suite where
  Key := UInt8
  HS := HS
  Seed := UInt8
  aeadSeal k _ p := p ++ trailer k
  aeadOpen k _ c := aeadOpen k c
  keypairFromPrivate priv := some ⟨priv, priv.map (· + 1)⟩
  newClientHandshake kp _ := some (.start kp)
  newServerHandshake _ := some .listen
  write := write
  read := read
  peerStatic := peerStatic

namespace Plain

/-! ### The AEAD -/

theorem length_trailer (k : UInt8) : (trailer k).length = 16 := by simp [trailer]

theorem trailer_inj {k k' : UInt8} (h : trailer k = trailer k') : k = k' := by
  have := congrArg (fun b : Bytes => b[1]?) h
  simpa [trailer] using this

theorem aeadOpen_append (k k' : UInt8) (p : Bytes) :
    aeadOpen k (p ++ trailer k') = if trailer k' = trailer k then some p else none := by
  have hl : (p ++ trailer k').length - 16 = p.length := by
    rw [List.length_append, length_trailer, Nat.add_sub_cancel]
  unfold aeadOpen
  rw [hl, List.drop_left, List.take_left]

theorem key_of_aeadOpen {k k' : UInt8} {p q : Bytes} (h : aeadOpen k (p ++ trailer k') = some q) :
    k = k' := by
  rw [aeadOpen_append] at h
  split_ifs at h with ht
  exact (trailer_inj ht).symm

theorem length_of_aeadOpen {k : UInt8} {c p : Bytes} (h : aeadOpen k c = some p) :
    c.length = p.length + 16 := by
  unfold aeadOpen at h
  split_ifs at h with ht
  have hlen := congrArg List.length ht
  rw [length_trailer, List.length_drop] at hlen
  cases h
  rw [List.length_take]
  omega

theorem aeadLaws : plain.AeadLaws where
  open_seal k _ p := (aeadOpen_append k k p).trans (if_pos rfl)
  seal_length k _ p := List.length_append.trans (congrArg (p.length + ·) (length_trailer k))
  open_length _ _ _ _ h := length_of_aeadOpen h
  same_key _ _ _ _ _ h := key_of_aeadOpen h

/-! ### What was exchanged -/

variable {kc ks kp : Keypair} {pub m m₁ m₂ m₃ : Bytes} {i r : HS} {k : UInt8 × UInt8}
  {a b : UInt8} {st : HsStep HS UInt8}

theorem length_message (head p : Bytes) (h : head.length ≤ 32) :
    (message head p).length = 48 + p.length := by
  simp only [message, List.length_append, List.length_replicate]
  omega

theorem payloadOf_message (head p : Bytes) (h : head.length ≤ 32) :
    payloadOf (message head p) = p := by
  have hd : 32 = (head ++ List.replicate (32 - head.length) (0 : UInt8)).length := by
    rw [List.length_append, List.length_replicate]; omega
  have hdrop : (message head p).drop 32 = p ++ List.replicate 16 0 := List.drop_left' hd.symm
  rw [payloadOf, length_message head p h, Nat.add_sub_cancel_left, hdrop, List.take_left]

theorem readSecond_eq_some (h : readSecond kp a m = some st) :
    ∃ b rest, m = 2 :: a :: b :: rest ∧ st.hs = .got2 kp a b := by
  unfold readSecond at h
  split at h
  · split_ifs at h with ha
    cases h
    exact ⟨_, _, by rw [ha], rfl⟩
  · cases h

theorem readFirst_eq_some (h : readFirst m = some st) :
    ∃ a rest, m = 1 :: a :: rest ∧ st.hs = .got1 a ∧ st.out = payloadOf m := by
  unfold readFirst at h
  split at h
  · cases h
    exact ⟨_, _, rfl, rfl, rfl⟩
  · cases h

theorem readThird_eq_some (h : readThird a b m = some st) :
    ∃ e pub, m = 3 :: a :: b :: e :: pub ∧ st = ⟨.done pub, [], some (keysOf e)⟩ := by
  unfold readThird at h
  split at h
  · split_ifs at h with hab
    cases h
    exact ⟨_, _, by rw [hab.1, hab.2], rfl⟩
  · cases h

theorem sent1 (h : plain.Sent1 kc pub m₁ i) :
    ∃ a p, i = .sent1 kc a ∧ m₁ = message [1, a] p := by
  obtain ⟨i₀, e, p, st, h0, h1, rfl, rfl⟩ := h
  cases h0
  cases h1
  exact ⟨e, p, rfl, rfl⟩

theorem sent3 (h : plain.Sent3 kc pub m₁ m₂ m₃ k) :
    ∃ a b e p rest, m₁ = message [1, a] p ∧ m₂ = 2 :: a :: b :: rest ∧
      m₃ = 3 :: a :: b :: e :: kc.pub ∧ k = keysOf e := by
  obtain ⟨i, e, p, st, ⟨i₁, st₁, h1, h2, rfl⟩, h3, rfl, hk⟩ := h
  obtain ⟨a, p', rfl, rfl⟩ := sent1 h1
  obtain ⟨b, rest, rfl, hgot⟩ := readSecond_eq_some h2
  rw [hgot] at h3
  cases h3
  cases hk
  exact ⟨a, b, e, p', rest, rfl, rfl, rfl, rfl⟩

theorem answered (h : plain.Answered ks m₁ m₂ r) :
    ∃ a b rest, m₁ = 1 :: a :: rest ∧ m₂ = message [2, a, b] [] ∧ r = .answered a b := by
  obtain ⟨r₀, e, st₁, st₂, h0, h1, h2, rfl, rfl⟩ := h
  cases h0
  obtain ⟨a, rest, rfl, hgot, -⟩ := readFirst_eq_some h1
  rw [hgot] at h2
  cases h2
  exact ⟨a, e, rest, rfl, rfl, rfl⟩

/-- A handshake that has read a message, or is complete, reads nothing. -/
theorem read_after_read {h : HS} {m' : Bytes} (hr : read h m = some st) : read st.hs m' = none := by
  cases h with
  | sent1 kp a => obtain ⟨b, rest, -, hst⟩ := readSecond_eq_some hr; rw [hst]; rfl
  | listen => obtain ⟨a, rest, -, hst, -⟩ := readFirst_eq_some hr; rw [hst]; rfl
  | answered a b => obtain ⟨e, pub, -, hst⟩ := readThird_eq_some hr; rw [hst]; rfl
  | _ => cases hr

theorem xkLaws : plain.XKLaws where
  agree h3 ha hr hk := by
    obtain ⟨a, b, e, p, rest, -, -, rfl, rfl⟩ := sent3 h3
    obtain ⟨a', b', rest', -, -, rfl⟩ := answered ha
    have hr' : readThird a' b' (3 :: a :: b :: e :: _) = some _ := hr
    obtain ⟨e', pub', hm, rfl⟩ := readThird_eq_some hr'
    cases hm
    cases hk
    exact ⟨rfl, rfl⟩
  complete _ _ h3 ha := by
    obtain ⟨a, b, e, p, rest, rfl, rfl, rfl, rfl⟩ := sent3 h3
    obtain ⟨a', b', rest', hm₁, hm₂, rfl⟩ := answered ha
    cases hm₁
    cases hm₂
    exact ⟨_, if_pos ⟨rfl, rfl⟩, rfl⟩
  first_payload h0 hw h1 hr := by
    cases h0
    cases hw
    cases h1
    have hr' : readFirst (message [1, _] _) = some _ := hr
    obtain ⟨a, rest, -, -, ho⟩ := readFirst_eq_some hr'
    exact ho.trans (payloadOf_message _ _ (by simp))
  second_length ha := by
    obtain ⟨a, b, rest, -, rfl, -⟩ := answered ha
    exact length_message _ _ (by simp)
  third_complete hg hw := by
    obtain ⟨i₁, st₁, h1, h2, rfl⟩ := hg
    obtain ⟨a, p', rfl, rfl⟩ := sent1 h1
    obtain ⟨b, rest, rfl, hgot⟩ := readSecond_eq_some h2
    rw [hgot] at hw
    cases hw
    rfl
  third_keys ha hr := by
    obtain ⟨a, b, rest, -, -, rfl⟩ := answered ha
    have hr' : readThird a b _ = some _ := hr
    obtain ⟨e, pub, -, rfl⟩ := readThird_eq_some hr'
    rfl
  first_not_third h1 ha := by
    obtain ⟨a, p, -, rfl⟩ := sent1 h1
    obtain ⟨a', b', rest', -, -, rfl⟩ := answered ha
    rfl
  read_turn hr := read_after_read hr
  read_done {h e p m st} hw hk := by
    cases h with
    | got2 kp a b => cases hw; rfl
    | start kp => cases hw; cases hk
    | got1 a => cases hw; cases hk
    | _ => cases hw

theorem xkProgress : plain.XKProgress where
  answers e _ _ h := by
    obtain ⟨a, p, -, rfl⟩ := sent1 h
    exact ⟨.listen, _, _, rfl, rfl, rfl⟩
  continues e _ _ h ha := by
    obtain ⟨a, p, rfl, rfl⟩ := sent1 h
    obtain ⟨a', b, rest, hm, rfl, -⟩ := answered ha
    cases hm
    exact ⟨_, _, if_pos rfl, rfl⟩

end Plain

end VibeVpn

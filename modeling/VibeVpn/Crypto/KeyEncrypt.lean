import VibeVpn.Crypto.Plain
import VibeVpn.Go.Base64

/-!
# Encrypted private keys

`EncryptKey` and `DecryptKey` of `internal/crypto/keyencrypt.go`.  A private key is stored as

    v1:<salt>:<nonce>:<ciphertext>

with the three parts in unpadded base64, sealed under a key that scrypt derives from a passphrase
and the salt.  scrypt is a parameter, a function of the passphrase and the salt: with the constants
of this file it has no error.  What `crypto/rand` draws is an argument, and it never fails.  A
string is a byte slice.

* `decryptKey_eq_ok` : **`DecryptKey` accepts exactly the strings of this form** whose parts
  decode to 16, 12 and at least 16 bytes and whose ciphertext opens to 32 bytes.  The split is
  unambiguous, since nothing that decodes contains a colon (`Base64.colon_notMem_of_decode`).
* `keyBlob_roundtrip` : a blob decrypts under its passphrase to the key it was made from, and under
  another one only if scrypt derives the same key from both.
-/

namespace VibeVpn

/-- `keySaltLen`. -/
def keySaltLen : ℕ := 16

/-- `keyNonceLen`. -/
def keyNonceLen : ℕ := 12

/-- `keyBlobPrefix`: "v1:". -/
def keyBlobPrefix : Bytes := [118, 49, 58]

/-- What `EncryptKey` draws at random. -/
structure KeyDraw where
  /-- The salt. -/
  salt : Bytes
  /-- The nonce. -/
  nonce : Bytes
  salt_len : salt.length = keySaltLen
  nonce_len : nonce.length = keyNonceLen

/-- The layout of a blob. -/
def keyBlob (salt nonce ct : Bytes) : Bytes :=
  keyBlobPrefix ++ salt ++ 58 :: nonce ++ 58 :: ct

section

variable (S : Suite) (scryptKey : Bytes → Bytes → S.Key)

/-- `EncryptKey(priv, passphrase)`, with the text of its error. -/
def encryptKey (d : KeyDraw) (priv passphrase : Bytes) : Except String Bytes :=
  if priv.length ≠ 32 then .error "crypto: private key must be 32 bytes"
  else if passphrase = [] then .error "crypto: passphrase must not be empty"
  else
    let key := scryptKey passphrase d.salt
    let ct := S.aeadSeal key d.nonce priv
    .ok (keyBlob (Base64.encode d.salt) (Base64.encode d.nonce) (Base64.encode ct))

/-- One part of a blob, of a length that `fits`. -/
def decodePart (part : Bytes) (fits : ℕ → Bool) (err : String) : Except String Bytes :=
  match Base64.decode part with
  | .error _ => .error err
  | .ok b => if fits b.length then .ok b else .error err

/-- The end of `DecryptKey`, on the three parts of a blob. -/
def decryptParts (p₀ p₁ p₂ passphrase : Bytes) : Except String Bytes := do
  let salt ← decodePart p₀ (· == keySaltLen) "crypto: malformed key salt"
  let nonce ← decodePart p₁ (· == keyNonceLen) "crypto: malformed key nonce"
  let ct ← decodePart p₂ (16 ≤ ·) "crypto: malformed key ciphertext"
  let key := scryptKey passphrase salt
  match S.aeadOpen key nonce ct with
  | none => .error ("crypto: wrong passphrase or corrupted key: " ++
      "chacha20poly1305: message authentication failed")
  | some priv => if priv.length ≠ 32 then .error "crypto: decrypted key is invalid" else .ok priv

/-- `DecryptKey(blob, passphrase)`, with the text of its error. -/
def decryptKey (blob passphrase : Bytes) : Except String Bytes :=
  if keyBlobPrefix.isPrefixOf blob then
    match (blob.drop keyBlobPrefix.length).splitOn 58 with
    | [p₀, p₁, p₂] => decryptParts S scryptKey p₀ p₁ p₂ passphrase
    | _ => .error "crypto: malformed encrypted key blob"
  else .error "crypto: not an encrypted key blob"

end

/-! ### What is accepted -/

variable {S : Suite} {scryptKey : Bytes → Bytes → S.Key} {blob passphrase priv : Bytes}

theorem decodePart_eq_ok {part b : Bytes} {fits : ℕ → Bool} {err : String} :
    decodePart part fits err = .ok b ↔ Base64.decode part = .ok b ∧ fits b.length = true := by
  unfold decodePart
  cases Base64.decode part with
  | error i => simp
  | ok b' =>
    by_cases hfit : fits b'.length = true
    · simp only [hfit, if_true, Except.ok.injEq]
      exact ⟨fun h => ⟨h, h ▸ hfit⟩, fun h => h.1⟩
    · dsimp only
      rw [if_neg hfit]
      constructor
      · intro h
        cases h
      · rintro ⟨h, hfits⟩
        cases h
        exact absurd hfits hfit

/-- The parts decode to a salt, a nonce and a ciphertext that opens to a private key. -/
def Opens (S : Suite) (scryptKey : Bytes → Bytes → S.Key) (p₀ p₁ p₂ passphrase priv : Bytes) :
    Prop :=
  ∃ salt nonce ct, Base64.decode p₀ = .ok salt ∧ salt.length = 16 ∧
    Base64.decode p₁ = .ok nonce ∧ nonce.length = 12 ∧
    Base64.decode p₂ = .ok ct ∧ 16 ≤ ct.length ∧
    S.aeadOpen (scryptKey passphrase salt) nonce ct = some priv ∧ priv.length = 32

theorem decryptParts_eq_ok {p₀ p₁ p₂ : Bytes} :
    decryptParts S scryptKey p₀ p₁ p₂ passphrase = .ok priv ↔
      Opens S scryptKey p₀ p₁ p₂ passphrase priv := by
  unfold decryptParts Opens
  constructor
  · intro h
    obtain ⟨salt, hsalt, h⟩ := Go.bind_eq_ok.1 h
    obtain ⟨nonce, hnonce, h⟩ := Go.bind_eq_ok.1 h
    obtain ⟨ct, hct, h⟩ := Go.bind_eq_ok.1 h
    obtain ⟨hsalt, hsaltLen⟩ := decodePart_eq_ok.1 hsalt
    obtain ⟨hnonce, hnonceLen⟩ := decodePart_eq_ok.1 hnonce
    obtain ⟨hct, hctLen⟩ := decodePart_eq_ok.1 hct
    refine ⟨salt, nonce, ct, hsalt, beq_iff_eq.1 hsaltLen, hnonce, beq_iff_eq.1 hnonceLen, hct,
      of_decide_eq_true hctLen, ?_⟩
    dsimp only at h
    split at h
    · cases h
    · next q hopen =>
      split_ifs at h with hlen
      cases h
      exact ⟨hopen, not_not.1 hlen⟩
  · rintro ⟨salt, nonce, ct, hsalt, hsaltLen, hnonce, hnonceLen, hct, hctLen, hopen, hlen⟩
    refine Go.bind_eq_ok.2 ⟨salt, decodePart_eq_ok.2 ⟨hsalt, beq_iff_eq.2 hsaltLen⟩, ?_⟩
    refine Go.bind_eq_ok.2 ⟨nonce, decodePart_eq_ok.2 ⟨hnonce, beq_iff_eq.2 hnonceLen⟩, ?_⟩
    refine Go.bind_eq_ok.2 ⟨ct, decodePart_eq_ok.2 ⟨hct, decide_eq_true hctLen⟩, ?_⟩
    simp only [hopen, hlen, ne_eq, not_true_eq_false, if_false]

theorem keyBlob_eq (p₀ p₁ p₂ : Bytes) :
    keyBlob p₀ p₁ p₂ = keyBlobPrefix ++ [58].intercalate [p₀, p₁, p₂] := by
  simp [keyBlob]

/-- A blob is split where it was joined. -/
theorem decryptKey_keyBlob {p₀ p₁ p₂ : Bytes} (h₀ : 58 ∉ p₀) (h₁ : 58 ∉ p₁) (h₂ : 58 ∉ p₂) :
    decryptKey S scryptKey (keyBlob p₀ p₁ p₂) passphrase =
      decryptParts S scryptKey p₀ p₁ p₂ passphrase := by
  have hsplit : ([58].intercalate [p₀, p₁, p₂]).splitOn 58 = [p₀, p₁, p₂] := by
    refine List.splitOn_intercalate 58 ?_ (List.cons_ne_nil _ _)
    simpa using ⟨h₀, h₁, h₂⟩
  rw [keyBlob_eq, decryptKey, if_pos (List.isPrefixOf_iff_prefix.2 (List.prefix_append _ _)),
    List.drop_left, hsplit]

/-- **`DecryptKey` accepts exactly the strings of the form that `EncryptKey` produces**, up to the
spelling of their parts. -/
theorem decryptKey_eq_ok : decryptKey S scryptKey blob passphrase = .ok priv ↔
    ∃ p₀ p₁ p₂, blob = keyBlob p₀ p₁ p₂ ∧ Opens S scryptKey p₀ p₁ p₂ passphrase priv := by
  constructor
  · intro h
    unfold decryptKey at h
    split_ifs at h with hpre
    obtain ⟨rest, rfl⟩ := List.isPrefixOf_iff_prefix.1 hpre
    rw [List.drop_left] at h
    split at h
    · next p₀ p₁ p₂ hsplit =>
      refine ⟨p₀, p₁, p₂, ?_, decryptParts_eq_ok.1 h⟩
      rw [keyBlob_eq, ← hsplit, List.intercalate_splitOn]
    · cases h
  · rintro ⟨p₀, p₁, p₂, rfl, hopens⟩
    -- the parts decode, so that the colons between them are the only ones
    obtain ⟨_, _, _, h₀, -, h₁, -, h₂, -⟩ := id hopens
    rw [decryptKey_keyBlob (Base64.colon_notMem_of_decode h₀) (Base64.colon_notMem_of_decode h₁)
      (Base64.colon_notMem_of_decode h₂)]
    exact decryptParts_eq_ok.2 hopens

/-! ### The round trip -/

/-- What `EncryptKey` produces. -/
theorem encryptKey_eq (d : KeyDraw) (hlen : priv.length = 32) (hpass : passphrase ≠ []) :
    encryptKey S scryptKey d priv passphrase = .ok (keyBlob (Base64.encode d.salt)
      (Base64.encode d.nonce)
      (Base64.encode (S.aeadSeal (scryptKey passphrase d.salt) d.nonce priv))) := by
  rw [encryptKey, if_neg (not_not.2 hlen), if_neg hpass]

/-- A blob decrypts exactly under the passphrases from which scrypt derives its key. -/
theorem decryptKey_encode (hS : S.AeadLaws) (d : KeyDraw) (hlen : priv.length = 32) (key : S.Key)
    {q : Bytes} :
    decryptKey S scryptKey (keyBlob (Base64.encode d.salt) (Base64.encode d.nonce)
      (Base64.encode (S.aeadSeal key d.nonce priv))) passphrase = .ok q ↔
      scryptKey passphrase d.salt = key ∧ q = priv := by
  have hcolon : ∀ b, 58 ∉ Base64.encode b := fun b =>
    Base64.colon_notMem_of_decode (Base64.decode_encode b)
  rw [decryptKey_keyBlob (hcolon _) (hcolon _) (hcolon _), decryptParts_eq_ok]
  constructor
  · rintro ⟨salt, nonce, ct, hsalt, -, hnonce, -, hct, -, hopen, -⟩
    rw [Base64.decode_encode, Except.ok.injEq] at hsalt hnonce hct
    subst hsalt hnonce hct
    obtain rfl := hS.same_key _ _ _ _ _ hopen
    rw [hS.open_seal, Option.some.injEq] at hopen
    exact ⟨rfl, hopen.symm⟩
  · rintro ⟨rfl, rfl⟩
    refine ⟨d.salt, d.nonce, _, Base64.decode_encode _, d.salt_len, Base64.decode_encode _,
      d.nonce_len, Base64.decode_encode _, ?_, hS.open_seal _ _ _, hlen⟩
    rw [hS.seal_length]
    omega

/-- **Encrypted keys round trip and bind the passphrase.**  A blob opens under the passphrase it was
made with, and under another one only if scrypt derives the same key from both.  `DecryptKey`
succeeds exactly on "v1:" and three parts joined by colons that decode to a salt, a nonce and a
ciphertext which opens, under the key of this passphrase and this salt, to 32 bytes. -/
theorem keyBlob_roundtrip (hS : S.AeadLaws) (scryptKey : Bytes → Bytes → S.Key) :
    (∀ (d : KeyDraw) (priv pass : Bytes), priv.length = 32 → pass ≠ [] →
      ∃ blob, encryptKey S scryptKey d priv pass = .ok blob ∧
        decryptKey S scryptKey blob pass = .ok priv ∧
        ∀ pass' q, decryptKey S scryptKey blob pass' = .ok q ↔
          scryptKey pass' d.salt = scryptKey pass d.salt ∧ q = priv) ∧
    (∀ blob pass priv, decryptKey S scryptKey blob pass = .ok priv ↔
      priv.length = 32 ∧
      ∃ p₀ p₁ p₂ salt nonce ct, blob = [118, 49, 58] ++ p₀ ++ [58] ++ p₁ ++ [58] ++ p₂ ∧
        Base64.decode p₀ = .ok salt ∧ salt.length = 16 ∧
        Base64.decode p₁ = .ok nonce ∧ nonce.length = 12 ∧
        Base64.decode p₂ = .ok ct ∧ 16 ≤ ct.length ∧
        S.aeadOpen (scryptKey pass salt) nonce ct = some priv) := by
  constructor
  · intro d priv pass hlen hpass
    exact ⟨_, encryptKey_eq d hlen hpass, (decryptKey_encode hS d hlen _).2 ⟨rfl, rfl⟩,
      fun pass' q => decryptKey_encode hS d hlen _⟩
  · intro blob pass priv
    have hform : ∀ p₀ p₁ p₂ : Bytes,
        keyBlob p₀ p₁ p₂ = [118, 49, 58] ++ p₀ ++ [58] ++ p₁ ++ [58] ++ p₂ := by
      intro p₀ p₁ p₂
      simp [keyBlob, keyBlobPrefix]
    rw [decryptKey_eq_ok]
    constructor
    · rintro ⟨p₀, p₁, p₂, rfl, salt, nonce, ct, h₀, h₀', h₁, h₁', h₂, h₂', hopen, hlen⟩
      exact ⟨hlen, p₀, p₁, p₂, salt, nonce, ct, hform _ _ _, h₀, h₀', h₁, h₁', h₂, h₂', hopen⟩
    · rintro ⟨hlen, p₀, p₁, p₂, salt, nonce, ct, rfl, h₀, h₀', h₁, h₁', h₂, h₂', hopen⟩
      exact ⟨p₀, p₁, p₂, (hform _ _ _).symm, salt, nonce, ct, h₀, h₀', h₁, h₁', h₂, h₂', hopen,
        hlen⟩

/-- A key encrypted under one passphrase and not opened under another, with a derivation that keeps
the first byte of what it is given. -/
theorem keyBlob_roundtrip_plain :
    let scryptKey : Bytes → Bytes → plain.Key := fun pass salt => (pass ++ salt).headD 0
    let d : KeyDraw := ⟨List.replicate 16 1, List.replicate 12 2, rfl, rfl⟩
    let priv : Bytes := List.replicate 32 9
    ∃ blob, encryptKey plain scryptKey d priv [3] = .ok blob ∧
      decryptKey plain scryptKey blob [3] = .ok priv ∧
      ∀ q, decryptKey plain scryptKey blob [4] ≠ .ok q := by
  intro scryptKey d priv
  obtain ⟨blob, henc, hdec, hother⟩ :=
    (keyBlob_roundtrip Plain.aeadLaws scryptKey).1 d priv [3] (by decide) (by decide)
  refine ⟨blob, henc, hdec, fun q hq => ?_⟩
  have hsame := ((hother [4] q).1 hq).1
  revert hsame
  decide

end VibeVpn

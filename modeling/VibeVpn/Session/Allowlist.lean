import VibeVpn.Go.Base64
import VibeVpn.Go.Map

/-!
# The allowlist

The peers of the configuration are texts; `parsePeers` of `cmd/vpn/server.go` decodes each to a key
and enters it under the canonical text of the key.  `Manager.allowPeer` looks a client's key up by
that text, and takes an empty table to mean that anyone is allowed.

* `parsePeers_lookup` : the table has exactly the keys that the texts decode to;
* `Allowlist.allowPeer_iff` : **a client is allowed exactly when the list is empty or some entry
  decodes to its key**, so that a list with an entry never means everyone, and the spelling of a key
  does not matter.
-/

namespace VibeVpn

/-- `EncodeKey(b)`. -/
def encodeKey (b : Bytes) : Bytes := Base64.encode b

/-- `DecodeKey(s)`, with the text of its error. -/
def decodeKey (s : Bytes) : Except String Bytes :=
  match Base64.decode s with
  | .error i =>
    .error ("crypto: invalid key encoding: illegal base64 data at input byte " ++ toString i)
  | .ok b => if b.length ≠ 32 then .error "crypto: key must decode to 32 bytes" else .ok b

/-- `map[string][]byte`, from the texts of keys to the keys. -/
abbrev Peers := GoMap Bytes Bytes

/-- One entry of the list. -/
def addPeer (peers : Peers) (p : Bytes) : Except String Peers :=
  match decodeKey p with
  | .error e => .error ("peers: " ++ e)
  | .ok key => .ok (peers.insert (encodeKey key) key)

/-- The rest of the list. -/
def parsePeersFrom (peers : Peers) : List Bytes → Except String Peers
  | [] => .ok peers
  | p :: list =>
    match addPeer peers p with
    | .error e => .error e
    | .ok peers => parsePeersFrom peers list

/-- `parsePeers(list)`, with the text of its error. -/
def parsePeers (list : List Bytes) : Except String Peers := parsePeersFrom ∅ list

/-- `Manager.peers`. -/
structure Allowlist where
  /-- `peers`; a `nil` map is as good as an empty one. -/
  peers : Peers

namespace Allowlist

/-- `SetPeers(peers)`. -/
def setPeers (_ : Allowlist) (peers : Peers) : Allowlist := ⟨peers⟩

/-- `allowPeer(pub)`. -/
def allowPeer (a : Allowlist) (pub : Bytes) : Bool :=
  if GoMap.len a.peers = 0 then true else (a.peers.lookup (Base64.encode pub)).isSome

end Allowlist

/-- Some entry of the list decodes to the key. -/
def Names (list : List Bytes) (key : Bytes) : Prop := ∃ p ∈ list, decodeKey p = .ok key

variable {peers peers' : Peers} {list : List Bytes} {key : Bytes}

theorem addPeer_eq_ok {p : Bytes} (h : addPeer peers p = .ok peers') :
    ∃ key, decodeKey p = .ok key ∧ peers' = peers.insert (encodeKey key) key := by
  unfold addPeer at h
  split at h
  · cases h
  · next key hkey =>
    cases h
    exact ⟨key, hkey, rfl⟩

/-- What the rest of the list adds to the table. -/
theorem parsePeersFrom_lookup (h : parsePeersFrom peers list = .ok peers') :
    (peers'.lookup (encodeKey key)).isSome = true ↔
      (peers.lookup (encodeKey key)).isSome = true ∨ Names list key := by
  induction list generalizing peers with
  | nil =>
    cases h
    simp [Names]
  | cons p list ih =>
    unfold parsePeersFrom at h
    split at h
    · cases h
    · next peers₁ hadd =>
      obtain ⟨key₁, hkey, rfl⟩ := addPeer_eq_ok hadd
      rw [ih h, GoMap.lookup_insert_eq]
      have hsame : encodeKey key = encodeKey key₁ ↔ decodeKey p = .ok key := by
        rw [hkey, Except.ok.injEq]
        exact ⟨fun he => (Base64.encode_injective he).symm, fun he => he ▸ rfl⟩
      have hnames : Names (p :: list) key ↔ decodeKey p = .ok key ∨ Names list key := by
        simp [Names]
      rw [hnames, ← hsame]
      split_ifs with he
      · simp [he]
      · simp [he]

/-- The table has exactly the keys that the texts decode to. -/
theorem parsePeers_lookup (h : parsePeers list = .ok peers) :
    (peers.lookup (encodeKey key)).isSome = true ↔ Names list key := by
  rw [parsePeersFrom_lookup h]
  simp

/-- Every text of a list that parses decodes to a key. -/
theorem exists_key (h : parsePeersFrom peers list = .ok peers') {p : Bytes} (hp : p ∈ list) :
    ∃ key, decodeKey p = .ok key := by
  induction list generalizing peers with
  | nil => cases hp
  | cons q list ih =>
    unfold parsePeersFrom at h
    split at h
    · cases h
    · next peers₁ hadd =>
      rcases List.mem_cons.1 hp with rfl | hp
      · obtain ⟨key, hkey, -⟩ := addPeer_eq_ok hadd
        exact ⟨key, hkey⟩
      · exact ih h hp

/-- The table is empty exactly when the list is. -/
theorem parsePeers_len (h : parsePeers list = .ok peers) : GoMap.len peers = 0 ↔ list = [] := by
  cases list with
  | nil =>
    cases h
    simp
  | cons p list =>
    obtain ⟨key, hkey⟩ := exists_key h List.mem_cons_self
    have hfound : (peers.lookup (encodeKey key)).isSome = true :=
      (parsePeers_lookup h).2 ⟨p, List.mem_cons_self, hkey⟩
    refine ⟨fun hlen => ?_, fun hn => (nomatch hn)⟩
    rw [AList.lookup_isSome, AList.mem_keys, List.eq_nil_of_length_eq_zero hlen] at hfound
    cases hfound

namespace Allowlist

theorem allowPeer_setPeers (a : Allowlist) (h : parsePeers list = .ok peers) (pub : Bytes) :
    (a.setPeers peers).allowPeer pub = true ↔ list = [] ∨ Names list pub := by
  unfold allowPeer setPeers
  dsimp only
  split_ifs with hlen
  · simp [(parsePeers_len h).1 hlen]
  · rw [parsePeers_len h] at hlen
    simp only [hlen, false_or]
    exact parsePeers_lookup h

/-- **What the allowlist means.**  After `SetPeers` with the table of a list that parses, a client
is allowed exactly when the list is empty or some entry decodes to its key.  The table of a list
with an entry is not empty, and lists that decode to the same keys, in whatever spelling and however
often, allow the same clients. -/
theorem allowPeer_iff (a : Allowlist) {list : List Bytes} {peers : Peers}
    (h : parsePeers list = .ok peers) (pub : Bytes) :
    ((a.setPeers peers).allowPeer pub = true ↔
      list = [] ∨ ∃ p ∈ list, decodeKey p = .ok pub) ∧
    (list ≠ [] → GoMap.len (a.setPeers peers).peers ≠ 0) ∧
    ∀ list' peers', parsePeers list' = .ok peers' → (∀ key, Names list' key ↔ Names list key) →
      (a.setPeers peers').allowPeer pub = (a.setPeers peers).allowPeer pub := by
  refine ⟨allowPeer_setPeers a h pub, fun hne hlen => hne ((parsePeers_len h).1 hlen),
    fun list' peers' h' hsame => ?_⟩
  have hempty : ∀ {l₁ l₂ : List Bytes} {t : Peers}, parsePeers l₁ = .ok t →
      (∀ key, Names l₁ key → Names l₂ key) → l₂ = [] → l₁ = [] := by
    rintro (_ | ⟨p, l₁⟩) l₂ t ht hle rfl
    · rfl
    · obtain ⟨key, hkey⟩ := exists_key ht List.mem_cons_self
      obtain ⟨q, hq, -⟩ := hle key ⟨p, List.mem_cons_self, hkey⟩
      cases hq
  rw [Bool.eq_iff_iff, allowPeer_setPeers a h', allowPeer_setPeers a h, hsame]
  have hnil : list' = [] ↔ list = [] :=
    ⟨hempty h fun key => (hsame key).2, hempty h' fun key => (hsame key).1⟩
  rw [hnil]

/-- The key of 32 zero bytes. -/
def zeroKey : Bytes := List.replicate 32 0

/-- The zero key in two spellings: its last character may have any of the two bits that no byte is
made of, and line breaks do not count. -/
def spellings : List Bytes := [List.replicate 43 65, List.replicate 42 65 ++ [10, 67]]

/-- A list that spells the zero key twice allows it, and no key of 32 ones. -/
theorem allowPeer_iff_spellings : ∃ peers, parsePeers spellings = .ok peers ∧
    (setPeers ⟨∅⟩ peers).allowPeer zeroKey = true ∧
    (setPeers ⟨∅⟩ peers).allowPeer (List.replicate 32 1) = false := by
  obtain ⟨peers, h⟩ : ∃ peers, parsePeers spellings = .ok peers := by
    have hok : (parsePeers spellings).isOk = true := by decide
    cases hp : parsePeers spellings with
    | ok peers => exact ⟨peers, rfl⟩
    | error e => rw [hp] at hok; cases hok
  refine ⟨peers, h, ?_, ?_⟩
  · exact (allowPeer_iff ⟨∅⟩ h _).1.2 (.inr ⟨List.replicate 43 65, by decide, by decide⟩)
  · rw [← Bool.not_eq_true, (allowPeer_iff ⟨∅⟩ h _).1]
    decide

end Allowlist

end VibeVpn

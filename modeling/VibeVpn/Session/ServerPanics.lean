import VibeVpn.Session.ServerRun

/-!
# When a datagram crashes a server session

Every slice, index and pointer of `handle` is checked in the model, so a crash of the server is an
`.error`.  The parsers never crash.  What can is `framing.Seal`, which slices a pooled buffer of
capacity 65507: the sealed answers to a handshake are small, but a keepalive is echoed with the
payload the client chose.

* `ServerSession.Oversized` : the datagram is an authentic keepalive whose payload is longer than
  65468 bytes, outside of a rekey; none that fits a UDP packet is one;
* `ServerSession.AdoptPanics` : the datagram completes the handshake, and `Manager.adopt` panics.
  This is no slice: the pool shifts by a negative amount when the subnet is not an IPv4 one;
* `ServerSession.reachable_handle_ok_iff` : with padding off, **handling a datagram panics in these
  two cases only**.
-/

namespace VibeVpn

namespace ServerSession

variable {S : Suite} {cfg : ServerConfig} {env : ServerEnv S} {s : ServerSession S} {data : Bytes}

/-- The largest payload of an unpadded frame, `MaxInner - InnerHeaderLen`. -/
def maxEcho : ℕ := maxInner - innerHeaderLen

theorem encryptSend_ok_iff (hlen : ∀ k n p, (S.aeadSeal k n p).length = p.length + 16)
    (hpad : cfg.shaping.padding = .none) (now : ℤ) (e : SendEnv) (s : ServerSession S)
    (typ : UInt8) (pt : Bytes) :
    (∃ r, s.encryptSend cfg now e typ pt = .ok r) ↔ s.Blocked typ ∨ pt.length ≤ maxEcho := by
  have hep := Endpoint.encryptSend_ok_iff hlen cfg.shaping now e s.toEndpoint typ pt
  have hmax : nonceLen + (innerHeaderLen + pt.length + 0) + tagLen ≤ maxWire ↔
      pt.length ≤ maxEcho := by
    unfold maxEcho maxInner maxWire nonceLen innerHeaderLen tagLen
    omega
  rw [Shaping.paddingOf_none hpad, List.length_nil, hmax] at hep
  rw [← hep]
  constructor
  · rintro ⟨r, h⟩
    obtain ⟨q, hq, -⟩ := Go.bind_eq_ok.1 h
    exact ⟨q, hq⟩
  · rintro ⟨q, hq⟩
    exact ⟨_, by rw [encryptSend, hq, Go.ok_bind]; rfl⟩

/-! ### The handlers that never panic -/

theorem handshake1_ok : ∃ r, s.handshake1 cfg env data = .ok r := by
  unfold handshake1
  split_ifs
  · exact ⟨_, rfl⟩
  · obtain ⟨r, hr, -⟩ := splitCookie_eq data
    rw [hr, Go.ok_bind]
    rcases r with _ | ⟨m, cookie⟩
    · exact ⟨_, rfl⟩
    · dsimp only
      split
      · exact ⟨_, rfl⟩
      · exact ⟨_, rfl⟩

theorem handleData_ok {pt : Bytes} : ∃ r, s.handleData cfg env pt = .ok r := by
  obtain ⟨h, hh⟩ := Header.parse_ok pt
  simp only [handleData, hh, Go.ok_bind]
  repeat' split
  all_goals exact ⟨_, rfl⟩

section Laws

variable (hA : S.AeadLaws) (hX : S.XKLaws) (hpad : cfg.shaping.padding = .none)
include hA hX hpad

/-- Reading a third message panics exactly when registering the session does. -/
theorem handshake3_ok_iff {h : S.HS} (hh : s.hs = some h)
    (hans : ∃ m₁ m₂, S.Answered cfg.keypair m₁ m₂ h) :
    (∃ r, s.handshake3 cfg env data = .ok r) ↔
      ¬ ∃ st p, S.read h data = some st ∧ env.allowPeer (S.peerStatic st.hs) = true ∧
        env.adopt (S.peerStatic st.hs) = .error p := by
  simp only [handshake3, hh]
  cases hst : S.read h data with
  | none => exact iff_of_true ⟨_, rfl⟩ (by simp)
  | some st =>
    dsimp only
    cases ha : env.allowPeer (S.peerStatic st.hs) with
    | false => exact iff_of_true ⟨_, rfl⟩ (by simp [ha])
    | true =>
      cases hip : env.adopt (S.peerStatic st.hs) with
      | error p => exact iff_of_false (by rintro ⟨r, hr⟩; cases hr) (by simp [ha, hip])
      | ok ip =>
        refine iff_of_true ?_ (by simp [hip])
        cases ip with
        | none => exact ⟨_, rfl⟩
        | some ip =>
          obtain ⟨m₁, m₂, hans⟩ := hans
          obtain ⟨ks, hks⟩ := Option.isSome_iff_exists.1 (hX.third_keys hans hst)
          obtain ⟨⟨s', o⟩, hs'⟩ := (encryptSend_ok_iff hA.seal_length hpad env.now env.send
            { s with hs := none, clientKey := some (S.peerStatic st.hs), ip := some ip,
                     keys := some (newKeys S false ks) }
            msgAssign (assignPayload cfg.prefixLen ip cfg.gw)).2
              (.inr (by rw [length_assignPayload]; decide))
          simp only [Bool.not_true, Bool.false_eq_true, if_false, Go.ok_bind, hks]
          rw [hs', Go.ok_bind]
          exact ⟨_, rfl⟩

theorem rekey1_ok {m : Bytes} : ∃ r, s.rekey1 cfg env m = .ok r := by
  unfold rekey1
  split_ifs
  · exact ⟨_, rfl⟩
  · split
    · exact ⟨_, rfl⟩
    · next r hr =>
      split
      · exact ⟨_, rfl⟩
      · next st hst =>
        split
        · exact ⟨_, rfl⟩
        · next st₂ hst₂ =>
          have hlen : st₂.out.length = 48 :=
            hX.second_length ⟨r, env.seed, st, st₂, hr, hst, hst₂, rfl, rfl⟩
          obtain ⟨⟨s', o⟩, hs'⟩ := (encryptSend_ok_iff hA.seal_length hpad env.now env.send
            { s with rekeyHs := some st₂.hs, rekeying := true, rekeyStart := env.now }
            msgRekey2 st₂.out).2 (.inr (by rw [hlen]; decide))
          dsimp only
          rw [hs', Go.ok_bind]
          exact ⟨_, rfl⟩

omit hA hpad in
theorem rekey3_ok {m : Bytes}
    (hhs : ∀ h, s.rekeyHs = some h → ∃ m₁ m₂, S.Answered cfg.keypair m₁ m₂ h) :
    ∃ r, s.rekey3 m = .ok r := by
  unfold rekey3
  split
  · next h hr hh =>
    split
    · exact ⟨_, rfl⟩
    · next st hst =>
      obtain ⟨m₁, m₂, ha⟩ := hhs h hh
      obtain ⟨ks, hks⟩ := Option.isSome_iff_exists.1 (hX.third_keys ha hst)
      split_ifs
      · exact ⟨_, rfl⟩
      · rw [hks]
        exact ⟨_, rfl⟩
  · exact ⟨_, rfl⟩

/-- Handling a keepalive panics exactly when the echo does not fit. -/
theorem dispatch_ok_iff {f : Frame}
    (hhs : ∀ h, s.rekeyHs = some h → ∃ m₁ m₂, S.Answered cfg.keypair m₁ m₂ h)
    (hk : s.keys.isSome) :
    (∃ r, s.dispatch cfg env f = .ok r) ↔
      ¬ (f.typ = msgKeepalive ∧ s.rekeying = false ∧ maxEcho < f.payload.length) := by
  unfold dispatch
  split_ifs with h1 h2 h3 h4 h5 h6
  · refine iff_of_true handleData_ok fun h => ?_
    rw [h1] at h
    exact absurd h.1 (by decide)
  · have hblock : s.Blocked msgKeepalive ↔ s.rekeying = true := by
      have hr : isRekey msgKeepalive = false := rfl
      simp only [Endpoint.Blocked, hr, and_true, Option.isSome_iff_ne_none.1 hk, false_or]
    have hiff := encryptSend_ok_iff hA.seal_length hpad env.now env.send s msgKeepalive f.payload
    rw [hblock] at hiff
    have hbind : (∃ r, s.handleKeepalive cfg env f.payload = .ok r) ↔
        ∃ r, s.encryptSend cfg env.now env.send msgKeepalive f.payload = .ok r := by
      constructor
      · rintro ⟨r, h⟩
        obtain ⟨q, hq, -⟩ := Go.bind_eq_ok.1 h
        exact ⟨q, hq⟩
      · rintro ⟨⟨s', o⟩, hq⟩
        exact ⟨_, by rw [handleKeepalive, hq, Go.ok_bind]; rfl⟩
    rw [hbind, hiff]
    simp only [h2, true_and, not_and, Nat.not_lt]
    cases s.rekeying <;> simp
  · exact iff_of_true ⟨_, rfl⟩ fun h => h2 h.1
  · exact iff_of_true ⟨_, rfl⟩ fun h => h2 h.1
  · exact iff_of_true (rekey1_ok hA hX hpad) fun h => h2 h.1
  · exact iff_of_true (rekey3_ok hX hhs) fun h => h2 h.1
  · exact iff_of_true ⟨_, rfl⟩ fun h => h2 h.1

/-! ### Handling a datagram -/

/-- The datagram is a keepalive of the session, outside of a rekey, whose echo does not fit. -/
def Oversized (s : ServerSession S) (data : Bytes) : Prop :=
  ∃ k k' f, s.keys = some k ∧ k.open data = .ok (k', .ok f) ∧ f.tag = s.tag ∧
    f.typ = msgKeepalive ∧ s.rekeying = false ∧ maxEcho < f.payload.length

/-- The datagram is the third message of a client that may connect, and `adopt` panics. -/
def AdoptPanics (env : ServerEnv S) (s : ServerSession S) (data : Bytes) : Prop :=
  ∃ h st p, s.keys = none ∧ s.hs = some h ∧ S.read h data = some st ∧
    env.allowPeer (S.peerStatic st.hs) = true ∧ env.adopt (S.peerStatic st.hs) = .error p

/-- **Handling a datagram panics exactly when its echo does not fit, or `adopt` panics.** -/
theorem handle_ok_iff (hi : Inv cfg s)
    (hhs : ∀ h, s.hs = some h → ∃ m₁ m₂, S.Answered cfg.keypair m₁ m₂ h) :
    (∃ r, s.handle cfg env data = .ok r) ↔ ¬ s.Oversized data ∧ ¬ s.AdoptPanics env data := by
  unfold handle Oversized AdoptPanics
  cases hk : s.keys with
  | none =>
    cases hh : s.hs with
    | none => exact iff_of_true handshake1_ok (by simp)
    | some h =>
      have hthird : (∃ r, s.handshake3 cfg env data = .ok r) ↔ _ :=
        handshake3_ok_iff hA hX hpad hh (hhs h hh)
      simpa using hthird
  | some k =>
    have hkeyed : ¬ ∃ h st p, some k = none ∧ s.hs = some h ∧ S.read h data = some st ∧
        env.allowPeer (S.peerStatic st.hs) = true ∧
        env.adopt (S.peerStatic st.hs) = .error p := by simp
    rw [and_iff_left hkeyed]
    obtain ⟨k', r, ho, -⟩ := k.open_ok data
    simp only [ho, Go.ok_bind]
    cases r with
    | error e =>
      refine iff_of_true ⟨_, rfl⟩ ?_
      rintro ⟨k₁, k₂, f, hk₁, ho₁, -⟩
      cases hk₁
      rw [ho] at ho₁
      cases ho₁
    | ok f =>
      have hsub : (∃ k₁ k₂ g, some k = some k₁ ∧ k₁.open data = .ok (k₂, .ok g) ∧ g.tag = s.tag ∧
          g.typ = msgKeepalive ∧ s.rekeying = false ∧ maxEcho < g.payload.length) ↔
          f.tag = s.tag ∧ f.typ = msgKeepalive ∧ s.rekeying = false ∧
            maxEcho < f.payload.length := by
        constructor
        · rintro ⟨k₁, k₂, g, hk₁, ho₁, hg⟩
          cases hk₁
          rw [ho] at ho₁
          cases ho₁
          exact hg
        · exact fun hf => ⟨k, k', f, rfl, ho, hf⟩
      rw [hsub]
      dsimp only
      by_cases ht : f.tag = s.tag
      · rw [if_neg (not_not.2 ht), dispatch_ok_iff (s := { s with keys := some k' }) hA hX hpad
          hi.rekeyHs rfl]
        simp only [ht, true_and]
      · rw [if_pos ht]
        exact iff_of_true ⟨_, rfl⟩ fun h => ht h.1

omit hX hpad in
/-- No datagram that fits a UDP packet is too long to be echoed. -/
theorem not_oversized_of_le_maxWire (hlen : data.length ≤ maxWire) : ¬ s.Oversized data := by
  rintro ⟨k, k', f, -, ho, -, -, -, hmax⟩
  cases Keys.open_spec ho with
  | accepted _ w ha =>
    have := payload_length_of_authenticate hA ha
    unfold maxEcho maxInner at hmax
    unfold maxWire nonceLen innerHeaderLen tagLen at *
    omega

end Laws

/-- **No received frame crashes the server, except an oversized keepalive.**  In every reachable
state, with padding off, handling any datagram either returns, or the datagram is an authentic
keepalive with more than 65468 bytes of payload and no rekey is in progress, or it completes the
handshake and `adopt` panics.  A datagram of at most 65507 bytes is not an oversized keepalive. -/
theorem reachable_handle_ok_iff (hA : S.AeadLaws) (hX : S.XKLaws)
    (hpad : cfg.shaping.padding = .none) (sid : ℕ) (peerIP : Option Bytes) (now : ℤ)
    {x : ServerSession S × Bool}
    (hx : (lts S cfg).Reachable (ServerSession.new S sid peerIP now, true) x) (hup : x.2 = true)
    (env : ServerEnv S) (data : Bytes) :
    ((∃ r, x.1.handle cfg env data = .ok r) ↔
      ¬ x.1.Oversized data ∧ ¬ x.1.AdoptPanics env data) ∧
    (data.length ≤ maxWire → ¬ x.1.Oversized data) := by
  obtain ⟨ls, run⟩ := hx
  have hi := RunInv.of_run sid peerIP now run
  refine ⟨handle_ok_iff hA hX hpad hi.inv fun h hh => ?_, not_oversized_of_le_maxWire hA⟩
  obtain ⟨a, -, rfl, -⟩ := hi.hs h hh hup
  exact ⟨_, _, a.answered⟩

/-- A frame sealed by hand, with any payload the length field can express, is accepted first. -/
theorem open_handmade (hA : S.AeadLaws) {k : Keys S} {nonce payload : Bytes} (tag : Byte4)
    (typ : UInt8) (hk : k.replay = .new replayWindowSize) (hn : nonce.length = nonceLen)
    (hp : payload.length < 2 ^ 16) :
    ∃ k', k.open (nonce ++ S.aeadSeal k.recvKey nonce (innerOf tag typ 0 payload [])) =
      .ok (k', .ok { tag, typ, seq := 0, payload }) := by
  have hcheck : k.replay.check 0 = .ok true := by rw [hk]; rfl
  obtain ⟨w, hw, -⟩ := k.replay.add_ok 0
  rw [Keys.open_eq, openWire_append hA.open_seal hA.seal_length hn]
  simp only [parse_innerOf _ _ _ _ _ hp, Nat.zero_mod, Keys.accept, hcheck, hw, Go.ok_bind]
  exact ⟨_, rfl⟩

/-- The client 42 has connected, and sends a keepalive of `n` zeros. -/
theorem exists_plain_keepalive {n : ℕ} (hn : n < 2 ^ 16) : ∃ x k k' f data,
    (lts plain plainConfig).Reachable (ServerSession.new plain 1 none 0, true) x ∧ x.2 = true ∧
    x.1.rekeying = false ∧ x.1.keys = some k ∧ k.open data = .ok (k', .ok f) ∧ f.tag = x.1.tag ∧
    f.typ = msgKeepalive ∧ f.payload.length = n ∧ data.length = 39 + n := by
  obtain ⟨ls, x, run, hup, hk, htag, hr, -⟩ := exists_plain_session
  have hpay : (List.replicate n (0 : UInt8)).length = n := List.length_replicate
  have hnonce : (List.replicate 12 (0 : UInt8)).length = nonceLen := List.length_replicate
  obtain ⟨k', ho⟩ := open_handmade Plain.aeadLaws (k := (newKeys plain false (5, 133)).advance)
    ⟨1, 2, 3, 4⟩ msgKeepalive rfl hnonce (hpay ▸ hn)
  refine ⟨x, _, k', _, _, ⟨ls, run⟩, hup, hr, hk, ho, htag.symm, rfl, hpay, ?_⟩
  rw [List.length_append, Plain.aeadLaws.seal_length, length_innerOf, hpay, hnonce, nonceLen,
    innerHeaderLen, List.length_nil]
  omega

/-- The longest keepalive that is echoed, a datagram of 65507 bytes. -/
theorem reachable_handle_ok_plain : ∃ x k k' f data r,
    (lts plain plainConfig).Reachable (ServerSession.new plain 1 none 0, true) x ∧
    x.1.rekeying = false ∧ x.1.keys = some k ∧ k.open data = .ok (k', .ok f) ∧
    f.tag = x.1.tag ∧ f.typ = msgKeepalive ∧ data.length = 65507 ∧
    x.1.handle plainConfig (plainEnv 3 0) data = .ok r := by
  obtain ⟨x, k, k', f, data, hx, hup, hr, hk, ho, htag, hty, -, hlen⟩ :=
    exists_plain_keepalive (n := 65468) (by decide)
  obtain ⟨hiff, hfits⟩ := reachable_handle_ok_iff Plain.aeadLaws Plain.xkLaws rfl 1 none 0 hx hup
    (plainEnv 3 0) data
  obtain ⟨r, hres⟩ := hiff.2 ⟨hfits (by rw [hlen]; decide), fun ⟨h, st, p, hn, _⟩ => by
    rw [hk] at hn
    cases hn⟩
  exact ⟨x, k, k', f, data, r, hx, hr, hk, ho, htag, hty, hlen, hres⟩

/-- **An oversized keepalive crashes the server.**  The client 42 has connected; over a stream
transport it sends a keepalive of 65469 zeros, a datagram of 65508 bytes. -/
theorem handle_panics_on_oversized_keepalive : ∃ x data p,
    (lts plain plainConfig).Reachable (ServerSession.new plain 1 none 0, true) x ∧ x.2 = true ∧
      data.length = 65508 ∧ x.1.handle plainConfig (plainEnv 3 0) data = .error p := by
  obtain ⟨x, k, k', f, data, ⟨ls, run⟩, hup, hr, hk, ho, htag, hty, hpay, hlen⟩ :=
    exists_plain_keepalive (n := 65469) (by decide)
  have hi := RunInv.of_run 1 none 0 run
  have hans : ∀ h, x.1.hs = some h → ∃ m₁ m₂, plain.Answered plainConfig.keypair m₁ m₂ h := by
    intro h hh
    obtain ⟨a, -, rfl, -⟩ := hi.hs h hh hup
    exact ⟨_, _, a.answered⟩
  have hover : x.1.Oversized data :=
    ⟨k, k', f, hk, ho, htag, hty, hr, by rw [hpay]; decide⟩
  cases hres : x.1.handle plainConfig (plainEnv 3 0) data with
  | error p => exact ⟨x, data, p, ⟨ls, run⟩, hup, hlen, hres⟩
  | ok r =>
    have hok := (handle_ok_iff Plain.aeadLaws Plain.xkLaws rfl hi.inv hans).1 ⟨r, hres⟩
    exact absurd hover hok.1

end ServerSession

end VibeVpn

import VibeVpn.Session.Server

/-!
# What a server session does with a datagram

`ServerSession.Handles` lists the ways `handle` can end when it does not panic, each with what led
there and what it leaves: the session, the output and the error.  Every invariant of the server
side is derived from this list (`ServerSession.handle_spec`) and from the few lemmas about the run
loop's other events.
-/

namespace VibeVpn

namespace ServerSession

variable {S : Suite} {cfg : ServerConfig} {env : ServerEnv S} {s s' : ServerSession S}
  {data : Bytes} {res : Res S} {o : Out S} {err : Option SessionErr}

/-- The ways `handle` ends. -/
inductive Handles (cfg : ServerConfig) (env : ServerEnv S) (s : ServerSession S) (data : Bytes) :
    Res S → Prop where
  /-- Before the handshake completes: nothing is stored; a cookie may be sent. -/
  | refused {o : Out S} {err : Option SessionErr} :
      s.keys = none → o.frames = [] → o.tun = [] → o.installed = [] →
      Handles cfg env s data (s, o, err)
  /-- A first message is read, but no answer can be written. -/
  | tagged {m : Bytes} {r : S.HS} {st : HsStep S.HS S.Key} :
      s.keys = none → s.hs = none → S.newServerHandshake cfg.keypair = some r →
      S.read r m = some st → st.out.length = 4 →
      Handles cfg env s data ({ s with tag := Byte4.copyOf st.out }, {}, none)
  /-- A first message, without its cookie, is answered. -/
  | answered {m : Bytes} {r : S.HS} {st st₂ : HsStep S.HS S.Key} {o : Out S}
      {err : Option SessionErr} :
      s.keys = none → s.hs = none → (∃ cookie, data = m ++ cookie) →
      S.newServerHandshake cfg.keypair = some r → S.read r m = some st → st.out.length = 4 →
      S.write st.hs env.seed [] = some st₂ → o.frames = [] → o.tun = [] →
      o.installed = [] → (∀ b ∈ o.raw, b.1 = st₂.out) → err ≠ some .fatal →
      Handles cfg env s data
        ({ s with tag := Byte4.copyOf st.out, hs := some st₂.hs }, o, err)
  /-- A third message is read, but the client is unknown or there is no address for it. -/
  | rejected {h : S.HS} {st : HsStep S.HS S.Key} :
      s.keys = none → s.hs = some h → S.read h data = some st →
      (env.allowPeer (S.peerStatic st.hs) = false ∨ env.adopt (S.peerStatic st.hs) = .ok none) →
      Handles cfg env s data
        ({ s with hs := some st.hs, clientKey := some (S.peerStatic st.hs) }, {}, some .fatal)
  /-- A third message completes the handshake. -/
  | keyed {h : S.HS} {st : HsStep S.HS S.Key} {ip : Byte4} {ks : S.Key × S.Key}
      {ep : Endpoint S} {fs : List (Sealed S × Bool)} {sent : Bool} :
      s.keys = none → s.hs = some h → S.read h data = some st →
      env.allowPeer (S.peerStatic st.hs) = true → env.adopt (S.peerStatic st.hs) = .ok (some ip) →
      st.keys = some ks →
      { s.toEndpoint with keys := some (newKeys S false ks) }.Sends msgAssign
        (assignPayload cfg.prefixLen ip cfg.gw) ep fs sent →
      Handles cfg env s data
        ({ s with
          toEndpoint := ep
          hs := none
          clientKey := some (S.peerStatic st.hs)
          ip := some ip }, { frames := fs, installed := [ks] }, none)
  /-- A session frame that is rejected, ignored or closes the session. -/
  | opened {k k' : Keys S} {r : Except OpenErr Frame} {stats : Stats} {err : Option SessionErr} :
      s.keys = some k → k.Opened data k' r →
      (∀ f, r = .ok f → f.tag = s.tag → f.typ = msgRekey3 →
        s.rekeying = false ∨ s.rekeyHs = none) →
      stats.rekeys = s.stats.rekeys →
      (err = some .fatal → ∃ f, r = .ok f ∧ f.tag = s.tag ∧ f.typ = msgClose) →
      Handles cfg env s data ({ s with keys := some k', stats }, {}, err)
  /-- A packet with the client's address is handed to the TUN. -/
  | delivered {k k' : Keys S} {f : Frame} {hdr : Header} {ok : Bool} {stats : Stats} :
      s.keys = some k → k.Opened data k' (.ok f) → f.tag = s.tag → f.typ = msgData →
      Header.parse f.payload = .ok (some hdr) → s.ip = some hdr.src →
      stats.rekeys = s.stats.rekeys →
      Handles cfg env s data
        ({ s with keys := some k', stats }, { tun := [(f.payload, ok)] }, none)
  /-- A keepalive is echoed. -/
  | echoed {k k' : Keys S} {f : Frame} {ep : Endpoint S} {fs : List (Sealed S × Bool)}
      {sent : Bool} :
      s.keys = some k → k.Opened data k' (.ok f) → f.tag = s.tag → f.typ = msgKeepalive →
      { s.toEndpoint with keys := some k' }.Sends msgKeepalive f.payload ep fs sent →
      Handles cfg env s data ({ s with toEndpoint := ep }, { frames := fs }, none)
  /-- A rekey starts. -/
  | rekey1 {k k' : Keys S} {f : Frame} {r : S.HS} {st st₂ : HsStep S.HS S.Key}
      {ep : Endpoint S} {fs : List (Sealed S × Bool)} {sent : Bool} :
      s.keys = some k → k.Opened data k' (.ok f) → f.tag = s.tag → f.typ = msgRekey1 →
      s.rekeying = false → S.newServerHandshake cfg.keypair = some r →
      S.read r f.payload = some st → S.write st.hs env.seed [] = some st₂ →
      { s.toEndpoint with
        keys := some k', rekeyHs := some st₂.hs, rekeying := true }.Sends msgRekey2 st₂.out
          ep fs sent →
      Handles cfg env s data
        ({ s with toEndpoint := ep, rekeyStart := env.now }, { frames := fs }, none)
  /-- A rekey fails to read its third message, or authenticates another client. -/
  | aborted {k k' : Keys S} {f : Frame} {h : S.HS} :
      s.keys = some k → k.Opened data k' (.ok f) → f.tag = s.tag → f.typ = msgRekey3 →
      s.rekeying = true → s.rekeyHs = some h →
      (∀ st, S.read h f.payload = some st → S.peerStatic st.hs ≠ s.clientKey.getD []) →
      Handles cfg env s data ({ s with keys := some k' }.abortRekey, {}, none)
  /-- A rekey completes. -/
  | rekeyed {k k' : Keys S} {f : Frame} {h : S.HS} {st : HsStep S.HS S.Key}
      {ks : S.Key × S.Key} {stats : Stats} :
      s.keys = some k → k.Opened data k' (.ok f) → f.tag = s.tag → f.typ = msgRekey3 →
      s.rekeying = true → s.rekeyHs = some h → S.read h f.payload = some st →
      S.peerStatic st.hs = s.clientKey.getD [] → st.keys = some ks →
      stats.rekeys = s.stats.rekeys + 1 →
      Handles cfg env s data
        ({ s with
          keys := some (newKeys S false ks)
          rekeying := false
          rekeyHs := none
          stats }, { installed := [ks] }, none)

/-! ### The initial handshake -/

theorem splitCookie_eq (data : Bytes) : ∃ r, splitCookie data = .ok r ∧
    ∀ m c, r = some (m, c) → ∃ cookie, data = m ++ cookie := by
  unfold splitCookie
  split_ifs with h1 h2
  · have hc : cookieLen ≤ data.length := by rw [h1]; exact Nat.le_add_left _ _
    rw [slice_ok (by omega) (Nat.le_refl _), Go.ok_bind, slice_ok (by omega) (by omega), Go.ok_bind]
    refine ⟨_, rfl, fun m c h => ?_⟩
    cases h
    exact ⟨data.drop (data.length - cookieLen), by simp⟩
  · refine ⟨_, rfl, fun m c h => ?_⟩
    cases h
    exact ⟨[], by simp⟩
  · exact ⟨_, rfl, fun m c h => by cases h⟩

theorem sendRaw_spec (env : ServerEnv S) (b : Bytes) :
    (sendRaw env b).1.frames = [] ∧ (sendRaw env b).1.tun = [] ∧ (sendRaw env b).1.installed = [] ∧
    (∀ r ∈ (sendRaw env b).1.raw, r.1 = b) ∧ (sendRaw env b).2 ≠ some .fatal := by
  unfold sendRaw
  split_ifs <;> simp

theorem respond_spec {m cookie : Bytes} (hk : s.keys = none) (hh : s.hs = none)
    (hd : data = m ++ cookie) : Handles cfg env s data (s.respond cfg env m) := by
  unfold respond
  split
  · exact .refused hk rfl rfl rfl
  · next r hr =>
    split
    · exact .refused hk rfl rfl rfl
    · next st hst =>
      split_ifs with hl
      · exact .refused hk rfl rfl rfl
      · dsimp only
        split
        · exact .tagged hk hh hr hst (not_not.1 hl)
        · next st₂ hst₂ =>
          obtain ⟨h1, h2, h3, h4, h5⟩ := sendRaw_spec env st₂.out
          exact .answered hk hh ⟨cookie, hd⟩ hr hst (not_not.1 hl) hst₂ h1 h2 h3 h4 h5

/-- A session that has not heard anything yet takes a datagram for a first message. -/
theorem handle_of_fresh (hk : s.keys = none) (hh : s.hs = none) :
    s.handle cfg env data = s.handshake1 cfg env data := by
  unfold handle
  rw [hk, hh]
  rfl

theorem handshake1_spec (hk : s.keys = none) (hh : s.hs = none)
    (h : s.handshake1 cfg env data = .ok res) : Handles cfg env s data res := by
  obtain ⟨r, hr, hdata⟩ := splitCookie_eq data
  simp only [handshake1, hk, hh, Option.isSome_none, Bool.or_self, Bool.false_eq_true, ↓reduceIte,
    hr, Go.ok_bind] at h
  split at h
  · cases h
    exact .refused hk rfl rfl rfl
  · next m cookie =>
    obtain ⟨c, hc⟩ := hdata m cookie rfl
    split at h
    · next b _ =>
      cases h
      obtain ⟨h1, h2, h3, -, -⟩ := sendRaw_spec env b
      exact .refused hk h1 h2 h3
    · cases h
      exact respond_spec hk hh hc

theorem encryptSend_spec {typ : UInt8} {pt : Bytes} {now : ℤ} {e : SendEnv}
    (h : s.encryptSend cfg now e typ pt = .ok (s', o)) :
    ∃ ep fs sent, s.toEndpoint.Sends typ pt ep fs sent ∧ s' = { s with toEndpoint := ep } ∧
      o = { frames := fs } := by
  obtain ⟨⟨ep, fs, sent⟩, he, h⟩ := Go.bind_eq_ok.1 h
  cases h
  exact ⟨ep, fs, sent, Endpoint.encryptSend_spec he, rfl, rfl⟩

/-- The last message of a session with keys, or silence. -/
theorem sendCloseQuiet_spec (h : s.sendCloseQuiet cfg env = .ok (s', o)) :
    s' = s ∧ o = {} ∨ ∃ ep fs sent, s.keys.isSome = true ∧
      s.toEndpoint.Sends msgClose [] ep fs sent ∧ s' = { s with toEndpoint := ep } ∧
      o = { frames := fs } := by
  unfold sendCloseQuiet at h
  split_ifs at h with hk
  · obtain ⟨ep, fs, sent, hs⟩ := encryptSend_spec h
    exact .inr ⟨ep, fs, sent, hk.1, hs⟩
  · cases h
    exact .inl ⟨rfl, rfl⟩

/-- A branch of the run loop that ends with `encryptSend`. -/
theorem encryptSend_last_spec {typ : UInt8} {pt : Bytes} {now : ℤ} {e : SendEnv}
    {goesOn running : Bool}
    (h : (do
      let (s, o) ← s.encryptSend cfg now e typ pt
      pure (s, o, goesOn)) = Except.ok (s', o, running)) :
    ∃ ep fs sent, s.toEndpoint.Sends typ pt ep fs sent ∧ s' = { s with toEndpoint := ep } ∧
      o = { frames := fs } ∧ running = goesOn := by
  obtain ⟨⟨s₁, o₁⟩, hs, h⟩ := Go.bind_eq_ok.1 h
  cases h
  obtain ⟨ep, fs, sent, hsend, rfl, rfl⟩ := encryptSend_spec hs
  exact ⟨ep, fs, sent, hsend, rfl, rfl, rfl⟩

theorem handshake3_spec (hk : s.keys = none) {hs : S.HS} (hh : s.hs = some hs)
    (h : s.handshake3 cfg env data = .ok res) : Handles cfg env s data res := by
  simp only [handshake3, hh] at h
  split at h
  · cases h; exact .refused hk rfl rfl rfl
  · next st hst =>
    split_ifs at h with ha
    · cases h
      exact .rejected hk hh hst (.inl (by simpa using ha))
    · obtain ⟨ip, hip, h⟩ := Go.bind_eq_ok.1 h
      cases ip with
      | none => cases h; exact .rejected hk hh hst (.inr hip)
      | some ip =>
        dsimp only at h
        split at h
        · cases h
        · next ks hks =>
          obtain ⟨⟨s', o⟩, hs', h⟩ := Go.bind_eq_ok.1 h
          cases h
          obtain ⟨ep, fs, sent, hsend, rfl, rfl⟩ := encryptSend_spec hs'
          exact .keyed hk hh hst (by simpa using ha) hip hks hsend

/-! ### Session frames -/

section Frames

variable {k k' : Keys S} {f : Frame}

theorem handleData_spec (hk : s.keys = some k) (ho : k.Opened data k' (.ok f))
    (ht : f.tag = s.tag) (hty : f.typ = msgData)
    (h : { s with keys := some k' }.handleData cfg env f.payload = .ok res) :
    Handles cfg env s data res := by
  have hquiet : ∀ stats : Stats, stats.rekeys = s.stats.rekeys →
      Handles cfg env s data ({ s with keys := some k', stats }, {}, none) := fun stats hst =>
    .opened hk ho (fun g hg _ hty' => by cases hg; rw [hty] at hty'; cases hty') hst
      (fun hc => by cases hc)
  obtain ⟨hdr, hhdr⟩ := Header.parse_ok f.payload
  simp only [handleData, Option.isNone_some, Bool.false_eq_true, ↓reduceIte] at h
  split at h
  · cases h; exact hquiet _ rfl
  · next ip hip =>
    by_cases hmtu : cfg.mtu < f.payload.length
    · rw [if_pos hmtu] at h
      cases h; exact hquiet _ rfl
    · rw [if_neg hmtu, hhdr, Go.ok_bind] at h
      cases hdr with
      | none => cases h; exact hquiet _ rfl
      | some hdr =>
        dsimp only at h
        split_ifs at h with hsrc
        · cases h; exact hquiet _ rfl
        · cases h
          exact .delivered hk ho ht hty hhdr (by rw [hip, not_not.1 hsrc]) rfl
        · cases h
          exact .delivered hk ho ht hty hhdr (by rw [hip, not_not.1 hsrc])
            (Stats.rekeys_received ..)

theorem rekey1_spec (hk : s.keys = some k) (ho : k.Opened data k' (.ok f))
    (ht : f.tag = s.tag) (hty : f.typ = msgRekey1)
    (h : { s with keys := some k' }.rekey1 cfg env f.payload = .ok res) :
    Handles cfg env s data res := by
  have hquiet : Handles cfg env s data ({ s with keys := some k' }, {}, none) :=
    .opened hk ho (fun g hg _ hty' => by cases hg; rw [hty] at hty'; cases hty') rfl
      (fun hc => by cases hc)
  simp only [ServerSession.rekey1, Option.isNone_some, Bool.false_or] at h
  split_ifs at h with hr
  · cases h; exact hquiet
  · split at h
    · cases h; exact hquiet
    · next r hnew =>
      split at h
      · cases h; exact hquiet
      · next st hst =>
        split at h
        · cases h; exact hquiet
        · next st₂ hst₂ =>
          obtain ⟨⟨s', o⟩, hs', h⟩ := Go.bind_eq_ok.1 h
          cases h
          obtain ⟨ep, fs, sent, hsend, rfl, rfl⟩ := encryptSend_spec hs'
          exact .rekey1 hk ho ht hty (by simpa using hr) hnew hst hst₂ hsend

theorem rekey3_spec (hk : s.keys = some k) (ho : k.Opened data k' (.ok f))
    (ht : f.tag = s.tag) (hty : f.typ = msgRekey3)
    (h : { s with keys := some k' }.rekey3 f.payload = .ok res) : Handles cfg env s data res := by
  simp only [rekey3] at h
  split at h
  · next hs hr hh =>
    split at h
    · next hn =>
      cases h
      exact .aborted hk ho ht hty hr hh fun st hst => by rw [hn] at hst; cases hst
    · next st hst =>
      split_ifs at h with hp
      · cases h
        refine .aborted hk ho ht hty hr hh fun st' hst' => ?_
        rw [hst] at hst'
        cases hst'
        exact hp
      · split at h
        · cases h
        · next ks hks =>
          cases h
          exact .rekeyed hk ho ht hty hr hh hst (not_not.1 hp) hks rfl
  · next hno =>
    cases h
    refine .opened hk ho (fun g _ _ _ => ?_) rfl (fun hc => by cases hc)
    cases hr : s.rekeying with
    | false => exact .inl rfl
    | true =>
      cases hh : s.rekeyHs with
      | none => exact .inr rfl
      | some hs => exact absurd hh (hno hs hr)

theorem dispatch_spec (hk : s.keys = some k) (ho : k.Opened data k' (.ok f))
    (ht : f.tag = s.tag) (h : { s with keys := some k' }.dispatch cfg env f = .ok res) :
    Handles cfg env s data res := by
  unfold dispatch at h
  split_ifs at h with h1 h2 h3 h4 h5 h6
  · exact handleData_spec hk ho ht h1 h
  · obtain ⟨⟨s', o⟩, hs', h⟩ := Go.bind_eq_ok.1 h
    cases h
    obtain ⟨ep, fs, sent, hsend, rfl, rfl⟩ := encryptSend_spec hs'
    exact .echoed hk ho ht h2 hsend
  · cases h
    refine .opened hk ho (fun g hg _ hty => ?_) rfl fun _ => ⟨f, rfl, ht, h3⟩
    cases hg; rw [h3] at hty; cases hty
  · cases h
    refine .opened hk ho (fun g hg _ hty => ?_) rfl fun hc => by cases hc
    cases hg; rw [h4] at hty; cases hty
  · exact rekey1_spec hk ho ht h5 h
  · exact rekey3_spec hk ho ht h6 h
  · cases h
    exact .opened hk ho (fun g hg _ hty => by cases hg; exact absurd hty h6) rfl
      fun hc => by cases hc

/-- **What handling a datagram does.** -/
theorem handle_spec (h : s.handle cfg env data = .ok res) : Handles cfg env s data res := by
  unfold handle at h
  split at h
  · next hk =>
    cases hh : s.hs with
    | none => rw [hh] at h; exact handshake1_spec hk hh h
    | some hs => rw [hh] at h; exact handshake3_spec hk hh h
  · next k hk =>
    obtain ⟨⟨k', r⟩, ho, h⟩ := Go.bind_eq_ok.1 h
    have ho' := Keys.open_spec ho
    cases r with
    | error e =>
      cases h
      exact .opened hk ho' (fun f hf => by cases hf) rfl fun hc => by cases hc
    | ok f =>
      dsimp only at h
      split_ifs at h with ht
      · cases h
        exact .opened hk ho' (fun g hg htag => by cases hg; exact absurd htag ht) rfl
          fun hc => by cases hc
      · exact dispatch_spec hk ho' (not_not.1 ht) h

end Frames

/-! ### The run loop -/

theorem Event.isDatagram_eq_false {e : Event} (h : ∀ data, e ≠ .recv (some data)) :
    e.isDatagram = false := by
  cases e with
  | recv d =>
    cases d with
    | none => rfl
    | some data => exact absurd rfl (h data)
  | _ => rfl

/-- What one iteration of the run loop does. -/
inductive Loops (cfg : ServerConfig) (env : ServerEnv S) (s : ServerSession S) :
    Event → ServerSession S × Out S × Bool → Prop where
  /-- Nothing. -/
  | idle {e : Event} {running : Bool} :
      (∀ data, e ≠ .recv (some data)) → Loops cfg env s e (s, {}, running)
  /-- A datagram is handled. -/
  | recv {data : Bytes} {s' : ServerSession S} {o : Out S} {err : Option SessionErr} :
      Handles cfg env { s with lastRecv := env.now } data (s', o, err) →
      Loops cfg env s (.recv (some data)) (s', o, decide (err ≠ some .fatal))
  /-- A frame that is no rekey message is sent. -/
  | sent {e : Event} {typ : UInt8} {pt : Bytes} {ep : Endpoint S}
      {fs : List (Sealed S × Bool)} {ok running : Bool} :
      (∀ data, e ≠ .recv (some data)) → typ ∈ [msgData, msgClose, msgDecoy] →
      s.toEndpoint.Sends typ pt ep fs ok →
      Loops cfg env s e ({ s with toEndpoint := ep }, { frames := fs }, running)
  /-- The rekey timeout. -/
  | timeout : s.rekeying = true → cfg.handshakeTimeout < env.now - s.rekeyStart →
      Loops cfg env s .tick (s.abortRekey, {}, true)

theorem loop_spec {e : Event} {running : Bool} (h : s.loop cfg env e = .ok (s', o, running)) :
    Loops cfg env s e (s', o, running) := by
  cases e with
  | cancel => cases h; exact .idle (by simp)
  | recv d =>
    cases d with
    | none => cases h; exact .idle (by simp)
    | some data =>
      obtain ⟨⟨s₁, o₁, err⟩, hh, h⟩ := Go.bind_eq_ok.1 h
      cases h
      exact .recv (handle_spec hh)
  | reply pkt =>
    simp only [loop] at h
    split_ifs at h
    · obtain ⟨ep, fs, sent, hsend, rfl, rfl, rfl⟩ := encryptSend_last_spec h
      exact .sent (by simp) (by simp) hsend
    · cases h; exact .idle (by simp)
  | tick =>
    simp only [loop, tick] at h
    split_ifs at h with h1 h2 h3
    · cases h; exact .idle (by simp)
    · obtain ⟨ep, fs, sent, hsend, rfl, rfl, rfl⟩ := encryptSend_last_spec h
      exact .sent (by simp) (by simp) hsend
    · cases h; exact .timeout h3.1 h3.2
    · cases h; exact .idle (by simp)
  | decoy =>
    simp only [loop] at h
    split_ifs at h
    · obtain ⟨ep, fs, sent, hsend, rfl, rfl, rfl⟩ := encryptSend_last_spec h
      exact .sent (by simp) (by simp) hsend
    · cases h; exact .idle (by simp)

/-- What one event of a session does. -/
inductive Steps (cfg : ServerConfig) (env : ServerEnv S) (s : ServerSession S) (e : Event) :
    ServerSession S × Out S × Bool → Prop where
  /-- The session goes on. -/
  | run {s' : ServerSession S} {o : Out S} :
      Loops cfg env s e (s', o, true) → Steps cfg env s e (s', o, true)
  /-- The session ends in silence. -/
  | halt {s' : ServerSession S} {o : Out S} :
      Loops cfg env s e (s', o, false) → Steps cfg env s e (s', o.append {}, false)
  /-- The session ends and says so. -/
  | close {s' : ServerSession S} {o : Out S} {ep : Endpoint S} {fs : List (Sealed S × Bool)}
      {ok : Bool} :
      Loops cfg env s e (s', o, false) → s'.toEndpoint.Sends msgClose [] ep fs ok →
      Steps cfg env s e ({ s' with toEndpoint := ep }, o.append { frames := fs }, false)

/-- **What one event of a session does.** -/
theorem step_spec {e : Event} {running : Bool} (h : s.step cfg env e = .ok (s', o, running)) :
    Steps cfg env s e (s', o, running) := by
  obtain ⟨⟨s₁, o₁, r⟩, hl, h⟩ := Go.bind_eq_ok.1 h
  have hl' := loop_spec hl
  cases r with
  | true => cases h; exact .run hl'
  | false =>
    obtain ⟨⟨s₂, o₂⟩, hq, h⟩ := Go.bind_eq_ok.1 h
    cases h
    obtain ⟨rfl, rfl⟩ | ⟨ep, fs, sent, -, hsend, rfl, rfl⟩ := sendCloseQuiet_spec hq
    · exact .halt hl'
    · exact .close hl' hsend

end ServerSession

end VibeVpn

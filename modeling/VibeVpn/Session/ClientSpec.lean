import VibeVpn.Session.Client
import VibeVpn.Crypto.Plain

/-!
# What a wake-up of the client does

`Client.Steps` lists the ways a wake-up ends while the client has a connection (`Phase.live`):
from the first message of its handshake to the moment it gives the connection up.  What the client
does on one connection is derived from this list (`Client.step_spec`).
-/

namespace VibeVpn

/-- The client has a connection: it waits in the handshake or runs the main loop. -/
def Phase.live {S : Suite} : Phase S → Bool
  | .waitReply .. => true
  | .waitAssign .. => true
  | .running => true
  | _ => false

/-- The client has completed the handshake of its connection. -/
def Phase.keyed {S : Suite} : Phase S → Bool
  | .waitAssign .. => true
  | .running => true
  | _ => false

theorem Phase.live_of_keyed {S : Suite} {p : Phase S} (h : p.keyed = true) : p.live = true := by
  cases p with
  | waitAssign => rfl
  | running => rfl
  | _ => cases h

namespace Client

variable {S : Suite} {cfg : ClientConfig} {env : ClientEnv S} {c c' : Client S} {o : Out S}
  {data : Bytes}

/-- The first message of a rekey can be written, and the transport takes it. -/
def CanRekey (cfg : ClientConfig) (env : ClientEnv S) : Prop :=
  ∃ hs st, S.newClientHandshake cfg.keypair cfg.serverPublic = some hs ∧
    S.write hs env.seed [] = some st ∧ env.send₂.ok = true

/-- What `maybeRekey` does. -/
inductive MaybeRekeys (cfg : ClientConfig) (env : ClientEnv S) (c : Client S) :
    Client S → Out S → Prop where
  /-- No rekey is due, or none can be made. -/
  | no : (∀ k, c.keys = some k → cfg.rekeyThreshold ≤ k.sendSeq → ¬ CanRekey cfg env) →
      MaybeRekeys cfg env c c {}
  /-- The first message of a rekey could not be sent. -/
  | unsent {hs : S.HS} {st : HsStep S.HS S.Key} {ep : Endpoint S}
      {fs : List (Sealed S × Bool)} :
      S.newClientHandshake cfg.keypair cfg.serverPublic = some hs →
      S.write hs env.seed [] = some st →
      c.toEndpoint.Sends msgRekey1 st.out ep fs false →
      (c.keys.isSome → ¬ CanRekey cfg env) →
      MaybeRekeys cfg env c { c with toEndpoint := ep } { frames := fs }
  /-- A rekey starts. -/
  | started {hs : S.HS} {st : HsStep S.HS S.Key} {ep : Endpoint S}
      {fs : List (Sealed S × Bool)} :
      S.newClientHandshake cfg.keypair cfg.serverPublic = some hs →
      S.write hs env.seed [] = some st →
      c.toEndpoint.Sends msgRekey1 st.out ep fs true →
      MaybeRekeys cfg env c
        { c with toEndpoint := { ep with rekeyHs := some st.hs, rekeying := true } }
        { frames := fs }

/-- The state of the client when `continueRekey` is called on the frame `f` in `data`. -/
structure Continues (c : Client S) (data : Bytes) (k' : Keys S) (f : Frame) (hs : S.HS) :
    Prop where
  running : c.phase = .running
  opened : ∃ k, c.keys = some k ∧ k.Opened data k' (.ok f)
  tag : f.tag = c.tag
  typ : f.typ = msgRekey2
  rekeying : c.rekeying = true
  rekeyHs : c.rekeyHs = some hs

/-- The ways a wake-up ends while the client has a connection. -/
inductive Steps (cfg : ClientConfig) (env : ClientEnv S) (c : Client S) :
    Event → Client S → Out S → Prop where
  /-- Nothing happens, or something is counted as dropped. -/
  | idle {e : Event} {stats : Stats} :
      (∀ data, e = .recv (some data) → c.phase ≠ .running) →
      stats.rekeys = c.stats.rekeys →
      (e = .keepalive → c.phase = .running → c.connected = true → c.rekeying = true) →
      Steps cfg env c e { c with stats } {}
  /-- A datagram is dropped for lack of keys. -/
  | keyless {stats : Stats} {data : Bytes} :
      c.keys = none → stats.rekeys = c.stats.rekeys →
      Steps cfg env c (.recv (some data)) { c with stats, lastRecv := env.now } {}
  /-- The client gives up the connection, perhaps after saying so. -/
  | hangup {e : Event} {c' : Client S} {o : Out S} :
      c'.keys = none → c'.phase.live = false → c'.stats.rekeys = c.stats.rekeys →
      ((∀ data, e ≠ .recv (some data)) → c'.lastRecv = c.lastRecv) →
      o.installed = [] → (∀ r ∈ o.raw, r.2 = false) →
      (o.frames = [] ∨ ∃ ep ok, c.toEndpoint.Sends msgClose [] ep o.frames ok) →
      Steps cfg env c e c' o
  /-- The server demands a cookie. -/
  | cookie {hs : S.HS} {m₁ data : Bytes} {tag : Byte4} {start since : ℤ} :
      c.phase = .waitReply hs m₁ false tag start since → data.length = cookieLen →
      S.read hs data = none →
      Steps cfg env c (.recv (some data))
        { c with phase := .waitReply hs (m₁ ++ data) true tag start since }
        { raw := [(m₁ ++ data, true)] }
  /-- The second message is read and the third one sent: the client has keys. -/
  | keyed {hs : S.HS} {m₁ data : Bytes} {ck : Bool} {tag : Byte4} {start since : ℤ}
      {st st₃ : HsStep S.HS S.Key} {ks : S.Key × S.Key} :
      c.phase = .waitReply hs m₁ ck tag start since → S.read hs data = some st →
      S.write st.hs env.seed [] = some st₃ → st₃.keys = some ks →
      Steps cfg env c (.recv (some data))
        { c with tag, keys := some (newKeys S true ks), phase := .waitAssign start env.now }
        { raw := [(st₃.out, true)], installed := [ks] }
  /-- A session frame is rejected, ignored, or handed to the TUN; or it assigns the address. -/
  | opened {k k' : Keys S} {r : Except OpenErr Frame} {c' : Client S} {o : Out S} {data : Bytes}
      {stats : Stats} {last : ℤ} :
      c.phase.keyed = true → c.keys = some k → k.Opened data k' r →
      c'.toEndpoint = { c.toEndpoint with keys := some k', stats, lastRecv := last } →
      c'.t = c.t → c'.phase.keyed = true → stats.rekeys = c.stats.rekeys →
      o.frames = [] → o.raw = [] → o.installed = [] →
      (∀ f, r = .ok f → c.phase = .running → f.tag = c.tag → f.typ = msgRekey2 →
        c.rekeying = false) →
      (c'.phase = c.phase ∧ c'.connected = c.connected ∨
        c'.phase = .running ∧ c'.connected = true) →
      Steps cfg env c (.recv (some data)) c' o
  /-- A packet or a decoy is sent. -/
  | sent {e : Event} {typ : UInt8} {pt : Bytes} {ep : Endpoint S}
      {fs : List (Sealed S × Bool)} {ok : Bool} {stats : Stats} :
      c.phase = .running → (∀ data, e ≠ .recv (some data)) → typ ∈ [msgData, msgDecoy] →
      c.toEndpoint.Sends typ pt ep fs ok → stats.rekeys = ep.stats.rekeys → e ≠ .keepalive →
      Steps cfg env c e { c with toEndpoint := { ep with stats } } { frames := fs }
  /-- A keepalive is sent, and perhaps a rekey started. -/
  | keepalive {pt : Bytes} {ep : Endpoint S} {fs : List (Sealed S × Bool)} {ok : Bool}
      {c' : Client S} {o : Out S} :
      c.phase = .running → c.connected = true → c.rekeying = false →
      c.toEndpoint.Sends msgKeepalive pt ep fs ok →
      MaybeRekeys cfg env { c with toEndpoint := ep } c' o →
      Steps cfg env c .keepalive c' (({ frames := fs } : Out S).append o)
  /-- The second message of a rekey does not read. -/
  | rekeyUnread {k' : Keys S} {f : Frame} {hs : S.HS} {data : Bytes} :
      c.Continues data k' f hs → S.read hs f.payload = none →
      Steps cfg env c (.recv (some data)) { c with keys := some k', lastRecv := env.now } {}
  /-- The third message of a rekey cannot be written. -/
  | rekeyUnwritten {k' : Keys S} {f : Frame} {hs : S.HS} {st : HsStep S.HS S.Key} {data : Bytes} :
      c.Continues data k' f hs → S.read hs f.payload = some st →
      S.write st.hs env.seed [] = none →
      Steps cfg env c (.recv (some data))
        { c with keys := some k', lastRecv := env.now, rekeyHs := some st.hs } {}
  /-- The third message of a rekey does not complete it. -/
  | rekeyIncomplete {k' : Keys S} {f : Frame} {hs : S.HS} {st st₃ : HsStep S.HS S.Key}
      {data : Bytes} :
      c.Continues data k' f hs → S.read hs f.payload = some st →
      S.write st.hs env.seed [] = some st₃ → st₃.keys = none →
      Steps cfg env c (.recv (some data))
        { c with keys := some k', lastRecv := env.now, rekeyHs := some st₃.hs } {}
  /-- The third message of a rekey cannot be sent. -/
  | rekeyUnsent {k' : Keys S} {f : Frame} {hs : S.HS} {st st₃ : HsStep S.HS S.Key}
      {ks : S.Key × S.Key} {ep : Endpoint S} {fs : List (Sealed S × Bool)} {data : Bytes} :
      c.Continues data k' f hs → S.read hs f.payload = some st →
      S.write st.hs env.seed [] = some st₃ → st₃.keys = some ks →
      { c.toEndpoint with
        keys := some k', lastRecv := env.now, rekeyHs := some st₃.hs }.Sends msgRekey3 st₃.out
          ep fs false →
      Steps cfg env c (.recv (some data)) { c with toEndpoint := ep } { frames := fs }
  /-- The third message of a rekey is sent: the client swaps its keys. -/
  | rekeyed {k' : Keys S} {f : Frame} {hs : S.HS} {st st₃ : HsStep S.HS S.Key}
      {ks : S.Key × S.Key} {ep : Endpoint S} {fs : List (Sealed S × Bool)} {data : Bytes} :
      c.Continues data k' f hs → S.read hs f.payload = some st →
      S.write st.hs env.seed [] = some st₃ → st₃.keys = some ks →
      { c.toEndpoint with
        keys := some k', lastRecv := env.now, rekeyHs := some st₃.hs }.Sends msgRekey3 st₃.out
          ep fs true →
      Steps cfg env c (.recv (some data)) (rekeyed env { c with toEndpoint := ep } ks)
        { frames := fs, installed := [ks] }

/-! ### Sending -/

theorem encryptSend_spec {typ : UInt8} {pt : Bytes} {now : ℤ} {e : SendEnv} {sent : Bool}
    (h : c.encryptSend cfg now e typ pt = .ok (c', o, sent)) :
    ∃ ep fs, c.toEndpoint.Sends typ pt ep fs sent ∧ c' = { c with toEndpoint := ep } ∧
      o = { frames := fs } := by
  obtain ⟨⟨ep, fs, sent⟩, he, h⟩ := Go.bind_eq_ok.1 h
  cases h
  exact ⟨ep, fs, Endpoint.encryptSend_spec he, rfl, rfl⟩

/-- A raw message was sent, or the output holds nothing that was. -/
theorem sendRaw_spec {e : SendEnv} {b : Bytes} {ok : Bool} (h : c.sendRaw e b = .ok (o, ok)) :
    (ok = true ∧ o = { raw := [(b, true)] }) ∨
      (ok = false ∧ o.frames = [] ∧ o.installed = [] ∧ ∀ r ∈ o.raw, r.2 = false) := by
  unfold sendRaw at h
  split_ifs at h
  · cases h
    exact .inr ⟨rfl, rfl, rfl, by simp⟩
  · cases h
    cases he : e.ok with
    | true => exact .inl ⟨rfl, rfl⟩
    | false => exact .inr ⟨rfl, rfl, rfl, by simp⟩

/-! ### Connecting -/

theorem rekeys_failConnect : c.failConnect.stats.rekeys = c.stats.rekeys := by
  unfold failConnect
  split <;> rfl

/-- A dialled client has sent the first message of a handshake, or has given the attempt up. -/
theorem connect_spec (h : c.connect cfg env = .ok (c', o)) :
    (∃ hs st, S.newClientHandshake cfg.keypair cfg.serverPublic = some hs ∧
      S.write hs env.seed env.tag.toBytes = some st ∧
      c' = { c.teardownTransport with
        t := true, phase := .waitReply st.hs st.out false env.tag env.now env.now } ∧
      o = { raw := [(st.out, true)] }) ∨
    ((∃ t, c' = { c.teardownTransport with t }.failConnect) ∧ o.frames = [] ∧ o.installed = [] ∧
      ∀ r ∈ o.raw, r.2 = false) := by
  dsimp only [connect] at h
  split_ifs at h
  · cases h; exact .inr ⟨⟨false, rfl⟩, rfl, rfl, by simp⟩
  · split at h
    · cases h; exact .inr ⟨⟨true, rfl⟩, rfl, rfl, by simp⟩
    · next hs hnew =>
      split at h
      · cases h; exact .inr ⟨⟨true, rfl⟩, rfl, rfl, by simp⟩
      · next st hwrite =>
        obtain ⟨⟨o₁, ok⟩, hraw, h⟩ := Go.bind_eq_ok.1 h
        rcases sendRaw_spec hraw with ⟨rfl, rfl⟩ | ⟨rfl, h1, h2, h3⟩
        · cases h; exact .inl ⟨hs, st, hnew, hwrite, rfl, rfl⟩
        · cases h; exact .inr ⟨⟨true, rfl⟩, h1, h2, h3⟩

theorem rekeys_failAssign : c.failAssign.stats.rekeys = c.stats.rekeys := rekeys_failConnect

/-- Giving up an attempt to connect. -/
theorem hangup_failConnect {e : Event} (hk : c.keys = none) (ho : o.frames = [])
    (hi : o.installed = []) (hr : ∀ r ∈ o.raw, r.2 = false) :
    Steps cfg env c e c.failConnect o :=
  .hangup hk rfl rekeys_failConnect (fun _ => rfl) hi hr (.inl ho)

theorem recvReply_spec {hs : S.HS} {m₁ : Bytes} {ck : Bool} {tag : Byte4} {start since : ℤ}
    (hp : c.phase = .waitReply hs m₁ ck tag start since) (hk : c.keys = none)
    (h : c.recvReply env hs m₁ ck tag start since data = .ok (c', o)) :
    Steps cfg env c (.recv (some data)) c' o := by
  unfold recvReply at h
  split at h
  · next st hst =>
    unfold finishHandshake at h
    split at h
    · cases h; exact hangup_failConnect hk rfl rfl (by simp)
    · next st₃ hst₃ =>
      split at h
      · cases h; exact hangup_failConnect hk rfl rfl (by simp)
      · next ks hks =>
        obtain ⟨⟨o₁, ok⟩, hs, h⟩ := Go.bind_eq_ok.1 h
        rcases sendRaw_spec hs with ⟨rfl, rfl⟩ | ⟨rfl, h1, h2, h3⟩
        · cases h; exact .keyed hp hst hst₃ hks
        · cases h; exact hangup_failConnect hk h1 h2 h3
  · next hn =>
    split_ifs at h with hc
    · obtain ⟨⟨o₁, ok⟩, hs, h⟩ := Go.bind_eq_ok.1 h
      obtain ⟨hlen, hck⟩ := hc
      simp only [Bool.not_eq_true'] at hck
      subst hck
      rcases sendRaw_spec hs with ⟨rfl, rfl⟩ | ⟨rfl, h1, h2, h3⟩
      · cases h; exact .cookie hp hlen hn
      · cases h; exact hangup_failConnect hk h1 h2 h3
    · cases h
      exact .idle (fun _ _ => by rw [hp]; nofun) rfl nofun

theorem recvAssign_spec {start since : ℤ} (hp : c.phase = .waitAssign start since)
    (h : c.recvAssign env start data = .ok (c', o)) :
    Steps cfg env c (.recv (some data)) c' o := by
  have hkeyed : c.phase.keyed = true := by rw [hp]; rfl
  unfold recvAssign at h
  split at h
  · cases h
  · next k hk =>
    obtain ⟨⟨k', r⟩, ho, h⟩ := Go.bind_eq_ok.1 h
    have ho' := Keys.open_spec ho
    have hquiet : Steps cfg env c (.recv (some data)) { c with keys := some k' } {} :=
      .opened hkeyed hk ho' rfl rfl hkeyed rfl rfl rfl rfl
        (fun _ _ hrun => by rw [hp] at hrun; cases hrun) (.inl ⟨rfl, rfl⟩)
    cases r with
    | error e => cases h; exact hquiet
    | ok f =>
      dsimp only at h
      split_ifs at h
      · cases h; exact hquiet
      · cases h; exact hquiet
      · obtain ⟨a, -, h⟩ := Go.bind_eq_ok.1 h
        rcases a with _ | ⟨n, ip, gw⟩
        · cases h
          exact .hangup rfl rfl rekeys_failAssign (fun _ => rfl) rfl (by simp) (.inl rfl)
        · cases h
          exact .opened hkeyed hk ho' rfl rfl rfl rfl rfl rfl rfl
            (fun _ _ hrun => by rw [hp] at hrun; cases hrun) (.inr ⟨rfl, rfl⟩)

/-! ### Rekeying -/

theorem startRekey_spec (h : c.startRekey cfg env = .ok (c', o)) :
    MaybeRekeys cfg env c c' o := by
  unfold startRekey at h
  split at h
  · next hn =>
    cases h
    refine .no fun _ _ _ => ?_
    rintro ⟨hs, _, hhs, -⟩
    rw [hn] at hhs
    cases hhs
  · next hs hhs =>
    split at h
    · next hn =>
      cases h
      refine .no fun _ _ _ => ?_
      rintro ⟨hs', st, hhs', hst, -⟩
      cases hhs.symm.trans hhs'
      rw [hn] at hst
      cases hst
    · next st hst =>
      obtain ⟨⟨c₁, o₁, sent⟩, he, h⟩ := Go.bind_eq_ok.1 h
      obtain ⟨⟨ep, fs, sent'⟩, he', heq⟩ := Go.bind_eq_ok.1 he
      cases heq
      have hsend := Endpoint.encryptSend_spec he'
      cases sent with
      | true => cases h; exact .started hhs hst hsend
      | false =>
        cases h
        refine .unsent hhs hst hsend fun hk => ?_
        rintro ⟨_, _, -, -, hok⟩
        have hsent := Endpoint.encryptSend_sent he' (by
          rintro (hn | ⟨-, hn⟩)
          · rw [hn] at hk; cases hk
          · cases hn)
        rw [hok] at hsent
        cases hsent

theorem maybeRekey_spec (h : c.maybeRekey cfg env = .ok (c', o)) :
    MaybeRekeys cfg env c c' o := by
  simp only [maybeRekey] at h
  split_ifs at h with h1 h2 h3
  · exact startRekey_spec h
  · exact startRekey_spec h
  · exact startRekey_spec h
  · cases h
    refine .no fun k hk hdue => absurd hdue ?_
    simp only [hk, Option.isSome_some, true_and, Option.elim_some] at h1 h2
    unfold ClientConfig.rekeyThreshold
    split_ifs <;> omega

theorem continueRekey_spec {k' : Keys S} {f : Frame} {hs : S.HS} {err : Option ClientErr}
    (hc : c.Continues data k' f hs)
    (h : { c with keys := some k', lastRecv := env.now }.continueRekey cfg env f.payload =
      .ok (c', o, err)) :
    Steps cfg env c (.recv (some data)) c' o ∧ err ≠ some .peerClosed := by
  unfold continueRekey at h
  split at h
  · cases h
  · next hs' hhs =>
    obtain rfl : hs = hs' := Option.some.inj (hc.rekeyHs.symm.trans hhs)
    split at h
    · next hn => cases h; exact ⟨.rekeyUnread hc hn, by simp⟩
    · next st hst =>
      split at h
      · next hn => cases h; exact ⟨.rekeyUnwritten hc hst hn, by simp⟩
      · next st₃ hst₃ =>
        split at h
        · next hn => cases h; exact ⟨.rekeyIncomplete hc hst hst₃ hn, by simp⟩
        · next ks hks =>
          obtain ⟨⟨c₁, o₁, sent⟩, he, h⟩ := Go.bind_eq_ok.1 h
          obtain ⟨ep, fs, hsend, rfl, rfl⟩ := encryptSend_spec he
          cases sent with
          | false => cases h; exact ⟨.rekeyUnsent hc hst hst₃ hks hsend, by simp⟩
          | true => cases h; exact ⟨.rekeyed hc hst hst₃ hks hsend, by simp⟩

/-! ### Frames -/

theorem handleData_spec {pt : Bytes} (h : c.handleData cfg env pt = (c', o)) :
    ∃ stats : Stats, stats.rekeys = c.stats.rekeys ∧ c' = { c with stats } ∧ o.frames = [] ∧
      o.raw = [] ∧ o.installed = [] := by
  unfold handleData at h
  split_ifs at h
  · cases h; exact ⟨c.stats.dropped, rfl, rfl, rfl, rfl, rfl⟩
  · cases h; exact ⟨c.stats, rfl, rfl, rfl, rfl, rfl⟩
  · cases h; exact ⟨_, Stats.rekeys_received .., rfl, rfl, rfl, rfl⟩

theorem handleEcho_spec (env : ClientEnv S) (c : Client S) (pt : Bytes) :
    ∃ stats : Stats, stats.rekeys = c.stats.rekeys ∧ c.handleEcho env pt = { c with stats } := by
  unfold handleEcho
  dsimp only
  split_ifs
  · exact ⟨c.stats.recordRTT _, rfl, rfl⟩
  · exact ⟨c.stats, rfl, rfl⟩

/-- What `dispatch` does with a frame: it changes the counters only, or the peer has closed the
session, or the frame continues a rekey. -/
theorem dispatch_spec {f : Frame} {err : Option ClientErr}
    (h : c.dispatch cfg env f = .ok (c', o, err)) :
    (∃ stats : Stats, stats.rekeys = c.stats.rekeys ∧ c' = { c with stats } ∧ o.frames = [] ∧
      o.raw = [] ∧ o.installed = [] ∧ err = none ∧ (f.typ = msgRekey2 → c.rekeying = false)) ∨
    (c' = c ∧ o = {} ∧ err = some .peerClosed) ∨
    (f.typ = msgRekey2 ∧ c.rekeying = true ∧
      c.continueRekey cfg env f.payload = .ok (c', o, err)) := by
  -- the type of a frame that is handled before the rekey messages
  have hno : ∀ {typ : UInt8}, f.typ = typ → typ ≠ msgRekey2 → f.typ = msgRekey2 →
      c.rekeying = false := fun h1 h2 h3 => absurd (h1.symm.trans h3) h2
  unfold dispatch at h
  split_ifs at h with h1 h2 h3 h4 h5 h6
  · rcases hd : c.handleData cfg env f.payload with ⟨c₂, o₂⟩
    obtain ⟨stats, hst, rfl, hf1, hf2, hf3⟩ := handleData_spec hd
    rw [hd] at h
    cases h
    exact .inl ⟨stats, hst, rfl, hf1, hf2, hf3, rfl, hno h1 (by decide)⟩
  · obtain ⟨stats, hst, hc⟩ := handleEcho_spec env c f.payload
    rw [hc] at h
    cases h
    exact .inl ⟨stats, hst, rfl, rfl, rfl, rfl, rfl, hno h2 (by decide)⟩
  · cases h
    exact .inr (.inl ⟨rfl, rfl, rfl⟩)
  · cases h
    exact .inl ⟨c.stats, rfl, rfl, rfl, rfl, rfl, rfl, hno h4 (by decide)⟩
  · exact .inr (.inr ⟨h5, h6, h⟩)
  · cases h
    exact .inl ⟨c.stats, rfl, rfl, rfl, rfl, rfl, rfl, fun _ => by simpa using h6⟩
  · cases h
    exact .inl ⟨c.stats, rfl, rfl, rfl, rfl, rfl, rfl, fun h => absurd h h5⟩

theorem drainRecv_spec (hp : c.phase = .running)
    (h : c.drainRecv cfg env (some data) = .ok (c', o)) :
    Steps cfg env c (.recv (some data)) c' o := by
  have hkeyed : c.phase.keyed = true := by rw [hp]; rfl
  obtain ⟨⟨c₁, o₁, err⟩, hf, h⟩ := Go.bind_eq_ok.1 h
  unfold handleFrame at hf
  split at hf
  · next hk => cases hf; cases h; exact .keyless hk rfl
  · next k hk =>
    obtain ⟨⟨k', r⟩, ho, hf⟩ := Go.bind_eq_ok.1 hf
    have ho' := Keys.open_spec ho
    -- a frame that changes nothing but the replay window and the counters
    have hquiet : ∀ {o : Out S} {stats : Stats}, stats.rekeys = c.stats.rekeys → o.frames = [] →
        o.raw = [] → o.installed = [] →
        (∀ f, r = .ok f → f.tag = c.tag → f.typ = msgRekey2 → c.rekeying = false) →
        Steps cfg env c (.recv (some data))
          { c with keys := some k', stats, lastRecv := env.now } o :=
      fun h1 h2 h3 h4 h5 =>
        .opened hkeyed hk ho' rfl rfl hkeyed h1 h2 h3 h4 (fun f hf _ => h5 f hf) (.inl ⟨rfl, rfl⟩)
    cases r with
    | error e => cases hf; cases h; exact hquiet rfl rfl rfl rfl nofun
    | ok f =>
      dsimp only at hf
      by_cases ht : f.tag = c.tag
      · rw [if_neg (not_not.2 ht)] at hf
        obtain ⟨stats, hst, rfl, hf1, hf2, hf3, rfl, hno⟩ | ⟨rfl, rfl, rfl⟩ | ⟨hty, hr, hf⟩ :=
          dispatch_spec hf
        · cases h
          exact hquiet hst hf1 hf2 hf3 fun g hg _ => by cases hg; exact hno
        · cases h
          exact .hangup rfl rfl rfl (fun he => absurd rfl (he data)) rfl (by simp) (.inl rfl)
        · cases hh : c.rekeyHs with
          | none => simp only [continueRekey, hh] at hf; cases hf
          | some hs =>
            obtain ⟨hsteps, herr⟩ := continueRekey_spec
              ⟨hp, ⟨k, hk, ho'⟩, ht, hty, hr, hh⟩ hf
            dsimp only at h
            rw [if_neg herr] at h
            cases h
            exact hsteps
      · rw [if_pos ht] at hf
        cases hf
        cases h
        exact hquiet rfl rfl rfl rfl fun g hg htag => by cases hg; exact absurd htag ht

/-! ### The run loop -/

/-- **What a wake-up of a client with a connection does.** -/
theorem step_spec {e : Event} (hlive : c.phase.live = true)
    (hreply : c.phase.keyed = false → c.keys = none)
    (h : c.step cfg env e = .ok (c', o)) : Steps cfg env c e c' o := by
  -- the events the client does not wait for
  have hidle : ∀ {e : Event}, (∀ data, e ≠ .recv (some data)) →
      (e = .keepalive → c.phase = .running → c.connected = true → c.rekeying = true) →
      Steps cfg env c e c {} :=
    fun he ht => .idle (fun data hd => absurd hd (he data)) rfl ht
  have hwait : c.phase ≠ .running → ∀ {e : Event}, (∀ data, e ≠ .recv (some data)) →
      Steps cfg env c e c {} := fun hp _ he => hidle he fun _ hrun => absurd hrun hp
  cases hp : c.phase with
  | backoff => rw [hp] at hlive; cases hlive
  | stopped => rw [hp] at hlive; cases hlive
  | waitReply hs m₁ ck tag start since =>
    have hk : c.keys = none := hreply (by rw [hp]; rfl)
    unfold step at h
    rw [hp] at h
    cases e with
    | recv d =>
      cases d with
      | none => cases h; exact hangup_failConnect hk rfl rfl (by simp)
      | some data => exact recvReply_spec hp hk h
    | cancel => cases h; exact hangup_failConnect hk rfl rfl (by simp)
    | timeout =>
      dsimp only at h
      split_ifs at h
      · cases h; exact hangup_failConnect hk rfl rfl (by simp)
      · cases h; exact hwait (by rw [hp]; nofun) (by simp)
    | _ => cases h; exact hwait (by rw [hp]; nofun) (by simp)
  | waitAssign start since =>
    have hfail : ∀ {e : Event}, Steps cfg env c e c.failAssign {} :=
      .hangup rfl rfl rekeys_failAssign (fun _ => rfl) rfl (by simp) (.inl rfl)
    unfold step at h
    rw [hp] at h
    cases e with
    | recv d =>
      cases d with
      | none => cases h; exact hfail
      | some data => exact recvAssign_spec hp h
    | cancel => cases h; exact hfail
    | timeout =>
      dsimp only at h
      split_ifs at h
      · cases h; exact hfail
      · cases h; exact hwait (by rw [hp]; nofun) (by simp)
    | _ => cases h; exact hwait (by rw [hp]; nofun) (by simp)
  | running =>
    have hgone : ∀ {e : Event}, Steps cfg env c e c.reconnect {} :=
      .hangup rfl rfl rfl (fun _ => rfl) rfl (by simp) (.inl rfl)
    unfold step at h
    rw [hp] at h
    cases e with
    | recv d =>
      cases d with
      | none => cases h; exact hgone
      | some data => exact drainRecv_spec hp h
    | cancel =>
      obtain ⟨⟨c₁, o₁⟩, hs, h⟩ := Go.bind_eq_ok.1 h
      cases h
      unfold sendClose at hs
      split_ifs at hs
      · obtain ⟨⟨c₂, o₂, sent⟩, he, hs⟩ := Go.bind_eq_ok.1 hs
        obtain ⟨ep, fs, hsend, rfl, rfl⟩ := encryptSend_spec he
        cases hs
        exact .hangup rfl rfl hsend.rekeys (fun _ => hsend.frame.2.2.2.1) rfl (by simp)
          (.inr ⟨ep, sent, hsend⟩)
      · cases hs
        exact .hangup rfl rfl rfl (fun _ => rfl) rfl (by simp) (.inl rfl)
    | tun pkt =>
      simp only [sendPacket] at h
      split_ifs at h
      · cases h
        exact .idle (by simp) rfl nofun
      · obtain ⟨⟨c₂, o₂, sent⟩, he, h⟩ := Go.bind_eq_ok.1 h
        obtain ⟨ep, fs, hsend, rfl, rfl⟩ := encryptSend_spec he
        cases sent with
        | false => cases h; exact .sent hp (by simp) (by simp) hsend rfl (by simp)
        | true => cases h; exact .sent hp (by simp) (by simp) hsend rfl (by simp)
    | keepalive =>
      simp only [keepalive] at h
      split_ifs at h with h1 h2
      · cases h; exact hgone
      · obtain ⟨⟨c₂, o₂, sent⟩, he, h⟩ := Go.bind_eq_ok.1 h
        obtain ⟨ep, fs, hsend, rfl, rfl⟩ := encryptSend_spec he
        obtain ⟨⟨c₃, o₃⟩, hm, h⟩ := Go.bind_eq_ok.1 h
        cases h
        exact .keepalive hp h2.1 (by simpa using h2.2) hsend (maybeRekey_spec hm)
      · cases h
        refine hidle (by simp) fun _ _ hconn => ?_
        simpa [hconn] using h2
    | decoy =>
      simp only [decoy] at h
      split_ifs at h
      · obtain ⟨⟨c₂, o₂, sent⟩, he, h⟩ := Go.bind_eq_ok.1 h
        obtain ⟨ep, fs, hsend, rfl, rfl⟩ := encryptSend_spec he
        cases h
        exact .sent hp (by simp) (by simp) hsend rfl (by simp)
      · cases h; exact hidle (by simp) nofun
    | _ => cases h; exact hidle (by simp) nofun

/-! ### A client of the plain suite -/

/-- An outside that permits everything, for the plain suite. -/
def plainEnv (now : ℤ) (seed : UInt8) : ClientEnv plain where
  now := now
  dialOk := true
  tag := ⟨1, 2, 3, 4⟩
  seed := seed
  send := ⟨default, true⟩
  send₂ := ⟨default, true⟩
  tunOk := true
  decoyLen := 0
  decoyFill _ := 0

/-- The client 42 of the server 2, with times in seconds; it rekeys after 20 of them. -/
def plainConfig : ClientConfig where
  keypair := ⟨[41], [42]⟩
  serverPublic := [2]
  mtu := 1400
  sessionTimeout := 60
  handshakeTimeout := 10
  rekeyAfterPackets := 0
  rekeyAfterTime := 20
  shaping := { padding := .none, padTo := 0, bucket := 0, randMax := 0, decoyInterval := 0 }

end Client

end VibeVpn

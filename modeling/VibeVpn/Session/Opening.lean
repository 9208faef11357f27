import VibeVpn.Session.Cookie
import VibeVpn.Session.RekeyProgress

/-!
# The handshake completes

A connection opens with a dialogue in which one message at a time is on its way: the client's first
message, perhaps a cookie challenge and the first message again, the answer, the third message, and
the frame with the client's address.  `Conn.Stage` lists where the dialogue can be, with the number
of messages still to come after the one in flight.

Over a carrier that keeps the order and takes what it is given, for a client that the server admits,
and as long as nobody is cancelled and no timer runs out (`Conn.openingLts`), the dialogue never
gets stuck:

* `Conn.Stage.step` : every delivery takes it to the next message, and nothing else moves it;
* `Conn.handshake_completes` : **the connection is established after at most five deliveries, and
  the client has its address after at most six**; until then a message is in flight, and nothing
  but a delivery moves the dialogue.

The first of the two states is `Conn.Settled`, from which the results about a connection over an
ordered carrier start.
-/

namespace VibeVpn

variable {S : Suite}

/-! ### One message at a time -/

namespace ServerSession

variable {cfg : ServerConfig} {env : ServerEnv S} {s s' : ServerSession S} {o : Out S}
  {up : Bool} {data m : Bytes}

/-- A raw message that is neither empty nor too long is sent. -/
theorem sendRaw_ok {b : Bytes} (h₀ : b.length ≠ 0) (h₁ : b.length ≤ maxPayload)
    (hok : env.send.ok = true) : sendRaw env b = ({ raw := [(b, true)] }, none) := by
  have hfits : ¬ (b.length = 0 ∨ maxPayload < b.length) := by omega
  rw [sendRaw, if_neg hfits, hok]
  rfl

/-- A datagram that is handled without a fatal error. -/
theorem step_of_handle {err : Option SessionErr}
    (h : { s with lastRecv := env.now }.handle cfg env data = .ok (s', o, err))
    (he : err ≠ some .fatal) : s.step cfg env (.recv (some data)) = .ok (s', o, true) := by
  simp [step, loop, drainRecv, h, he]

/-- A session that is to challenge the client sends a cookie. -/
theorem step_challenge (hk : s.keys = none) (hh : s.hs = none) {c : Bytes}
    (hd : decision env { s with lastRecv := env.now } data = .ok (.challenge c))
    (hc : c.length = cookieLen) (hok : env.send.ok = true) :
    s.step cfg env (.recv (some data)) =
      .ok ({ s with lastRecv := env.now }, { raw := [(c, true)] }, true) := by
  have hsend : sendRaw env c = ({ raw := [(c, true)] }, none) :=
    sendRaw_ok (by rw [hc]; decide) (by rw [hc]; decide) hok
  have hhandle : { s with lastRecv := env.now }.handle cfg env data =
      .ok ({ s with lastRecv := env.now }, { raw := [(c, true)] }, none) := by
    rw [handle_of_fresh (s := { s with lastRecv := env.now }) hk hh,
      handshake1_eq (s := { s with lastRecv := env.now }) cfg env hk hh, hd, Except.map]
    simp only [hsend]
  exact step_of_handle hhandle (by rintro ⟨⟩)

/-- A session that reads the first message answers it. -/
theorem step_noise (hk : s.keys = none) (hh : s.hs = none)
    (hd : decision env { s with lastRecv := env.now } data = .ok (.noise m)) {r : S.HS}
    {st st₂ : HsStep S.HS S.Key} (hnew : S.newServerHandshake cfg.keypair = some r)
    (hread : S.read r m = some st) (hlen : st.out.length = 4)
    (hwrite : S.write st.hs env.seed [] = some st₂) (h₂ : st₂.out.length = 48)
    (hok : env.send.ok = true) :
    s.step cfg env (.recv (some data)) =
      .ok ({ s with lastRecv := env.now, tag := Byte4.copyOf st.out, hs := some st₂.hs },
        { raw := [(st₂.out, true)] }, true) := by
  have hsend : sendRaw env st₂.out = ({ raw := [(st₂.out, true)] }, none) :=
    sendRaw_ok (by omega) (by rw [h₂]; decide) hok
  have hhandle : { s with lastRecv := env.now }.handle cfg env data =
      .ok ({ s with lastRecv := env.now, tag := Byte4.copyOf st.out, hs := some st₂.hs },
        { raw := [(st₂.out, true)] }, none) := by
    rw [handle_of_fresh (s := { s with lastRecv := env.now }) hk hh,
      handshake1_eq (s := { s with lastRecv := env.now }) cfg env hk hh, hd, Except.map]
    simp only [respond, hnew, hread, hlen, ne_eq, not_true_eq_false, if_false, hwrite, hsend]
  exact step_of_handle hhandle (by rintro ⟨⟩)

/-- A session that reads the third message of a client it admits installs its keys and sends the
client its address. -/
theorem step_third (hk : s.keys = none) (hr : s.rekeying = false) {h : S.HS}
    (hh : s.hs = some h) {st : HsStep S.HS S.Key} (hread : S.read h data = some st)
    (hallow : env.allowPeer (S.peerStatic st.hs) = true) {ip : Byte4}
    (hip : env.adopt (S.peerStatic st.hs) = .ok (some ip)) {ks : S.Key × S.Key}
    (hks : st.keys = some ks) (hok : env.send.ok = true)
    (hstep : s.step cfg env (.recv (some data)) = .ok (s', o, up)) :
    up = true ∧ s'.keys = some (newKeys S false ks).advance ∧ s'.hs = none ∧ s'.ip = some ip ∧
      s'.clientKey = some (S.peerStatic st.hs) ∧ s'.tag = s.tag ∧
      (s'.rekeying = false ∧ s'.rekeyHs = s.rekeyHs ∧ s'.stats.rekeys = s.stats.rekeys) ∧
      ∃ f, (newKeys S false ks).SealedBy s.tag msgAssign
          (assignPayload cfg.prefixLen ip cfg.gw) f ∧
        o = { frames := [(f, true)], installed := [ks] } := by
  obtain ⟨⟨s₁, o₁, running⟩, hl, hstep⟩ := Go.bind_eq_ok.1 hstep
  obtain ⟨⟨s₂, o₂, err⟩, hhandle, hl⟩ := Go.bind_eq_ok.1 hl
  simp only [handle, hk, hh, Option.isNone_some, Bool.false_eq_true, if_false, handshake3, hread,
    hallow, Bool.not_true, hip, Go.ok_bind, hks] at hhandle
  obtain ⟨⟨s₃, o₃⟩, he, hhandle⟩ := Go.bind_eq_ok.1 hhandle
  obtain ⟨⟨ep, fs, sent⟩, he', heq⟩ := Go.bind_eq_ok.1 he
  have hfree : ¬ Endpoint.Blocked { s.toEndpoint with
      lastRecv := env.now, keys := some (newKeys S false ks) } msgAssign := by
    rintro (hn | ⟨hn, -⟩)
    · cases hn
    · cases hr.symm.trans hn
  have hsent := Endpoint.encryptSend_sent he' hfree
  have hsends := Endpoint.encryptSend_spec he'
  cases heq
  cases hhandle
  cases hl
  cases hstep
  rw [hok] at hsent
  subst hsent
  cases hsends with
  | sealed hk' _ hby hrekeys =>
    cases hk'
    exact ⟨rfl, rfl, rfl, rfl, rfl, rfl, ⟨hr, rfl, hrekeys⟩, _, hby, rfl⟩

/-- Before the handshake is complete, only a datagram or the end of the session changes it. -/
theorem step_quiet (hk : s.keys = none) (hr : s.rekeying = false) {e : Event}
    (hd : e.isDatagram = false) (hcancel : e ≠ .cancel) (hfail : e ≠ .recv none)
    (htick : e = .tick → env.now - s.created ≤ cfg.handshakeTimeout ∧
      env.now - s.lastRecv ≤ cfg.sessionTimeout) :
    s.step cfg env e = .ok (s, {}, true) := by
  cases e with
  | cancel => exact absurd rfl hcancel
  | recv data =>
    cases data with
    | none => exact absurd rfl hfail
    | some => cases hd
  | reply => simp [step, loop, hk]
  | decoy => simp [step, loop, hk]
  | tick =>
    obtain ⟨hc, hl⟩ := htick rfl
    simp [step, loop, tick, hr, Int.not_lt.2 hc, Int.not_lt.2 hl]

/-- With keys, a session goes on through all other events and sends frames at most. -/
theorem step_keyed (hk : s.keys.isSome = true) {e : Event} (hd : e.isDatagram = false)
    (hcancel : e ≠ .cancel) (hfail : e ≠ .recv none)
    (htick : e = .tick → env.now - s.lastRecv ≤ cfg.sessionTimeout)
    (h : s.step cfg env e = .ok (s', o, up)) :
    up = true ∧ s'.keys.isSome = true ∧ s'.ip = s.ip ∧ s'.clientKey = s.clientKey ∧
      o.raw = [] ∧ o.installed = [] := by
  obtain ⟨⟨s₁, o₁, running⟩, hl, h⟩ := Go.bind_eq_ok.1 h
  have hrun : running = true ∧ s₁.keys.isSome = true ∧ s₁.ip = s.ip ∧ s₁.clientKey = s.clientKey ∧
      o₁.raw = [] ∧ o₁.installed = [] := by
    cases e with
    | cancel => exact absurd rfl hcancel
    | recv data =>
      cases data with
      | none => exact absurd rfl hfail
      | some => cases hd
    | tick =>
      have hlast := Int.not_lt.2 (htick rfl)
      have hkeys : s.keys.isNone = false := by simp [Option.isNone_eq_false_iff, hk]
      simp only [loop, tick, hkeys, Bool.false_eq_true, false_and, if_false, hlast] at hl
      split_ifs at hl <;> cases hl <;> exact ⟨rfl, hk, rfl, rfl, rfl, rfl⟩
    | reply | decoy =>
      simp only [loop] at hl
      split_ifs at hl
      · obtain ⟨ep, fs, sent, hs, rfl, rfl, rfl⟩ := encryptSend_last_spec hl
        exact ⟨rfl, hs.frame.2.2.2.2.trans hk, rfl, rfl, rfl, rfl⟩
      · cases hl
        exact ⟨rfl, hk, rfl, rfl, rfl, rfl⟩
  obtain ⟨rfl, hrest⟩ := hrun
  cases h
  exact ⟨rfl, hrest⟩

end ServerSession

/-- Since when the client has been waiting for the next message of a handshake. -/
def Phase.since : Phase S → Option ℤ
  | .waitReply _ _ _ _ _ since => some since
  | .waitAssign _ since => some since
  | _ => none

namespace Client

variable {cfg : ClientConfig} {env : ClientEnv S} {c : Client S} {data : Bytes}

theorem sendRaw_ok {e : SendEnv} {b : Bytes} (h₀ : b.length ≠ 0) (h₁ : b.length ≤ maxPayload)
    (ht : c.t = true) (hok : e.ok = true) : c.sendRaw e b = .ok ({ raw := [(b, true)] }, true) := by
  have hfits : ¬ (b.length = 0 ∨ maxPayload < b.length) := by omega
  rw [sendRaw, if_neg hfits, ht, hok]
  rfl

/-- While it waits in a handshake, a client takes notice of datagrams only. -/
theorem step_quiet {since : ℤ} (hs : c.phase.since = some since) {e : Event}
    (hd : e.isDatagram = false) (hcancel : e ≠ .cancel) (hfail : e ≠ .recv none)
    (htime : e = .timeout → env.now - since < cfg.handshakeTimeout) :
    c.step cfg env e = .ok (c, {}) := by
  unfold step
  cases hp : c.phase with
  | backoff => rw [hp] at hs; cases hs
  | running => rw [hp] at hs; cases hs
  | stopped => rw [hp] at hs; cases hs
  | waitReply _ _ _ _ _ since' | waitAssign _ since' =>
    rw [hp] at hs
    cases hs
    cases e with
    | cancel => exact absurd rfl hcancel
    | recv data =>
      cases data with
      | none => exact absurd rfl hfail
      | some => cases hd
    | timeout => exact if_neg (Int.not_le.2 (htime rfl))
    | _ => rfl

/-- A client that gets a cookie sends its first message again, with the cookie. -/
theorem step_cookie {hs : S.HS} {m₁ : Bytes} {tag : Byte4} {start since : ℤ}
    (hp : c.phase = .waitReply hs m₁ false tag start since) (ht : c.t = true)
    (hm : m₁.length = ServerSession.hs1Len) (hlen : data.length = cookieLen)
    (hread : S.read hs data = none) (hok : env.send.ok = true) :
    c.step cfg env (.recv (some data)) =
      .ok ({ c with phase := .waitReply hs (m₁ ++ data) true tag start since },
        { raw := [(m₁ ++ data, true)] }) := by
  have hall : (m₁ ++ data).length = 84 := by
    rw [List.length_append, hm, hlen]
    rfl
  have hsend := sendRaw_ok (c := c) (b := m₁ ++ data) (by omega) (by rw [hall]; decide) ht hok
  unfold step
  rw [hp]
  simp only [recvReply, hread, hlen, Bool.not_false, and_self, if_true, hsend, Go.ok_bind]
  rfl

/-- A client that reads the second message sends the third one and has keys. -/
theorem step_second {hs : S.HS} {m₁ : Bytes} {cookie : Bool} {tag : Byte4} {start since : ℤ}
    (hp : c.phase = .waitReply hs m₁ cookie tag start since) (ht : c.t = true)
    {st st₃ : HsStep S.HS S.Key} (hread : S.read hs data = some st)
    (hwrite : S.write st.hs env.seed [] = some st₃) {ks : S.Key × S.Key}
    (hks : st₃.keys = some ks) (h₃ : st₃.out.length ≠ 0 ∧ st₃.out.length ≤ maxPayload)
    (hok : env.send.ok = true) :
    c.step cfg env (.recv (some data)) =
      .ok ({ c with tag, keys := some (newKeys S true ks), phase := .waitAssign start env.now },
        { raw := [(st₃.out, true)], installed := [ks] }) := by
  have hsend := sendRaw_ok (c := c) h₃.1 h₃.2 ht hok
  unfold step
  rw [hp]
  simp only [recvReply, hread, finishHandshake, hwrite, hks, hsend, Go.ok_bind]
  rfl

/-- A client that waits for its address gets it. -/
theorem step_assign {start since : ℤ} (hp : c.phase = .waitAssign start since) {k k' : Keys S}
    (hk : c.keys = some k) {f : Frame} (hop : k.open data = .ok (k', .ok f))
    (htag : f.tag = c.tag) (hty : f.typ = msgAssign) {n : ℕ} {ip gw : Byte4}
    (hpay : f.payload = assignPayload n ip gw) :
    c.step cfg env (.recv (some data)) =
      .ok ({ c with keys := some k' }.assigned env start (n % 2 ^ 8) ip gw, {}) := by
  have hparse : parseAssign (assignPayload n ip gw) = .ok (some (n % 2 ^ 8, ip, gw)) := rfl
  unfold step
  rw [hp]
  simp only [recvAssign, hk, hop, Go.ok_bind, htag, ne_eq, not_true_eq_false, if_false, hty, hpay,
    hparse]
  rfl

end Client

/-- The sizes of a client's messages: the first one is an ephemeral key and a tag besides its
payload, and the third one can be sent. -/
structure Suite.XKSizes (S : Suite) (kp : Keypair) (pub : Bytes) : Prop where
  first : ∀ {i : S.HS} {e : S.Seed} {p : Bytes} {st : HsStep S.HS S.Key},
    S.newClientHandshake kp pub = some i → S.write i e p = some st → st.out.length = 48 + p.length
  third : ∀ {m₁ m₂ m₃ : Bytes} {ks : S.Key × S.Key}, S.Sent3 kp pub m₁ m₂ m₃ ks →
    m₃.length ≠ 0 ∧ m₃.length ≤ maxPayload

/-- A cookie is accepted within an hour. -/
theorem CookieOffice.validCookie_cookieFor (m : CookieOffice) (ip : Bytes) {t t' : UnixTime}
    (h₀ : 0 ≤ t.sec) (hle : t.sec ≤ t'.sec) (hlt : t'.sec ≤ t.sec + 3600) :
    m.validCookie t' ip (m.cookieFor t ip) = true := by
  have hw : t'.window = t.window ∨ t'.window - 1 = t.window := by
    rw [UnixTime.window_eq t h₀, UnixTime.window_eq t' (by omega)]
    omega
  rcases hw with hw | hw <;> simp [validCookie, cookieFor, Cookie.check, hw]

/-- The first frame that the server seals with new keys opens with the client's. -/
theorem Keys.opens_first (hA : S.AeadLaws) {ks : S.Key × S.Key} {tag : Byte4} {typ : UInt8}
    {pt : Bytes} {f : Sealed S} (h : (newKeys S false ks).SealedBy tag typ pt f) :
    ∃ k', (newKeys S true ks).open f.wire = .ok (k', .ok f.frame) := by
  obtain ⟨k', res, hres, hop⟩ := (newKeys S true ks).open_ok f.wire
  have hkey : (newKeys S true ks).recvKey = f.key := h.key.symm
  have hauth : authenticate S (newKeys S true ks).recvKey f.wire = some f.frame := by
    rw [hkey]
    exact f.authenticate_wire hA
  obtain rfl := hop.of_below hauth (.inl rfl)
  exact ⟨k', hres⟩

namespace Conn

variable {cc : ClientConfig} {cs : ServerConfig} {m : CookieOffice} {x x' : Conn S} {l : Label S}
  {n : ℕ} {tag : Byte4} {hs r : S.HS} {m₁ m₂ m₃ b c : Bytes} {ck : Bool} {ks : S.Key × S.Key}
  {ip : Byte4}

/-! ### The assumptions -/

/-- The server admits the client: its key is allowed, there is an address for it, and the cookies
are those of the manager.  The server's clock does not go backwards, and the client's messages are
at most an hour apart. -/
structure Admits (m : CookieOffice) (cc : ClientConfig) (x : Conn S) (env : ServerEnv S) :
    Prop where
  allowed : env.allowPeer cc.keypair.pub = true
  address : ∃ ip, env.adopt cc.keypair.pub = .ok (some ip)
  clock : 0 ≤ x.server.lastRecv ∧ x.server.lastRecv ≤ env.now ∧
    env.now ≤ x.server.lastRecv + 3600 * 10 ^ 9
  cookies : ∃ t : UnixTime, t.sec = env.now / 10 ^ 9 ∧ env.cookieFor = m.cookieFor t ∧
    env.validCookie = m.validCookie t

/-- The server admits the client, nobody is cancelled, no transport fails and no timer runs out. -/
def Patient (m : CookieOffice) (cc : ClientConfig) (cs : ServerConfig) (x : Conn S) :
    Label S → Prop
  | .client env e => e ≠ .cancel ∧ e ≠ .recv none ∧ (e = .timeout →
      ∀ since, x.client.phase.since = some since → env.now - since < cc.handshakeTimeout)
  | .server env e => e ≠ .cancel ∧ e ≠ .recv none ∧ (e = .tick →
      env.now - x.server.created ≤ cs.handshakeTimeout ∧
      env.now - x.server.lastRecv ≤ cs.sessionTimeout)
  | .toServer env _ => Admits m cc x env
  | _ => True

/-- The opening of a connection, over a carrier that keeps the order and takes what it is given. -/
def openingLts (S : Suite) (m : CookieOffice) (cc : ClientConfig) (cs : ServerConfig) :
    LTS (Conn S) (Label S) :=
  (lts S cc cs).restrict fun x l => InSequence l ∧ Reliable l ∧ Patient m cc cs x l

/-- A datagram is delivered. -/
def Label.isDelivery (l : Label S) : Bool := l.isToServer || l.isToClient

/-! ### The stages of the dialogue -/

/-- The client's handshake `hs` has written the first message `m₁`, with the tag. -/
structure Hello (cc : ClientConfig) (tag : Byte4) (m₁ : Bytes) (hs : S.HS) : Prop where
  written : ∃ i e st, S.newClientHandshake cc.keypair cc.serverPublic = some i ∧
    S.write i e tag.toBytes = some st ∧ st.hs = hs ∧ st.out = m₁
  length : m₁.length = ServerSession.hs1Len

/-- The client waits for the answer to its first message, which it last sent as `b`. -/
structure Waiting (x : Conn S) (tag : Byte4) (hs : S.HS) (b : Bytes) (ck : Bool) : Prop where
  phase : ∃ start since, x.client.phase = .waitReply hs b ck tag start since
  transport : x.client.t = true
  idle : x.client.rekeying = false ∧ x.client.rekeyHs = none
  keys : x.clientKeys = []

/-- The server session has no keys yet. -/
structure Keyless (x : Conn S) : Prop where
  up : x.up = true
  keys : x.server.keys = none
  idle : x.server.rekeying = false ∧ x.server.rekeyHs = none ∧ x.server.stats.rekeys = 0
  serverKeys : x.serverKeys = []

/-- The cookie was issued to the client by the server session when it last received something. -/
def Issued (m : CookieOffice) (x : Conn S) (c : Bytes) : Prop :=
  ∃ ip t, x.server.peerIP = some ip ∧ c = m.cookieFor t ip ∧ t.sec = x.server.lastRecv / 10 ^ 9

/-- The server session has answered the first message `m₁` by `m₂`. -/
structure Answers (cs : ServerConfig) (x : Conn S) (tag : Byte4) (m₁ m₂ : Bytes) (r : S.HS) :
    Prop extends Keyless x where
  hs : x.server.hs = some r
  answered : S.Answered cs.keypair m₁ m₂ r
  tag_eq : x.server.tag = tag

/-- The client has keys and waits for its address. -/
structure Keyed (cc : ClientConfig) (x : Conn S) (tag : Byte4) (m₁ m₂ m₃ : Bytes)
    (ks : S.Key × S.Key) : Prop where
  phase : ∃ start since, x.client.phase = .waitAssign start since
  keys : x.client.keys = some (newKeys S true ks)
  idle : x.client.rekeying = false ∧ x.client.rekeyHs = none
  tag_eq : x.client.tag = tag
  sent3 : S.Sent3 cc.keypair cc.serverPublic m₁ m₂ m₃ ks
  clientKeys : x.clientKeys = [ks]

/-- Where the dialogue is before the server has keys: the message in flight, and how many are to
come before the third one is handed over. -/
inductive Stage (m : CookieOffice) (cc : ClientConfig) (cs : ServerConfig) : ℕ → Conn S → Prop where
  /-- The first message. -/
  | greeted {x : Conn S} {tag : Byte4} {hs : S.HS} {m₁ : Bytes} :
      Hello cc tag m₁ hs → Waiting x tag hs m₁ false → Keyless x → x.server.hs = none →
      x.c2s = [.raw m₁] → x.s2c = [] → Stage m cc cs 4 x
  /-- A cookie. -/
  | challenged {x : Conn S} {tag : Byte4} {hs : S.HS} {m₁ c : Bytes} :
      Hello cc tag m₁ hs → Waiting x tag hs m₁ false → Keyless x → x.server.hs = none →
      Issued m x c → x.c2s = [] → x.s2c = [.raw c] → Stage m cc cs 3 x
  /-- The first message, with the cookie. -/
  | retried {x : Conn S} {tag : Byte4} {hs : S.HS} {m₁ c : Bytes} :
      Hello cc tag m₁ hs → Waiting x tag hs (m₁ ++ c) true → Keyless x → x.server.hs = none →
      Issued m x c → x.c2s = [.raw (m₁ ++ c)] → x.s2c = [] → Stage m cc cs 2 x
  /-- The second message. -/
  | answered {x : Conn S} {tag : Byte4} {hs r : S.HS} {m₁ m₂ b : Bytes} {ck : Bool} :
      Hello cc tag m₁ hs → Waiting x tag hs b ck → Answers cs x tag m₁ m₂ r →
      x.c2s = [] → x.s2c = [.raw m₂] → Stage m cc cs 1 x
  /-- The third message. -/
  | keyed {x : Conn S} {tag : Byte4} {r : S.HS} {m₁ m₂ m₃ : Bytes} {ks : S.Key × S.Key} :
      Keyed cc x tag m₁ m₂ m₃ ks → Answers cs x tag m₁ m₂ r →
      x.c2s = [.raw m₃] → x.s2c = [] → Stage m cc cs 0 x

/-- The address is on its way to the client, before anything else. -/
structure Assigning (cc : ClientConfig) (cs : ServerConfig) (ks : S.Key × S.Key) (ip : Byte4)
    (x : Conn S) : Prop where
  phase : ∃ start since, x.client.phase = .waitAssign start since
  keys : x.client.keys = some (newKeys S true ks)
  clientKeys : x.clientKeys = [ks]
  c2s : x.c2s = []
  s2c : ∃ f k' q, x.s2c = .frame f :: q ∧ (newKeys S true ks).open f.wire = .ok (k', .ok f.frame) ∧
    f.tag = x.client.tag ∧ f.typ = msgAssign ∧ f.payload = assignPayload cs.prefixLen ip cs.gw
  up : x.up = true
  server : x.server.keys.isSome = true ∧ x.server.ip = some ip ∧
    x.server.clientKey = some cc.keypair.pub
  serverKeys : x.serverKeys = [ks]

/-- The client has its address. -/
structure Connected (cc : ClientConfig) (cs : ServerConfig) (ks : S.Key × S.Key) (ip : Byte4)
    (x : Conn S) : Prop where
  phase : x.client.phase = .running
  connected : x.client.connected = true
  address : x.client.ip = some ip ∧ x.client.gw = some cs.gw ∧
    x.client.prefixLen = cs.prefixLen % 2 ^ 8
  up : x.up = true
  server : x.server.ip = some ip ∧ x.server.clientKey = some cc.keypair.pub
  keys : x.clientKeys = [ks] ∧ x.serverKeys = [ks]

/-! ### From one stage to the next -/

theorem Hello.sent1 (h : Hello cc tag m₁ hs) : S.Sent1 cc.keypair cc.serverPublic m₁ hs := by
  obtain ⟨i, e, st, hnew, hwrite, hst, hout⟩ := h.written
  exact ⟨i, e, _, st, hnew, hwrite, hst, hout⟩

theorem clientMove_self (x : Conn S) (now : ℤ) : x.clientMove now x.client {} = x := by
  simp [clientMove, Out.sent]

theorem serverMove_self (h : x.up = true) : x.serverMove x.server true {} = x := by
  simp [serverMove, Out.sent, ← h]

/-- A client that waits in the handshake does nothing unless it is handed a datagram. -/
theorem client_quiet {since : ℤ} (hs : x.client.phase.since = some since) {env : ClientEnv S}
    {e : Client.Event} (hd : e.isDatagram = false) (hpat : Patient m cc cs x (.client env e))
    {c' : Client S} {o : Out S} (h : x.client.step cc env e = .ok (c', o)) :
    x.clientMove env.now c' o = x := by
  rw [Client.step_quiet hs hd hpat.1 hpat.2.1 fun he => hpat.2.2 he since hs] at h
  cases h
  exact clientMove_self x env.now

/-- While neither end is handed a datagram, nothing happens. -/
theorem quiet_step {since : ℤ} (hs : x.client.phase.since = some since) (hk : Keyless x)
    (hst : (openingLts S m cc cs).step x l x') (hl : l.isDelivery = false) : x' = x := by
  obtain ⟨⟨hseq, -, hpat⟩, hstep⟩ := hst
  cases hstep with
  | client hlive hd h => exact client_quiet hs hd hpat h
  | toClient => cases hl
  | server hup hd h =>
    rw [ServerSession.step_quiet hk.keys hk.idle.1 hd hpat.1 hpat.2.1 hpat.2.2] at h
    cases h
    exact serverMove_self hup
  | toServer => cases hl
  | faultC2S => exact hseq.elim
  | faultS2C => exact hseq.elim

/-- The server answers the first message. -/
theorem Stage.of_noise (hX : S.XKLaws) (hT : S.XKProgress) (hpub : Paired S cc cs)
    (hh : Hello cc tag m₁ hs) (hw : Waiting x tag hs b ck) (hk : Keyless x)
    (hnone : x.server.hs = none) (hs2c : x.s2c = []) {env : ServerEnv S} {data : Bytes}
    (hok : env.send.ok = true)
    (hd : ServerSession.decision env { x.server with lastRecv := env.now } data =
      .ok (.noise m₁)) {s' : ServerSession S} {o : Out S} {up : Bool}
    (h : x.server.step cs env (.recv (some data)) = .ok (s', o, up)) :
    Stage m cc cs 1 ({ x with c2s := [] }.serverMove s' up o) := by
  obtain ⟨i, e, st, hi, hwr, hst, hout⟩ := hh.written
  obtain ⟨r, st₁, st₂, hr, h₁, h₂⟩ :=
    hT.answers env.seed hpub.client hpub.server (hpub.pins ▸ hh.sent1)
  have hpay : st₁.out = tag.toBytes := hX.first_payload hi hwr hr (hout ▸ h₁)
  have hans : S.Answered cs.keypair m₁ st₂.out st₂.hs :=
    ⟨r, env.seed, st₁, st₂, hr, h₁, h₂, rfl, rfl⟩
  have hlen : st₁.out.length = 4 := by rw [hpay, Byte4.length_toBytes]
  rw [ServerSession.step_noise hk.keys hnone hd hr h₁ hlen h₂ (hX.second_length hans) hok] at h
  cases h
  refine .answered hh ⟨hw.phase, hw.transport, hw.idle, hw.keys⟩ ⟨?_, rfl, hans, ?_⟩ rfl ?_
  · exact ⟨rfl, hk.keys, hk.idle, (List.append_nil _).trans hk.serverKeys⟩
  · show Byte4.copyOf st₁.out = tag
    rw [hpay, Byte4.copyOf_toBytes]
  · simp [serverMove, Out.sent, hs2c]

/-- The server is handed the first message: it asks for a cookie or answers. -/
theorem Stage.of_greeted (hX : S.XKLaws) (hT : S.XKProgress)
    (hpub : Paired S cc cs) (hh : Hello cc tag m₁ hs)
    (hw : Waiting x tag hs m₁ false) (hk : Keyless x) (hnone : x.server.hs = none)
    (hs2c : x.s2c = []) {env : ServerEnv S} (hok : env.send.ok = true) (ha : Admits m cc x env)
    {s' : ServerSession S} {o : Out S} {up : Bool}
    (h : x.server.step cs env (.recv (some m₁)) = .ok (s', o, up)) :
    ∃ n ≤ 3, Stage m cc cs n ({ x with c2s := [] }.serverMove s' up o) := by
  cases hc : ServerSession.challenge env x.server none with
  | none =>
    have hc' : ServerSession.challenge env { x.server with lastRecv := env.now } none = none := hc
    have hdec : ServerSession.decision env { x.server with lastRecv := env.now } m₁ =
        .ok (.noise m₁) := by
      simp only [ServerSession.decision, splitCookie_of_length hh.length, Go.ok_bind, hc']
      rfl
    exact ⟨1, by decide, .of_noise hX hT hpub hh hw hk hnone hs2c hok hdec h⟩
  | some c =>
    have hc' : ServerSession.challenge env { x.server with lastRecv := env.now } none = some c := hc
    have hdec : ServerSession.decision env { x.server with lastRecv := env.now } m₁ =
        .ok (.challenge c) := by
      simp only [ServerSession.decision, splitCookie_of_length hh.length, Go.ok_bind, hc']
      rfl
    -- only a client whose address is known is challenged
    obtain ⟨ip, hip, rfl⟩ : ∃ ip, x.server.peerIP = some ip ∧ c = env.cookieFor ip := by
      cases hip : x.server.peerIP with
      | none => simp [ServerSession.challenge, hip] at hc
      | some ip =>
        simp only [ServerSession.challenge, hip, Option.ite_none_right_eq_some,
          Option.some.injEq] at hc
        exact ⟨ip, rfl, hc.2.symm⟩
    obtain ⟨t, ht, hfor, -⟩ := ha.cookies
    have hlen : (env.cookieFor ip).length = cookieLen := by rw [hfor, m.length_cookieFor]
    rw [ServerSession.step_challenge hk.keys hnone hdec hlen hok] at h
    cases h
    refine ⟨3, Nat.le_refl 3, .challenged hh ⟨hw.phase, hw.transport, hw.idle, hw.keys⟩ ?_ hnone
      ⟨ip, t, hip, congrFun hfor ip, ht⟩ rfl ?_⟩
    · exact ⟨rfl, hk.keys, hk.idle, (List.append_nil _).trans hk.serverKeys⟩
    · simp [serverMove, Out.sent, hs2c]

/-- The client is handed a cookie: it sends its first message again. -/
theorem Stage.of_challenged
    (hcookie : ∀ {m₁ : Bytes} {i : S.HS} (t : UnixTime) (ip : Bytes),
      S.Sent1 cc.keypair cc.serverPublic m₁ i → S.read i (m.cookieFor t ip) = none)
    (hh : Hello cc tag m₁ hs) (hw : Waiting x tag hs m₁ false) (hk : Keyless x)
    (hnone : x.server.hs = none) (hi : Issued m x c) (hc2s : x.c2s = []) {env : ClientEnv S}
    (hok : env.send.ok = true) {c' : Client S} {o : Out S}
    (h : x.client.step cc env (.recv (some c)) = .ok (c', o)) :
    Stage m cc cs 2 ({ x with s2c := [] }.clientMove env.now c' o) := by
  obtain ⟨start, since, hp⟩ := hw.phase
  have hlen : c.length = cookieLen := by
    obtain ⟨ip, t, -, rfl, -⟩ := hi
    exact m.length_cookieFor t ip
  have hread : S.read hs c = none := by
    obtain ⟨ip, t, -, rfl, -⟩ := hi
    exact hcookie t ip hh.sent1
  rw [Client.step_cookie hp hw.transport hh.length hlen hread hok] at h
  cases h
  refine .retried hh ⟨⟨start, since, rfl⟩, hw.transport, hw.idle, ?_⟩
    ⟨hk.up, hk.keys, hk.idle, hk.serverKeys⟩ hnone hi ?_ rfl
  · exact (List.append_nil _).trans hw.keys
  · simp [clientMove, Out.sent, hc2s]

/-- The server is handed the first message with the cookie: it answers. -/
theorem Stage.of_retried (hX : S.XKLaws) (hT : S.XKProgress)
    (hpub : Paired S cc cs) (hh : Hello cc tag m₁ hs)
    (hw : Waiting x tag hs (m₁ ++ c) true) (hk : Keyless x) (hnone : x.server.hs = none)
    (hi : Issued m x c) (hs2c : x.s2c = []) {env : ServerEnv S} (hok : env.send.ok = true)
    (ha : Admits m cc x env) {s' : ServerSession S} {o : Out S} {up : Bool}
    (h : x.server.step cs env (.recv (some (m₁ ++ c))) = .ok (s', o, up)) :
    Stage m cc cs 1 ({ x with c2s := [] }.serverMove s' up o) := by
  obtain ⟨ip, t, hip, rfl, ht⟩ := hi
  obtain ⟨t', ht', -, hvalid⟩ := ha.cookies
  obtain ⟨h₀, hle, hlt⟩ := ha.clock
  have haccept : env.validCookie ip (m.cookieFor t ip) = true := by
    rw [hvalid]
    exact m.validCookie_cookieFor ip (by omega) (by omega) (by omega)
  have hpeer : ServerSession.peerIP { x.server with lastRecv := env.now } = some ip := hip
  have hdec := ServerSession.decision_cookie hpeer hh.length (m.length_cookieFor t ip) env
  rw [haccept, if_pos rfl] at hdec
  exact .of_noise hX hT hpub hh hw hk hnone hs2c hok hdec h

/-- The client is handed the second message: it sends the third one and has keys. -/
theorem Stage.of_answered (hX : S.XKLaws) (hT : S.XKProgress)
    (hL : S.XKSizes cc.keypair cc.serverPublic) (hpub : Paired S cc cs)
    (hh : Hello cc tag m₁ hs) (hw : Waiting x tag hs b ck) (ha : Answers cs x tag m₁ m₂ r)
    (hc2s : x.c2s = []) {env : ClientEnv S} (hok : env.send.ok = true) {c' : Client S} {o : Out S}
    (h : x.client.step cc env (.recv (some m₂)) = .ok (c', o)) :
    Stage m cc cs 0 ({ x with s2c := [] }.clientMove env.now c' o) := by
  obtain ⟨start, since, hp⟩ := hw.phase
  obtain ⟨st, st₃, hread, hwrite⟩ :=
    hT.continues env.seed hpub.client hpub.server (hpub.pins ▸ hh.sent1) ha.answered
  have hgot : S.Got2 cc.keypair cc.serverPublic m₁ m₂ st.hs := ⟨hs, st, hh.sent1, hread, rfl⟩
  obtain ⟨ks, hks⟩ := Option.isSome_iff_exists.1 (hX.third_complete hgot hwrite)
  have hsent : S.Sent3 cc.keypair cc.serverPublic m₁ m₂ st₃.out ks :=
    ⟨st.hs, env.seed, [], st₃, hgot, hwrite, rfl, hks⟩
  rw [Client.step_second hp hw.transport hread hwrite hks (hL.third hsent) hok] at h
  cases h
  refine .keyed ⟨⟨start, env.now, rfl⟩, rfl, hw.idle, rfl, hsent, ?_⟩
    ⟨⟨ha.up, ha.keys, ha.idle, ha.serverKeys⟩, ha.hs, ha.answered, ha.tag_eq⟩ ?_ rfl
  · exact (congrArg (· ++ [ks]) hw.keys)
  · simp [clientMove, Out.sent, hc2s]

/-- The server is handed the third message: the connection is established, and the client's address
is on its way. -/
theorem Keyed.settled (hA : S.AeadLaws) (hX : S.XKLaws) (hpub : Paired S cc cs)
    (hc : Keyed cc x tag m₁ m₂ m₃ ks) (ha : Answers cs x tag m₁ m₂ r) (hs2c : x.s2c = [])
    {env : ServerEnv S} (hok : env.send.ok = true) (had : Admits m cc x env)
    {s' : ServerSession S} {o : Out S} {up : Bool}
    (h : x.server.step cs env (.recv (some m₃)) = .ok (s', o, up)) :
    ∃ ip, Settled cc ks ({ x with c2s := [] }.serverMove s' up o) ∧
      Assigning cc cs ks ip ({ x with c2s := [] }.serverMove s' up o) := by
  obtain ⟨st, hread, hks⟩ := hX.complete hpub.client hpub.server (hpub.pins ▸ hc.sent3) ha.answered
  obtain ⟨-, hpeer⟩ := hX.agree hc.sent3 ha.answered hread hks
  obtain ⟨ip, hip⟩ := had.address
  obtain ⟨rfl, hkeys, hnone, hsip, hkey, htag, hidle, f, hby, rfl⟩ :=
    ServerSession.step_third ha.keys ha.idle.1 ha.hs hread (hpeer ▸ had.allowed)
      (hpeer.symm ▸ hip) hks hok h
  have hq : ({ x with c2s := [] }.serverMove s' true
      { frames := [(f, true)], installed := [ks] }).s2c = [.frame f] := by
    simp [serverMove, Out.sent, hs2c]
  have hctr : f.ctr = 0 := hby.ctr
  have htag' : x.client.tag = s'.tag := hc.tag_eq.trans (ha.tag_eq.symm.trans htag.symm)
  have hkey' : s'.clientKey = some cc.keypair.pub := by rw [hkey, hpeer]
  have hserverKeys : x.serverKeys ++ [ks] = [ks] := congrArg (· ++ [ks]) ha.serverKeys
  refine ⟨ip, ⟨⟨⟨?_, hc.keys⟩, ⟨_, hkeys, rfl, rfl⟩, ⟨hc.idle.1, hc.idle.2, hidle.1, ?_, ?_⟩,
    ⟨hnone, htag', hkey'⟩, ⟨hc.clientKeys, hserverKeys⟩, ?_, ?_⟩, ?_⟩, ?_⟩
  · obtain ⟨start, since, hp⟩ := hc.phase
    show x.client.phase.keyed = true
    rw [hp]
    rfl
  · exact hidle.2.1.trans ha.idle.2.1
  · exact hidle.2.2.trans ha.idle.2.2
  · exact fun p hp => absurd hp List.not_mem_nil
  · intro g hg
    rw [hq] at hg
    obtain rfl := Packet.frame.inj (List.mem_singleton.1 hg)
    exact ⟨hby.key, by rw [hby.typ]; decide⟩
  · have hlt : f.ctr < (newKeys S false ks).advance.sendSeq := hctr ▸ Nat.zero_lt_succ _
    exact ⟨f, _, hq, hkeys, hby.tag.trans htag.symm, hlt, by rw [hctr]; decide, hby.typ,
      by rw [hby.payload, length_assignPayload]⟩
  · obtain ⟨k', hk'⟩ := Keys.opens_first hA hby
    have hftag : f.tag = x.client.tag := (hby.tag.trans htag.symm).trans htag'.symm
    have hsome : s'.keys.isSome = true := by rw [hkeys]; rfl
    exact ⟨hc.phase, hc.keys, hc.clientKeys, rfl, ⟨f, k', [], hq, hk', hftag, hby.typ, hby.payload⟩,
      rfl, ⟨hsome, hsip, hkey'⟩, hserverKeys⟩

/-- Nothing but a delivery moves the dialogue. -/
theorem Stage.quiet (h : Stage m cc cs n x) (hst : (openingLts S m cc cs).step x l x')
    (hl : l.isDelivery = false) : x' = x := by
  obtain ⟨⟨since, hs⟩, hk⟩ : (∃ since, x.client.phase.since = some since) ∧ Keyless x := by
    cases h with
    | greeted _ hw hk | challenged _ hw hk | retried _ hw hk =>
      obtain ⟨start, since, hp⟩ := hw.phase
      exact ⟨⟨since, by rw [hp]; rfl⟩, hk⟩
    | answered _ hw ha =>
      obtain ⟨start, since, hp⟩ := hw.phase
      exact ⟨⟨since, by rw [hp]; rfl⟩, ha.toKeyless⟩
    | keyed hc ha =>
      obtain ⟨start, since, hp⟩ := hc.phase
      exact ⟨⟨since, by rw [hp]; rfl⟩, ha.toKeyless⟩
  exact quiet_step hs hk hst hl

/-- **Every delivery takes the dialogue to its next message**, and the one of the third message
establishes the connection. -/
theorem Stage.step (hA : S.AeadLaws) (hX : S.XKLaws) (hT : S.XKProgress)
    (hL : S.XKSizes cc.keypair cc.serverPublic) (hpub : Paired S cc cs)
    (hcookie : ∀ {m₁ : Bytes} {i : S.HS} (t : UnixTime) (ip : Bytes),
      S.Sent1 cc.keypair cc.serverPublic m₁ i → S.read i (m.cookieFor t ip) = none)
    (h : Stage m cc cs n x) (hst : (openingLts S m cc cs).step x l x') :
    (∃ ks ip, Settled cc ks x' ∧ Assigning cc cs ks ip x') ∨
      ∃ n', Stage m cc cs n' x' ∧ n' + (if l.isDelivery then 1 else 0) ≤ n := by
  cases hl : l.isDelivery with
  | false =>
    rw [h.quiet hst hl]
    exact .inr ⟨n, h, Nat.le_refl n⟩
  | true =>
    obtain ⟨⟨hseq, hok, hpat⟩, hstep⟩ := hst
    cases hstep with
    | client => cases hl
    | server => cases hl
    | faultC2S => cases hl
    | faultS2C => cases hl
    | @toServer env i p s' o up hup hp hs =>
      obtain rfl : i = 0 := hseq
      cases h with
      | greeted hh hw hk hnone hc2s hs2c =>
        rw [hc2s] at hp ⊢
        cases hp
        obtain ⟨n', hle, hn'⟩ := Stage.of_greeted hX hT hpub hh hw hk hnone hs2c hok hpat hs
        exact .inr ⟨n', hn', Nat.succ_le_succ hle⟩
      | challenged _ _ _ _ _ hc2s => rw [hc2s] at hp; cases hp
      | retried hh hw hk hnone hi hc2s hs2c =>
        rw [hc2s] at hp ⊢
        cases hp
        exact .inr ⟨1, .of_retried hX hT hpub hh hw hk hnone hi hs2c hok hpat hs, Nat.le_refl 2⟩
      | answered _ _ _ hc2s => rw [hc2s] at hp; cases hp
      | keyed hc ha hc2s hs2c =>
        rw [hc2s] at hp ⊢
        cases hp
        obtain ⟨ip, hset, hasg⟩ := hc.settled hA hX hpub ha hs2c hok hpat hs
        exact .inl ⟨_, ip, hset, hasg⟩
    | @toClient env i p c' o hlive hp hs =>
      obtain rfl : i = 0 := hseq
      cases h with
      | greeted _ _ _ _ _ hs2c => rw [hs2c] at hp; cases hp
      | challenged hh hw hk hnone hi hc2s hs2c =>
        rw [hs2c] at hp ⊢
        cases hp
        exact .inr ⟨2, .of_challenged hcookie hh hw hk hnone hi hc2s hok hs, Nat.le_refl 3⟩
      | retried _ _ _ _ _ _ hs2c => rw [hs2c] at hp; cases hp
      | answered hh hw ha hc2s hs2c =>
        rw [hs2c] at hp ⊢
        cases hp
        exact .inr ⟨0, .of_answered hX hT hL hpub hh hw ha hc2s hok hs, Nat.le_refl 1⟩
      | keyed _ _ _ hs2c => rw [hs2c] at hp; cases hp

/-- **The next delivery gives the client its address.** -/
theorem Assigning.step (h : Assigning cc cs ks ip x) (hst : (openingLts S m cc cs).step x l x') :
    Connected cc cs ks ip x' ∨ Assigning cc cs ks ip x' ∧ l.isDelivery = false := by
  obtain ⟨⟨hseq, -, hpat⟩, hstep⟩ := hst
  obtain ⟨start, since, hph⟩ := h.phase
  obtain ⟨f, k', q, hq, hop, htag, hty, hpay⟩ := h.s2c
  cases hstep with
  | client hlive hd hs =>
    have hs₀ : x.client.phase.since = some since := by rw [hph]; rfl
    rw [client_quiet hs₀ hd hpat hs]
    exact .inr ⟨h, rfl⟩
  | @toClient env i p c' o hlive hp hs =>
    obtain rfl : i = 0 := hseq
    rw [hq] at hp
    cases hp
    rw [Packet.wire, Client.step_assign hph h.keys hop htag hty hpay] at hs
    cases hs
    refine .inl ⟨rfl, rfl, ⟨rfl, rfl, rfl⟩, h.up, h.server.2, ?_, h.serverKeys⟩
    exact (List.append_nil _).trans h.clientKeys
  | @server env e s' o up hup hd hs =>
    obtain ⟨rfl, hkeys, hip, hkey, hraw, hin⟩ := ServerSession.step_keyed h.server.1 hd hpat.1
      hpat.2.1 (fun he => (hpat.2.2 he).2) hs
    refine .inr ⟨⟨h.phase, h.keys, h.clientKeys, h.c2s, ⟨f, k', q ++ o.sent, ?_, hop, htag, hty,
      hpay⟩, rfl, ⟨hkeys, hip.trans h.server.2.1, hkey.trans h.server.2.2⟩, ?_⟩, rfl⟩
    · exact congrArg (· ++ o.sent) hq
    · show x.serverKeys ++ o.installed = [ks]
      rw [hin, List.append_nil]
      exact h.serverKeys
  | toServer _ hp =>
    rw [h.c2s] at hp
    cases hp
  | faultC2S => exact hseq.elim
  | faultS2C => exact hseq.elim

/-- A connection begins with the first message in flight. -/
theorem Begun.stage (hL : S.XKSizes cc.keypair cc.serverPublic) (h : Begun cc x) :
    Stage m cc cs 4 x := by
  obtain ⟨c, c', env, o, sid, peerIP, now, hp, hs, hlive, rfl⟩ := h
  unfold Client.step at hs
  rw [hp] at hs
  obtain ⟨hs₀, st, hnew, hwrite, rfl, rfl⟩ | ⟨⟨t, rfl⟩, -⟩ := Client.connect_spec hs
  · exact .greeted ⟨⟨hs₀, env.seed, st, hnew, hwrite, rfl, rfl⟩, hL.first hnew hwrite⟩
      ⟨⟨env.now, env.now, rfl⟩, rfl, ⟨rfl, rfl⟩, rfl⟩ ⟨rfl, rfl, ⟨rfl, rfl, rfl⟩, rfl⟩
      rfl rfl rfl
  · cases hlive

theorem Stage.inFlight (h : Stage m cc cs n x) : x.c2s ≠ [] ∨ x.s2c ≠ [] := by
  cases h with
  | greeted _ _ _ _ hc => exact .inl (by rw [hc]; exact List.cons_ne_nil _ _)
  | challenged _ _ _ _ _ _ hs => exact .inr (by rw [hs]; exact List.cons_ne_nil _ _)
  | retried _ _ _ _ _ hc => exact .inl (by rw [hc]; exact List.cons_ne_nil _ _)
  | answered _ _ _ _ hs => exact .inr (by rw [hs]; exact List.cons_ne_nil _ _)
  | keyed _ _ hc => exact .inl (by rw [hc]; exact List.cons_ne_nil _ _)

/-- **The handshake completes.**  A run from the client's first message has passed a state `y` in
which the connection was established, after at most five deliveries, and then one in which the
client had its address, after one more; or the connection is established, and the frame with the
address is the next one the client will be handed; or there have been fewer than five deliveries, a
datagram is in flight, and nothing but a delivery changes the connection.  The two ends then agree
on the keys and on the address. -/
theorem handshake_completes (hA : S.AeadLaws) (hX : S.XKLaws) (hT : S.XKProgress)
    (hL : S.XKSizes cc.keypair cc.serverPublic) (hpub : Paired S cc cs)
    (hcookie : ∀ {m₁ : Bytes} {i : S.HS} (t : UnixTime) (ip : Bytes),
      S.Sent1 cc.keypair cc.serverPublic m₁ i → S.read i (m.cookieFor t ip) = none)
    {x₀ : Conn S} {ls : List (Label S)} (h₀ : Begun cc x₀)
    (run : (openingLts S m cc cs).Run x₀ ls x) :
    (∃ l₁ l₂ l₃ y z ks ip, ls = l₁ ++ (l₂ ++ l₃) ∧ l₁.countP Label.isDelivery ≤ 5 ∧
      l₂.countP Label.isDelivery ≤ 1 ∧ (openingLts S m cc cs).Run x₀ l₁ y ∧ Settled cc ks y ∧
      (openingLts S m cc cs).Run y l₂ z ∧ Connected cc cs ks ip z ∧
      (openingLts S m cc cs).Run z l₃ x) ∨
    (∃ l₁ l₂ y ks ip, ls = l₁ ++ l₂ ∧ l₁.countP Label.isDelivery ≤ 5 ∧
      l₂.countP Label.isDelivery = 0 ∧ (openingLts S m cc cs).Run x₀ l₁ y ∧ Settled cc ks y ∧
      (openingLts S m cc cs).Run y l₂ x ∧ Assigning cc cs ks ip x) ∨
    (ls.countP Label.isDelivery < 5 ∧ (x.c2s ≠ [] ∨ x.s2c ≠ []) ∧
      ∀ l x', (openingLts S m cc cs).step x l x' → l.isDelivery = false → x' = x) := by
  have hstart : Stage m cc cs 4 x₀ := h₀.stage hL
  rcases run.passes (fun n x l x' h hst => h.step hA hX hT hL hpub hcookie hst) hstart with
    ⟨l₁, l', y, rfl, hle, run₁, ⟨ks, ip, hset, hasg⟩, run'⟩ | ⟨n, hn, hle⟩
  · have hnext : ∀ n x l x', Assigning cc cs ks ip x → (openingLts S m cc cs).step x l x' →
        Connected cc cs ks ip x' ∨
          ∃ n', Assigning cc cs ks ip x' ∧ n' + (if l.isDelivery then 1 else 0) ≤ n := by
      intro n x l x' h hst
      refine (h.step hst).imp_right fun hstay => ⟨n, hstay.1, ?_⟩
      simp [hstay.2]
    rcases run'.passes (P := fun _ x => Assigning cc cs ks ip x) (i := 0) hnext hasg with
      ⟨l₂, l₃, z, rfl, hle₂, run₂, hz, run₃⟩ | ⟨n, hn, hle₂⟩
    · exact .inl ⟨l₁, l₂, l₃, y, z, ks, ip, rfl, hle, hle₂, run₁, hset, run₂, hz, run₃⟩
    · exact .inr (.inl ⟨l₁, l', y, ks, ip, rfl, hle, by omega, run₁, hset, run', hn⟩)
  · exact .inr (.inr ⟨by omega, hn.inFlight, fun l x' hst hl => hn.quiet hst hl⟩)

/-! ### A client that is challenged -/

/-- A manager of the plain suite. -/
def plainOffice : CookieOffice := ⟨plainMac, []⟩

/-- No cookie of this manager reads as a second message: those start with a 2. -/
theorem read_cookieFor {i : Plain.HS} (h : plain.Sent1 cc.keypair cc.serverPublic m₁ i)
    (t : UnixTime) (ip : Bytes) : plain.read i (plainOffice.cookieFor t ip) = none := by
  obtain ⟨a, p, rfl, -⟩ := Plain.sent1 h
  obtain ⟨rest, hcookie⟩ : ∃ rest, plainOffice.cookieFor t ip =
      UInt8.ofNat ((t.window % 2 ^ 64).toNat / 2 ^ 32 / 2 ^ 24) :: rest := ⟨_, rfl⟩
  have hne : UInt8.ofNat ((t.window % 2 ^ 64).toNat / 2 ^ 32 / 2 ^ 24) ≠ 2 := by
    intro heq
    have hbyte := congrArg UInt8.toNat heq
    rw [UInt8.toNat_ofNat'] at hbyte
    have hge := t.ge
    have hlt := t.lt
    have hsmall : -2 ^ 56 ≤ t.window ∧ t.window < 2 ^ 56 := by
      have hsign : Int.sign 3600 = 1 := rfl
      unfold UnixTime.window cookieWindowSeconds
      rw [Int.tdiv_eq_ediv, hsign]
      split_ifs <;> omega
    have htwo : UInt8.toNat 2 = 2 := rfl
    omega
  show Plain.readSecond cc.keypair a (plainOffice.cookieFor t ip) = none
  rw [hcookie]
  unfold Plain.readSecond
  split
  · next hmatch => exact absurd (List.cons.inj hmatch).1 hne
  · rfl

theorem plain_xkSizes :
    plain.XKSizes Client.plainConfig.keypair Client.plainConfig.serverPublic where
  first hnew hwrite := by
    cases hnew
    cases hwrite
    exact Plain.length_message _ _ (by simp)
  third h := by
    obtain ⟨a, b, e, p, rest, -, -, rfl, -⟩ := Plain.sent3 h
    exact ⟨by simp, by simp [Client.plainConfig, maxPayload]⟩

/-- The client 42 has sent its first message, and the server knows its address. -/
def plainKnown : Conn plain :=
  { plainStart with server := .new plain 1 (some [192, 0, 2, 1]) 0 }

/-- The outside of the server at a time, when it asks for cookies. -/
def guardEnv (t : UnixTime) (seed : UInt8) : ServerEnv plain :=
  { (ServerSession.plainEnv (t.sec * 10 ^ 9) seed).withCookies plainOffice t with
    requireCookie := fun _ => true }

theorem admits_guardEnv {x : Conn plain} {t : UnixTime}
    (h : 0 ≤ x.server.lastRecv ∧ x.server.lastRecv ≤ t.sec * 10 ^ 9 ∧
      t.sec * 10 ^ 9 ≤ x.server.lastRecv + 3600 * 10 ^ 9) (seed : UInt8) :
    Admits plainOffice Client.plainConfig x (guardEnv t seed) :=
  ⟨rfl, ⟨_, rfl⟩, h, t, (Int.mul_ediv_cancel _ (by decide)).symm, rfl, rfl⟩

theorem PlainStep.opening {x x' : Conn plain} {l : Label plain} (h : PlainStep x l x')
    (hseq : InSequence l) (hrel : Reliable l)
    (hpat : Patient plainOffice Client.plainConfig ServerSession.plainConfig x l) :
    (openingLts plain plainOffice Client.plainConfig ServerSession.plainConfig).step x l x' :=
  ⟨⟨hseq, hrel, hpat⟩, h⟩

/-- The client is challenged at 3599 s; its message with the cookie arrives one second later, in the
next window. -/
theorem handshake_completes_plain : ∃ l₁ l₂ l₃ x y z ks ip,
    (l₁ ++ (l₂ ++ l₃)).countP Label.isDelivery = 6 ∧
    (openingLts plain plainOffice Client.plainConfig ServerSession.plainConfig).Run plainKnown
      l₁ y ∧
    Settled Client.plainConfig ks y ∧
    (openingLts plain plainOffice Client.plainConfig ServerSession.plainConfig).Run y l₂ z ∧
    Connected Client.plainConfig ServerSession.plainConfig ks ip z ∧
    (openingLts plain plainOffice Client.plainConfig ServerSession.plainConfig).Run z l₃ x := by
  obtain ⟨x₁, h₁, x₂, h₂, x₃, h₃, a₃, x₄, h₄, x₅, h₅, x₆, h₆, a₆, x₇, h₇, x₈, h₈⟩ :
      ∃ x₁, PlainStep plainKnown (.toServer (guardEnv ⟨3599, by decide, by decide⟩ 9) 0) x₁ ∧
      ∃ x₂, PlainStep x₁ (.toClient (Client.plainEnv 1 5) 0) x₂ ∧
      ∃ x₃, PlainStep x₂ (.client (Client.plainEnv 2 0) (.tun [])) x₃ ∧
        (0 ≤ x₃.server.lastRecv ∧ x₃.server.lastRecv ≤ 3600 * 10 ^ 9 ∧
          3600 * 10 ^ 9 ≤ x₃.server.lastRecv + 3600 * 10 ^ 9) ∧
      ∃ x₄, PlainStep x₃ (.toServer (guardEnv ⟨3600, by decide, by decide⟩ 9) 0) x₄ ∧
      ∃ x₅, PlainStep x₄ (.toClient (Client.plainEnv 3 5) 0) x₅ ∧
      ∃ x₆, PlainStep x₅ (.server (guardEnv ⟨3600, by decide, by decide⟩ 0) .decoy) x₆ ∧
        (0 ≤ x₆.server.lastRecv ∧ x₆.server.lastRecv ≤ 3601 * 10 ^ 9 ∧
          3601 * 10 ^ 9 ≤ x₆.server.lastRecv + 3600 * 10 ^ 9) ∧
      ∃ x₇, PlainStep x₆ (.toServer (guardEnv ⟨3601, by decide, by decide⟩ 0) 0) x₇ ∧
      ∃ x₈, PlainStep x₇ (.toClient (Client.plainEnv 4 0) 0) x₈ :=
    ⟨_, .toServer rfl rfl rfl, _, .toClient rfl rfl rfl, _, .client rfl rfl rfl, by decide,
      _, .toServer rfl rfl rfl, _, .toClient rfl rfl rfl, _, .server rfl rfl rfl, by decide,
      _, .toServer rfl rfl rfl, _, .toClient rfl rfl rfl⟩
  have run : (openingLts plain plainOffice Client.plainConfig ServerSession.plainConfig).Run
      plainKnown _ x₈ :=
    .snoc (.snoc (.snoc (.snoc (.snoc (.snoc (.snoc (.snoc .nil
      (h₁.opening rfl rfl (admits_guardEnv (by decide) 9))) (h₂.opening rfl rfl trivial))
      (h₃.opening trivial trivial ⟨by decide, by decide, by rintro ⟨⟩⟩))
      (h₄.opening rfl rfl (admits_guardEnv a₃ 9))) (h₅.opening rfl rfl trivial))
      (h₆.opening trivial trivial ⟨by decide, by decide, by rintro ⟨⟩⟩))
      (h₇.opening rfl rfl (admits_guardEnv a₆ 0))) (h₈.opening rfl rfl trivial)
  have hbegun : Begun Client.plainConfig plainKnown :=
    ⟨Client.new plain, _, Client.plainEnv 0 7, _, 1, some [192, 0, 2, 1], 0, rfl, rfl, rfl, rfl⟩
  rcases handshake_completes Plain.aeadLaws Plain.xkLaws Plain.xkProgress plain_xkSizes plain_paired
      (fun t ip h => read_cookieFor h t ip) hbegun run with
    ⟨l₁, l₂, l₃, y, z, ks, ip, hls, -, -, run₁, hset, run₂, hz, run₃⟩ |
    ⟨l₁, l₂, y, ks, ip, hls, hle, hzero, -⟩ | ⟨hlt, -⟩
  · exact ⟨l₁, l₂, l₃, x₈, y, z, ks, ip, hls ▸ rfl, run₁, hset, run₂, hz, run₃⟩
  · have hsix : (l₁ ++ l₂).countP Label.isDelivery = 6 := hls ▸ rfl
    rw [List.countP_append] at hsix
    omega
  · exact absurd hlt (by decide)

end Conn

end VibeVpn

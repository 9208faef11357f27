import VibeVpn.Go.Map
import VibeVpn.Session.Moves

/-!
# The clients and the server over a hostile network

Any number of clients and all the sessions of a server, with a network in between that belongs to
an attacker: a step of `World.step` hands one end a datagram of any contents, or wakes it for
another reason, or opens a session.  What is lost, reordered, replayed or made up is a choice of
the labels.

The state also keeps a record of the run: the frames that the ends have sealed, the handshakes that
clients have completed (`Derivation`), and for each session the first message it has answered.  The
assumptions on the cryptography that are not laws of its functions speak about this record
(`Ideal`): frames under the keys of a client that pins the server's key are not forged, the server
derives such keys only in the conversation the client had, and the keys of a handshake are new.

* `Inv` : what holds along a run, kept by every step that meets `Ideal` (`Inv.step`);
* `handshake_agreement` : **a client that connects has a session of the server** with its static
  key, its keys, its tag, its address, its prefix length and its gateway.
-/

namespace VibeVpn

namespace Agreement

open ServerSession (Answer)

/-- The clients and the server. -/
structure Deployment (ι : Type) where
  /-- The configuration of each client. -/
  client : ι → ClientConfig
  /-- The configuration of the server. -/
  server : ServerConfig
  /-- The prefix length is the size of an IP mask. -/
  prefixLen_le : server.prefixLen ≤ 128

/-- The client pins the key of the server. -/
def Deployment.Pins {ι : Type} (D : Deployment ι) (i : ι) : Prop :=
  (D.client i).serverPublic = D.server.keypair.pub

/-- A handshake that a client has completed. -/
structure Derivation (S : Suite) (ι : Type) where
  /-- The client. -/
  client : ι
  /-- Its first message, without a cookie. -/
  first : Bytes
  /-- Its tag. -/
  tag : Byte4
  /-- Its third message. -/
  third : Bytes
  /-- The keys it derived, client to server first. -/
  keys : S.Key × S.Key

/-- A session of the server. -/
structure Served (S : Suite) where
  /-- The session. -/
  session : ServerSession S
  /-- Its run loop is running. -/
  running : Bool
  /-- The first message it has answered, without a cookie. -/
  heard : Option Bytes

/-- The clients, the sessions, and the record of the run. -/
structure World (S : Suite) (ι : Type) where
  /-- The clients. -/
  clients : ι → Client S
  /-- The sessions, oldest first, with those that have ended. -/
  sessions : List (Served S)
  /-- The frames sealed. -/
  log : List (Sealed S)
  /-- The handshakes completed by clients. -/
  derived : List (Derivation S ι)

/-- Who takes a step, and the outside's part in it. -/
inductive Label (S : Suite) (ι : Type) where
  /-- A client is woken. -/
  | client (i : ι) (env : ClientEnv S) (e : Client.Event)
  /-- A transport is accepted. -/
  | accept (sid : ℕ) (peerIP : Option Bytes) (now : ℤ)
  /-- The session at position `j` is woken. -/
  | server (j : ℕ) (env : ServerEnv S) (e : ServerSession.Event)

variable {S : Suite} {ι : Type}

/-- What the output of a client that was in the state `c` says about a completed handshake. -/
def derivations (i : ι) (c : Client S) (o : Out S) : List (Derivation S ι) :=
  match c.phase with
  | .waitReply _ m₁ ck tag _ _ =>
    List.zipWith (fun ks r => ⟨i, Client.withoutCookie m₁ ck, tag, r.1, ks⟩) o.installed o.raw
  | _ => []

/-- The first message a session has answered after an event that led to `s'`. -/
def Served.hears (p : Served S) (s' : ServerSession S) (e : ServerSession.Event) : Option Bytes :=
  match p.session.hs, s'.hs, e with
  | none, some _, .recv (some data) => some (data.take ServerSession.hs1Len)
  | _, _, _ => p.heard

namespace World

/-- Before anything has happened. -/
def start (S : Suite) (ι : Type) : World S ι where
  clients _ := .new S
  sessions := []
  log := []
  derived := []

section Updates

variable (x : World S ι) (i j : ι) (c : Client S) (n : ℕ) (p : Served S) (o : Out S)

/-- The client `i` has woken up, is in the state `c` now and has put out `o`. -/
def woken [DecidableEq ι] : World S ι :=
  { x with
    clients := Function.update x.clients i c
    log := x.log ++ o.frames.map Prod.fst
    derived := x.derived ++ derivations i (x.clients i) o }

/-- The session at position `n` has run, is in the state `p` now and has put out `o`. -/
def ran : World S ι :=
  { x with sessions := x.sessions.set n p, log := x.log ++ o.frames.map Prod.fst }

/-- The session `p` was created. -/
def accepted : World S ι := { x with sessions := x.sessions ++ [p] }

theorem clients_woken_self [DecidableEq ι] : (x.woken i c o).clients i = c :=
  Function.update_self ..

theorem clients_woken_of_ne [DecidableEq ι] (h : j ≠ i) :
    (x.woken i c o).clients j = x.clients j :=
  Function.update_of_ne h ..

theorem mem_log_woken [DecidableEq ι] {g : Sealed S} :
    g ∈ (x.woken i c o).log ↔ g ∈ x.log ∨ g ∈ o.frames.map Prod.fst :=
  List.mem_append

theorem mem_log_ran {g : Sealed S} :
    g ∈ (x.ran n p o).log ↔ g ∈ x.log ∨ g ∈ o.frames.map Prod.fst :=
  List.mem_append

theorem mem_derived_woken [DecidableEq ι] {d : Derivation S ι} :
    d ∈ (x.woken i c o).derived ↔ d ∈ x.derived ∨ d ∈ derivations i (x.clients i) o :=
  List.mem_append

end Updates

/-- One step. -/
def step [DecidableEq ι] (D : Deployment ι) (x : World S ι) : Label S ι → Go (World S ι)
  | .client i env e => do
    let (c, o) ← (x.clients i).step (D.client i) env e
    pure (x.woken i c o)
  | .accept sid peerIP now => pure (x.accepted ⟨.new S sid peerIP now, true, none⟩)
  | .server j env e =>
    match x.sessions[j]? with
    | none => pure x
    | some p =>
      if p.running then do
        let (s, o, running) ← p.session.step D.server env e
        pure (x.ran j ⟨s, running, p.hears s e⟩ o)
      else pure x

/-- The runs of the clients and the server. -/
def lts [DecidableEq ι] (S : Suite) (D : Deployment ι) : LTS (World S ι) (Label S ι) :=
  .ofExcept (step D)

end World

/-! ### What is assumed of the cryptography -/

/-- The two pairs have no key in common. -/
def Apart (ks ks' : S.Key × S.Key) : Prop :=
  ks.1 ≠ ks'.1 ∧ ks.1 ≠ ks'.2 ∧ ks.2 ≠ ks'.1 ∧ ks.2 ≠ ks'.2

theorem Apart.symm {ks ks' : S.Key × S.Key} (h : Apart ks ks') : Apart ks' ks :=
  ⟨h.1.symm, h.2.2.1.symm, h.2.1.symm, h.2.2.2.symm⟩

theorem Apart.swap {ks ks' : S.Key × S.Key} (h : Apart ks ks') : Apart ks ks'.swap :=
  ⟨h.2.1, h.1, h.2.2.2, h.2.2.1⟩

namespace World

variable (D : Deployment ι) (x : World S ι)

/-- The ideal AEAD: what authenticates under a key of a client that pins the server's key was
sealed by one of the ends. -/
def Authentic (data : Bytes) : Prop :=
  ∀ d ∈ x.derived, D.Pins d.client → ∀ key, key = d.keys.1 ∨ key = d.keys.2 →
    (authenticate S key data).isSome → ∃ g ∈ x.log, g.wire = data

/-- The ideal Noise handshake: when a session reads a third message and derives a key of a client
that pins the server's key, it has read the client's third message, and has answered the client's
first message when the handshake is the initial one. -/
structure Matching (p : Served S) (data : Bytes) : Prop where
  initial : ∀ h st ks, p.session.keys = none → p.session.hs = some h → S.read h data = some st →
    st.keys = some ks → ∀ d ∈ x.derived, D.Pins d.client → ¬ Apart ks d.keys →
    data = d.third ∧ p.heard = some d.first
  rekey : ∀ k f h st ks, p.session.keys = some k → authenticate S k.recvKey data = some f →
    p.session.rekeyHs = some h → S.read h f.payload = some st → st.keys = some ks →
    ∀ d ∈ x.derived, D.Pins d.client → ¬ Apart ks d.keys → f.payload = d.third

/-- The keys are new: nothing was sealed with them, and no end has them. -/
structure Fresh (ks : S.Key × S.Key) : Prop where
  directions : ks.1 ≠ ks.2
  unsealed : ∀ g ∈ x.log, g.key ≠ ks.1 ∧ g.key ≠ ks.2
  clients : ∀ j k, (x.clients j).keys = some k → Apart ks k.pair
  sessions : ∀ p ∈ x.sessions, ∀ k, p.session.keys = some k → Apart ks k.pair

end World

/-- The ideal cryptography in one step: no frame is forged, the server derives a client's keys only
in the client's conversation, and the keys a client installs are new. -/
def Ideal (D : Deployment ι) (x : World S ι) : Label S ι → Prop
  | .client i env e =>
    (∀ data, e = .recv (some data) → x.Authentic D data) ∧
      ∀ c' o, (x.clients i).step (D.client i) env e = .ok (c', o) → ∀ ks ∈ o.installed, x.Fresh ks
  | .accept _ _ _ => True
  | .server j _ e => ∀ data p, e = .recv (some data) → x.sessions[j]? = some p →
      x.Authentic D data ∧ x.Matching D p data

/-! ### The invariant -/

section Invariant

variable {D : Deployment ι} {x x' : World S ι} {d : Derivation S ι} {i : ι} {p : Served S}

/-- The messages, the tag and the keys of a derivation are those of one handshake of its client. -/
structure Genuine (D : Deployment ι) (d : Derivation S ι) : Prop where
  directions : d.keys.1 ≠ d.keys.2
  first : ∃ i₀ seed st,
    S.newClientHandshake (D.client d.client).keypair (D.client d.client).serverPublic = some i₀ ∧
    S.write i₀ seed d.tag.toBytes = some st ∧ st.out = d.first
  third : ∃ m₂, S.Sent3 (D.client d.client).keypair (D.client d.client).serverPublic d.first m₂
    d.third d.keys

/-- What holds of a session. -/
structure Served.Sound (cfg : ServerConfig) (p : Served S) : Prop where
  inv : p.session.Inv cfg
  heard : p.running = true → ∀ h, p.session.hs = some h → ∃ a : Answer S cfg,
    p.heard = some a.m₁ ∧ h = a.st₂.hs ∧ p.session.tag = Byte4.copyOf a.st₁.out

/-- The session `s` is the other end of the derivation `d`, and has sealed the address in
`payload`. -/
structure Matched (D : Deployment ι) (d : Derivation S ι) (payload : Bytes)
    (s : ServerSession S) : Prop where
  keys : s.keys.map Keys.pair = some d.keys.swap
  tag : s.tag = d.tag
  client : s.clientKey = some (D.client d.client).keypair.pub
  ip : ∃ ip, s.ip = some ip ∧ payload = assignPayload D.server.prefixLen ip D.server.gw

/-- While the client of `d` waits for its address, nothing is sealed in its direction, nobody else
can do so, and the addresses sealed in the other direction come from the other end of `d`. -/
structure Waiting (D : Deployment ι) (x : World S ι) (d : Derivation S ι) : Prop where
  unsealed : ∀ g ∈ x.log, g.key ≠ d.keys.1
  clients : ∀ j, j ≠ d.client → ∀ k, (x.clients j).keys = some k → k.sendKey ≠ d.keys.1
  sessions : ∀ p ∈ x.sessions, ∀ k, p.session.keys = some k → k.sendKey ≠ d.keys.1
  assigned : ∀ g ∈ x.log, g.key = d.keys.2 → g.typ = msgAssign →
    ∃ p ∈ x.sessions, Matched D d g.payload p.session

/-- What holds along a run. -/
structure Inv (D : Deployment ι) (x : World S ι) : Prop where
  keyless : ∀ i, (x.clients i).phase.keyed = false → (x.clients i).keys = none
  offers : ∀ i hs m ck tag a b, (x.clients i).phase = .waitReply hs m ck tag a b →
    Client.Offers (D.client i) hs m ck tag
  served : ∀ p ∈ x.sessions, p.Sound D.server
  genuine : ∀ d ∈ x.derived, D.Pins d.client → Genuine D d
  waiting : ∀ i a b, D.Pins i → (x.clients i).phase = .waitAssign a b →
    ∃ d ∈ x.derived, d.client = i ∧ (x.clients i).tag = d.tag ∧
      (x.clients i).keys.map Keys.pair = some d.keys ∧ Waiting D x d

theorem Inv.start : Inv D (World.start S ι) := by
  have hp : ∀ i, ((World.start S ι).clients i).phase = .backoff := fun _ => rfl
  refine ⟨fun i _ => ?_, fun i hs m ck tag a b h => ?_, fun p h => ?_, fun d h => ?_,
    fun i a b _ h => ?_⟩
  · rfl
  · rw [hp] at h; cases h
  · cases h
  · cases h
  · rw [hp] at h; cases h

/-! ### Steps of clients -/

theorem derivations_of_ne {c : Client S} {o : Out S}
    (h : ∀ hs m ck tag a b, c.phase ≠ .waitReply hs m ck tag a b) : derivations i c o = [] := by
  unfold derivations
  split
  next hp => exact absurd hp (h _ _ _ _ _ _)
  next => rfl

theorem derivations_of_reply {c : Client S} {o : Out S} {hs : S.HS} {m : Bytes} {ck : Bool}
    {tag : Byte4} {a b : ℤ} (hp : c.phase = .waitReply hs m ck tag a b) :
    derivations i c o =
      List.zipWith (fun ks r => ⟨i, Client.withoutCookie m ck, tag, r.1, ks⟩) o.installed
        o.raw := by
  unfold derivations
  rw [hp]

theorem derivations_of_derives {c c' : Client S} {o : Out S} {hs : S.HS} {m m₃ : Bytes} {ck : Bool}
    {tag : Byte4} {a b : ℤ} {ks : S.Key × S.Key} (hp : c.phase = .waitReply hs m ck tag a b)
    (hd : Client.Derives c c' o hs tag m₃ ks) :
    derivations i c o = [⟨i, Client.withoutCookie m ck, tag, m₃, ks⟩] := by
  rw [derivations_of_reply hp, hd.installed, hd.raw]
  rfl

/-- What a client derives is what it has exchanged. -/
theorem genuine_of_derives {c c' : Client S} {o : Out S} {hs : S.HS} {m m₃ : Bytes} {ck : Bool}
    {tag : Byte4} {ks : S.Key × S.Key} (ho : Client.Offers (D.client i) hs m ck tag)
    (hd : Client.Derives c c' o hs tag m₃ ks) (hne : ks.1 ≠ ks.2) :
    Genuine D ⟨i, Client.withoutCookie m ck, tag, m₃, ks⟩ := by
  obtain ⟨i₀, seed, st, h0, h1, rfl, hout⟩ := ho.sent1
  obtain ⟨data, st₂, seed₃, st₃, hread, hwrite, rfl, hks⟩ := hd.third
  refine ⟨hne, ⟨i₀, seed, st, h0, h1, hout⟩, data, st₂.hs, seed₃, [], st₃, ?_, hwrite, rfl, hks⟩
  exact ⟨st.hs, st₂, ⟨i₀, seed, _, st, h0, h1, rfl, hout⟩, hread, rfl⟩

/-- What a client adds to the record is genuine. -/
theorem Inv.genuine_woken (hI : Inv D x) {c' : Client S} {o : Out S} {env : ClientEnv S}
    {e : Client.Event} (hstep : (x.clients i).step (D.client i) env e = .ok (c', o))
    (hfresh : ∀ ks ∈ o.installed, x.Fresh ks) (hd : d ∈ derivations i (x.clients i) o) :
    Genuine D d := by
  cases hph : (x.clients i).phase with
  | waitReply hs m ck tag a b =>
    rcases Client.step_derives (hI.keyless i) hph hstep with ⟨m₃, ks, hder⟩ | ⟨hin, -⟩
    · rw [derivations_of_derives hph hder] at hd
      obtain rfl := List.mem_singleton.1 hd
      have hks : ks ∈ o.installed := by rw [hder.installed]; exact List.mem_singleton_self _
      exact genuine_of_derives (hI.offers i _ _ _ _ _ _ hph) hder (hfresh ks hks).directions
    · rw [derivations_of_reply hph, hin] at hd
      cases hd
  | _ =>
    rw [derivations_of_ne (by rw [hph]; nofun)] at hd
    cases hd

section Clients

variable [DecidableEq ι] {c' : Client S} {o : Out S}

/-- A client other than the one that waits takes a step. -/
theorem Waiting.client (hw : Waiting D x d) (hi : i ≠ d.client)
    (hm : Client.Moves (x.clients i) c' o) (hnew : ∀ ks ∈ o.installed, ks.1 ≠ d.keys.1) :
    Waiting D (x.woken i c' o) d := by
  have hframe : ∀ g ∈ o.frames.map Prod.fst, g.key ≠ d.keys.1 ∧ g.typ ≠ msgAssign := by
    intro g hg
    obtain ⟨⟨f, ok⟩, hf, rfl⟩ := List.mem_map.1 hg
    obtain ⟨hty, r, hr⟩ := hm.frames _ hf
    obtain ⟨k, hk, hpair⟩ := Option.map_eq_some_iff.1 hr
    have hsend : k.sendKey = f.key := congrArg Prod.fst hpair
    exact ⟨hsend ▸ hw.clients i hi k hk, hty⟩
  refine ⟨fun g hg => ?_, fun j hj k hk => ?_, hw.sessions, fun g hg hkey hty => ?_⟩
  · rcases x.mem_log_woken i c' o |>.1 hg with hg | hg
    · exact hw.unsealed g hg
    · exact (hframe g hg).1
  · by_cases hji : j = i
    · subst hji
      rw [x.clients_woken_self] at hk
      rcases hm.pair k hk with hold | hin
      · obtain ⟨k₀, hk₀, hpair⟩ := Option.map_eq_some_iff.1 hold
        have hsend : k₀.sendKey = k.sendKey := congrArg Prod.fst hpair
        exact hsend ▸ hw.clients j hi k₀ hk₀
      · exact hnew _ hin
    · rw [x.clients_woken_of_ne i j c' o hji] at hk
      exact hw.clients j hj k hk
  · rcases x.mem_log_woken i c' o |>.1 hg with hg | hg
    · exact hw.assigned g hg hkey hty
    · exact absurd hty (hframe g hg).2

/-- The client of a new derivation begins to wait. -/
theorem Waiting.of_fresh (hf : x.Fresh d.keys) (hi : d.client = i) (ho : o.frames = []) :
    Waiting D (x.woken i c' o) d := by
  have hold : ∀ g ∈ (x.woken i c' o).log, g ∈ x.log := by
    intro g hg
    simpa [World.mem_log_woken, ho] using hg
  refine ⟨fun g hg => (hf.unsealed g (hold g hg)).1, fun j hj k hk => ?_, fun p hp k hk => ?_,
    fun g hg hkey => absurd hkey (hf.unsealed g (hold g hg)).2⟩
  · rw [x.clients_woken_of_ne i j c' o (hi ▸ hj)] at hk
    exact (hf.clients j k hk).1.symm
  · exact (hf.sessions p hp k hk).1.symm

/-- The client of a derivation goes on waiting. -/
theorem Waiting.self (hw : Waiting D x d) : Waiting D (x.woken d.client c' {}) d := by
  have hold : ∀ g ∈ (x.woken d.client c' {}).log, g ∈ x.log := by
    intro g hg
    simpa [World.mem_log_woken] using hg
  refine ⟨fun g hg => hw.unsealed g (hold g hg), fun j hj k hk => ?_, hw.sessions,
    fun g hg => hw.assigned g (hold g hg)⟩
  rw [x.clients_woken_of_ne d.client j c' {} hj] at hk
  exact hw.clients j hj k hk

/-- A client that waits for its address after a step of its own has a derivation. -/
theorem Inv.waiting_self (hI : Inv D x) {env : ClientEnv S} {e : Client.Event}
    (hstep : (x.clients i).step (D.client i) env e = .ok (c', o))
    (hfresh : ∀ ks ∈ o.installed, x.Fresh ks) (hpin : D.Pins i) {a b : ℤ}
    (hp : c'.phase = .waitAssign a b) :
    ∃ d ∈ (x.woken i c' o).derived, d.client = i ∧ c'.tag = d.tag ∧
      c'.keys.map Keys.pair = some d.keys ∧ Waiting D (x.woken i c' o) d := by
  rcases Client.phase_of_waitAssign (hI.keyless i) hstep hp with
    ⟨a', b', hph⟩ | ⟨hs, m, ck, tag, a', b', hph⟩
  · obtain ⟨d, hd, rfl, htag, hkeys, hw⟩ := hI.waiting i a' b' hpin hph
    obtain ⟨rfl, haw⟩ := Client.step_awaits hph hstep
    cases haw with
    | fails hk => rw [hp] at hk; cases hk
    | stays _ htag' hkeys' =>
      exact ⟨d, (x.mem_derived_woken ..).2 (.inl hd), rfl, htag'.trans htag, hkeys'.trans hkeys,
        hw.self⟩
    | assigned _ _ _ _ _ _ _ hrun => rw [hp] at hrun; cases hrun
  · rcases Client.step_derives (hI.keyless i) hph hstep with ⟨m₃, ks, hder⟩ | ⟨-, hno⟩
    · have hks : ks ∈ o.installed := by rw [hder.installed]; exact List.mem_singleton_self _
      refine ⟨⟨i, Client.withoutCookie m ck, tag, m₃, ks⟩, (x.mem_derived_woken ..).2 (.inr ?_),
        rfl, hder.tag, hder.keys, Waiting.of_fresh (hfresh ks hks) rfl hder.frames⟩
      rw [derivations_of_derives hph hder]
      exact List.mem_singleton_self _
    · exact absurd hp (hno a b)

theorem Inv.client (hI : Inv D x) {env : ClientEnv S} {e : Client.Event}
    (hstep : (x.clients i).step (D.client i) env e = .ok (c', o))
    (hfresh : ∀ ks ∈ o.installed, x.Fresh ks) : Inv D (x.woken i c' o) := by
  have hm := Client.step_moves (hI.keyless i) hstep
  refine ⟨fun j hj => ?_, fun j hs m ck tag a b hp => ?_, hI.served, fun d hd hpin => ?_,
    fun j a b hpin hp => ?_⟩
  · by_cases hji : j = i
    · subst hji
      rw [x.clients_woken_self] at hj ⊢
      exact hm.keyless hj
    · rw [x.clients_woken_of_ne i j c' o hji] at hj ⊢
      exact hI.keyless j hj
  · by_cases hji : j = i
    · subst hji
      rw [x.clients_woken_self] at hp
      exact Client.step_offers (hI.keyless j) (hI.offers j) hstep hp
    · rw [x.clients_woken_of_ne i j c' o hji] at hp
      exact hI.offers j _ _ _ _ _ _ hp
  · rcases (x.mem_derived_woken ..).1 hd with hd | hd
    · exact hI.genuine d hd hpin
    · exact hI.genuine_woken hstep hfresh hd
  · by_cases hji : j = i
    · subst hji
      rw [x.clients_woken_self] at hp ⊢
      exact hI.waiting_self hstep hfresh hpin hp
    · rw [x.clients_woken_of_ne i j c' o hji] at hp ⊢
      obtain ⟨d, hd, rfl, htag, hkeys, hw⟩ := hI.waiting j a b hpin hp
      refine ⟨d, (x.mem_derived_woken ..).2 (.inl hd), rfl, htag, hkeys,
        hw.client (Ne.symm hji) hm fun ks hks => ?_⟩
      obtain ⟨k, hk, hpair⟩ := Option.map_eq_some_iff.1 hkeys
      exact hpair ▸ ((hfresh ks hks).clients _ k hk).1

end Clients

/-! ### Steps of sessions -/

theorem Inv.accept (hI : Inv D x) (sid : ℕ) (peerIP : Option Bytes) (now : ℤ) :
    Inv D (x.accepted ⟨.new S sid peerIP now, true, none⟩) := by
  refine ⟨hI.keyless, hI.offers, fun p hp => ?_, hI.genuine, fun i a b hpin hp => ?_⟩
  · rcases List.mem_append.1 hp with hp | hp
    · exact hI.served p hp
    · obtain rfl := List.mem_singleton.1 hp
      exact ⟨.new sid peerIP now, nofun⟩
  · obtain ⟨d, hd, hi, htag, hkeys, hw⟩ := hI.waiting i a b hpin hp
    refine ⟨d, hd, hi, htag, hkeys, hw.unsealed, hw.clients, fun q hq k hk => ?_,
      fun g hg hkey hty => ?_⟩
    · rcases List.mem_append.1 hq with hq | hq
      · exact hw.sessions q hq k hk
      · obtain rfl := List.mem_singleton.1 hq
        cases hk
    · obtain ⟨q, hq, hmatch⟩ := hw.assigned g hg hkey hty
      exact ⟨q, List.mem_append_left _ hq, hmatch⟩

theorem Served.Sound.answered {cfg : ServerConfig} (hs : p.Sound cfg) (hup : p.running = true)
    {h : S.HS} (hh : p.session.hs = some h) : ∃ m₁ m₂, S.Answered cfg.keypair m₁ m₂ h := by
  obtain ⟨a, -, rfl, -⟩ := hs.heard hup h hh
  exact ⟨_, _, a.answered⟩

theorem Served.Sound.step {cfg : ServerConfig} (hs : p.Sound cfg) (hup : p.running = true)
    {env : ServerEnv S} {e : ServerSession.Event} {s' : ServerSession S} {o : Out S}
    {running : Bool} (h : p.session.step cfg env e = .ok (s', o, running)) :
    Served.Sound cfg ⟨s', running, p.hears s' e⟩ := by
  have hspec := ServerSession.step_spec h
  refine ⟨hs.inv.steps (fun _ hh => hs.answered hup hh) hspec, fun hrun h' hh' => ?_⟩
  change running = true at hrun
  change s'.hs = some h' at hh'
  subst hrun
  cases ServerSession.steps_progress hspec with
  | stay g1 _ _ _ g5 =>
    have hh : p.session.hs = some h' := g1.symm.trans hh'
    obtain ⟨a, ha, hst, htag⟩ := hs.heard hup h' hh
    refine ⟨a, ?_, hst, (g5 (.inl (by rw [hh]; rfl))).trans htag⟩
    simpa only [Served.hears, hh] using ha
  | answer a g1 g2 g3 =>
    obtain ⟨data, a', rfl, hm, hst, htag⟩ := ServerSession.step_hears g3 g2 h hh'
    refine ⟨a', ?_, hst, htag⟩
    simp only [Served.hears, g2, hh', hm]
  | reject _ _ _ _ hr => cases hr
  | completed _ _ _ _ _ _ _ g8 => rw [g8] at hh'; cases hh'

/-- A session that does not change its keys stays the other end. -/
theorem Matched.keeps {payload : Bytes} {s s' : ServerSession S} (hm : Matched D d payload s)
    (hsame : ServerSession.Same s s') (hp : s'.keys.map Keys.pair = s.keys.map Keys.pair) :
    Matched D d payload s' :=
  ⟨hp.trans hm.keys, hsame.tag.trans hm.tag, hsame.client.trans hm.client, hsame.ip ▸ hm.ip⟩

theorem Matched.exists_keys {payload : Bytes} {s : ServerSession S} (hm : Matched D d payload s) :
    ∃ k, s.keys = some k ∧ k.pair = d.keys.swap :=
  Option.map_eq_some_iff.1 hm.keys

/-- A session without keys is nobody's other end. -/
theorem Matched.not_of_keyless {payload : Bytes} {s : ServerSession S} (hk : s.keys = none) :
    ¬ Matched D d payload s := by
  intro hm
  obtain ⟨k, hk', -⟩ := hm.exists_keys
  rw [hk] at hk'
  cases hk'

/-- A session that completes the handshake of `d` is its other end. -/
theorem Matched.of_completes (hX : S.XKLaws) (hg : Genuine D d) (hs : p.Sound D.server)
    (hup : p.running = true) {h : S.HS} {st : HsStep S.HS S.Key} {ks : S.Key × S.Key} {ip : Byte4}
    {s' : ServerSession S} (hh : p.session.hs = some h) (hread : S.read h d.third = some st)
    (hks : st.keys = some ks) (hheard : p.heard = some d.first)
    (hpair : s'.keys.map Keys.pair = some ks.swap) (htag : s'.tag = p.session.tag)
    (hclient : s'.clientKey = some (S.peerStatic st.hs)) (hip : s'.ip = some ip) :
    ks = d.keys ∧
      Matched D d (assignPayload D.server.prefixLen ip D.server.gw) s' := by
  obtain ⟨a, ha, rfl, hta⟩ := hs.heard hup h hh
  obtain ⟨m₂, h3⟩ := hg.third
  obtain ⟨rfl, hpeer⟩ := hX.agree h3 a.answered hread hks
  obtain ⟨i₀, seed, st₁, h0, h1, hout⟩ := hg.first
  have hm₁ : a.m₁ = st₁.out := (Option.some.inj (ha.symm.trans hheard)).trans hout.symm
  have hpay : a.st₁.out = d.tag.toBytes :=
    hX.first_payload h0 h1 a.new (by rw [← hm₁]; exact a.read₁)
  refine ⟨rfl, hpair, ?_, by rw [hclient, hpeer], ip, hip, rfl⟩
  rw [htag, hta, hpay, Byte4.copyOf_toBytes]

/-- Three facts about a step of a session are enough for a client that waits. -/
theorem Waiting.ran (hw : Waiting D x d) {j : ℕ} (hj : x.sessions[j]? = some p)
    {s' : ServerSession S} {o : Out S} {running : Bool} {heard : Option Bytes}
    (hsend : ∀ k, s'.keys = some k → k.sendKey ≠ d.keys.1)
    (hkeep : ∀ payload, Matched D d payload p.session → Matched D d payload s')
    (hframe : ∀ g ∈ o.frames, g.1.key ≠ d.keys.1 ∧ (g.1.key = d.keys.2 → g.1.typ = msgAssign →
      Matched D d g.1.payload s')) :
    Waiting D (x.ran j ⟨s', running, heard⟩ o) d := by
  have hnew : (⟨s', running, heard⟩ : Served S) ∈ x.sessions.set j ⟨s', running, heard⟩ :=
    List.mem_set (List.getElem?_eq_some_iff.1 hj).1 _
  refine ⟨fun g hg => ?_, hw.clients, fun q hq k hk => ?_, fun g hg hkey hty => ?_⟩
  · rcases (x.mem_log_ran ..).1 hg with hg | hg
    · exact hw.unsealed g hg
    · obtain ⟨f, hf, rfl⟩ := List.mem_map.1 hg
      exact (hframe f hf).1
  · rcases List.mem_or_eq_of_mem_set hq with hq | rfl
    · exact hw.sessions q hq k hk
    · exact hsend k hk
  · rcases (x.mem_log_ran ..).1 hg with hg | hg
    · obtain ⟨q, hq, hm⟩ := hw.assigned g hg hkey hty
      rcases mem_set_of_mem (b := ⟨s', running, heard⟩) hj hq with rfl | hq
      · exact ⟨_, hnew, hkeep _ hm⟩
      · exact ⟨q, hq, hm⟩
    · obtain ⟨f, hf, rfl⟩ := List.mem_map.1 hg
      exact ⟨_, hnew, (hframe f hf).2 hkey hty⟩

/-- A session with the pair `ks` of its client seals with its second half. -/
theorem sendKey_ne {ks : S.Key × S.Key} {key : S.Key} {s : ServerSession S}
    (hpair : s.keys.map Keys.pair = some ks.swap) (hne : ks.2 ≠ key) (k : Keys S)
    (hk : s.keys = some k) : k.sendKey ≠ key := by
  rw [hk] at hpair
  have hsend : k.sendKey = ks.2 := congrArg Prod.fst (Option.some.inj hpair)
  exact hsend ▸ hne

/-- A session completes its handshake while the client of `d` waits: it is the client's other end,
or has nothing to do with it. -/
theorem Waiting.completes (hX : S.XKLaws) (hw : Waiting D x d) (hd : d ∈ x.derived)
    (hpin : D.Pins d.client) (hg : Genuine D d) {j : ℕ} (hj : x.sessions[j]? = some p)
    (hs : p.Sound D.server) (hup : p.running = true) {e : ServerSession.Event}
    {s' : ServerSession S} {o : Out S} {running : Bool} {heard : Option Bytes} {data : Bytes}
    {h : S.HS} {st : HsStep S.HS S.Key} {ks : S.Key × S.Key} {ip : Byte4}
    (hid : x.Matching D p data) (hk : p.session.keys = none)
    (hc : ServerSession.Completes D.server p.session e s' o running data h st ks ip) :
    Waiting D (x.ran j ⟨s', running, heard⟩ o) d := by
  by_cases hap : Apart ks d.keys
  · refine hw.ran hj (sendKey_ne hc.pair hap.2.2.1)
      (fun _ hm => absurd hm (Matched.not_of_keyless hk)) fun g hg => ?_
    rw [(hc.frames g hg).1]
    exact ⟨hap.2.2.1, fun h => absurd h hap.2.2.2⟩
  · -- the keys of `d` come out of the handshake of `d` only
    obtain ⟨rfl, hheard⟩ := hid.initial _ _ _ hk hc.hs hc.read hc.derived d hd hpin hap
    obtain ⟨rfl, hm⟩ := Matched.of_completes hX hg hs hup hc.hs hc.read hc.derived hheard hc.pair
      hc.tag hc.client hc.address
    refine hw.ran hj (sendKey_ne hc.pair hg.directions.symm)
      (fun _ hm => absurd hm (Matched.not_of_keyless hk)) fun g hg' => ?_
    obtain ⟨hkey, hpay⟩ := hc.frames g hg'
    rw [hkey, hpay]
    exact ⟨hg.directions.symm, fun _ _ => hm⟩

/-- A session goes on with its keys while the client of `d` waits. -/
theorem Waiting.keeps (hw : Waiting D x d) {j : ℕ} (hj : x.sessions[j]? = some p)
    {env : ServerEnv S} {e : ServerSession.Event} {s' : ServerSession S} {o : Out S}
    {running : Bool} {heard : Option Bytes} {n : ℕ} {k k' : Keys S} (hk : p.session.keys = some k)
    (hkeep : ServerSession.Keeps D.server env p.session k e s' o running n k') :
    Waiting D (x.ran j ⟨s', running, heard⟩ o) d := by
  have hold := hw.sessions p (List.mem_of_getElem? hj) k hk
  have hsend : k'.sendKey = k.sendKey := congrArg Prod.fst hkeep.uses.pair
  have hpair : s'.keys.map Keys.pair = p.session.keys.map Keys.pair := by
    rw [hkeep.keys, hk, Option.map_some, Option.map_some, hkeep.uses.pair]
  refine hw.ran hj (fun k₁ hk₁ => ?_) (fun _ hm => hm.keeps hkeep.toSame hpair) fun g hg => ?_
  · cases hkeep.keys.symm.trans hk₁
    exact hsend ▸ hold
  · rw [(hkeep.uses.sealed g hg).1]
    exact ⟨hold, fun _ hty => absurd hty (hkeep.typ g hg)⟩

/-- A session completes a rekey while the client of `d` waits: the client is not its own. -/
theorem Waiting.swaps (hA : S.AeadLaws) (hX : S.XKLaws) (hw : Waiting D x d) (hd : d ∈ x.derived)
    (hpin : D.Pins d.client) (hg : Genuine D d) {j : ℕ} (hj : x.sessions[j]? = some p)
    (hs : p.Sound D.server) {e : ServerSession.Event} {s' : ServerSession S} {o : Out S}
    {running : Bool} {heard : Option Bytes} {data : Bytes} {k k' : Keys S} {f : Frame} {h : S.HS}
    {st : HsStep S.HS S.Key} {ks : S.Key × S.Key}
    (hid : x.Authentic D data ∧ x.Matching D p data) (hk : p.session.keys = some k)
    (hsw : ServerSession.Swaps p.session k e s' o running data k' f h st ks) :
    Waiting D (x.ran j ⟨s', running, heard⟩ o) d := by
  have ha := hsw.opened.authenticate
  have hpair : s'.keys.map Keys.pair = some ks.swap := by rw [hsw.keys]; rfl
  refine hw.ran hj ?_ (fun payload hm => ?_) (by rw [hsw.out]; nofun)
  · by_cases hap : Apart ks d.keys
    · exact sendKey_ne hpair hap.2.2.1
    · -- the keys are those of `d`, which the session uses in the other direction
      have hthird := hid.2.rekey _ _ _ _ _ hk ha hsw.rekeyHs hsw.read hsw.derived d hd hpin hap
      obtain ⟨m₁, m₂, hans⟩ := hs.inv.rekeyHs _ hsw.rekeyHs
      obtain ⟨m₂', h3⟩ := hg.third
      have hread := hsw.read
      rw [hthird] at hread
      obtain ⟨rfl, -⟩ := hX.agree h3 hans hread hsw.derived
      exact sendKey_ne hpair hg.directions.symm
  · -- the frame that carries the rekey would have been sealed by the client
    obtain ⟨k₁, hk₁, hpair₁⟩ := hm.exists_keys
    cases hk.symm.trans hk₁
    have hrecv : k.recvKey = d.keys.1 := congrArg Prod.snd hpair₁
    obtain ⟨g, hg', rfl⟩ := hid.1 d hd hpin k.recvKey (.inl hrecv) (by rw [ha]; rfl)
    obtain ⟨hkey, -⟩ := g.key_of_authenticate hA ha
    exact absurd (hkey.symm.trans hrecv) (hw.unsealed g hg')

/-- A session takes a step while the client of `d` waits. -/
theorem Waiting.server (hA : S.AeadLaws) (hX : S.XKLaws) (hw : Waiting D x d)
    (hd : d ∈ x.derived) (hpin : D.Pins d.client) (hg : Genuine D d) {j : ℕ}
    (hj : x.sessions[j]? = some p) (hs : p.Sound D.server) (hup : p.running = true)
    {env : ServerEnv S} {e : ServerSession.Event} {s' : ServerSession S} {o : Out S}
    {running : Bool} {heard : Option Bytes}
    (hid : ∀ data, e = .recv (some data) → x.Authentic D data ∧ x.Matching D p data)
    (h : p.session.step D.server env e = .ok (s', o, running)) :
    Waiting D (x.ran j ⟨s', running, heard⟩ o) d := by
  cases (ServerSession.step_spec h).moves with
  | waits hk hk' hf =>
    refine hw.ran hj (fun k hk₁ => ?_) (fun _ hm => absurd hm (Matched.not_of_keyless hk))
      fun g hg => ?_
    · rw [hk'] at hk₁
      cases hk₁
    · rw [hf] at hg
      cases hg
  | completes hk hc => exact hw.completes hX hd hpin hg hj hs hup (hid _ hc.event).2 hk hc
  | keyed hk hkeyed =>
    cases hkeyed with
    | keeps hkeep => exact hw.keeps hj hk hkeep
    | swaps hsw => exact hw.swaps hA hX hd hpin hg hj hs (hid _ hsw.event) hk hsw

theorem Inv.server (hA : S.AeadLaws) (hX : S.XKLaws) (hI : Inv D x) {j : ℕ}
    (hj : x.sessions[j]? = some p) (hup : p.running = true) {env : ServerEnv S}
    {e : ServerSession.Event} {s' : ServerSession S} {o : Out S} {running : Bool}
    (hid : ∀ data, e = .recv (some data) → x.Authentic D data ∧ x.Matching D p data)
    (h : p.session.step D.server env e = .ok (s', o, running)) :
    Inv D (x.ran j ⟨s', running, p.hears s' e⟩ o) := by
  have hs : p.Sound D.server := hI.served p (List.mem_of_getElem? hj)
  refine ⟨hI.keyless, hI.offers, fun q hq => ?_, hI.genuine, fun i a b hpin hp => ?_⟩
  · rcases List.mem_or_eq_of_mem_set hq with hq | rfl
    · exact hI.served q hq
    · exact hs.step hup h
  · obtain ⟨d, hd, rfl, htag, hkeys, hw⟩ := hI.waiting i a b hpin hp
    exact ⟨d, hd, rfl, htag, hkeys,
      hw.server hA hX hd hpin (hI.genuine d hd hpin) hj hs hup hid h⟩

/-- **Every ideal step keeps the invariant.** -/
theorem Inv.step [DecidableEq ι] (hA : S.AeadLaws) (hX : S.XKLaws) (hI : Inv D x) {l : Label S ι}
    (hid : Ideal D x l) (h : (World.lts S D).step x l x') : Inv D x' := by
  change x.step D l = .ok x' at h
  cases l with
  | client i env e =>
    obtain ⟨⟨c', o⟩, hstep, h⟩ := Go.bind_eq_ok.1 h
    cases h
    exact hI.client hstep (hid.2 c' o hstep)
  | accept sid peerIP now =>
    cases h
    exact hI.accept sid peerIP now
  | server j env e =>
    dsimp only [World.step] at h
    split at h
    · cases h
      exact hI
    · next p hj =>
      split_ifs at h with hup
      · obtain ⟨⟨s', o, running⟩, hstep, h⟩ := Go.bind_eq_ok.1 h
        cases h
        exact hI.server hA hX hj hup (fun data he => hid data p he hj) hstep
      · cases h
        exact hI

theorem Inv.run [DecidableEq ι] (hA : S.AeadLaws) (hX : S.XKLaws) {ls : List (Label S ι)}
    (run : ((World.lts S D).restrict (Ideal D)).Run (World.start S ι) ls x) : Inv D x := by
  induction run with
  | nil => exact .start
  | snoc _ hst ih => exact ih.step hA hX hst.1 hst.2

end Invariant

/-! ### Agreement -/

theorem parseAssign_assignPayload {n : ℕ} (hn : n ≤ 128) (ip gw : Byte4) :
    parseAssign (assignPayload n ip gw) = .ok (some (n, ip, gw)) := by
  have hbyte : (UInt8.ofNat n).toNat = n := by
    rw [UInt8.toNat_ofNat']
    exact Nat.mod_eq_of_lt (by omega)
  have hparse : parseAssign (assignPayload n ip gw) =
      .ok (some ((UInt8.ofNat n).toNat, ip, gw)) := rfl
  rw [hparse, hbyte]

/-- The client `i` and some session of the server agree: the session has completed its handshake
with the static key of the client, their keys are the same with the directions exchanged, and they
have the same tag, address, prefix length and gateway. -/
def Agrees (D : Deployment ι) (x : World S ι) (i : ι) : Prop :=
  ∃ p ∈ x.sessions, ∃ k k' ip, p.session.hs = none ∧
    p.session.clientKey = some (D.client i).keypair.pub ∧
    (x.clients i).keys = some k ∧ p.session.keys = some k' ∧
    k.sendKey = k'.recvKey ∧ k.recvKey = k'.sendKey ∧ (x.clients i).tag = p.session.tag ∧
    (x.clients i).ip = some ip ∧ p.session.ip = some ip ∧
    (x.clients i).prefixLen = D.server.prefixLen ∧ (x.clients i).gw = some D.server.gw

/-- **A client that connects agrees with a session of the server.**  In every ideal run of any
number of clients and sessions over a network under the attacker's control: when the handshake of a
client that pins the server's key returns without an error, there is a session of the server that
has completed its handshake with the client's static key and agrees with the client on the keys,
the tag, the address, the prefix length and the gateway. -/
theorem handshake_agreement [DecidableEq ι] (hA : S.AeadLaws) (hX : S.XKLaws) {D : Deployment ι}
    {ls : List (Label S ι)} {x x' : World S ι} {l : Label S ι} {i : ι} {a b : ℤ}
    (run : ((World.lts S D).restrict (Ideal D)).Run (World.start S ι) ls x)
    (hid : Ideal D x l) (hstep : (World.lts S D).step x l x') (hpin : D.Pins i)
    (hwait : (x.clients i).phase = .waitAssign a b) (hrun : (x'.clients i).phase = .running) :
    Agrees D x' i := by
  have hI : Inv D x := .run hA hX run
  have hne : x'.clients ≠ x.clients := by
    rintro heq
    rw [heq, hwait] at hrun
    cases hrun
  change x.step D l = .ok x' at hstep
  cases l with
  | accept sid peerIP now =>
    cases hstep
    exact absurd rfl hne
  | server j env e =>
    dsimp only [World.step] at hstep
    split at hstep
    · cases hstep
      exact absurd rfl hne
    · split_ifs at hstep
      · obtain ⟨_, -, hstep⟩ := Go.bind_eq_ok.1 hstep
        cases hstep
        exact absurd rfl hne
      · cases hstep
        exact absurd rfl hne
  | client i' env e =>
    obtain ⟨⟨c', o⟩, hc, hstep⟩ := Go.bind_eq_ok.1 hstep
    cases hstep
    by_cases hii : i = i'
    · subst hii
      unfold Agrees
      rw [x.clients_woken_self] at hrun ⊢
      obtain ⟨d, hd, rfl, htag, hkeys, hw⟩ := hI.waiting i a b hpin hwait
      obtain ⟨rfl, haw⟩ := Client.step_awaits hwait hc
      cases haw with
      | fails hk => rw [hrun] at hk; cases hk
      | stays hp => rw [hp, hwait] at hrun; cases hrun
      | @assigned data k f n ip gw he hk ha hty hparse hpair htag' _ hip hgw hn =>
        -- the frame is one that was sealed with the key of the other direction
        rw [hk] at hkeys
        have hrecv : k.recvKey = d.keys.2 := congrArg Prod.snd (Option.some.inj hkeys)
        obtain ⟨g, hg, rfl⟩ := hid.1 data he d hd hpin k.recvKey (.inr hrecv) (by rw [ha]; rfl)
        obtain ⟨hkey, rfl⟩ := g.key_of_authenticate hA ha
        obtain ⟨p, hp, hm⟩ := hw.assigned g hg (hkey.symm.trans hrecv) hty
        obtain ⟨ip', hip', hpay⟩ := hm.ip
        have hvals : parseAssign (assignPayload D.server.prefixLen ip' D.server.gw) =
            .ok (some (n, ip, gw)) := hpay ▸ hparse
        rw [parseAssign_assignPayload D.prefixLen_le] at hvals
        cases hvals
        obtain ⟨k₁, hk₁, hpair₁⟩ := Option.map_eq_some_iff.1 (hpair.trans (by rw [hk]; exact hkeys))
        obtain ⟨k₂, hk₂, hpair₂⟩ := Option.map_eq_some_iff.1 hm.keys
        refine ⟨p, hp, k₁, k₂, ip, ((hI.served p hp).inv.keys k₂ hk₂).1, hm.client, hk₁, hk₂,
          ?_, ?_, htag'.trans (htag.trans hm.tag.symm), hip, hip', hn, hgw⟩
        · exact (congrArg Prod.fst hpair₁).trans (congrArg Prod.snd hpair₂).symm
        · exact (congrArg Prod.snd hpair₁).trans (congrArg Prod.fst hpair₂).symm
    · rw [x.clients_woken_of_ne i' i c' o hii, hwait] at hrun
      cases hrun

/-! ### A run -/

theorem ideal_client {D : Deployment ι} {x : World S ι} {i : ι} {env : ClientEnv S}
    {e : Client.Event} {c' : Client S} {o : Out S}
    (hstep : (x.clients i).step (D.client i) env e = .ok (c', o))
    (hauth : ∀ data, e = .recv (some data) → x.Authentic D data)
    (hfresh : ∀ ks ∈ o.installed, x.Fresh ks) : Ideal D x (.client i env e) := by
  refine ⟨hauth, fun c'' o'' h => ?_⟩
  cases hstep.symm.trans h
  exact hfresh

/-- The client 42 and its server, which assigns addresses of 10.0.0.0/24. -/
def plainDeployment : Deployment Unit where
  client _ := Client.plainConfig
  server := { ServerSession.plainConfig with gw := ⟨10, 0, 0, 1⟩ }
  prefixLen_le := by decide

/-- The client 42 of the plain suite waits for its address, which the server has just sent. -/
theorem exists_plain_waiting : ∃ ls x,
    ((World.lts plain plainDeployment).restrict (Ideal plainDeployment)).Run
      (World.start plain Unit) ls x ∧
    (x.clients ()).phase = .waitAssign 0 1 ∧
    (x.clients ()).keys = some (newKeys plain true (5, 133)) ∧
    (x.clients ()).tag = ⟨1, 2, 3, 4⟩ ∧ ∃ g, x.log = [g] ∧ g.wire = Client.plainAssign := by
  let D := plainDeployment
  let env : ServerEnv plain :=
    { ServerSession.plainEnv 2 0 with adopt := fun _ => .ok (some ⟨10, 0, 0, 2⟩) }
  let m₁ := Plain.message [1, 7] [1, 2, 3, 4]
  have hrun : ∃ c₁ o₁, (Client.new plain).step (D.client ()) (Client.plainEnv 0 7) .retry =
        .ok (c₁, o₁) ∧ o₁.installed = [] ∧
      ∃ x₁, (World.start plain Unit).step D (.client () (Client.plainEnv 0 7) .retry) = .ok x₁ ∧
      ∃ x₂, x₁.step D (.accept 1 none 0) = .ok x₂ ∧ x₂.derived = [] ∧
      ∃ x₃, x₂.step D (.server 0 (ServerSession.plainEnv 1 9) (.recv (some m₁))) = .ok x₃ ∧
        x₃.derived = [] ∧ x₃.log = [] ∧ (x₃.clients ()).keys = none ∧
        (∃ p, x₃.sessions = [p] ∧ p.session.keys = none) ∧
      ∃ c₄ o₄, (x₃.clients ()).step (D.client ()) (Client.plainEnv 1 5)
        (.recv (some (Plain.message [2, 7, 9] []))) = .ok (c₄, o₄) ∧ o₄.installed = [(5, 133)] ∧
      ∃ x₄, x₃.step D (.client () (Client.plainEnv 1 5)
        (.recv (some (Plain.message [2, 7, 9] [])))) = .ok x₄ ∧
        x₄.derived = [⟨(), m₁, ⟨1, 2, 3, 4⟩, [3, 7, 9, 5, 42], (5, 133)⟩] ∧
        (∃ p, x₄.sessions = [p] ∧ p.session.keys = none ∧ p.heard = some m₁) ∧
      ∃ x₅, x₄.step D (.server 0 env (.recv (some [3, 7, 9, 5, 42]))) = .ok x₅ ∧
        (x₅.clients ()).phase = .waitAssign 0 1 ∧
        (x₅.clients ()).keys = some (newKeys plain true (5, 133)) ∧
        (x₅.clients ()).tag = ⟨1, 2, 3, 4⟩ ∧ ∃ g, x₅.log = [g] ∧ g.wire = Client.plainAssign :=
    ⟨_, _, rfl, rfl, _, rfl, _, rfl, rfl, _, rfl, rfl, rfl, rfl, ⟨_, rfl, rfl⟩, _, _, rfl, rfl, _,
      rfl, rfl, ⟨_, rfl, rfl, rfl⟩, _, rfl, rfl, rfl, rfl, _, rfl, rfl⟩
  obtain ⟨c₁, o₁, hc₁, ho₁, x₁, h₁, x₂, h₂, hd₂, x₃, h₃, hd₃, hl₃, hk₃, ⟨p₃, hp₃, hpk₃⟩, c₄, o₄,
    hc₄, ho₄, x₄, h₄, hd₄, ⟨p₄, hp₄, hpk₄, hheard⟩, x₅, h₅, hfinal⟩ := hrun
  have i₁ : Ideal D (World.start plain Unit) (.client () (Client.plainEnv 0 7) .retry) :=
    ideal_client hc₁ nofun (by rw [ho₁]; nofun)
  have i₂ : Ideal D x₁ (.accept 1 none 0) := trivial
  have i₃ : Ideal D x₂ (.server 0 (ServerSession.plainEnv 1 9) (.recv (some m₁))) := by
    rintro data p - -
    refine ⟨fun d hd => ?_, fun h st ks _ _ _ _ d hd => ?_, fun k f h st ks _ _ _ _ _ d hd => ?_⟩
    all_goals rw [hd₂] at hd; cases hd
  have i₄ : Ideal D x₃ (.client () (Client.plainEnv 1 5)
      (.recv (some (Plain.message [2, 7, 9] [])))) := by
    refine ideal_client hc₄ (fun data _ d hd => by rw [hd₃] at hd; cases hd) fun ks hks => ?_
    rw [ho₄] at hks
    obtain rfl := List.mem_singleton.1 hks
    refine ⟨by decide, fun g hg => ?_, fun _ k hk => ?_, fun p hp k hk => ?_⟩
    · rw [hl₃] at hg; cases hg
    · rw [hk₃] at hk; cases hk
    · rw [hp₃] at hp
      obtain rfl := List.mem_singleton.1 hp
      rw [hpk₃] at hk
      cases hk
  have i₅ : Ideal D x₄ (.server 0 env (.recv (some [3, 7, 9, 5, 42]))) := by
    intro data p hdata hp
    cases hdata
    rw [hp₄] at hp
    cases hp
    refine ⟨fun d hd _ key hkey ha => ?_, fun h st ks _ _ _ _ d hd _ _ => ?_,
      fun k f h st ks hk => ?_⟩
    · -- the third message is too short for a session frame
      have hnone : authenticate plain key [3, 7, 9, 5, 42] = none := rfl
      rw [hnone] at ha
      cases ha
    · rw [hd₄] at hd
      obtain rfl := List.mem_singleton.1 hd
      exact ⟨rfl, hheard⟩
    · rw [hpk₄] at hk; cases hk
  exact ⟨_, x₅, .snoc (.snoc (.snoc (.snoc (.snoc .nil ⟨i₁, h₁⟩) ⟨i₂, h₂⟩) ⟨i₃, h₃⟩) ⟨i₄, h₄⟩)
    ⟨i₅, h₅⟩, hfinal⟩

theorem handshake_agreement_plain : ∃ ls x l x',
    ((World.lts plain plainDeployment).restrict (Ideal plainDeployment)).Run
      (World.start plain Unit) ls x ∧
    (World.lts plain plainDeployment).step x l x' ∧ Agrees plainDeployment x' () := by
  obtain ⟨ls, x, run, hp, hk, htag, g, hlog, hwire⟩ := exists_plain_waiting
  obtain ⟨w, hstep⟩ := Client.step_plainAssign hp hk htag
  have hid : Ideal plainDeployment x (.client () (Client.plainEnv 2 0)
      (.recv (some Client.plainAssign))) := by
    refine ideal_client hstep (fun data hdata d _ _ key _ _ => ?_) nofun
    cases hdata
    exact ⟨g, by rw [hlog]; exact List.mem_singleton_self g, hwire⟩
  have hworld : (World.lts plain plainDeployment).step x (.client () (Client.plainEnv 2 0)
      (.recv (some Client.plainAssign))) (x.woken () _ {}) :=
    Go.bind_eq_ok.2 ⟨_, hstep, rfl⟩
  refine ⟨ls, x, _, _, run, hworld, handshake_agreement Plain.aeadLaws Plain.xkLaws run hid hworld
    rfl hp ?_⟩
  rw [x.clients_woken_self]
  rfl

end Agreement

end VibeVpn

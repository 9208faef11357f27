import VibeVpn.LTS.Runs
import VibeVpn.Session.Agreement
import VibeVpn.Session.Journal

/-!
# Where the packets come from

Any number of clients and all the sessions of a server over a network that belongs to an attacker,
as in the handshake agreement, now with a record of the packets that the ends have sealed and of
every pair of keys that a client has installed, in its handshakes and in its rekeys.

What is assumed of the cryptography (`Ideal`) speaks about that record: a datagram that
authenticates under a recorded key was sealed; a handshake of the server that authenticates a client
of the deployment derives a pair that this client has installed, and any other handshake a pair of
its own; and the keys that a client installs are new.  That a rekey stays with its client is what
the code checks, and is not assumed.

* `Inv` : whatever is sealed with a recorded pair was sealed by the client it belongs to, in its
  own direction, or by a session that authenticates this client, in the other;
* `packets_authentic` : **every packet a session writes to the TUN was read by the client it
  authenticates, and every packet a client writes was sealed for it by a session of the server**.
-/

namespace VibeVpn

namespace Traffic

open Agreement

variable {S : Suite} {ι : Type}

/-! ### The record -/

/-- What is recorded of a run. -/
inductive Fact (S : Suite) (ι : Type) where
  /-- The client `i` sealed a packet of its TUN; `sent` says whether the transport took it. -/
  | reads (i : ι) (pkt : Bytes) (sent : Bool)
  /-- The session at position `j` sealed a packet for its client. -/
  | replies (j : ℕ) (pkt : Bytes) (sent : Bool)
  /-- The client `i` installed the pair. -/
  | installs (i : ι) (ks : S.Key × S.Key)

/-- What an event of the client `i` adds to the record. -/
def clientFacts (i : ι) (e : Client.Event) (o : Out S) : List (Fact S ι) :=
  (e.reads o).map (fun d => .reads i d.1 d.2) ++ o.installed.map (.installs i)

/-- What an event of the session at position `j` adds to the record. -/
def serverFacts (j : ℕ) (e : ServerSession.Event) (o : Out S) : List (Fact S ι) :=
  (e.reads o).map fun d => .replies j d.1 d.2

/-- What a step adds to the record. -/
def facts (D : Deployment ι) (x : World S ι) : Label S ι → List (Fact S ι)
  | .client i env e =>
    match (x.clients i).step (D.client i) env e with
    | .ok (_, o) => clientFacts i e o
    | .error _ => []
  | .accept _ _ _ => []
  | .server j env e =>
    match x.sessions[j]? with
    | none => []
    | some p =>
      if p.running then
        match p.session.step D.server env e with
        | .ok (_, o, _) => serverFacts j e o
        | .error _ => []
      else []

theorem installs_mem_clientFacts {i i' : ι} {e : Client.Event} {o : Out S} {ks : S.Key × S.Key} :
    .installs i' ks ∈ clientFacts i e o ↔ i = i' ∧ ks ∈ o.installed := by
  simp only [clientFacts, List.mem_append, List.mem_map]
  constructor
  · rintro (⟨d, -, h⟩ | ⟨ks', hks, h⟩)
    · cases h
    · cases h
      exact ⟨rfl, hks⟩
  · rintro ⟨rfl, hks⟩
    exact .inr ⟨ks, hks, rfl⟩

theorem installs_notMem_serverFacts {i : ι} {j : ℕ} {e : ServerSession.Event} {o : Out S}
    {ks : S.Key × S.Key} : .installs i ks ∉ serverFacts j e o := by
  intro h
  obtain ⟨d, -, h⟩ := List.mem_map.1 h
  cases h

/-! ### What is assumed of the cryptography -/

/-- The static key of a client. -/
def pub (D : Deployment ι) (i : ι) : Bytes := (D.client i).keypair.pub

/-- The ideal AEAD: what authenticates under a recorded key of a client that pins the server's key
was sealed by one of the ends. -/
def Unforged (D : Deployment ι) (x : World S ι) (r : List (Fact S ι)) (data : Bytes) : Prop :=
  ∀ i ks, .installs i ks ∈ r → D.Pins i → ∀ key, key = ks.1 ∨ key = ks.2 →
    (authenticate S key data).isSome → ∃ g ∈ x.log, g.wire = data

/-- The pair is new. -/
def New (x : World S ι) (r : List (Fact S ι)) (ks : S.Key × S.Key) : Prop :=
  x.Fresh ks ∧ ∀ i ks', .installs i ks' ∈ r → Apart ks ks'

/-- The ideal handshake, for one of the server that has authenticated the static key `peer` and
derived the pair `ks`: the key is that of a client of the deployment, which pins the server's key
and has installed the pair; or it belongs to none of them, and the pair is its own. -/
def Shares (D : Deployment ι) (r : List (Fact S ι)) (peer : Bytes) (ks : S.Key × S.Key) : Prop :=
  (∃ i, D.Pins i ∧ .installs i ks ∈ r ∧ peer = pub D i) ∨
    (∀ i ks', .installs i ks' ∈ r → Apart ks ks') ∧ ∀ i, peer ≠ pub D i

/-- With the datagram `data` the session reads a message of its handshake, or of the rekey it is
in. -/
inductive Reads (s : ServerSession S) (data : Bytes) (st : HsStep S.HS S.Key) : Prop where
  | initial {h : S.HS} : s.keys = none → s.hs = some h → S.read h data = some st → Reads s data st
  | rekey {k k' : Keys S} {f : Frame} {h : S.HS} : s.keys = some k → k.Opened data k' (.ok f) →
      s.rekeyHs = some h → S.read h f.payload = some st → Reads s data st

/-- The ideal cryptography in one step. -/
def Ideal (D : Deployment ι) (y : World S ι × List (Fact S ι)) : Label S ι → Prop
  | .client i env e =>
    (∀ data, e = .recv (some data) → Unforged D y.1 y.2 data) ∧
      ∀ c' o, (y.1.clients i).step (D.client i) env e = .ok (c', o) →
        ∀ ks ∈ o.installed, New y.1 y.2 ks
  | .accept _ _ _ => True
  | .server j _ e => ∀ p, y.1.sessions[j]? = some p → ∀ data, e = .recv (some data) →
      Unforged D y.1 y.2 data ∧ ∀ st ks, Reads p.session data st → st.keys = some ks →
        Shares D y.2 (S.peerStatic st.hs) ks

/-- The ideal runs, with their record. -/
def lts [DecidableEq ι] (S : Suite) (D : Deployment ι) :
    LTS (World S ι × List (Fact S ι)) (Label S ι) :=
  ((World.lts S D).recording (facts D)).restrict (Ideal D)

/-- A wake-up of a client installs at most one pair. -/
theorem client_installed {cfg : ClientConfig} {env : ClientEnv S} {c c' : Client S} {o : Out S}
    {e : Client.Event} (hk : c.phase.keyed = false → c.keys = none)
    (h : c.step cfg env e = .ok (c', o)) : o.installed.length ≤ 1 := by
  have hmaybe : ∀ {c c' : Client S} {o : Out S}, Client.MaybeRekeys cfg env c c' o →
      o.installed = [] := by
    intro c c' o h
    cases h <;> rfl
  cases hlive : c.phase.live with
  | false =>
    have hno : c.keys = none := hk (by
      cases hkeyed : c.phase.keyed with
      | false => rfl
      | true => rw [Phase.live_of_keyed hkeyed] at hlive; cases hlive)
    simp [(Client.step_of_not_live hlive hno h).2.2.2]
  | true =>
    cases Client.step_spec hlive hk h with
    | hangup _ _ _ _ hin => simp [hin]
    | opened _ _ _ _ _ _ _ _ _ hin => simp [hin]
    | keepalive _ _ _ _ hm => simp [Out.append, hmaybe hm]
    | _ => simp

/-! ### The invariant -/

/-- What holds along an ideal run. -/
structure Inv (D : Deployment ι) (x : World S ι) (r : List (Fact S ι)) : Prop where
  keyless : ∀ i, (x.clients i).phase.keyed = false → (x.clients i).keys = none
  /-- The keys of a client are recorded. -/
  client : ∀ i k, (x.clients i).keys = some k → .installs i k.pair ∈ r
  /-- The recorded pairs have no key in common. -/
  apart : ∀ i i' ks ks', .installs i ks ∈ r → .installs i' ks' ∈ r → i = i' ∧ ks = ks' ∨
    Apart ks ks'
  directions : ∀ i ks, .installs i ks ∈ r → ks.1 ≠ ks.2
  /-- The keys of a session are those of its client, or its own. -/
  session : ∀ p ∈ x.sessions, ∀ k, p.session.keys = some k →
    ∃ key, p.session.clientKey = some key ∧ Shares D r key k.pair.swap
  /-- What is sealed in the direction of the client carries its packets. -/
  up : ∀ g ∈ x.log, ∀ i ks, .installs i ks ∈ r → g.key = ks.1 → g.typ = msgData →
    ∃ sent, .reads i g.payload sent ∈ r
  /-- What is sealed in the other direction carries the packets of a session of the client. -/
  down : ∀ g ∈ x.log, ∀ i ks, .installs i ks ∈ r → g.key = ks.2 → g.typ = msgData →
    ∃ j p sent, x.sessions[j]? = some p ∧ p.session.keys.isSome ∧
      p.session.clientKey = some (pub D i) ∧ .replies j g.payload sent ∈ r

theorem Inv.start (D : Deployment ι) : Inv D (World.start S ι) [] where
  keyless _ _ := rfl
  client _ _ h := nomatch h
  apart _ _ _ _ h := (List.not_mem_nil h).elim
  directions _ _ h := (List.not_mem_nil h).elim
  session _ h := (List.not_mem_nil h).elim
  up _ h := (List.not_mem_nil h).elim
  down _ h := (List.not_mem_nil h).elim

variable {D : Deployment ι} {x : World S ι} {r : List (Fact S ι)}

/-- A data frame an end seals is in the record. -/
theorem mem_dataOf {fs : List (Sealed S × Bool)} {g : Sealed S} {sent : Bool}
    (hg : (g, sent) ∈ fs) (hty : g.typ = msgData) : (g.payload, sent) ∈ dataOf fs :=
  List.mem_map.2 ⟨(g, sent), List.mem_filter.2 ⟨hg, by simp [hty]⟩, rfl⟩

theorem Shares.mono {peer : Bytes} {ks : S.Key × S.Key} (h : Shares D r peer ks)
    {r' : List (Fact S ι)} (hnew : ∀ i ks', .installs i ks' ∈ r' → Apart ks ks') :
    Shares D (r ++ r') peer ks := by
  refine h.imp ?_ ?_
  · rintro ⟨i, hpin, hin, hc⟩
    exact ⟨i, hpin, List.mem_append_left _ hin, hc⟩
  · rintro ⟨hap, hc⟩
    refine ⟨fun i ks' hin => ?_, hc⟩
    rcases List.mem_append.1 hin with h | h
    · exact hap i ks' h
    · exact hnew i ks' h

/-- A frame that a client seals is under the pair it has. -/
theorem Inv.frame_client (hI : Inv D x r) {i : ι} {env : ClientEnv S} {e : Client.Event}
    {c' : Client S} {o : Out S} (hs : (x.clients i).step (D.client i) env e = .ok (c', o))
    {g : Sealed S} (hg : g ∈ o.frames.map Prod.fst) :
    ∃ k, (x.clients i).keys = some k ∧ .installs i k.pair ∈ r ∧ g.key = k.pair.1 := by
  obtain ⟨f, hf, rfl⟩ := List.mem_map.1 hg
  obtain ⟨-, rk, hk⟩ := (Client.step_moves (hI.keyless i) hs).frames f hf
  obtain ⟨k, hk, hpair⟩ := Option.map_eq_some_iff.1 hk
  exact ⟨k, hk, hI.client i k hk, by rw [hpair]⟩

/-- Nothing is sealed yet with a pair that a client has just installed. -/
theorem Inv.installed_before [DecidableEq ι] (hI : Inv D x r) {i : ι} {env : ClientEnv S}
    {e : Client.Event} {c' : Client S} {o : Out S}
    (hs : (x.clients i).step (D.client i) env e = .ok (c', o))
    (hnew : ∀ ks ∈ o.installed, New x r ks) {g : Sealed S} (hg : g ∈ (x.woken i c' o).log)
    {i' : ι} {ks : S.Key × S.Key} (hin : .installs i' ks ∈ r ++ clientFacts i e o)
    (hkey : g.key = ks.1 ∨ g.key = ks.2) : .installs i' ks ∈ r := by
  -- a pair of this step: neither the log nor the frames of the step are under it
  refine (List.mem_append.1 hin).resolve_right fun hin => ?_
  obtain ⟨-, hks⟩ := installs_mem_clientFacts.1 hin
  obtain ⟨hfresh, hap⟩ := hnew ks hks
  rcases (x.mem_log_woken i c' o).1 hg with hg | hg
  · obtain ⟨h1, h2⟩ := hfresh.unsealed g hg
    exact hkey.elim h1 h2
  · obtain ⟨k, -, hin', hk'⟩ := hI.frame_client hs hg
    obtain ⟨h1, -, h2, -⟩ := hap i k.pair hin'
    rw [hk'] at hkey
    exact hkey.elim (fun h => h1 h.symm) fun h => h2 h.symm

/-- A client seals with its own pairs, and in its own direction only. -/
theorem Inv.client_seals (hI : Inv D x r) {i : ι} {env : ClientEnv S} {e : Client.Event}
    {c' : Client S} {o : Out S} (hs : (x.clients i).step (D.client i) env e = .ok (c', o))
    {g : Sealed S} (hg : g ∈ o.frames.map Prod.fst) {i' : ι} {ks : S.Key × S.Key}
    (hin : .installs i' ks ∈ r) : (g.key = ks.1 → i = i') ∧ g.key ≠ ks.2 := by
  obtain ⟨k, -, hin', hk'⟩ := hI.frame_client hs hg
  rw [hk']
  rcases hI.apart i i' k.pair ks hin' hin with ⟨rfl, rfl⟩ | hap
  · exact ⟨fun _ => rfl, hI.directions i k.pair hin'⟩
  · exact ⟨fun h => absurd h hap.1, hap.2.1⟩

/-- A session seals in the direction of the server only, and for the client it authenticates. -/
theorem Inv.session_seals (hI : Inv D x r) {p : Served S} (hp : p ∈ x.sessions) {k : Keys S}
    (hk : p.session.keys = some k) {i : ι} {ks : S.Key × S.Key} (hin : .installs i ks ∈ r) :
    k.pair.1 ≠ ks.1 ∧ (k.pair.1 = ks.2 → p.session.clientKey = some (pub D i)) := by
  obtain ⟨key, hc, ⟨i', -, hin', rfl⟩ | ⟨hap, -⟩⟩ := hI.session p hp k hk
  · rcases hI.apart i' i _ ks hin' hin with ⟨rfl, rfl⟩ | hap
    · exact ⟨(hI.directions i' _ hin').symm, fun _ => hc⟩
    · exact ⟨hap.2.2.1, fun h => absurd h hap.2.2.2⟩
  · obtain ⟨-, -, h₁, h₂⟩ := hap i ks hin
    exact ⟨h₁, fun h => absurd h h₂⟩

/-- The pairs that are installed stay apart when a client installs another one. -/
theorem Inv.installed_apart (hI : Inv D x r) {i : ι} {env : ClientEnv S} {e : Client.Event}
    {c' : Client S} {o : Out S} (hs : (x.clients i).step (D.client i) env e = .ok (c', o))
    (hnew : ∀ ks ∈ o.installed, New x r ks) {i₁ i₂ : ι} {ks₁ ks₂ : S.Key × S.Key}
    (h₁ : .installs i₁ ks₁ ∈ r ++ clientFacts i e o)
    (h₂ : .installs i₂ ks₂ ∈ r ++ clientFacts i e o) : i₁ = i₂ ∧ ks₁ = ks₂ ∨ Apart ks₁ ks₂ := by
  rcases List.mem_append.1 h₁ with g₁ | g₁ <;> rcases List.mem_append.1 h₂ with g₂ | g₂
  · exact hI.apart i₁ i₂ ks₁ ks₂ g₁ g₂
  · obtain ⟨-, g₂⟩ := installs_mem_clientFacts.1 g₂
    exact .inr ((hnew ks₂ g₂).2 i₁ ks₁ g₁).symm
  · obtain ⟨-, g₁⟩ := installs_mem_clientFacts.1 g₁
    exact .inr ((hnew ks₁ g₁).2 i₂ ks₂ g₂)
  · -- both are the one pair installed in this step
    obtain ⟨rfl, hks₁⟩ := installs_mem_clientFacts.1 g₁
    obtain ⟨rfl, hks₂⟩ := installs_mem_clientFacts.1 g₂
    obtain ⟨ks, hks⟩ := List.length_eq_one_iff.1
      (Nat.le_antisymm (client_installed (hI.keyless _) hs) (List.length_pos_of_mem hks₁))
    rw [hks] at hks₁ hks₂
    exact .inl ⟨rfl, (List.mem_singleton.1 hks₁).trans (List.mem_singleton.1 hks₂).symm⟩

/-- The client `i` wakes up. -/
theorem Inv.clientStep [DecidableEq ι] (hI : Inv D x r) {i : ι} {env : ClientEnv S}
    {e : Client.Event} {c' : Client S} {o : Out S}
    (hs : (x.clients i).step (D.client i) env e = .ok (c', o))
    (hnew : ∀ ks ∈ o.installed, New x r ks) :
    Inv D (x.woken i c' o) (r ++ clientFacts i e o) := by
  have hm := Client.step_moves (hI.keyless i) hs
  refine ⟨fun j hj => ?_, fun j k hk => ?_, fun _ _ _ _ => hI.installed_apart hs hnew,
    fun i' ks h => ?_, fun p hp k hk => ?_, fun g hg i' ks hin hkey hty => ?_,
    fun g hg i' ks hin hkey hty => ?_⟩
  · by_cases hji : j = i
    · subst hji
      rw [x.clients_woken_self] at hj ⊢
      exact hm.keyless hj
    · rw [x.clients_woken_of_ne i j c' o hji] at hj ⊢
      exact hI.keyless j hj
  · by_cases hji : j = i
    · subst hji
      rw [x.clients_woken_self] at hk
      rcases hm.pair k hk with h | h
      · obtain ⟨k₀, hk₀, hpair⟩ := Option.map_eq_some_iff.1 h
        exact List.mem_append_left _ (hpair ▸ hI.client j k₀ hk₀)
      · exact List.mem_append_right _ (installs_mem_clientFacts.2 ⟨rfl, h⟩)
    · rw [x.clients_woken_of_ne i j c' o hji] at hk
      exact List.mem_append_left _ (hI.client j k hk)
  · rcases List.mem_append.1 h with h | h
    · exact hI.directions i' ks h
    · exact (hnew ks (installs_mem_clientFacts.1 h).2).1.directions
  · obtain ⟨key, hc, hsh⟩ := hI.session p hp k hk
    refine ⟨key, hc, hsh.mono fun i' ks hin => ?_⟩
    obtain ⟨-, hks⟩ := installs_mem_clientFacts.1 hin
    exact ((hnew ks hks).1.sessions p hp k hk).swap.symm
  · have hin := hI.installed_before hs hnew hg hin (.inl hkey)
    rcases (x.mem_log_woken i c' o).1 hg with hg | hg
    · obtain ⟨sent, h⟩ := hI.up g hg i' ks hin hkey hty
      exact ⟨sent, List.mem_append_left _ h⟩
    · obtain rfl := (hI.client_seals hs hg hin).1 hkey
      obtain ⟨⟨f, sent⟩, hf, rfl⟩ := List.mem_map.1 hg
      refine ⟨sent, List.mem_append_right _ (List.mem_append_left _ ?_)⟩
      have := mem_dataOf hf hty
      rw [Client.dataOf_step hs] at this
      exact List.mem_map.2 ⟨_, this, rfl⟩
  · have hin := hI.installed_before hs hnew hg hin (.inr hkey)
    rcases (x.mem_log_woken i c' o).1 hg with hg | hg
    · obtain ⟨j, p, sent, hj, hk, hc, h⟩ := hI.down g hg i' ks hin hkey hty
      exact ⟨j, p, sent, hj, hk, hc, List.mem_append_left _ h⟩
    · exact absurd hkey (hI.client_seals hs hg hin).2

/-- A session seals data with the keys it has, in the direction of the server. -/
theorem data_of_session {cfg : ServerConfig} {env : ServerEnv S} {s s' : ServerSession S}
    {o : Out S} {e : ServerSession.Event} {running : Bool}
    (h : s.step cfg env e = .ok (s', o, running)) {g : Sealed S} {sent : Bool}
    (hg : (g, sent) ∈ o.frames) (hty : g.typ = msgData) :
    (g.payload, sent) ∈ e.reads o ∧ ∃ k, s.keys = some k ∧ g.key = k.pair.1 := by
  have hread := mem_dataOf hg hty
  rw [ServerSession.dataOf_step h] at hread
  refine ⟨hread, ?_⟩
  have hno : ∀ data, e ≠ .recv (some data) := by
    rintro data rfl
    cases hread
  cases (ServerSession.step_spec h).moves with
  | waits _ _ hf => rw [hf] at hg; cases hg
  | completes _ hc => exact absurd hc.event (hno _)
  | keyed hk hkeyed =>
    cases hkeyed with
    | keeps hkeep => exact ⟨_, hk, (hkeep.uses.sealed _ hg).1⟩
    | swaps hsw => exact absurd hsw.event (hno _)

/-- A session with keys keeps its client. -/
theorem client_of_session {cfg : ServerConfig} {env : ServerEnv S} {s s' : ServerSession S}
    {o : Out S} {e : ServerSession.Event} {running : Bool}
    (h : s.step cfg env e = .ok (s', o, running)) (hk : s.keys.isSome) :
    s'.keys.isSome ∧ s'.clientKey = s.clientKey := by
  obtain ⟨k, hk⟩ := Option.isSome_iff_exists.1 hk
  cases (ServerSession.step_spec h).moves.of_keys hk with
  | keeps hkeep => exact ⟨by rw [hkeep.keys]; rfl, hkeep.client⟩
  | swaps hsw => exact ⟨by rw [hsw.keys]; rfl, hsw.client⟩

/-- The keys of a session after an event are those of the client it authenticates, or its own. -/
theorem shares_of_session {cfg : ServerConfig} {env : ServerEnv S} {s s' : ServerSession S}
    {o : Out S} {e : ServerSession.Event} {running : Bool}
    (h : s.step cfg env e = .ok (s', o, running))
    (hold : ∀ k, s.keys = some k → ∃ key, s.clientKey = some key ∧ Shares D r key k.pair.swap)
    (hshare : ∀ data st ks, e = .recv (some data) → Reads s data st → st.keys = some ks →
      Shares D r (S.peerStatic st.hs) ks) {k' : Keys S} (hk' : s'.keys = some k') :
    ∃ key, s'.clientKey = some key ∧ Shares D r key k'.pair.swap := by
  cases (ServerSession.step_spec h).moves with
  | waits _ hno => rw [hk'] at hno; cases hno
  | @completes data h st ks ip hk hc =>
    have hpair : k'.pair = ks.swap := by
      have := hc.pair
      rw [hk'] at this
      exact Option.some.inj this
    refine ⟨_, hc.client, ?_⟩
    rw [hpair, Prod.swap_swap]
    exact hshare data st ks hc.event (.initial hk hc.hs hc.read) hc.derived
  | @keyed k hk hkeyed =>
    obtain ⟨key, hkey, hsh⟩ := hold k hk
    cases hkeyed with
    | keeps hkeep =>
      cases hkeep.keys.symm.trans hk'
      exact ⟨key, hkeep.client.trans hkey, hkeep.uses.pair ▸ hsh⟩
    | @swaps data k₁ f h st ks hsw =>
      cases hsw.keys.symm.trans hk'
      -- the session checks that the rekey is with the client it has
      have hpeer : S.peerStatic st.hs = key := by rw [hsw.peer, hkey]; rfl
      refine ⟨key, hsw.client.trans hkey, ?_⟩
      rw [← hpeer]
      exact hshare data st ks hsw.event (.rekey hk hsw.opened hsw.rekeyHs hsw.read) hsw.derived

/-- The session at position `j` runs. -/
theorem Inv.serverStep (hI : Inv D x r) {j : ℕ} {p : Served S} (hj : x.sessions[j]? = some p)
    {env : ServerEnv S} {e : ServerSession.Event} {s' : ServerSession S} {o : Out S}
    {running : Bool} (hs : p.session.step D.server env e = .ok (s', o, running))
    (hshare : ∀ data st ks, e = .recv (some data) → Reads p.session data st → st.keys = some ks →
      Shares D r (S.peerStatic st.hs) ks) (heard : Option Bytes) :
    Inv D (x.ran j ⟨s', running, heard⟩ o) (r ++ serverFacts j e o) := by
  have hpm : p ∈ x.sessions := List.mem_of_getElem? hj
  have hlt : j < x.sessions.length := (List.getElem?_eq_some_iff.1 hj).1
  have hmem : ∀ i ks, .installs i ks ∈ r ++ serverFacts j e o → .installs i ks ∈ r :=
    fun i ks h => (List.mem_append.1 h).resolve_right installs_notMem_serverFacts
  have hmono : ∀ {key : Bytes} {ks : S.Key × S.Key}, Shares D r key ks →
      Shares D (r ++ serverFacts j e o) key ks :=
    fun h => h.mono fun i ks hin => absurd hin installs_notMem_serverFacts
  refine ⟨hI.keyless, fun i k hk => List.mem_append_left _ (hI.client i k hk),
    fun i₁ i₂ ks₁ ks₂ h₁ h₂ => hI.apart i₁ i₂ ks₁ ks₂ (hmem _ _ h₁) (hmem _ _ h₂),
    fun i ks h => hI.directions i ks (hmem i ks h), fun q hq k hk => ?_,
    fun g hg i ks hin hkey hty => ?_, fun g hg i ks hin hkey hty => ?_⟩
  · rcases List.mem_or_eq_of_mem_set hq with hq | rfl
    · obtain ⟨key, hc, hsh⟩ := hI.session q hq k hk
      exact ⟨key, hc, hmono hsh⟩
    · obtain ⟨key, hc, hsh⟩ := shares_of_session hs (hI.session p hpm) hshare hk
      exact ⟨key, hc, hmono hsh⟩
  · have hin := hmem i ks hin
    rcases (x.mem_log_ran j _ o).1 hg with hg | hg
    · obtain ⟨sent, h⟩ := hI.up g hg i ks hin hkey hty
      exact ⟨sent, List.mem_append_left _ h⟩
    · obtain ⟨⟨f, sent⟩, hf, rfl⟩ := List.mem_map.1 hg
      obtain ⟨-, k, hk, hgk⟩ := data_of_session hs hf hty
      exact absurd (hgk.symm.trans hkey) (hI.session_seals hpm hk hin).1
  · have hin := hmem i ks hin
    rcases (x.mem_log_ran j _ o).1 hg with hg | hg
    · obtain ⟨j', q, sent, hj', hk, hc, h⟩ := hI.down g hg i ks hin hkey hty
      by_cases hjj : j = j'
      · subst hjj
        cases hj.symm.trans hj'
        obtain ⟨hk', hc'⟩ := client_of_session hs hk
        exact ⟨j, _, sent, List.getElem?_set_self hlt, hk', hc'.trans hc, List.mem_append_left _ h⟩
      · exact ⟨j', q, sent, (List.getElem?_set_ne hjj).trans hj', hk, hc,
          List.mem_append_left _ h⟩
    · obtain ⟨⟨f, sent⟩, hf, rfl⟩ := List.mem_map.1 hg
      obtain ⟨hread, k, hk, hgk⟩ := data_of_session hs hf hty
      obtain ⟨hk', hc'⟩ := client_of_session hs (by rw [hk]; rfl)
      have hc := (hI.session_seals hpm hk hin).2 (hgk.symm.trans hkey)
      exact ⟨j, _, sent, List.getElem?_set_self hlt, hk', hc'.trans hc,
        List.mem_append_right _ (List.mem_map.2 ⟨_, hread, rfl⟩)⟩

/-- A transport is accepted. -/
theorem Inv.acceptStep (hI : Inv D x r) (sid : ℕ) (peerIP : Option Bytes) (now : ℤ) :
    Inv D (x.accepted ⟨.new S sid peerIP now, true, none⟩) r where
  __ := hI
  session p hp k hk := by
    rcases List.mem_append.1 hp with hp | hp
    · exact hI.session p hp k hk
    · obtain rfl := List.mem_singleton.1 hp
      cases hk
  down g hg i ks hin hkey hty := by
    obtain ⟨j, p, sent, hj, hrest⟩ := hI.down g hg i ks hin hkey hty
    exact ⟨j, p, sent, by rw [World.accepted, List.getElem?_append_left
      (List.getElem?_eq_some_iff.1 hj).1]; exact hj, hrest⟩

/-- What an ideal step does. -/
inductive Steps [DecidableEq ι] (D : Deployment ι) (x : World S ι) (r : List (Fact S ι)) :
    Label S ι → World S ι → List (Fact S ι) → Prop where
  | client {i : ι} {env : ClientEnv S} {e : Client.Event} {c' : Client S} {o : Out S} :
      (x.clients i).step (D.client i) env e = .ok (c', o) →
      (∀ data, e = .recv (some data) → Unforged D x r data) →
      (∀ ks ∈ o.installed, New x r ks) →
      Steps D x r (.client i env e) (x.woken i c' o) (r ++ clientFacts i e o)
  | accept {sid : ℕ} {peerIP : Option Bytes} {now : ℤ} :
      Steps D x r (.accept sid peerIP now) (x.accepted ⟨.new S sid peerIP now, true, none⟩) r
  | server {j : ℕ} {p : Served S} {env : ServerEnv S} {e : ServerSession.Event}
      {s' : ServerSession S} {o : Out S} {running : Bool} {heard : Option Bytes} :
      x.sessions[j]? = some p → p.session.step D.server env e = .ok (s', o, running) →
      (∀ data, e = .recv (some data) → Unforged D x r data) →
      (∀ data st ks, e = .recv (some data) → Reads p.session data st → st.keys = some ks →
        Shares D r (S.peerStatic st.hs) ks) →
      Steps D x r (.server j env e) (x.ran j ⟨s', running, heard⟩ o) (r ++ serverFacts j e o)
  | idle {j : ℕ} {env : ServerEnv S} {e : ServerSession.Event} :
      Steps D x r (.server j env e) x r

theorem step_cases [DecidableEq ι] {l : Label S ι} {x' : World S ι} {r' : List (Fact S ι)}
    (h : (lts S D).step (x, r) l (x', r')) : Steps D x r l x' r' := by
  obtain ⟨hid, h, hr⟩ := h
  obtain rfl : r' = r ++ facts D x l := hr
  cases l with
  | client i env e =>
    obtain ⟨⟨c', o⟩, hs, h⟩ := Go.bind_eq_ok.1 h
    cases h
    simp only [facts, hs]
    exact .client hs hid.1 (hid.2 c' o hs)
  | accept sid peerIP now =>
    cases h
    simp only [facts, List.append_nil]
    exact .accept
  | server j env e =>
    change World.step D x (.server j env e) = .ok x' at h
    unfold World.step at h
    cases hj : x.sessions[j]? with
    | none =>
      simp only [hj] at h
      cases h
      simp only [facts, hj, List.append_nil]
      exact .idle
    | some p =>
      simp only [hj] at h
      split_ifs at h with hup
      · obtain ⟨⟨s', o, running⟩, hs, h⟩ := Go.bind_eq_ok.1 h
        cases h
        simp only [facts, hj, hup, if_true, hs]
        exact .server hj hs (fun data he => (hid p hj data he).1)
          fun data st ks he => (hid p hj data he).2 st ks
      · cases h
        simp only [facts, hj, if_neg hup, List.append_nil]
        exact .idle

/-- **Every ideal step keeps the invariant.** -/
theorem Inv.step [DecidableEq ι] (hI : Inv D x r) {l : Label S ι} {x' : World S ι}
    {r' : List (Fact S ι)} (h : Steps D x r l x' r') : Inv D x' r' := by
  cases h with
  | client hs _ hnew => exact hI.clientStep hs hnew
  | accept => exact hI.acceptStep _ _ _
  | server hj hs _ hshare => exact hI.serverStep hj hs hshare _
  | idle => exact hI

theorem Inv.run [DecidableEq ι] {ls : List (Label S ι)}
    (run : (lts S D).Run (World.start S ι, []) ls (x, r)) : Inv D x r :=
  run.reachable.invariant (I := fun y => Inv D y.1 y.2) (Inv.start D)
    fun _ _ _ hI hst => hI.step (step_cases hst)

/-- What opens under a recorded key was sealed with it. -/
theorem Unforged.sealed (hA : S.AeadLaws) {data : Bytes} (hun : Unforged D x r data)
    {k k' : Keys S} {f : Frame} (hop : k.Opened data k' (.ok f)) {i : ι} {ks : S.Key × S.Key}
    (hin : .installs i ks ∈ r) (hpin : D.Pins i) (hkey : k.recvKey = ks.1 ∨ k.recvKey = ks.2) :
    ∃ g ∈ x.log, g.key = k.recvKey ∧ f = g.frame := by
  have hauth := hop.authenticate
  obtain ⟨g, hg, rfl⟩ := hun i ks hin hpin k.recvKey hkey (by rw [hauth]; rfl)
  obtain ⟨hk, hf⟩ := g.key_of_authenticate hA hauth
  exact ⟨g, hg, hk.symm, hf⟩

/-- **The packets are authentic.**  In every ideal run of any number of clients and sessions over a
network under the attacker's control, with any number of rekeys: when a session that authenticates a
client writes a packet to the TUN, a client with that static key has read it from its own; and when
a client that pins the server's key writes a packet, a session of the server that authenticates this
client has sealed it. -/
theorem packets_authentic [DecidableEq ι] (hA : S.AeadLaws) {ls : List (Label S ι)}
    (run : (lts S D).Run (World.start S ι, []) ls (x, r)) :
    (∀ j env e p s' o running i w, Ideal D (x, r) (.server j env e) → x.sessions[j]? = some p →
      p.session.step D.server env e = .ok (s', o, running) →
      p.session.clientKey = some (pub D i) → w ∈ o.tun →
      ∃ i' sent, pub D i' = pub D i ∧ .reads i' w.1 sent ∈ r) ∧
    ∀ i env e c' o w, Ideal D (x, r) (.client i env e) → D.Pins i →
      (x.clients i).step (D.client i) env e = .ok (c', o) → w ∈ o.tun →
      ∃ j p sent, x.sessions[j]? = some p ∧ p.session.clientKey = some (pub D i) ∧
        .replies j w.1 sent ∈ r := by
  have hI := Inv.run run
  refine ⟨fun j env e p s' o running i w hid hj hs hc hw => ?_,
    fun i env e c' o w hid hpin hs hw => ?_⟩
  · obtain ⟨data, k, k', f, rfl, hk, hop, hty, hpay⟩ := ServerSession.mem_tun_step hs hw
    obtain ⟨key, hc', hsh⟩ := hI.session p (List.mem_of_getElem? hj) k hk
    cases hc'.symm.trans hc
    rcases hsh with ⟨i', hpin, hin, hpub⟩ | ⟨-, hno⟩
    · obtain ⟨g, hg, hgk, rfl⟩ := ((hid p hj data rfl).1).sealed hA hop hin hpin (.inl rfl)
      obtain ⟨sent, h⟩ := hI.up g hg i' _ hin hgk hty
      exact ⟨i', sent, hpub.symm, hpay ▸ h⟩
    · exact absurd rfl (hno i)
  · obtain ⟨data, k, k', f, rfl, hk, hop, hty, hpay⟩ := Client.mem_tun_step hs hw
    have hin := hI.client i k hk
    obtain ⟨g, hg, hgk, rfl⟩ := (hid.1 data rfl).sealed hA hop hin hpin (.inr rfl)
    obtain ⟨j, p, sent, hj, -, hc, h⟩ := hI.down g hg i _ hin hgk hty
    exact ⟨j, p, sent, hj, hc, hpay ▸ h⟩

/-! ### A run of the plain suite -/

/-- The pairs recorded. -/
def pairs (r : List (Fact plain Unit)) : List (UInt8 × UInt8) :=
  r.filterMap fun
    | .installs _ ks => some ks
    | _ => none

theorem mem_pairs {r : List (Fact plain Unit)} {i : Unit} {ks : UInt8 × UInt8}
    (h : .installs i ks ∈ r) : ks ∈ pairs r :=
  List.mem_filterMap.2 ⟨_, h, rfl⟩

/-- A test that a datagram is not forged: it was sealed, or is no session frame. -/
def unforgedTest (y : World plain Unit × List (Fact plain Unit)) (data : Bytes) : Bool :=
  y.1.log.any (fun g => g.wire == data) ||
    (pairs y.2).all fun ks =>
      (authenticate plain ks.1 data).isNone && (authenticate plain ks.2 data).isNone

theorem unforged_of_test {y : World plain Unit × List (Fact plain Unit)} {data : Bytes}
    (h : unforgedTest y data = true) : Unforged plainDeployment y.1 y.2 data := by
  intro i ks hin _ key hkey ha
  rcases Bool.or_eq_true_iff.1 h with h | h
  · obtain ⟨g, hg, hw⟩ := List.any_eq_true.1 h
    exact ⟨g, hg, beq_iff_eq.1 hw⟩
  · have := List.all_eq_true.1 h ks (mem_pairs hin)
    rw [Bool.and_eq_true_iff, Option.isNone_iff_eq_none, Option.isNone_iff_eq_none] at this
    rcases hkey with rfl | rfl
    · rw [this.1] at ha
      cases ha
    · rw [this.2] at ha
      cases ha

/-- A test that the first pair installed is new: nobody has keys, and nothing is sealed. -/
def newTest (y : World plain Unit × List (Fact plain Unit)) (ks : UInt8 × UInt8) : Bool :=
  ks.1 != ks.2 && y.1.log.isEmpty && (y.1.clients ()).keys.isNone &&
    y.1.sessions.all (fun p => p.session.keys.isNone) && (pairs y.2).isEmpty

theorem new_of_test {y : World plain Unit × List (Fact plain Unit)} {ks : UInt8 × UInt8}
    (h : newTest y ks = true) : New (S := plain) y.1 y.2 ks := by
  simp only [newTest, Bool.and_eq_true, bne_iff_ne, List.isEmpty_iff, Option.isNone_iff_eq_none,
    List.all_eq_true] at h
  obtain ⟨⟨⟨⟨hne, hlog⟩, hk⟩, hs⟩, hp⟩ := h
  refine ⟨⟨hne, fun g hg => ?_, fun j k hk' => ?_, fun p hp k hk' => ?_⟩, fun i ks' hin => ?_⟩
  · rw [hlog] at hg
    cases hg
  · rw [hk] at hk'
    cases hk'
  · rw [hs p hp] at hk'
    cases hk'
  · have := mem_pairs hin
    rw [hp] at this
    cases this

/-- A test that the handshakes of a session are with the client 42. -/
def sharesTest (y : World plain Unit × List (Fact plain Unit)) (s : ServerSession plain)
    (data : Bytes) : Bool :=
  s.rekeyHs.isNone && (s.hs.bind (plain.read · data)).all fun st => st.keys.all fun ks =>
    (pairs y.2).contains ks && plain.peerStatic st.hs == [42]

theorem shares_of_test {y : World plain Unit × List (Fact plain Unit)} {s : ServerSession plain}
    {data : Bytes} (h : sharesTest y s data = true) {st : HsStep plain.HS plain.Key}
    {ks : plain.Key × plain.Key} (hread : Reads s data st) (hks : st.keys = some ks) :
    Shares plainDeployment y.2 (plain.peerStatic st.hs) ks := by
  obtain ⟨hno, hall⟩ := Bool.and_eq_true_iff.1 h
  cases hread with
  | rekey _ _ hh =>
    rw [hh] at hno
    cases hno
  | initial _ hh hst =>
    rw [hh, Option.bind_some, hst, Option.all_some, hks, Option.all_some] at hall
    obtain ⟨hin, hc⟩ := Bool.and_eq_true_iff.1 hall
    obtain ⟨f, hf, hfk⟩ := List.mem_filterMap.1 (List.contains_iff_mem.1 hin)
    cases f with
    | installs i ks' =>
      cases hfk
      exact .inl ⟨i, rfl, hf, beq_iff_eq.1 hc⟩
    | reads => cases hfk
    | replies => cases hfk

/-- A test for the assumptions on a step. -/
def idealTest (y : World plain Unit × List (Fact plain Unit)) : Label plain Unit → Bool
  | .client _ env e =>
    (match e with
      | .recv (some data) => unforgedTest y data
      | _ => true) &&
    match (y.1.clients ()).step Client.plainConfig env e with
    | .ok (_, o) => o.installed.all (newTest y)
    | .error _ => true
  | .accept _ _ _ => true
  | .server j _ e =>
    match y.1.sessions[j]?, e with
    | some p, .recv (some data) => unforgedTest y data && sharesTest y p.session data
    | _, _ => true

theorem ideal_of_test {y : World plain Unit × List (Fact plain Unit)} {l : Label plain Unit}
    (h : idealTest y l = true) : Ideal plainDeployment y l := by
  cases l with
  | client i env e =>
    obtain ⟨hdata, hnew⟩ := Bool.and_eq_true_iff.1 h
    refine ⟨?_, fun c' o hs ks hks => ?_⟩
    · rintro data rfl
      exact unforged_of_test hdata
    · have hs : (y.1.clients ()).step Client.plainConfig env e = .ok (c', o) := hs
      rw [hs] at hnew
      exact new_of_test (List.all_eq_true.1 hnew ks hks)
  | accept sid peerIP now => trivial
  | server j env e =>
    rintro p hp data rfl
    simp only [idealTest, hp] at h
    obtain ⟨hdata, hshare⟩ := Bool.and_eq_true_iff.1 h
    exact ⟨unforged_of_test hdata, fun st ks hread hks => shares_of_test hshare hread hks⟩

/-- A packet from 10.0.0.2 to 8.8.8.8. -/
def plainPacket : Bytes := [0x45, 0, 0, 20, 0, 0, 0, 0, 64, 17, 0, 0, 10, 0, 0, 2, 8, 8, 8, 8]

/-- The data frame in which the client sends it. -/
def plainData : Bytes :=
  List.replicate 12 0 ++ (innerOf ⟨1, 2, 3, 4⟩ msgData 0 plainPacket [] ++ Plain.trailer 5)

/-- The client 42 connects and sends a packet. -/
def plainLabels : List (Label plain Unit) :=
  [.client () (Client.plainEnv 0 7) .retry, .accept 1 none 0,
    .server 0 (ServerSession.plainEnv 1 9) (.recv (some (Plain.message [1, 7] [1, 2, 3, 4]))),
    .client () (Client.plainEnv 1 5) (.recv (some (Plain.message [2, 7, 9] []))),
    .server 0 { ServerSession.plainEnv 2 0 with adopt := fun _ => .ok (some ⟨10, 0, 0, 2⟩) }
      (.recv (some [3, 7, 9, 5, 42])),
    .client () (Client.plainEnv 3 0) (.recv (some Client.plainAssign)),
    .client () (Client.plainEnv 4 0) (.tun plainPacket)]

/-- A test that the session 0 authenticates the client 42 and writes its packet next. -/
def writesTest (y : World plain Unit × List (Fact plain Unit)) : Bool :=
  idealTest y (.server 0 (ServerSession.plainEnv 5 0) (.recv (some plainData))) &&
  match y.1.sessions[0]? with
  | none => false
  | some p => p.session.clientKey == some [42] &&
    match p.session.step plainDeployment.server (ServerSession.plainEnv 5 0)
      (.recv (some plainData)) with
    | .ok (_, o, _) => o.tun == [(plainPacket, true)]
    | .error _ => false

/-- The client 42 of the plain suite connects and sends a packet, which its session writes. -/
theorem packets_authentic_plain : ∃ ls x r p s' o running,
    (lts plain plainDeployment).Run (World.start plain Unit, []) ls (x, r) ∧
    x.sessions[0]? = some p ∧ p.session.step plainDeployment.server (ServerSession.plainEnv 5 0)
      (.recv (some plainData)) = .ok (s', o, running) ∧ (plainPacket, true) ∈ o.tun ∧
    ∃ i' sent, pub plainDeployment i' = pub plainDeployment () ∧
      .reads i' plainPacket sent ∈ r := by
  obtain ⟨⟨x, r⟩, hrun, hp⟩ := LTS.exists_run_restrict_of_any
    (f := fun (y : World plain Unit × List (Fact plain Unit)) l =>
      (y.1.step plainDeployment l).map fun s => (s, y.2 ++ facts plainDeployment y.1 l))
    idealTest (fun _ _ => ideal_of_test) (World.start plain Unit, []) plainLabels writesTest
    (by decide +kernel)
  rw [← LTS.recording_ofExcept] at hrun
  obtain ⟨hid, hp⟩ := Bool.and_eq_true_iff.1 hp
  split at hp
  · cases hp
  · next p hsess =>
    obtain ⟨hc, hp⟩ := Bool.and_eq_true_iff.1 hp
    split at hp
    · next s' o running hs =>
      have hw : (plainPacket, true) ∈ o.tun := by rw [beq_iff_eq.1 hp]; simp
      exact ⟨_, x, r, p, s', o, running, hrun, hsess, hs, hw,
        (packets_authentic Plain.aeadLaws hrun).1 0 _ _ p s' o running () _ (ideal_of_test hid)
          hsess hs (beq_iff_eq.1 hc) hw⟩
    · cases hp

end Traffic

end VibeVpn

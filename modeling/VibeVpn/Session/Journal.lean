import VibeVpn.Session.ClientSpec
import VibeVpn.Session.ServerSpec

/-!
# What an end does with its TUN

Either end of a session reads packets from its TUN, which it seals in data frames, and writes to it
what it opens.

* `Client.dataOf_step`, `ServerSession.dataOf_step` : **the data frames an end seals carry the
  packets it was given**, unchanged;
* `Client.tun_step`, `ServerSession.tun_step` : **what an end writes to its TUN is the payload of
  the data frame it has just opened**, if it passes the end's check.
-/

namespace VibeVpn

variable {S : Suite}

/-- The payloads of the data frames among those handed to the transport, and whether it took
them. -/
def dataOf (fs : List (Sealed S × Bool)) : List (Bytes × Bool) :=
  (fs.filter fun f => f.1.typ == msgData).map fun f => (f.1.payload, f.2)

@[simp] theorem dataOf_nil : dataOf ([] : List (Sealed S × Bool)) = [] := rfl

theorem dataOf_append (fs fs' : List (Sealed S × Bool)) :
    dataOf (fs ++ fs') = dataOf fs ++ dataOf fs' := by
  simp [dataOf]

theorem dataOf_of_ne {fs : List (Sealed S × Bool)} (h : ∀ f ∈ fs, f.1.typ ≠ msgData) :
    dataOf fs = [] := by
  rw [dataOf, List.filter_eq_nil_iff.2 fun f hf => by simpa using h f hf, List.map_nil]

namespace Endpoint

variable {s s' : Endpoint S} {typ : UInt8} {pt : Bytes} {fs : List (Sealed S × Bool)} {ok : Bool}

/-- Other messages than data. -/
theorem Sends.dataOf_eq_nil (h : s.Sends typ pt s' fs ok) (hty : typ ≠ msgData) :
    dataOf fs = [] :=
  dataOf_of_ne fun (_, _) hf => (h.key hf).1 ▸ hty

theorem Sends.dataOf_eq_map (h : s.Sends msgData pt s' fs ok) :
    dataOf fs = fs.map fun f => (pt, f.2) := by
  cases h with
  | idle => rfl
  | sealed _ _ hby => simp [dataOf, hby.typ, hby.payload]

end Endpoint

/-- An output that neither seals a frame nor writes to the TUN. -/
def Out.Silent (o : Out S) : Prop := o.frames = [] ∧ o.tun = []

namespace Client

variable {cfg : ClientConfig} {env : ClientEnv S} {c c' : Client S} {o : Out S} {e : Event}

theorem sendRaw_silent {se : SendEnv} {b : Bytes} {ok : Bool} (h : c.sendRaw se b = .ok (o, ok)) :
    o.Silent := by
  unfold sendRaw at h
  split_ifs at h <;> cases h <;> exact ⟨rfl, rfl⟩

theorem connect_silent (h : c.connect cfg env = .ok (c', o)) : o.Silent := by
  unfold connect at h
  split at h
  · cases h; exact ⟨rfl, rfl⟩
  · split at h
    · cases h; exact ⟨rfl, rfl⟩
    · split at h
      · cases h; exact ⟨rfl, rfl⟩
      · obtain ⟨⟨o₁, ok⟩, hr, h⟩ := Go.bind_eq_ok.1 h
        cases ok <;> cases h <;> exact sendRaw_silent hr

theorem recvReply_silent {hs : S.HS} {m₁ data : Bytes} {ck : Bool} {tag : Byte4} {start since : ℤ}
    (h : c.recvReply env hs m₁ ck tag start since data = .ok (c', o)) : o.Silent := by
  unfold recvReply at h
  split at h
  · unfold finishHandshake at h
    split at h
    · cases h; exact ⟨rfl, rfl⟩
    · split at h
      · cases h; exact ⟨rfl, rfl⟩
      · obtain ⟨⟨o₁, ok⟩, hr, h⟩ := Go.bind_eq_ok.1 h
        have hsil := sendRaw_silent hr
        cases ok <;> cases h <;> exact hsil
  · split at h
    · obtain ⟨⟨o₁, ok⟩, hr, h⟩ := Go.bind_eq_ok.1 h
      cases ok <;> cases h <;> exact sendRaw_silent hr
    · cases h; exact ⟨rfl, rfl⟩

theorem recvAssign_silent {start : ℤ} {data : Bytes}
    (h : c.recvAssign env start data = .ok (c', o)) : o.Silent := by
  unfold recvAssign at h
  split at h
  · cases h
  · obtain ⟨⟨k', r⟩, -, h⟩ := Go.bind_eq_ok.1 h
    cases r with
    | error e => cases h; exact ⟨rfl, rfl⟩
    | ok f =>
      dsimp only at h
      split_ifs at h
      · cases h; exact ⟨rfl, rfl⟩
      · cases h; exact ⟨rfl, rfl⟩
      · obtain ⟨a, -, h⟩ := Go.bind_eq_ok.1 h
        cases a <;> cases h <;> exact ⟨rfl, rfl⟩

/-- The branch that an event takes. -/
inductive Branch (cfg : ClientConfig) (env : ClientEnv S) (c : Client S) :
    Event → Client S → Out S → Prop where
  /-- The client does not wait for the event, or its time has not come. -/
  | idle {e : Event} : Branch cfg env c e c {}
  /-- `Run` is cancelled between two attempts to connect. -/
  | interrupted {phase : Phase S} : Branch cfg env c .cancel { c with phase } {}
  | connect {c' : Client S} {o : Out S} :
      c.connect cfg env = .ok (c', o) → Branch cfg env c .retry c' o
  | failConnect {e : Event} : Branch cfg env c e c.failConnect {}
  | recvReply {hs : S.HS} {m₁ data : Bytes} {ck : Bool} {tag : Byte4} {start since : ℤ}
      {c' : Client S} {o : Out S} :
      c.recvReply env hs m₁ ck tag start since data = .ok (c', o) →
      Branch cfg env c (.recv (some data)) c' o
  | failAssign {e : Event} : Branch cfg env c e c.failAssign {}
  | recvAssign {start : ℤ} {data : Bytes} {c' : Client S} {o : Out S} :
      c.recvAssign env start data = .ok (c', o) → Branch cfg env c (.recv (some data)) c' o
  | close {c₁ : Client S} {o : Out S} : c.sendClose cfg env = .ok (c₁, o) →
      Branch cfg env c .cancel { c₁.teardownTransport with phase := .stopped } o
  /-- The transport has failed. -/
  | reconnect : Branch cfg env c (.recv none) c.reconnect {}
  | recv {data : Bytes} {c' : Client S} {o : Out S} : c.phase = .running →
      c.drainRecv cfg env (some data) = .ok (c', o) → Branch cfg env c (.recv (some data)) c' o
  | tun {pkt : Bytes} {c' : Client S} {o : Out S} :
      c.sendPacket cfg env pkt = .ok (c', o) → Branch cfg env c (.tun pkt) c' o
  | keepalive {c' : Client S} {o : Out S} :
      c.keepalive cfg env = .ok (c', o) → Branch cfg env c .keepalive c' o
  | decoy {c' : Client S} {o : Out S} :
      c.decoy cfg env = .ok (c', o) → Branch cfg env c .decoy c' o

theorem step_branch (h : c.step cfg env e = .ok (c', o)) : Branch cfg env c e c' o := by
  unfold step at h
  cases hp : c.phase with
  | backoff =>
    rw [hp] at h
    cases e with
    | cancel => cases h; exact .interrupted
    | retry => exact .connect h
    | _ => cases h; exact .idle
  | waitReply hs m₁ ck tag start since =>
    rw [hp] at h
    cases e with
    | cancel => cases h; exact .failConnect
    | recv data =>
      cases data with
      | none => cases h; exact .failConnect
      | some data => exact .recvReply h
    | timeout =>
      dsimp only at h
      split_ifs at h
      · cases h; exact .failConnect
      · cases h; exact .idle
    | _ => cases h; exact .idle
  | waitAssign start since =>
    rw [hp] at h
    cases e with
    | cancel => cases h; exact .failAssign
    | recv data =>
      cases data with
      | none => cases h; exact .failAssign
      | some data => exact .recvAssign h
    | timeout =>
      dsimp only at h
      split_ifs at h
      · cases h; exact .failAssign
      · cases h; exact .idle
    | _ => cases h; exact .idle
  | running =>
    rw [hp] at h
    cases e with
    | cancel =>
      obtain ⟨⟨c₁, o₁⟩, hc, h⟩ := Go.bind_eq_ok.1 h
      cases h
      exact .close hc
    | recv data =>
      cases data with
      | none => cases h; exact .reconnect
      | some data => exact .recv hp h
    | tun pkt => exact .tun h
    | keepalive => exact .keepalive h
    | decoy => exact .decoy h
    | _ => cases h; exact .idle
  | stopped =>
    rw [hp] at h
    cases h
    exact .idle

/-- The branches of the main loop that seal frames or write to the TUN. -/
inductive Works (cfg : ClientConfig) (env : ClientEnv S) (c : Client S) :
    Event → Client S → Out S → Prop where
  | silent {e : Event} {c' : Client S} {o : Out S} : o.Silent → Works cfg env c e c' o
  | close {c₁ c' : Client S} {o : Out S} :
      c.sendClose cfg env = .ok (c₁, o) → Works cfg env c .cancel c' o
  | recv {data : Bytes} {c' : Client S} {o : Out S} : c.phase = .running →
      c.drainRecv cfg env (some data) = .ok (c', o) → Works cfg env c (.recv (some data)) c' o
  | tun {pkt : Bytes} {c' : Client S} {o : Out S} :
      c.sendPacket cfg env pkt = .ok (c', o) → Works cfg env c (.tun pkt) c' o
  | keepalive {c' : Client S} {o : Out S} :
      c.keepalive cfg env = .ok (c', o) → Works cfg env c .keepalive c' o
  | decoy {c' : Client S} {o : Out S} :
      c.decoy cfg env = .ok (c', o) → Works cfg env c .decoy c' o

theorem step_works (h : c.step cfg env e = .ok (c', o)) : Works cfg env c e c' o := by
  cases step_branch h with
  | idle | interrupted | failConnect | failAssign | reconnect => exact .silent ⟨rfl, rfl⟩
  | connect h => exact .silent (connect_silent h)
  | recvReply h => exact .silent (recvReply_silent h)
  | recvAssign h => exact .silent (recvAssign_silent h)
  | close h => exact .close h
  | recv hp h => exact .recv hp h
  | tun h => exact .tun h
  | keepalive h => exact .keepalive h
  | decoy h => exact .decoy h

/-! ### What the client reads -/

/-- The packet an event hands to the client, as often as the client hands a frame to the
transport. -/
def Event.reads (e : Event) (o : Out S) : List (Bytes × Bool) :=
  match e with
  | .tun pkt => o.frames.map fun f => (pkt, f.2)
  | _ => []

/-- A message other than data. -/
theorem encryptSend_sends {typ : UInt8} {pt : Bytes} {now : ℤ} {se : SendEnv} {sent : Bool}
    (h : c.encryptSend cfg now se typ pt = .ok (c', o, sent)) (hty : typ ≠ msgData) :
    dataOf o.frames = [] ∧ o.tun = [] := by
  obtain ⟨ep, fs, hs, rfl, rfl⟩ := encryptSend_spec h
  exact ⟨hs.dataOf_eq_nil hty, rfl⟩

theorem sendPacket_sends {pkt : Bytes} (h : c.sendPacket cfg env pkt = .ok (c', o)) :
    dataOf o.frames = o.frames.map (fun f => (pkt, f.2)) ∧ o.tun = [] := by
  unfold sendPacket at h
  split_ifs at h
  · cases h; exact ⟨rfl, rfl⟩
  · obtain ⟨⟨c₁, o₁, sent⟩, he, h⟩ := Go.bind_eq_ok.1 h
    obtain ⟨ep, fs, hs, rfl, rfl⟩ := encryptSend_spec he
    cases sent <;> cases h <;> exact ⟨hs.dataOf_eq_map, rfl⟩

theorem sendClose_sends (h : c.sendClose cfg env = .ok (c', o)) :
    dataOf o.frames = [] ∧ o.tun = [] := by
  unfold sendClose at h
  split_ifs at h
  · obtain ⟨⟨c₁, o₁, sent⟩, he, h⟩ := Go.bind_eq_ok.1 h
    cases h
    exact encryptSend_sends he (by decide)
  · cases h; exact ⟨rfl, rfl⟩

theorem decoy_sends (h : c.decoy cfg env = .ok (c', o)) : dataOf o.frames = [] ∧ o.tun = [] := by
  unfold decoy at h
  split_ifs at h
  · obtain ⟨⟨c₁, o₁, sent⟩, he, h⟩ := Go.bind_eq_ok.1 h
    cases h
    exact encryptSend_sends he (by decide)
  · cases h; exact ⟨rfl, rfl⟩

theorem maybeRekey_sends (h : c.maybeRekey cfg env = .ok (c', o)) :
    dataOf o.frames = [] ∧ o.tun = [] := by
  cases maybeRekey_spec h with
  | no => exact ⟨rfl, rfl⟩
  | unsent _ _ hs => exact ⟨hs.dataOf_eq_nil (by decide), rfl⟩
  | started _ _ hs => exact ⟨hs.dataOf_eq_nil (by decide), rfl⟩

theorem keepalive_sends (h : c.keepalive cfg env = .ok (c', o)) :
    dataOf o.frames = [] ∧ o.tun = [] := by
  unfold keepalive at h
  split_ifs at h
  · cases h; exact ⟨rfl, rfl⟩
  · obtain ⟨⟨c₁, o₁, sent⟩, he, h⟩ := Go.bind_eq_ok.1 h
    obtain ⟨⟨c₂, o₂⟩, hm, h⟩ := Go.bind_eq_ok.1 h
    cases h
    obtain ⟨hd, ht⟩ := encryptSend_sends he (by decide)
    obtain ⟨hd', ht'⟩ := maybeRekey_sends hm
    exact ⟨by rw [Out.append, dataOf_append, hd, hd', List.append_nil],
      by rw [Out.append, ht, ht', List.append_nil]⟩
  · cases h; exact ⟨rfl, rfl⟩

theorem continueRekey_sends {m : Bytes} {err : Option ClientErr}
    (h : c.continueRekey cfg env m = .ok (c', o, err)) : dataOf o.frames = [] ∧ o.tun = [] := by
  unfold continueRekey at h
  split at h
  · cases h
  · split at h
    · cases h; exact ⟨rfl, rfl⟩
    · split at h
      · cases h; exact ⟨rfl, rfl⟩
      · dsimp only at h
        split at h
        · cases h; exact ⟨rfl, rfl⟩
        · obtain ⟨⟨c₁, o₁, sent⟩, he, h⟩ := Go.bind_eq_ok.1 h
          have hno := encryptSend_sends he (by decide)
          cases sent <;> cases h <;> exact hno

/-! ### What the client writes -/

/-- What `handleData` lets pass. -/
def passes (cfg : ClientConfig) (pt : Bytes) : Bool :=
  decide ((pt.length : ℤ) ≤ cfg.mtu) && isIPv4 pt

theorem handleData_tun {pt : Bytes} (h : c.handleData cfg env pt = (c', o)) :
    o.tun = if passes cfg pt then [(pt, env.tunOk)] else [] := by
  have hpass : passes cfg pt = true ↔ ¬ (cfg.mtu < (pt.length : ℤ) ∨ (!isIPv4 pt) = true) := by
    simp [passes]
  unfold handleData at h
  split_ifs at h with h1 h2
  · cases h
    rw [if_neg fun hp => hpass.1 hp h1]
  · cases h
    rw [if_pos (hpass.2 h1), show env.tunOk = false by simpa using h2]
  · cases h
    rw [if_pos (hpass.2 h1), show env.tunOk = true by simpa using h2]

/-- An accepted frame. -/
theorem dispatch_sends {f : Frame} {err : Option ClientErr}
    (h : c.dispatch cfg env f = .ok (c', o, err)) : dataOf o.frames = [] ∧ o.tun =
      if f.typ = msgData ∧ passes cfg f.payload then [(f.payload, env.tunOk)] else [] := by
  unfold dispatch at h
  by_cases hty : f.typ = msgData
  · rw [if_pos hty] at h
    rcases hd : c.handleData cfg env f.payload with ⟨c₂, o₂⟩
    rw [hd] at h
    cases h
    obtain ⟨_, -, -, hf, -⟩ := handleData_spec hd
    refine ⟨by rw [hf, dataOf_nil], ?_⟩
    simp only [handleData_tun hd, hty, true_and]
  · rw [if_neg hty] at h
    rw [if_neg fun h => hty h.1]
    split_ifs at h
    · cases h; exact ⟨rfl, rfl⟩
    · cases h; exact ⟨rfl, rfl⟩
    · cases h; exact ⟨rfl, rfl⟩
    · exact continueRekey_sends h
    · cases h; exact ⟨rfl, rfl⟩
    · cases h; exact ⟨rfl, rfl⟩

/-- What the client writes when it opens a frame, or does not. -/
def writes (cfg : ClientConfig) (env : ClientEnv S) (c : Client S) :
    Except OpenErr Frame → List (Bytes × Bool)
  | .ok f =>
    if f.tag = c.tag ∧ f.typ = msgData ∧ passes cfg f.payload then [(f.payload, env.tunOk)] else []
  | .error _ => []

theorem handleFrame_sends {data : Bytes} {err : Option ClientErr}
    (h : c.handleFrame cfg env data = .ok (c', o, err)) : dataOf o.frames = [] ∧
      (c.keys = none ∧ o.tun = [] ∨ ∃ k k' r, c.keys = some k ∧ k.open data = .ok (k', r) ∧
        o.tun = c.writes cfg env r) := by
  unfold handleFrame at h
  split at h
  · next hk =>
    cases h
    exact ⟨rfl, .inl ⟨hk, rfl⟩⟩
  · next k hk =>
    obtain ⟨⟨k', r⟩, ho, h⟩ := Go.bind_eq_ok.1 h
    suffices hw : dataOf o.frames = [] ∧ o.tun = c.writes cfg env r from
      ⟨hw.1, .inr ⟨k, k', r, hk, ho, hw.2⟩⟩
    cases r with
    | error e =>
      cases h
      exact ⟨rfl, rfl⟩
    | ok f =>
      dsimp only at h
      by_cases ht : f.tag = c.tag
      · rw [if_neg (not_not.2 ht)] at h
        obtain ⟨hd, htun⟩ := dispatch_sends h
        exact ⟨hd, by simp only [htun, writes, ht, true_and]⟩
      · rw [if_pos ht] at h
        cases h
        exact ⟨rfl, by simp only [writes, ht, false_and, if_false]⟩

theorem drainRecv_sends {data : Bytes} (h : c.drainRecv cfg env (some data) = .ok (c', o)) :
    dataOf o.frames = [] ∧
      (c.keys = none ∧ o.tun = [] ∨ ∃ k k' r, c.keys = some k ∧ k.open data = .ok (k', r) ∧
        o.tun = c.writes cfg env r) := by
  obtain ⟨⟨c₁, o₁, err⟩, hf, h⟩ := Go.bind_eq_ok.1 h
  have hsends := handleFrame_sends hf
  dsimp only at h
  split_ifs at h <;> cases h <;> exact hsends

/-! ### Every wake-up -/

/-- **The data frames of a client carry the packets of its TUN.** -/
theorem dataOf_step (h : c.step cfg env e = .ok (c', o)) : dataOf o.frames = e.reads o := by
  cases step_works h with
  | silent hs =>
    rw [hs.1, dataOf_nil]
    cases e <;> simp [Event.reads, hs.1]
  | close hc => exact (sendClose_sends hc).1
  | recv _ hd => exact (drainRecv_sends hd).1
  | tun ht => exact (sendPacket_sends ht).1
  | keepalive hk => exact (keepalive_sends hk).1
  | decoy hd => exact (decoy_sends hd).1

/-- **What a client writes to its TUN** is the payload of a data frame that it has just opened. -/
theorem mem_tun_step (h : c.step cfg env e = .ok (c', o)) {w : Bytes × Bool} (hw : w ∈ o.tun) :
    ∃ data k k' f, e = .recv (some data) ∧ c.keys = some k ∧ k.Opened data k' (.ok f) ∧
      f.typ = msgData ∧ f.payload = w.1 := by
  have hno : ∀ {o : Out S}, o.tun = [] → w ∉ o.tun := fun h hw => by rw [h] at hw; cases hw
  cases step_works h with
  | silent hs => exact absurd hw (hno hs.2)
  | close hc => exact absurd hw (hno (sendClose_sends hc).2)
  | recv _ hd =>
    obtain ⟨-, ⟨-, htun⟩ | ⟨k, k', r, hk, ho, htun⟩⟩ := drainRecv_sends hd
    · exact absurd hw (hno htun)
    · rw [htun] at hw
      cases r with
      | error e => cases hw
      | ok f =>
        rw [writes] at hw
        split_ifs at hw with hf
        · obtain rfl := List.mem_singleton.1 hw
          exact ⟨_, k, k', f, rfl, hk, Keys.open_spec ho, hf.2.1, rfl⟩
        · cases hw
  | tun ht => exact absurd hw (hno (sendPacket_sends ht).2)
  | keepalive hk => exact absurd hw (hno (keepalive_sends hk).2)
  | decoy hd => exact absurd hw (hno (decoy_sends hd).2)

/-- In the main loop, a datagram. -/
theorem tun_recv {data : Bytes} {k k' : Keys S} {r : Except OpenErr Frame}
    (hp : c.phase = .running) (hk : c.keys = some k) (ho : k.open data = .ok (k', r))
    (h : c.step cfg env (.recv (some data)) = .ok (c', o)) : o.tun = c.writes cfg env r := by
  unfold step at h
  rw [hp] at h
  obtain ⟨-, ⟨hno, -⟩ | ⟨k₁, k₁', r₁, hk₁, ho₁, htun⟩⟩ := drainRecv_sends h
  · rw [hk] at hno
    cases hno
  · cases hk.symm.trans hk₁
    cases ho.symm.trans ho₁
    exact htun

end Client

namespace ServerSession

variable {cfg : ServerConfig} {env : ServerEnv S} {s s' : ServerSession S} {o : Out S} {e : Event}
  {running : Bool}

/-- The packet an event hands to the session, as often as the session hands a frame to the
transport. -/
def Event.reads (e : Event) (o : Out S) : List (Bytes × Bool) :=
  match e with
  | .reply pkt => o.frames.map fun f => (pkt, f.2)
  | _ => []

/-- What `handleData` lets pass: packets from the session's own address. -/
def passes (cfg : ServerConfig) (ip : Option Byte4) (pt : Bytes) : Bool :=
  decide ((pt.length : ℤ) ≤ cfg.mtu) && match Header.parse pt with
    | .ok (some h) => ip == some h.src
    | _ => false

/-- What the session writes when it opens a frame, or does not. -/
def writes (cfg : ServerConfig) (env : ServerEnv S) (s : ServerSession S) :
    Except OpenErr Frame → List (Bytes × Bool)
  | .ok f =>
    if f.tag = s.tag ∧ f.typ = msgData ∧ passes cfg s.ip f.payload then
      [(f.payload, env.tunOk)]
    else []
  | .error _ => []

/-- A message other than data. -/
theorem encryptSend_sends {typ : UInt8} {pt : Bytes} {now : ℤ} {se : SendEnv}
    (h : s.encryptSend cfg now se typ pt = .ok (s', o)) (hty : typ ≠ msgData) :
    dataOf o.frames = [] ∧ o.tun = [] := by
  obtain ⟨ep, fs, sent, hs, rfl, rfl⟩ := encryptSend_spec h
  exact ⟨hs.dataOf_eq_nil hty, rfl⟩

/-- Handling a datagram seals no data. -/
theorem Handles.dataOf_eq_nil {data : Bytes} {err : Option SessionErr}
    (h : Handles cfg env s data (s', o, err)) : dataOf o.frames = [] := by
  cases h with
  | refused _ hf => rw [hf, dataOf_nil]
  | tagged => rfl
  | answered _ _ _ _ _ _ _ hf => rw [hf, dataOf_nil]
  | rejected => rfl
  | keyed _ _ _ _ _ _ hs => exact hs.dataOf_eq_nil (by decide)
  | opened => rfl
  | delivered => rfl
  | echoed _ _ _ _ hs => exact hs.dataOf_eq_nil (by decide)
  | rekey1 _ _ _ _ _ _ _ _ hs => exact hs.dataOf_eq_nil (by decide)
  | aborted => rfl
  | rekeyed => rfl

theorem loop_dataOf (h : s.loop cfg env e = .ok (s', o, running)) :
    dataOf o.frames = e.reads o ∧ (running = false → ∀ pkt, e ≠ .reply pkt) := by
  cases e with
  | cancel =>
    cases h
    exact ⟨rfl, by rintro - pkt ⟨⟩⟩
  | recv d =>
    cases d with
    | none =>
      cases h
      exact ⟨rfl, by rintro - pkt ⟨⟩⟩
    | some data =>
      obtain ⟨⟨s₁, o₁, err⟩, hh, h⟩ := Go.bind_eq_ok.1 h
      cases h
      exact ⟨(handle_spec hh).dataOf_eq_nil, by rintro - pkt ⟨⟩⟩
  | reply pkt =>
    simp only [loop] at h
    split_ifs at h
    · obtain ⟨⟨s₁, o₁⟩, he, h⟩ := Go.bind_eq_ok.1 h
      cases h
      obtain ⟨ep, fs, sent, hs, rfl, rfl⟩ := encryptSend_spec he
      exact ⟨hs.dataOf_eq_map, by rintro ⟨⟩⟩
    · cases h
      exact ⟨rfl, by rintro ⟨⟩⟩
  | tick =>
    simp only [loop, tick] at h
    split_ifs at h
    · cases h
      exact ⟨rfl, by rintro - pkt ⟨⟩⟩
    · obtain ⟨⟨s₁, o₁⟩, he, h⟩ := Go.bind_eq_ok.1 h
      cases h
      exact ⟨(encryptSend_sends he (by decide)).1, by rintro - pkt ⟨⟩⟩
    · cases h
      exact ⟨rfl, by rintro - pkt ⟨⟩⟩
    · cases h
      exact ⟨rfl, by rintro - pkt ⟨⟩⟩
  | decoy =>
    simp only [loop] at h
    split_ifs at h
    · obtain ⟨⟨s₁, o₁⟩, he, h⟩ := Go.bind_eq_ok.1 h
      cases h
      exact ⟨(encryptSend_sends he (by decide)).1, by rintro - pkt ⟨⟩⟩
    · cases h
      exact ⟨rfl, by rintro - pkt ⟨⟩⟩

theorem sendCloseQuiet_sends (h : s.sendCloseQuiet cfg env = .ok (s', o)) :
    dataOf o.frames = [] ∧ o.tun = [] := by
  unfold sendCloseQuiet at h
  split_ifs at h
  · exact encryptSend_sends h (by decide)
  · cases h
    exact ⟨rfl, rfl⟩

/-- A step is an iteration of the run loop, and perhaps a last message. -/
theorem step_loops (h : s.step cfg env e = .ok (s', o, running)) : ∃ s₁ o₁,
    s.loop cfg env e = .ok (s₁, o₁, running) ∧ o.tun = o₁.tun ∧
      (running = true ∧ s' = s₁ ∧ o = o₁ ∨
        running = false ∧ dataOf o.frames = dataOf o₁.frames) := by
  obtain ⟨⟨s₁, o₁, r⟩, hl, h⟩ := Go.bind_eq_ok.1 h
  cases r with
  | true =>
    cases h
    exact ⟨_, _, hl, rfl, .inl ⟨rfl, rfl, rfl⟩⟩
  | false =>
    obtain ⟨⟨s₂, o₂⟩, hc, h⟩ := Go.bind_eq_ok.1 h
    cases h
    obtain ⟨hd, ht⟩ := sendCloseQuiet_sends hc
    refine ⟨_, _, hl, ?_, .inr ⟨rfl, ?_⟩⟩
    · rw [Out.append, ht, List.append_nil]
    · rw [Out.append, dataOf_append, hd, List.append_nil]

/-- **The data frames of a session carry the packets it was given.** -/
theorem dataOf_step (h : s.step cfg env e = .ok (s', o, running)) :
    dataOf o.frames = e.reads o := by
  obtain ⟨s₁, o₁, hl, -, ⟨-, -, rfl⟩ | ⟨rfl, hd⟩⟩ := step_loops h
  · exact (loop_dataOf hl).1
  · obtain ⟨hd', hne⟩ := loop_dataOf hl
    rw [hd, hd']
    cases e with
    | reply pkt => exact absurd rfl (hne rfl pkt)
    | _ => rfl

/-! ### What the session writes -/

theorem handleData_tun {pt : Bytes} {err : Option SessionErr} (hk : s.keys.isNone = false)
    (h : s.handleData cfg env pt = .ok (s', o, err)) :
    o.tun = if passes cfg s.ip pt then [(pt, env.tunOk)] else [] := by
  obtain ⟨hdr, hhdr⟩ := Header.parse_ok pt
  unfold handleData at h
  rw [if_neg (by rw [hk]; decide)] at h
  unfold passes
  rw [hhdr]
  split at h
  · next hip =>
    cases h
    rw [hip]
    cases hdr <;> simp
  · next ip hip =>
    by_cases hmtu : cfg.mtu < (pt.length : ℤ)
    · rw [if_pos hmtu] at h
      cases h
      simp [Int.not_le.2 hmtu]
    · rw [if_neg hmtu, hhdr, Go.ok_bind] at h
      cases hdr with
      | none =>
        cases h
        simp
      | some hdr =>
        dsimp only at h
        split_ifs at h with hsrc hok
        · cases h
          simp [hip, Ne.symm hsrc]
        · cases h
          simp_all
        · cases h
          simp_all

theorem rekey1_tun {m : Bytes} {err : Option SessionErr}
    (h : s.rekey1 cfg env m = .ok (s', o, err)) : o.tun = [] := by
  unfold rekey1 at h
  split_ifs at h
  · cases h; rfl
  · split at h
    · cases h; rfl
    · split at h
      · cases h; rfl
      · split at h
        · cases h; rfl
        · obtain ⟨⟨s₁, o₁⟩, he, h⟩ := Go.bind_eq_ok.1 h
          cases h
          exact (encryptSend_sends he (by decide)).2

theorem rekey3_tun {m : Bytes} {err : Option SessionErr} (h : s.rekey3 m = .ok (s', o, err)) :
    o.tun = [] := by
  unfold rekey3 at h
  split at h
  · split at h
    · cases h; rfl
    · split_ifs at h
      · cases h; rfl
      · split at h <;> cases h
        rfl
  · cases h; rfl

theorem dispatch_tun {f : Frame} {err : Option SessionErr} (hk : s.keys.isNone = false)
    (h : s.dispatch cfg env f = .ok (s', o, err)) : o.tun =
      if f.typ = msgData ∧ passes cfg s.ip f.payload then [(f.payload, env.tunOk)] else [] := by
  unfold dispatch at h
  by_cases hty : f.typ = msgData
  · rw [if_pos hty] at h
    simp only [handleData_tun hk h, hty, true_and]
  · rw [if_neg hty] at h
    rw [if_neg fun h => hty h.1]
    split_ifs at h
    · obtain ⟨⟨s₁, o₁⟩, he, h⟩ := Go.bind_eq_ok.1 h
      cases h
      exact (encryptSend_sends he (by decide)).2
    · cases h; rfl
    · cases h; rfl
    · exact rekey1_tun h
    · exact rekey3_tun h
    · cases h; rfl

/-- **What a session with keys writes to the TUN** when it is handed a datagram. -/
theorem tun_recv {data : Bytes} {k k' : Keys S} {r : Except OpenErr Frame}
    (hk : s.keys = some k) (ho : k.open data = .ok (k', r))
    (h : s.step cfg env (.recv (some data)) = .ok (s', o, running)) :
    o.tun = s.writes cfg env r := by
  obtain ⟨s₁, o₁, hl, htun, -⟩ := step_loops h
  rw [htun]
  obtain ⟨⟨s₂, o₂, err⟩, hh, hl⟩ := Go.bind_eq_ok.1 hl
  cases hl
  simp only [handle, hk, ho, Go.ok_bind] at hh
  cases r with
  | error e =>
    cases hh
    rfl
  | ok f =>
    dsimp only at hh
    by_cases ht : f.tag = s.tag
    · rw [if_neg (not_not.2 ht)] at hh
      have hd := dispatch_tun (s := { s with keys := some k', lastRecv := env.now }) rfl hh
      simp only [hd, writes, ht, true_and]
    · rw [if_pos ht] at hh
      cases hh
      simp only [writes, ht, false_and, if_false]

/-- **What a session writes to the TUN** is the payload of a data frame that it has just opened. -/
theorem mem_tun_step (h : s.step cfg env e = .ok (s', o, running)) {w : Bytes × Bool}
    (hw : w ∈ o.tun) : ∃ data k k' f, e = .recv (some data) ∧ s.keys = some k ∧
      k.Opened data k' (.ok f) ∧ f.typ = msgData ∧ f.payload = w.1 := by
  obtain ⟨s₁, o₁, hl, htun, -⟩ := step_loops h
  rw [htun] at hw
  cases loop_spec hl with
  | idle => cases hw
  | sent => cases hw
  | timeout => cases hw
  | recv hh =>
    cases hh with
    | refused _ _ ht => rw [ht] at hw; cases hw
    | answered _ _ _ _ _ _ _ _ ht => rw [ht] at hw; cases hw
    | delivered hk ho _ hty =>
      obtain rfl := List.mem_singleton.1 hw
      exact ⟨_, _, _, _, rfl, hk, ho, hty, rfl⟩
    | _ => cases hw

end ServerSession

end VibeVpn

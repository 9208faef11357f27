import VibeVpn.Session.Connection

/-!
# When the client gives up a rekey that cannot complete

The client pauses its traffic when it starts a rekey and resumes it when `continueRekey` succeeds.
Nothing else resumes it: `continueRekey` leaves `rekeying` set when it fails, and the keepalive
ticker has no rekey timeout, unlike the ticker of the server.  A rekey whose messages are lost is
only given up with the whole connection.

* `Conn.Abandons` : a step gives up a rekey that failed, or that has timed out;
* `Conn.Completable` : the condition under which it does;
* `Conn.rekey_abandoned_iff` : **the runs that give up every failed rekey are those whose steps all
  meet the condition**;
* `Conn.rekey_not_abandoned` : two runs that do not.
-/

namespace VibeVpn

namespace Client

variable {S : Suite} {cfg : ClientConfig} {env : ClientEnv S} {c c' : Client S} {o : Out S}

/-- The second message `m` can be read, the third one can be written with the new keys, and the
transport takes it. -/
def Completes (env : ClientEnv S) (c : Client S) (m : Bytes) : Prop :=
  ∃ hs st st₃ ks, c.rekeyHs = some hs ∧ S.read hs m = some st ∧
    S.write st.hs env.seed [] = some st₃ ∧ st₃.keys = some ks ∧ env.send.ok = true

/-- `continueRekey` fails unless the rekey completes, and a failure leaves the client rekeying. -/
theorem continueRekey_completes {m : Bytes} {err : Option ClientErr} (hk : c.keys.isSome)
    (hr : c.rekeying = true) (h : c.continueRekey cfg env m = .ok (c', o, err)) :
    c.Completes env m ∧ err = none ∨
      ¬ c.Completes env m ∧ err = some .rekeyFailed ∧ c'.rekeying = true := by
  unfold continueRekey at h
  split at h
  · cases h
  · next hs hhs =>
    split at h
    · next hn =>
      cases h
      refine .inr ⟨?_, rfl, hr⟩
      rintro ⟨hs', st, _, _, hhs', hst, -⟩
      cases hhs.symm.trans hhs'
      cases hn.symm.trans hst
    · next st hst =>
      split at h
      · next hn =>
        cases h
        refine .inr ⟨?_, rfl, hr⟩
        rintro ⟨hs', st', _, _, hhs', hst', hst₃, -⟩
        cases hhs.symm.trans hhs'
        cases hst.symm.trans hst'
        cases hn.symm.trans hst₃
      · next st₃ hst₃ =>
        split at h
        · next hn =>
          cases h
          refine .inr ⟨?_, rfl, hr⟩
          rintro ⟨hs', st', st₃', _, hhs', hst', hst₃', hks, -⟩
          cases hhs.symm.trans hhs'
          cases hst.symm.trans hst'
          cases hst₃.symm.trans hst₃'
          cases hn.symm.trans hks
        · next ks hks =>
          obtain ⟨⟨c₁, o₁, sent⟩, he, h⟩ := Go.bind_eq_ok.1 h
          obtain ⟨⟨ep, fs, sent'⟩, he', heq⟩ := Go.bind_eq_ok.1 he
          cases heq
          have hok : sent = env.send.ok := Endpoint.encryptSend_sent he' (by
            rintro (hn | ⟨-, hn⟩)
            · rw [show c.keys = none from hn] at hk; cases hk
            · cases hn)
          cases sent with
          | true =>
            cases h
            exact .inl ⟨⟨hs, st, st₃, ks, hhs, hst, hst₃, hks, hok.symm⟩, rfl⟩
          | false =>
            cases h
            refine .inr ⟨?_, rfl, (Endpoint.encryptSend_spec he').frame.2.1.trans hr⟩
            rintro ⟨_, _, _, _, -, -, -, -, hok'⟩
            cases hok.trans hok'

/-- A frame that is the second message of a rekey in progress. -/
theorem handleFrame_completes {data : Bytes} {k k' : Keys S} {f : Frame} {err : Option ClientErr}
    (h : c.handleFrame cfg env data = .ok (c', o, err)) (hk : c.keys = some k)
    (ho : k.open data = .ok (k', .ok f)) (htag : f.tag = c.tag) (hty : f.typ = msgRekey2)
    (hr : c.rekeying = true) :
    c.Completes env f.payload ∧ err = none ∨
      ¬ c.Completes env f.payload ∧ err = some .rekeyFailed ∧ c'.rekeying = true := by
  have hcont : { c with keys := some k' }.continueRekey cfg env f.payload = .ok (c', o, err) := by
    unfold handleFrame at h
    rw [hk] at h
    dsimp only at h
    rw [ho, Go.ok_bind] at h
    dsimp only at h
    rw [if_neg (not_not.2 htag)] at h
    simpa [dispatch, hty, msgRekey2, msgData, msgKeepalive, msgClose, msgDecoy, hr] using h
  exact continueRekey_completes (c := { c with keys := some k' }) rfl hr hcont

/-- Only the second message of a rekey in progress makes `handleFrame` report a failed rekey. -/
theorem rekey2_of_handleFrame {data : Bytes}
    (h : c.handleFrame cfg env data = .ok (c', o, some .rekeyFailed)) :
    ∃ k k' f, c.keys = some k ∧ k.open data = .ok (k', .ok f) ∧ f.tag = c.tag ∧
      f.typ = msgRekey2 ∧ c.rekeying = true := by
  unfold handleFrame at h
  split at h
  · cases h
  · next k hk =>
    obtain ⟨⟨k', r⟩, ho, h⟩ := Go.bind_eq_ok.1 h
    dsimp only at h
    split at h
    · cases h
    · next f =>
      by_cases htag : f.tag = c.tag
      · rw [if_neg (not_not.2 htag)] at h
        obtain ⟨_, -, -, -, -, -, herr, -⟩ | ⟨-, -, herr⟩ | ⟨hty, hr, -⟩ := dispatch_spec h
        · cases herr
        · cases herr
        · exact ⟨k, k', f, hk, ho, htag, hty, hr⟩
      · rw [if_pos htag] at h
        cases h

end Client

namespace Conn

variable {S : Suite} {cc : ClientConfig} {cs : ServerConfig} {x x' : Conn S} {l : Label S}

/-- No first or second message of the client's rekey is in flight. -/
def Lost (x : Conn S) : Prop :=
  ∀ k, x.client.keys = some k →
    (∀ f, .frame f ∈ x.c2s → f.typ = msgRekey1 → f.key ≠ k.sendKey) ∧
    ∀ f, .frame f ∈ x.s2c → f.typ = msgRekey2 → f.key ≠ k.recvKey

/-- The rekey of the client has timed out, and its messages are lost. -/
structure Overdue (cc : ClientConfig) (x : Conn S) (now : ℤ) : Prop where
  phase : x.client.phase = .running
  rekeying : x.client.rekeying = true
  late : x.rekeyAt + cc.handshakeTimeout < now
  lost : x.Lost

/-- A step after which the client is not left with a rekey that cannot complete: when
`continueRekey` has failed, or the keepalive ticker finds the rekey overdue, the client no longer
rekeys, and it has its old keys or no connection. -/
def Abandons (cc : ClientConfig) (cs : ServerConfig) (x : Conn S) (l : Label S) : Prop :=
  ∀ x', Step cc cs x l x' → match l with
    | .toClient env i => x.client.phase = .running → ∀ p c o, x.s2c[i]? = some p →
        { x.client with lastRecv := env.now }.handleFrame cc env p.wire =
          .ok (c, o, some .rekeyFailed) →
        x'.client.rekeying = false ∧ x'.client.rekeyHs = none ∧
          x'.client.keys.map Keys.pair = x.client.keys.map Keys.pair
    | .client env .keepalive => x.Overdue cc env.now →
        x'.client.rekeying = false ∧
          (x'.client.keys.map Keys.pair = x.client.keys.map Keys.pair ∨ x'.client.keys = none)
    | _ => True

/-- The condition on a step: a second message that the client accepts completes its rekey, and when
the keepalive ticker finds a rekey overdue the whole session has timed out. -/
def Completable (cc : ClientConfig) (x : Conn S) : Label S → Prop
  | .toClient env i => x.client.phase = .running → x.client.rekeying = true →
      ∀ p k k' f, x.s2c[i]? = some p → x.client.keys = some k →
        k.open p.wire = .ok (k', .ok f) → f.tag = x.client.tag → f.typ = msgRekey2 →
        x.client.Completes env f.payload
  | .client env .keepalive => x.Overdue cc env.now →
      cc.sessionTimeout < env.now - x.client.lastRecv
  | _ => True

/-- A second message that does not complete the rekey leaves the client rekeying. -/
theorem rekeying_of_not_completes {env : ClientEnv S} {i : ℕ} {p : Packet S} {k k' : Keys S}
    {f : Frame} (hp : x.s2c[i]? = some p) (hrun : x.client.phase = .running)
    (hr : x.client.rekeying = true) (hk : x.client.keys = some k)
    (ho : k.open p.wire = .ok (k', .ok f)) (htag : f.tag = x.client.tag)
    (hty : f.typ = msgRekey2) (hn : ¬ x.client.Completes env f.payload)
    (h : Step cc cs x (.toClient env i) x') :
    x'.client.rekeying = true ∧ ∃ c o,
      { x.client with lastRecv := env.now }.handleFrame cc env p.wire =
        .ok (c, o, some .rekeyFailed) := by
  cases h with
  | @toClient _ _ q c' o _ hq hs =>
    obtain rfl : p = q := Option.some.inj (hp.symm.trans hq)
    unfold Client.step at hs
    rw [hrun] at hs
    obtain ⟨⟨c₁, o₁, err⟩, hf, hs⟩ := Go.bind_eq_ok.1 hs
    rcases Client.handleFrame_completes hf hk ho htag hty hr with ⟨hc, -⟩ | ⟨-, rfl, hr'⟩
    · exact absurd hc hn
    · dsimp only at hs
      rw [if_neg (by simp)] at hs
      cases hs
      exact ⟨hr', c', o, hf⟩

/-- The keepalive ticker of a rekeying client closes an idle session and does nothing else. -/
theorem keepalive_of_rekeying {env : ClientEnv S} (hrun : x.client.phase = .running)
    (hr : x.client.rekeying = true) (h : Step cc cs x (.client env .keepalive) x') :
    x'.client = if cc.sessionTimeout < env.now - x.client.lastRecv then x.client.reconnect
      else x.client := by
  cases h with
  | client _ _ hs =>
    unfold Client.step at hs
    rw [hrun] at hs
    simp only [Client.keepalive, hr, Bool.not_true, Bool.false_eq_true, and_false, if_false] at hs
    split_ifs at hs ⊢
    · cases hs; rfl
    · cases hs; rfl

theorem abandons_iff (h : Step cc cs x l x') : Abandons cc cs x l ↔ Completable cc x l := by
  unfold Abandons Completable
  split
  · next env i =>
    constructor
    · intro ha hrun hr p k k' f hp hk ho htag hty
      by_contra hn
      obtain ⟨hr', c, o, hf⟩ := rekeying_of_not_completes hp hrun hr hk ho htag hty hn h
      rw [(ha x' h hrun p c o hp hf).1] at hr'
      cases hr'
    · intro hc x'' _ hrun p c o hp hf
      -- the condition rules the failure out
      obtain ⟨k, k', f, hk, ho, htag, hty, hr⟩ := Client.rekey2_of_handleFrame hf
      rcases Client.handleFrame_completes hf hk ho htag hty hr with ⟨-, he⟩ | ⟨hn, -⟩
      · cases he
      · exact absurd (hc hrun hr p k k' f hp hk ho htag hty) hn
  · next env =>
    constructor
    · intro ha hd
      by_contra hn
      have hc := (ha x' h hd).1
      rw [keepalive_of_rekeying hd.phase hd.rekeying h, if_neg hn, hd.rekeying] at hc
      cases hc
    · intro hc x'' h' hd
      rw [keepalive_of_rekeying hd.phase hd.rekeying h', if_pos (hc hd)]
      exact ⟨rfl, .inr rfl⟩
  · simp

/-- **When every uncompletable rekey is given up.**  A run of a connection gives up every rekey of
the client that has failed or is overdue exactly when every second message that the client accepts
completes the rekey, and no rekey is overdue before the session itself has timed out. -/
theorem rekey_abandoned_iff {x₀ : Conn S} {ls : List (Label S)} :
    ((lts S cc cs).restrict (Abandons cc cs)).Run x₀ ls x ↔
      ((lts S cc cs).restrict (Completable cc)).Run x₀ ls x :=
  LTS.run_restrict_congr fun _ _ _ => abandons_iff

/-- Two runs that leave the client rekeying.  In one the first message of the rekey is lost, and the
keepalive ticker fires 11 seconds later, with nothing in flight.  In the other the transport does
not take the third message. -/
theorem rekey_not_abandoned :
    (∃ ls x x', (lts plain Client.plainConfig ServerSession.plainConfig).Run plainStart ls x ∧
      PlainStep x (.client (Client.plainEnv 41 0) .keepalive) x' ∧
      x.Overdue Client.plainConfig 41 ∧ x.c2s = [] ∧ x.s2c = [] ∧ x'.client.rekeying = true) ∧
    ∃ ls x x' env p c o,
      (lts plain Client.plainConfig ServerSession.plainConfig).Run plainStart ls x ∧
      PlainStep x (.toClient env 0) x' ∧ x.client.phase = .running ∧ x.s2c[0]? = some p ∧
      { x.client with lastRecv := env.now }.handleFrame Client.plainConfig env p.wire =
        .ok (c, o, some .rekeyFailed) ∧
      x'.client.rekeying = true ∧ x'.client.rekeyHs ≠ none := by
  obtain ⟨x₄, h₄, x₅, h₅, ⟨x₆, h₆, x₇, h₇, x₈, h₈, hd, hc, hs, hr⟩,
      x₆', h₆', x₇', h₇', hrun, p, hp, c, o, hf, hr', hh⟩ :
      ∃ x₄, PlainStep plainSettled (.toClient (Client.plainEnv 3 0) 0) x₄ ∧
      ∃ x₅, PlainStep x₄ (.client (Client.plainEnv 30 8) .keepalive) x₅ ∧
      (∃ x₆, PlainStep x₅ (.faultC2S (.lose 1)) x₆ ∧
        ∃ x₇, PlainStep x₆ (.faultC2S (.lose 0)) x₇ ∧
        ∃ x₈, PlainStep x₇ (.client (Client.plainEnv 41 0) .keepalive) x₈ ∧
          x₇.Overdue Client.plainConfig 41 ∧ x₇.c2s = [] ∧ x₇.s2c = [] ∧
          x₈.client.rekeying = true) ∧
      ∃ x₆, PlainStep x₅ (.toServer (ServerSession.plainEnv 31 10) 1) x₆ ∧
      ∃ x₇, PlainStep x₆
          (.toClient { Client.plainEnv 32 6 with send := ⟨default, false⟩ } 0) x₇ ∧
        x₆.client.phase = .running ∧ ∃ p, x₆.s2c[0]? = some p ∧
        ∃ c o, { x₆.client with lastRecv := 32 }.handleFrame Client.plainConfig
          { Client.plainEnv 32 6 with send := ⟨default, false⟩ } p.wire =
            .ok (c, o, some .rekeyFailed) ∧
          x₇.client.rekeying = true ∧ x₇.client.rekeyHs ≠ none :=
    ⟨_, .toClient rfl rfl rfl, _, .client rfl rfl rfl,
      ⟨_, .faultC2S _, _, .faultC2S _, _, .client rfl rfl rfl,
        ⟨rfl, rfl, by decide, fun _ _ => ⟨fun _ => nofun, fun _ => nofun⟩⟩, rfl, rfl, rfl⟩,
      _, .toServer rfl rfl rfl, _, .toClient rfl rfl rfl, rfl, _, rfl, _, _, rfl, rfl, nofun⟩
  have run₀ : (lts plain Client.plainConfig ServerSession.plainConfig).Run plainStart plainOpening
      plainSettled := LTS.run_of_next (fun _ _ _ => step_of_next) rfl
  have run := (run₀.snoc h₄).snoc h₅
  exact ⟨⟨_, x₇, x₈, (run.snoc h₆).snoc h₇, h₈, hd, hc, hs, hr⟩,
    _, x₆', x₇', _, p, c, o, run.snoc h₆', h₇', hrun, hp, hf, hr', hh⟩

end Conn

end VibeVpn

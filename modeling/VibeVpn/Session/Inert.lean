import VibeVpn.LTS.Inert
import VibeVpn.Session.ClientSpec
import VibeVpn.Session.ServerSpec

/-!
# Rejected datagrams are inert

A datagram that `Keys.open` rejects (too short, not authentic, malformed or replayed) counts as
dropped and does nothing else.  Since no handler reads the number of dropped packets, two runs that
differ in such datagrams only cannot be told apart:

* `rejected_datagrams_inert` : **deleting the rejected datagrams from a run changes neither what is
  observed nor the final state, up to the number of dropped packets**, on the server and on the
  client.

The rule for two runs is `runs_kept`; its premises are one lemma for each handler.
-/

namespace VibeVpn

variable {S : Suite}

/-- What a handler does that can be observed. -/
inductive Obs (S : Suite) (E : Type) where
  /-- `Keys.open` accepts a frame. -/
  | accepted (f : Frame)
  /-- A frame is handed to the transport. -/
  | frame (f : Sealed S) (ok : Bool)
  /-- A raw message is handed to the transport. -/
  | raw (msg : Bytes) (ok : Bool)
  /-- A packet is handed to the TUN. -/
  | tun (pkt : Bytes) (ok : Bool)
  /-- Keys are installed. -/
  | installed (ks : S.Key × S.Key)
  /-- The handler returns an error. -/
  | err (e : E)

/-- The observations of one call of a handler. -/
def observe {E : Type} (f : Option Frame) (o : Out S) (err : Option E) : List (Obs S E) :=
  f.toList.map Obs.accepted ++ o.frames.map (fun x => Obs.frame x.1 x.2) ++
    o.raw.map (fun x => Obs.raw x.1 x.2) ++ o.tun.map (fun x => Obs.tun x.1 x.2) ++
    o.installed.map Obs.installed ++ err.toList.map Obs.err

/-- The counters with another number of dropped packets. -/
def Stats.setDropped (n : ℕ) (s : Stats) : Stats := { s with packetsDropped := n }

theorem Stats.recordSize_setDropped (n : ℕ) (s : Stats) (len : ℕ) :
    (s.setDropped n).recordSize len = (s.recordSize len).setDropped n := by
  unfold recordSize
  split_ifs <;> rfl

theorem Stats.sent_setDropped (n : ℕ) (s : Stats) (wire len : ℕ) :
    (s.setDropped n).sent wire len = (s.sent wire len).setDropped n := by
  rw [sent, sent, ← recordSize_setDropped]
  rfl

theorem Stats.received_setDropped (n : ℕ) (s : Stats) (len : ℕ) :
    (s.setDropped n).received len = (s.received len).setDropped n := by
  rw [received, received, ← recordSize_setDropped]
  rfl

namespace Endpoint

variable {s : Endpoint S}

/-- The frame that `Keys.open` returns for a datagram, if it accepts it. -/
def accepted (s : Endpoint S) (data : Bytes) : Option Frame :=
  match s.keys with
  | none => none
  | some k => match k.open data with
    | .ok (_, .ok f) => some f
    | _ => none

/-- `Keys.open` rejects the datagram. -/
def rejects (s : Endpoint S) (data : Bytes) : Bool :=
  match s.keys with
  | none => false
  | some k => match k.open data with
    | .ok (_, .error _) => true
    | _ => false

/-- The endpoint with another number of dropped packets. -/
def setDropped (n : ℕ) (s : Endpoint S) : Endpoint S :=
  { s with stats := s.stats.setDropped n }

/-- What is rejected leaves the keys as they are. -/
theorem open_of_rejects {data : Bytes} (h : s.rejects data = true) :
    ∃ k e, s.keys = some k ∧ k.open data = .ok (k, .error e) ∧ s.accepted data = none := by
  unfold rejects at h
  unfold accepted
  cases hk : s.keys with
  | none => rw [hk] at h; cases h
  | some k =>
    rw [hk] at h
    dsimp only at h ⊢
    obtain ⟨k', r, ho, hopened⟩ := k.open_ok data
    rw [ho] at h ⊢
    cases hopened with
    | rejected e _ => exact ⟨k, e, rfl, ho, rfl⟩
    | replayed f _ _ => exact ⟨k, .replay, rfl, ho, rfl⟩
    | accepted => cases h

/-- Sending does not look at the number of dropped packets. -/
theorem encryptSend_setDropped (n : ℕ) (sh : Shaping) (t : Bool) (now : ℤ) (e : SendEnv)
    (s : Endpoint S) (typ : UInt8) (pt : Bytes) :
    Agree (Alike fun a b => b = a.setDropped n) (s.encryptSend sh t now e typ pt)
      ((s.setDropped n).encryptSend sh t now e typ pt) := by
  have hkeys : (s.setDropped n).keys = s.keys := rfl
  have hrekeying : (s.setDropped n).rekeying = s.rekeying := rfl
  unfold encryptSend
  rw [hkeys, hrekeying]
  cases s.keys with
  | none => exact .ok ⟨rfl, rfl⟩
  | some k =>
    dsimp only
    by_cases hb : (s.rekeying && !isRekey typ) = true
    · rw [if_pos hb, if_pos hb]
      exact .ok ⟨rfl, rfl⟩
    · rw [if_neg hb, if_neg hb]
      refine Agree.bind (Agree.refl_of (R := Eq) (fun _ => rfl) _) ?_
      rintro ⟨k', f⟩ _ rfl
      dsimp only
      by_cases ht : (!t) = true
      · rw [if_pos ht, if_pos ht]
        exact .error _
      · rw [if_neg ht, if_neg ht]
        by_cases hok : e.ok = true
        · rw [if_pos hok, if_pos hok]
          refine .ok ⟨?_, rfl⟩
          simp only [setDropped, Stats.sent_setDropped]
        · rw [if_neg hok, if_neg hok]
          exact .ok ⟨rfl, rfl⟩

end Endpoint

/-! ### The server -/

namespace ServerSession

variable {cfg : ServerConfig} {env : ServerEnv S}

/-- The session with another number of dropped packets. -/
def setDropped (n : ℕ) (s : ServerSession S) : ServerSession S :=
  { s with toEndpoint := s.toEndpoint.setDropped n }

/-- The sessions differ at most in the number of dropped packets. -/
def SameButDropped (a b : ServerSession S) : Prop := ∃ n, b = a.setDropped n

/-- Nothing the handlers read depends on the number of dropped packets. -/
theorem setDropped_frame (n : ℕ) (s : ServerSession S) :
    (s.setDropped n).keys = s.keys ∧ (s.setDropped n).hs = s.hs ∧ (s.setDropped n).ip = s.ip ∧
    (s.setDropped n).rekeying = s.rekeying ∧ (s.setDropped n).rekeyHs = s.rekeyHs ∧
    (s.setDropped n).clientKey = s.clientKey ∧ (s.setDropped n).tag = s.tag :=
  ⟨rfl, rfl, rfl, rfl, rfl, rfl, rfl⟩

theorem same_drop (n : ℕ) (s : ServerSession S) : SameButDropped s.drop (s.setDropped n).drop :=
  ⟨n + 1, rfl⟩

/-- A result that carries the session along unchanged. -/
theorem agree_pure {γ : Type} (n : ℕ) (s : ServerSession S) (a : γ) :
    Agree (Alike SameButDropped) (.ok (s, a) : Go _) (.ok (s.setDropped n, a)) :=
  .ok ⟨⟨n, rfl⟩, rfl⟩

theorem encryptSend_setDropped (n : ℕ) (now : ℤ) (e : SendEnv) (s : ServerSession S) (typ : UInt8)
    (pt : Bytes) :
    Agree (Alike fun a b => b = a.setDropped n) (s.encryptSend cfg now e typ pt)
      ((s.setDropped n).encryptSend cfg now e typ pt) := by
  refine (s.toEndpoint.encryptSend_setDropped n cfg.shaping true now e typ pt).bind ?_
  rintro ⟨ep, fs, ok⟩ ⟨ep', fs', ok'⟩ ⟨hep, hrest⟩
  cases hep
  cases hrest
  exact .ok ⟨rfl, rfl⟩

theorem handleData_setDropped (n : ℕ) (s : ServerSession S) (pt : Bytes) :
    Agree (Alike SameButDropped) (s.handleData cfg env pt)
      ((s.setDropped n).handleData cfg env pt) := by
  obtain ⟨hkeys, -, hip, -⟩ := s.setDropped_frame n
  unfold handleData
  rw [hkeys, hip]
  by_cases hk : s.keys.isNone = true
  · rw [if_pos hk, if_pos hk]
    exact agree_pure n s _
  · rw [if_neg hk, if_neg hk]
    cases s.ip with
    | none => exact .ok ⟨same_drop n s, rfl⟩
    | some ip =>
      dsimp only
      by_cases hmtu : cfg.mtu < pt.length
      · rw [if_pos hmtu, if_pos hmtu]
        exact .ok ⟨same_drop n s, rfl⟩
      · rw [if_neg hmtu, if_neg hmtu]
        refine Agree.bind (Agree.refl_of (R := Eq) (fun _ => rfl) _) ?_
        rintro hdr _ rfl
        cases hdr with
        | none => exact .ok ⟨same_drop n s, rfl⟩
        | some h =>
          dsimp only
          split_ifs
          · exact .ok ⟨same_drop n s, rfl⟩
          · exact agree_pure n s _
          · refine .ok ⟨⟨n, ?_⟩, rfl⟩
            simp only [setDropped, Endpoint.setDropped, Stats.received_setDropped]

theorem handleKeepalive_setDropped (n : ℕ) (s : ServerSession S) (pt : Bytes) :
    Agree (Alike SameButDropped) (s.handleKeepalive cfg env pt)
      ((s.setDropped n).handleKeepalive cfg env pt) := by
  refine (s.encryptSend_setDropped n env.now env.send msgKeepalive pt).bind ?_
  rintro ⟨a, o⟩ ⟨b, o'⟩ ⟨hab, ho⟩
  cases hab
  cases ho
  exact agree_pure n a _

theorem rekey1_setDropped (n : ℕ) (s : ServerSession S) (m : Bytes) :
    Agree (Alike SameButDropped) (s.rekey1 cfg env m) ((s.setDropped n).rekey1 cfg env m) := by
  obtain ⟨hkeys, -, -, hrekeying, -⟩ := s.setDropped_frame n
  unfold rekey1
  rw [hkeys, hrekeying]
  by_cases hb : (s.keys.isNone || s.rekeying) = true
  · rw [if_pos hb, if_pos hb]
    exact agree_pure n s _
  · rw [if_neg hb, if_neg hb]
    cases S.newServerHandshake cfg.keypair with
    | none => exact agree_pure n s _
    | some r =>
      dsimp only
      cases S.read r m with
      | none => exact agree_pure n s _
      | some st =>
        dsimp only
        cases S.write st.hs env.seed [] with
        | none => exact agree_pure n s _
        | some st₂ =>
          refine (encryptSend_setDropped n env.now env.send
            { s with rekeyHs := some st₂.hs, rekeying := true, rekeyStart := env.now } msgRekey2
            st₂.out).bind ?_
          rintro ⟨a, o⟩ ⟨b, o'⟩ ⟨hab, ho⟩
          cases hab
          cases ho
          exact agree_pure n a _

theorem rekey3_setDropped (n : ℕ) (s : ServerSession S) (m : Bytes) :
    Agree (Alike SameButDropped) (s.rekey3 m) ((s.setDropped n).rekey3 m) := by
  obtain ⟨-, -, -, hrekeying, hhs, hkey, -⟩ := s.setDropped_frame n
  unfold rekey3
  rw [hrekeying, hhs, hkey]
  cases s.rekeying with
  | false => exact agree_pure n s _
  | true =>
    cases s.rekeyHs with
    | none => exact agree_pure n s _
    | some h =>
      dsimp only
      cases S.read h m with
      | none => exact agree_pure n s.abortRekey _
      | some st =>
        dsimp only
        by_cases hp : S.peerStatic st.hs ≠ s.clientKey.getD []
        · rw [if_pos hp, if_pos hp]
          exact agree_pure n s.abortRekey _
        · rw [if_neg hp, if_neg hp]
          cases st.keys with
          | none => exact .error _
          | some ks => exact .ok ⟨⟨n, rfl⟩, rfl⟩

theorem dispatch_setDropped (n : ℕ) (s : ServerSession S) (f : Frame) :
    Agree (Alike SameButDropped) (s.dispatch cfg env f) ((s.setDropped n).dispatch cfg env f) := by
  unfold dispatch
  refine .ite ?_ (.ite ?_ (.ite ?_ (.ite ?_ (.ite ?_ (.ite ?_ ?_)))))
  · exact handleData_setDropped n s _
  · exact handleKeepalive_setDropped n s _
  · exact agree_pure n s _
  · exact agree_pure n s _
  · exact rekey1_setDropped n s _
  · exact rekey3_setDropped n s _
  · exact agree_pure n s _

theorem respond_setDropped (n : ℕ) (s : ServerSession S) (m : Bytes) :
    Alike SameButDropped (s.respond cfg env m) ((s.setDropped n).respond cfg env m) := by
  unfold respond
  cases S.newServerHandshake cfg.keypair with
  | none => exact ⟨⟨n, rfl⟩, rfl⟩
  | some r =>
    dsimp only
    cases S.read r m with
    | none => exact ⟨⟨n, rfl⟩, rfl⟩
    | some st =>
      dsimp only
      split_ifs
      · exact ⟨⟨n, rfl⟩, rfl⟩
      · cases S.write st.hs env.seed [] with
        | none => exact ⟨⟨n, rfl⟩, rfl⟩
        | some st₂ => exact ⟨⟨n, rfl⟩, rfl⟩

theorem handshake1_setDropped (n : ℕ) (s : ServerSession S) (data : Bytes) :
    Agree (Alike SameButDropped) (s.handshake1 cfg env data)
      ((s.setDropped n).handshake1 cfg env data) := by
  obtain ⟨hkeys, hhs, -⟩ := s.setDropped_frame n
  have hchallenge : ∀ c, challenge env (s.setDropped n) c = challenge env s c := fun _ => rfl
  unfold handshake1
  rw [hkeys, hhs]
  by_cases hb : (s.hs.isSome || s.keys.isSome) = true
  · rw [if_pos hb, if_pos hb]
    exact agree_pure n s _
  · rw [if_neg hb, if_neg hb]
    refine Agree.bind (Agree.refl_of (R := Eq) (fun _ => rfl) _) ?_
    rintro r _ rfl
    cases r with
    | none => exact agree_pure n s _
    | some mc =>
      dsimp only
      rw [hchallenge]
      cases challenge env s mc.2 with
      | some c => exact agree_pure n s _
      | none => exact .ok (respond_setDropped n s _)

theorem handshake3_setDropped (n : ℕ) (s : ServerSession S) (data : Bytes) :
    Agree (Alike SameButDropped) (s.handshake3 cfg env data)
      ((s.setDropped n).handshake3 cfg env data) := by
  obtain ⟨-, hhs, -⟩ := s.setDropped_frame n
  unfold handshake3
  rw [hhs]
  cases s.hs with
  | none => exact agree_pure n s _
  | some h =>
    dsimp only
    cases S.read h data with
    | none => exact agree_pure n s _
    | some st =>
      dsimp only
      by_cases hp : (!env.allowPeer (S.peerStatic st.hs)) = true
      · rw [if_pos hp, if_pos hp]
        exact .ok ⟨⟨n, rfl⟩, rfl⟩
      · rw [if_neg hp, if_neg hp]
        cases env.adopt (S.peerStatic st.hs) with
        | error p => exact .error _
        | ok ip =>
          rw [Go.ok_bind, Go.ok_bind]
          cases ip with
          | none => exact .ok ⟨⟨n, rfl⟩, rfl⟩
          | some ip =>
            dsimp only
            cases st.keys with
            | none => exact .error _
            | some ks =>
              refine (encryptSend_setDropped n env.now env.send
                { s with
                  hs := none
                  clientKey := some (S.peerStatic st.hs)
                  ip := some ip
                  keys := some (newKeys S false ks) } msgAssign
                (assignPayload cfg.prefixLen ip cfg.gw)).bind ?_
              rintro ⟨a, o⟩ ⟨b, o'⟩ ⟨hab, ho⟩
              cases hab
              cases ho
              exact agree_pure n a _

theorem handle_setDropped (n : ℕ) (s : ServerSession S) (data : Bytes) :
    Agree (Alike SameButDropped) (s.handle cfg env data)
      ((s.setDropped n).handle cfg env data) := by
  obtain ⟨hkeys, hhs, -⟩ := s.setDropped_frame n
  unfold handle
  rw [hkeys, hhs]
  cases s.keys with
  | none =>
    dsimp only
    split_ifs
    · exact handshake1_setDropped n s data
    · exact handshake3_setDropped n s data
  | some k =>
    refine Agree.bind (Agree.refl_of (R := Eq) (fun _ => rfl) _) ?_
    rintro ⟨k', r⟩ _ rfl
    cases r with
    | error e => exact .ok ⟨same_drop n { s with keys := some k' }, rfl⟩
    | ok f =>
      dsimp only
      by_cases htag : f.tag ≠ s.tag
      · rw [if_pos htag, if_pos (show f.tag ≠ (s.setDropped n).tag from htag)]
        exact .ok ⟨same_drop n { s with keys := some k' }, rfl⟩
      · rw [if_neg htag, if_neg (show ¬ f.tag ≠ (s.setDropped n).tag from htag)]
        exact dispatch_setDropped n { s with keys := some k' } f

/-- `handle` on a datagram, with what can be observed. -/
def observed (cfg : ServerConfig) (s : ServerSession S) (i : ServerEnv S × Bytes) :
    Go (ServerSession S × List (Obs S SessionErr)) := do
  let (s', o, err) ← s.handle cfg i.1 i.2
  pure (s', observe (s.accepted i.2) o err)

theorem observed_alike (s t : ServerSession S) (i : ServerEnv S × Bytes) (h : SameButDropped s t) :
    Agree (Alike SameButDropped) (s.observed cfg i) (t.observed cfg i) := by
  obtain ⟨n, rfl⟩ := h
  refine (handle_setDropped n s i.2).bind ?_
  rintro ⟨a, o, err⟩ ⟨b, o', err'⟩ ⟨hab, ho⟩
  cases ho
  exact .ok ⟨hab, rfl⟩

/-- A rejected datagram is dropped, and nothing else happens. -/
theorem observed_of_rejects (s t : ServerSession S) (i : ServerEnv S × Bytes)
    (h : SameButDropped s t) (hr : s.rejects i.2 = true) :
    ∃ s', s.observed cfg i = .ok (s', []) ∧ SameButDropped s' t := by
  obtain ⟨n, rfl⟩ := h
  obtain ⟨k, e, hk, ho, hacc⟩ := Endpoint.open_of_rejects hr
  refine ⟨s.drop, ?_, n, rfl⟩
  have hsame : ({ s with keys := some k } : ServerSession S) = s := by rw [← hk]
  simp only [observed, handle, hk, ho, Go.ok_bind, hacc, hsame]
  rfl

end ServerSession

/-! ### The client -/

namespace Client

variable {cfg : ClientConfig} {env : ClientEnv S}

/-- The client with another number of dropped packets. -/
def setDropped (n : ℕ) (c : Client S) : Client S :=
  { c with toEndpoint := c.toEndpoint.setDropped n }

/-- The clients differ at most in the number of dropped packets. -/
def SameButDropped (a b : Client S) : Prop := ∃ n, b = a.setDropped n

theorem same_drop (n : ℕ) (c : Client S) : SameButDropped c.drop (c.setDropped n).drop :=
  ⟨n + 1, rfl⟩

/-- A result that carries the client along unchanged. -/
theorem agree_pure {γ : Type} (n : ℕ) (c : Client S) (a : γ) :
    Agree (Alike SameButDropped) (.ok (c, a) : Go _) (.ok (c.setDropped n, a)) :=
  .ok ⟨⟨n, rfl⟩, rfl⟩

theorem encryptSend_setDropped (n : ℕ) (now : ℤ) (e : SendEnv) (c : Client S) (typ : UInt8)
    (pt : Bytes) :
    Agree (Alike fun a b => b = a.setDropped n) (c.encryptSend cfg now e typ pt)
      ((c.setDropped n).encryptSend cfg now e typ pt) := by
  refine (c.toEndpoint.encryptSend_setDropped n cfg.shaping c.t now e typ pt).bind ?_
  rintro ⟨ep, fs, ok⟩ ⟨ep', fs', ok'⟩ ⟨hep, hrest⟩
  cases hep
  cases hrest
  exact .ok ⟨rfl, rfl⟩

theorem handleData_setDropped (n : ℕ) (c : Client S) (pt : Bytes) :
    Alike SameButDropped (c.handleData cfg env pt) ((c.setDropped n).handleData cfg env pt) := by
  unfold handleData
  split_ifs
  · exact ⟨same_drop n c, rfl⟩
  · exact ⟨⟨n, rfl⟩, rfl⟩
  · refine ⟨⟨n, ?_⟩, rfl⟩
    simp only [setDropped, Endpoint.setDropped, Stats.received_setDropped]

theorem handleEcho_setDropped (n : ℕ) (c : Client S) (payload : Bytes) :
    (c.setDropped n).handleEcho env payload = (c.handleEcho env payload).setDropped n := by
  unfold handleEcho
  dsimp only
  split_ifs <;> rfl

theorem continueRekey_setDropped (n : ℕ) (c : Client S) (m : Bytes) :
    Agree (Alike SameButDropped) (c.continueRekey cfg env m)
      ((c.setDropped n).continueRekey cfg env m) := by
  have hhs : (c.setDropped n).rekeyHs = c.rekeyHs := rfl
  unfold continueRekey
  rw [hhs]
  cases c.rekeyHs with
  | none => exact .error _
  | some hs =>
    dsimp only
    cases S.read hs m with
    | none => exact agree_pure n c _
    | some st =>
      dsimp only
      cases S.write st.hs env.seed [] with
      | none => exact .ok ⟨⟨n, rfl⟩, rfl⟩
      | some st₃ =>
        dsimp only
        cases st₃.keys with
        | none => exact .ok ⟨⟨n, rfl⟩, rfl⟩
        | some ks =>
          refine (encryptSend_setDropped n env.now env.send { c with rekeyHs := some st₃.hs }
            msgRekey3 st₃.out).bind ?_
          rintro ⟨a, o, sent⟩ ⟨b, o', sent'⟩ ⟨hab, ho⟩
          cases hab
          cases ho
          cases sent
          · exact agree_pure n a _
          · exact .ok ⟨⟨n, rfl⟩, rfl⟩

theorem dispatch_setDropped (n : ℕ) (c : Client S) (f : Frame) :
    Agree (Alike SameButDropped) (c.dispatch cfg env f) ((c.setDropped n).dispatch cfg env f) := by
  have hrekeying : (c.setDropped n).rekeying = c.rekeying := rfl
  unfold dispatch
  rw [hrekeying]
  refine .ite ?_ (.ite ?_ (.ite ?_ (.ite ?_ (.ite (.ite ?_ ?_) ?_))))
  · have hdata : Alike SameButDropped (c.handleData cfg env f.payload)
        ((c.setDropped n).handleData cfg env f.payload) := handleData_setDropped n c f.payload
    exact .ok ⟨hdata.1, congrArg (fun o => (o, (none : Option ClientErr))) hdata.2⟩
  · exact .ok ⟨⟨n, handleEcho_setDropped n c f.payload⟩, rfl⟩
  · exact agree_pure n c _
  · exact agree_pure n c _
  · exact continueRekey_setDropped n c _
  · exact agree_pure n c _
  · exact agree_pure n c _

theorem handleFrame_setDropped (n : ℕ) (c : Client S) (data : Bytes) :
    Agree (Alike SameButDropped) (c.handleFrame cfg env data)
      ((c.setDropped n).handleFrame cfg env data) := by
  have hkeys : (c.setDropped n).keys = c.keys := rfl
  unfold handleFrame
  rw [hkeys]
  cases c.keys with
  | none => exact .ok ⟨same_drop n c, rfl⟩
  | some k =>
    refine Agree.bind (Agree.refl_of (R := Eq) (fun _ => rfl) _) ?_
    rintro ⟨k', r⟩ _ rfl
    cases r with
    | error e => exact .ok ⟨same_drop n { c with keys := some k' }, rfl⟩
    | ok f =>
      dsimp only
      by_cases htag : f.tag ≠ c.tag
      · rw [if_pos htag, if_pos (show f.tag ≠ (c.setDropped n).tag from htag)]
        exact .ok ⟨same_drop n { c with keys := some k' }, rfl⟩
      · rw [if_neg htag, if_neg (show ¬ f.tag ≠ (c.setDropped n).tag from htag)]
        exact dispatch_setDropped n { c with keys := some k' } f

/-- `handleFrame` on a datagram, with what can be observed. -/
def observed (cfg : ClientConfig) (c : Client S) (i : ClientEnv S × Bytes) :
    Go (Client S × List (Obs S ClientErr)) := do
  let (c', o, err) ← c.handleFrame cfg i.1 i.2
  pure (c', observe (c.accepted i.2) o err)

theorem observed_alike (c d : Client S) (i : ClientEnv S × Bytes) (h : SameButDropped c d) :
    Agree (Alike SameButDropped) (c.observed cfg i) (d.observed cfg i) := by
  obtain ⟨n, rfl⟩ := h
  refine (handleFrame_setDropped n c i.2).bind ?_
  rintro ⟨a, o, err⟩ ⟨b, o', err'⟩ ⟨hab, ho⟩
  cases ho
  exact .ok ⟨hab, rfl⟩

/-- A rejected datagram is dropped, and nothing else happens. -/
theorem observed_of_rejects (c d : Client S) (i : ClientEnv S × Bytes)
    (h : SameButDropped c d) (hr : c.rejects i.2 = true) :
    ∃ c', c.observed cfg i = .ok (c', []) ∧ SameButDropped c' d := by
  obtain ⟨n, rfl⟩ := h
  obtain ⟨k, e, hk, ho, hacc⟩ := Endpoint.open_of_rejects hr
  refine ⟨c.drop, ?_, n, rfl⟩
  have hsame : ({ c with keys := some k } : Client S) = c := by rw [← hk]
  simp only [observed, handleFrame, hk, ho, Go.ok_bind, hacc, hsame]
  rfl

end Client

/-- **Rejected datagrams are inert.**  A session, or a client, that handles a list of datagrams and
one that handles only those that `Keys.open` does not reject in the first run (with the same draws
and clock readings) accept the same frames, send the same frames and messages, write the same
packets to the TUN, install the same keys and return the same errors, and end in states that differ
at most in the number of dropped packets. -/
theorem rejected_datagrams_inert :
    (∀ (cfg : ServerConfig) (s : ServerSession S) (is : List (ServerEnv S × Bytes)),
      Agree (Alike ServerSession.SameButDropped) (runs (ServerSession.observed cfg) s is)
        (runs (ServerSession.observed cfg) s
          (kept (ServerSession.observed cfg) (fun s i => s.rejects i.2) s is))) ∧
    ∀ (cfg : ClientConfig) (c : Client S) (is : List (ClientEnv S × Bytes)),
      Agree (Alike Client.SameButDropped) (runs (Client.observed cfg) c is)
        (runs (Client.observed cfg) c
          (kept (Client.observed cfg) (fun c i => c.rejects i.2) c is)) := by
  refine ⟨fun cfg s is => ?_, fun cfg c is => ?_⟩
  · exact runs_kept ServerSession.observed_alike ServerSession.observed_of_rejects
      ⟨s.stats.packetsDropped, rfl⟩ is
  · exact runs_kept Client.observed_alike Client.observed_of_rejects
      ⟨c.stats.packetsDropped, rfl⟩ is

end VibeVpn

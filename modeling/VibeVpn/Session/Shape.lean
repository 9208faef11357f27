import VibeVpn.Go.Avoids
import VibeVpn.Session.Idle
import VibeVpn.Session.SeqNumbers

/-!
# Which of the client's fields are set

Five fields of `Client` depend on one another: the transport, the keys, the assigned addresses, the
flag `connected` and the rekey state with its handshake.  They are set and cleared by `connect`,
`handshake`, `teardownTransport`, `reconnect` and the rekey functions, each with several exits.

The *shape* of a client says which of them are set and where the client waits, and nothing else.
Most handlers keep the shape; the others are one of a few updates of it.  Each function gets one
statement: from an orderly shape it does not dereference `nil`, and it leaves an orderly shape
(`Go.Avoids .nilDeref`).

* `Client.state_consistent` : **in every run the fields fit together, and no step dereferences
  `nil`**: `encryptSend` finds a transport and `continueRekey` a handshake.
-/

namespace VibeVpn

variable {S : Suite}

/-- A place where the client waits. -/
inductive Wait where
  | backoff
  | waitReply
  | waitAssign
  | running
  | stopped
  deriving DecidableEq, Repr

/-- The place of a phase, without its data. -/
def Phase.wait : Phase S → Wait
  | .backoff => .backoff
  | .waitReply .. => .waitReply
  | .waitAssign .. => .waitAssign
  | .running => .running
  | .stopped => .stopped

/-- Which fields of a client are set. -/
structure Shape where
  /-- `t != nil`. -/
  t : Bool
  /-- `keys != nil`. -/
  keys : Bool
  /-- `ip` and `gw` are set. -/
  addressed : Bool
  /-- `connected`. -/
  connected : Bool
  /-- `rekeying`. -/
  rekeying : Bool
  /-- `rekeyHs != nil`. -/
  rekeyHs : Bool
  /-- Where the client waits. -/
  wait : Wait
  deriving DecidableEq, Repr

/-- The fields fit together. -/
structure Shape.Orderly (s : Shape) : Prop where
  keys : s.keys = true → s.t = true
  connected : s.connected = true → s.keys = true ∧ s.addressed = true
  rekeying : s.rekeying = true → s.rekeyHs = true ∧ s.keys = true
  waitReply : s.wait = .waitReply → s.t = true ∧ s.keys = false
  waitAssign : s.wait = .waitAssign → s.keys = true ∧ s.connected = false ∧ s.rekeying = false

namespace Shape.Orderly

variable {s : Shape}

/-- Without keys the client is neither connected nor rekeying. -/
theorem flags (h : s.Orderly) (hk : s.keys = false) : s.connected = false ∧ s.rekeying = false := by
  constructor
  · cases hc : s.connected with
    | false => rfl
    | true => rw [(h.connected hc).1] at hk; cases hk
  · cases hr : s.rekeying with
    | false => rfl
    | true => rw [(h.rekeying hr).2] at hk; cases hk

/-- Nothing is left of the connection but, perhaps, the transport. -/
theorem of_closed (hk : s.keys = false) (hc : s.connected = false) (hr : s.rekeying = false)
    (hp : s.wait = .waitReply → s.t = true) (ha : s.wait ≠ .waitAssign) : s.Orderly where
  keys h := by rw [hk] at h; cases h
  connected h := by rw [hc] at h; cases h
  rekeying h := by rw [hr] at h; cases h
  waitReply h := ⟨hp h, hk⟩
  waitAssign h := absurd h ha

/-- The client leaves the handshake. -/
theorem leave (h : s.Orderly) {w : Wait} (hw : w ≠ .waitReply ∧ w ≠ .waitAssign) :
    Orderly { s with wait := w } :=
  ⟨h.keys, h.connected, h.rekeying, fun he => absurd he hw.1, fun he => absurd he hw.2⟩

/-- The handshake yields keys. -/
theorem keyed (h : s.Orderly) (hw : s.wait = .waitReply) :
    Orderly { s with keys := true, wait := .waitAssign } := by
  obtain ⟨ht, hk⟩ := h.waitReply hw
  obtain ⟨hc, hr⟩ := h.flags hk
  refine ⟨fun _ => ht, fun he => ?_, fun he => ?_, nofun, fun _ => ⟨rfl, hc, hr⟩⟩
  · exact absurd (hc.symm.trans he) Bool.false_ne_true
  · exact absurd (hr.symm.trans he) Bool.false_ne_true

/-- The wait for the address fails. -/
theorem unassigned (h : s.Orderly) (hw : s.wait = .waitAssign) :
    Orderly { s with keys := false, wait := .backoff } := by
  obtain ⟨-, hc, hr⟩ := h.waitAssign hw
  exact .of_closed rfl hc hr nofun nofun

/-- The address is assigned. -/
theorem assigned (h : s.Orderly) (hw : s.wait = .waitAssign) :
    Orderly { s with addressed := true, connected := true, wait := .running } := by
  obtain ⟨hk, -, -⟩ := h.waitAssign hw
  exact ⟨h.keys, fun _ => ⟨hk, rfl⟩, h.rekeying, nofun, nofun⟩

/-- A rekey starts. -/
theorem rekey (h : s.Orderly) (hk : s.keys = true) (hw : s.wait = .running) :
    Orderly { s with rekeyHs := true, rekeying := true } :=
  ⟨h.keys, h.connected, fun _ => ⟨rfl, hk⟩, fun he => by simp [hw] at he, fun he => by
    simp [hw] at he⟩

/-- A rekey ends. -/
theorem rekeyed (h : s.Orderly) (hw : s.wait = .running) :
    Orderly { s with rekeyHs := false, rekeying := false } :=
  ⟨h.keys, h.connected, fun he => (nomatch he), fun he => by simp [hw] at he, fun he => by
    simp [hw] at he⟩

end Shape.Orderly

namespace Client

variable {cfg : ClientConfig} {env : ClientEnv S} {c c' : Client S}

/-- The shape of a client. -/
def shape (c : Client S) : Shape where
  t := c.t
  keys := c.keys.isSome
  addressed := c.ip.isSome && c.gw.isSome
  connected := c.connected
  rekeying := c.rekeying
  rekeyHs := c.rekeyHs.isSome
  wait := c.phase.wait

/-- An orderly result: the client is left in an orderly shape. -/
abbrev Leaves {α : Type} (x : Go (Client S × α)) : Prop :=
  x.Avoids .nilDeref fun r => r.1.shape.Orderly

/-! ### Sending -/

theorem avoids_sealFrame (k : S.Key) (nonce : Bytes) (tag : Byte4) (typ : UInt8) (seq : ℕ)
    (payload padding : Bytes) :
    (sealFrame S k nonce tag typ seq payload padding).Avoids .nilDeref fun _ => True :=
  .bind (Go.avoids_resliceTo (by decide) _ _) fun _ _ =>
    .bind (Go.avoids_resliceTo (by decide) _ _) fun _ _ => trivial

theorem avoids_seal (k : Keys S) (d : Draw) (tag : Byte4) (typ : UInt8) (payload padding : Bytes) :
    (k.seal d tag typ payload padding).Avoids .nilDeref fun _ => True := by
  have hframe := avoids_sealFrame k.sendKey d.nonce tag typ (k.sendSeq % 2 ^ 32) payload padding
  unfold Keys.seal
  split
  · next p hp =>
    rw [hp] at hframe
    exact hframe
  · trivial

/-- `encryptSend` finds a transport where there are keys; it keeps the shape, and sends nothing
without keys. -/
theorem avoids_encryptSend (h : c.shape.Orderly) (now : ℤ) (e : SendEnv) (typ : UInt8)
    (pt : Bytes) :
    (c.encryptSend cfg now e typ pt).Avoids .nilDeref fun r =>
      r.1.shape = c.shape ∧ (r.2.2 = true → c.shape.keys = true) := by
  have hsend : (c.toEndpoint.encryptSend cfg.shaping c.t now e typ pt).Avoids .nilDeref
      fun _ => True := by
    unfold Endpoint.encryptSend
    cases hk : c.keys with
    | none => trivial
    | some k =>
      have ht : c.t = true := h.keys (by simp [shape, hk])
      rw [ht]
      dsimp only
      split
      · trivial
      · refine .bind (avoids_seal ..) fun r _ => ?_
        cases e.ok with
        | true => trivial
        | false => trivial
  have hcall : (c.encryptSend cfg now e typ pt).Avoids .nilDeref fun _ => True :=
    .bind hsend fun _ _ => trivial
  refine .of_result hcall.ne_error fun r hr => ?_
  obtain ⟨c', o, sent⟩ := r
  obtain ⟨ep, fs, hs, rfl, rfl⟩ := encryptSend_spec hr
  obtain ⟨-, hrekeying, hhs, -, hkeys⟩ := hs.frame
  refine ⟨?_, fun hsent => ?_⟩
  · simp only [shape, hrekeying, hhs, hkeys]
  · obtain rfl : sent = true := hsent
    cases hs with
    | sealed hk => simp [shape, hk]

theorem avoids_sendRaw (ht : c.t = true) (e : SendEnv) (b : Bytes) :
    (c.sendRaw e b).Avoids .nilDeref fun _ => True := by
  unfold sendRaw
  rw [ht]
  split_ifs
  · trivial
  · contradiction
  · trivial

/-! ### Connecting -/

theorem orderly_reconnect (c : Client S) : c.reconnect.shape.Orderly :=
  .of_closed rfl rfl rfl nofun nofun

theorem orderly_failConnect (h : c.shape.Orderly) : c.failConnect.shape.Orderly :=
  h.leave (w := .backoff) (by decide)

theorem leaves_connect (c : Client S) : Leaves (c.connect cfg env) := by
  -- whatever fails, `teardownTransport` has cleared the rest
  have hfail : ∀ t, ({ c.teardownTransport with t := t } : Client S).failConnect.shape.Orderly :=
    fun t => .of_closed rfl rfl rfl nofun nofun
  unfold connect
  dsimp only
  split_ifs
  · exact hfail false
  · split
    · exact hfail true
    · split
      · exact hfail true
      · refine .bind (avoids_sendRaw rfl _ _) fun r _ => ?_
        obtain ⟨o, ok⟩ := r
        dsimp only
        split_ifs
        · exact hfail true
        · exact Shape.Orderly.of_closed rfl rfl rfl (fun _ => rfl) nofun

theorem leaves_finishHandshake (h : c.shape.Orderly) (hw : c.shape.wait = .waitReply) (hs : S.HS)
    (tag : Byte4) (start : ℤ) : Leaves (c.finishHandshake env hs tag start) := by
  have hfail := orderly_failConnect h
  unfold finishHandshake
  split
  · exact hfail
  · split
    · exact hfail
    · refine .bind (avoids_sendRaw (h.waitReply hw).1 _ _) fun r _ => ?_
      obtain ⟨o, ok⟩ := r
      dsimp only
      split_ifs
      · exact hfail
      · exact h.keyed hw

theorem leaves_recvReply (h : c.shape.Orderly) (hw : c.shape.wait = .waitReply) (hs : S.HS)
    (m₁ : Bytes) (cookie : Bool) (tag : Byte4) (start since : ℤ) (data : Bytes) :
    Leaves (c.recvReply env hs m₁ cookie tag start since data) := by
  unfold recvReply
  split
  · exact leaves_finishHandshake h hw _ _ _
  · split_ifs
    · refine .bind (avoids_sendRaw (h.waitReply hw).1 _ _) fun r _ => ?_
      obtain ⟨o, ok⟩ := r
      dsimp only
      split_ifs
      · exact orderly_failConnect h
      · have hsame : ({ c with phase := .waitReply hs (m₁ ++ data) true tag start since } :
            Client S).shape = c.shape := by
          simp only [shape] at hw ⊢
          rw [hw]
          rfl
        exact (congrArg Shape.Orderly hsame).mpr h
    · exact h

theorem avoids_parseAssign (b : Bytes) : (parseAssign b).Avoids .nilDeref fun _ => True := by
  unfold parseAssign
  split_ifs
  · trivial
  · exact .bind (Go.avoids_index (by decide) _ _) fun _ _ =>
      .bind (Go.avoids_slice (by decide) _ _ _) fun _ _ =>
        .bind (Go.avoids_slice (by decide) _ _ _) fun _ _ => trivial

/-- Opening a frame keeps the shape. -/
theorem shape_opened {k k' : Keys S} (hk : c.keys = some k) :
    ({ c with keys := some k' } : Client S).shape = c.shape := by simp [shape, hk]

theorem leaves_recvAssign (h : c.shape.Orderly) (hw : c.shape.wait = .waitAssign) (start : ℤ)
    (data : Bytes) : Leaves (c.recvAssign env start data) := by
  have hkeys := (h.waitAssign hw).1
  unfold recvAssign
  split
  · next hn => simp [shape, hn] at hkeys
  · next k hk =>
    obtain ⟨k', r, ho, -⟩ := k.open_ok data
    rw [ho, Go.ok_bind]
    have hsame : ({ c with keys := some k' } : Client S).shape = c.shape := shape_opened hk
    have hquiet : ({ c with keys := some k' } : Client S).shape.Orderly := hsame ▸ h
    cases r with
    | error e => exact hquiet
    | ok f =>
      dsimp only
      split_ifs
      · exact hquiet
      · exact hquiet
      · refine .bind (avoids_parseAssign _) fun a _ => ?_
        obtain _ | ⟨prefixLen, ip, gw⟩ := a
        · exact h.unassigned hw
        · exact hquiet.assigned (hsame ▸ hw)

/-! ### Rekeying -/

theorem leaves_startRekey (h : c.shape.Orderly) (hw : c.shape.wait = .running) :
    Leaves (c.startRekey cfg env) := by
  unfold startRekey
  split
  · exact h
  · split
    · exact h
    · refine .bind (avoids_encryptSend h _ _ _ _) fun r hr => ?_
      obtain ⟨c', o, sent⟩ := r
      obtain ⟨hsame, hsent⟩ : c'.shape = c.shape ∧ (sent = true → c.shape.keys = true) := hr
      cases sent with
      | false => exact (congrArg Shape.Orderly hsame).mpr h
      | true => exact (hsame ▸ h).rekey (hsame ▸ hsent rfl) (hsame ▸ hw)

theorem leaves_maybeRekey (h : c.shape.Orderly) (hw : c.shape.wait = .running) :
    Leaves (c.maybeRekey cfg env) := by
  unfold maybeRekey
  dsimp only
  split_ifs
  · exact leaves_startRekey h hw
  · exact leaves_startRekey h hw
  · exact leaves_startRekey h hw
  · exact h

theorem shape_rekeyed (env : ClientEnv S) (hk : c.shape.keys = true) (ks : S.Key × S.Key) :
    (c.rekeyed env ks).shape = { c.shape with rekeyHs := false, rekeying := false } := by
  have hk : c.keys.isSome = true := hk
  simp [rekeyed, shape, hk]

theorem leaves_continueRekey (h : c.shape.Orderly) (hw : c.shape.wait = .running)
    (hr : c.rekeying = true) (msg : Bytes) : Leaves (c.continueRekey cfg env msg) := by
  obtain ⟨hhs, hkeys⟩ := h.rekeying hr
  unfold continueRekey
  split
  · next hn => simp [shape, hn] at hhs
  · next hs hsome =>
    have hsame : ∀ hs', ({ c with rekeyHs := some hs' } : Client S).shape = c.shape := fun hs' => by
      simp [shape, hsome]
    have hkeep : ∀ hs', ({ c with rekeyHs := some hs' } : Client S).shape.Orderly := fun hs' =>
      (congrArg Shape.Orderly (hsame hs')).mpr h
    split
    · exact h
    · split
      · exact hkeep _
      · next st₃ _ =>
        dsimp only
        split
        · exact hkeep _
        · refine .bind (avoids_encryptSend (hkeep st₃.hs) _ _ _ _) fun r hr => ?_
          obtain ⟨c', o, sent⟩ := r
          have hshape : c'.shape = c.shape := hr.1.trans (hsame st₃.hs)
          cases sent with
          | false => exact (congrArg Shape.Orderly hshape).mpr h
          | true =>
            have horderly := (hshape ▸ h : c'.shape.Orderly).rekeyed (hshape ▸ hw)
            exact (congrArg Shape.Orderly (shape_rekeyed env (hshape ▸ hkeys) _)).mpr horderly

/-! ### Frames -/

theorem leaves_dispatch (h : c.shape.Orderly) (hw : c.shape.wait = .running) (f : Frame) :
    Leaves (c.dispatch cfg env f) := by
  unfold dispatch
  split_ifs with h1 h2 h3 h4 h5 h6
  · cases hd : c.handleData cfg env f.payload with
    | mk c' o =>
      obtain ⟨stats, -, rfl, -⟩ := handleData_spec hd
      exact h
  · obtain ⟨stats, -, hc⟩ := handleEcho_spec env c f.payload
    rw [hc]
    exact h
  · exact h
  · exact h
  · exact leaves_continueRekey h hw h6 _
  · exact h
  · exact h

theorem leaves_handleFrame (h : c.shape.Orderly) (hw : c.shape.wait = .running) (data : Bytes) :
    Leaves (c.handleFrame cfg env data) := by
  unfold handleFrame
  split
  · exact h
  · next k hk =>
    obtain ⟨k', r, ho, -⟩ := k.open_ok data
    rw [ho, Go.ok_bind]
    have hsame : ({ c with keys := some k' } : Client S).shape = c.shape := shape_opened hk
    have hquiet : ({ c with keys := some k' } : Client S).shape.Orderly := hsame ▸ h
    cases r with
    | error e => exact hquiet
    | ok f =>
      dsimp only
      split_ifs
      · exact hquiet
      · exact leaves_dispatch hquiet (hsame ▸ hw) f

theorem leaves_drainRecv (h : c.shape.Orderly) (hw : c.shape.wait = .running)
    (data : Option Bytes) : Leaves (c.drainRecv cfg env data) := by
  cases data with
  | none => exact orderly_reconnect c
  | some data =>
    have hhandled : Leaves (({ c with lastRecv := env.now } : Client S).handleFrame cfg env data) :=
      leaves_handleFrame (c := { c with lastRecv := env.now }) h hw data
    refine .bind hhandled fun r hr => ?_
    obtain ⟨c', o, err⟩ := r
    dsimp only
    split_ifs
    · exact orderly_reconnect c'
    · exact hr

/-- A handler that sends one message and keeps the shape. -/
theorem leaves_sent {α : Type} (h : c.shape.Orderly) (now : ℤ) (e : SendEnv) (typ : UInt8)
    (pt : Bytes) {f : Client S × Out S × Bool → Go (Client S × α)}
    (hf : ∀ r, r.1.shape = c.shape → Leaves (f r)) :
    Leaves (c.encryptSend cfg now e typ pt >>= f) :=
  .bind (avoids_encryptSend h now e typ pt) fun r hr => hf r hr.1

theorem leaves_sendPacket (h : c.shape.Orderly) (pkt : Bytes) :
    Leaves (c.sendPacket cfg env pkt) := by
  unfold sendPacket
  split_ifs
  · exact h
  · refine leaves_sent h _ _ _ _ fun r hr => ?_
    obtain ⟨c', o, sent⟩ := r
    have horderly : c'.shape.Orderly := (congrArg Shape.Orderly hr).mpr h
    dsimp only
    split_ifs
    · exact horderly
    · exact horderly

theorem leaves_keepalive (h : c.shape.Orderly) (hw : c.shape.wait = .running) :
    Leaves (c.keepalive cfg env) := by
  unfold Client.keepalive
  split_ifs
  · exact orderly_reconnect c
  · refine leaves_sent h _ _ _ _ fun r hr => ?_
    obtain ⟨c', o, sent⟩ := r
    have hr : c'.shape = c.shape := hr
    exact .bind (leaves_maybeRekey ((congrArg Shape.Orderly hr).mpr h) (hr ▸ hw)) fun r hr => hr
  · exact h

theorem leaves_decoy (h : c.shape.Orderly) : Leaves (c.decoy cfg env) := by
  unfold Client.decoy
  split_ifs
  · exact leaves_sent h _ _ _ _ fun r hr => (congrArg Shape.Orderly hr).mpr h
  · exact h

theorem leaves_sendClose (h : c.shape.Orderly) : Leaves (c.sendClose cfg env) := by
  unfold sendClose
  split_ifs
  · exact leaves_sent h _ _ _ _ fun r hr => (congrArg Shape.Orderly hr).mpr h
  · exact h

/-! ### The run loop -/

/-- **One wake-up**: from an orderly shape, it does not dereference `nil` and leaves an orderly
shape. -/
theorem leaves_step (h : c.shape.Orderly) (e : Event) : Leaves (c.step cfg env e) := by
  unfold step
  cases hp : c.phase with
  | backoff =>
    cases e with
    | cancel =>
      refine h.leave ?_
      dsimp only
      split_ifs
      · exact ⟨nofun, nofun⟩
      · exact ⟨nofun, nofun⟩
    | retry => exact leaves_connect c
    | _ => exact h
  | waitReply hs m₁ cookie tag start since =>
    have hw : c.shape.wait = .waitReply := by simp [shape, hp, Phase.wait]
    cases e with
    | cancel => exact orderly_failConnect h
    | recv data =>
      cases data with
      | none => exact orderly_failConnect h
      | some data => exact leaves_recvReply h hw _ _ _ _ _ _ _
    | timeout =>
      dsimp only
      split_ifs
      · exact orderly_failConnect h
      · exact h
    | _ => exact h
  | waitAssign start since =>
    have hw : c.shape.wait = .waitAssign := by simp [shape, hp, Phase.wait]
    cases e with
    | cancel => exact h.unassigned hw
    | recv data =>
      cases data with
      | none => exact h.unassigned hw
      | some data => exact leaves_recvAssign h hw _ _
    | timeout =>
      dsimp only
      split_ifs
      · exact h.unassigned hw
      · exact h
    | _ => exact h
  | running =>
    have hw : c.shape.wait = .running := by simp [shape, hp, Phase.wait]
    cases e with
    | cancel =>
      exact .bind (leaves_sendClose h) fun r _ => Shape.Orderly.of_closed rfl rfl rfl nofun nofun
    | recv data => exact leaves_drainRecv h hw data
    | tun pkt => exact leaves_sendPacket h pkt
    | keepalive => exact leaves_keepalive h hw
    | decoy => exact leaves_decoy h
    | _ => exact h
  | stopped => cases e <;> exact h

theorem orderly_new : (Client.new S).shape.Orderly := .of_closed rfl rfl rfl nofun nofun

/-- **The client's state is consistent.**  In every state that events of any kind lead to: where
there are keys there is a transport; a connected client has keys and its addresses; a rekeying
client has a handshake and keys.  So no further event dereferences `nil`: `encryptSend` has a
transport to send on, and `continueRekey` a handshake to read with. -/
theorem state_consistent (S : Suite) (cfg : ClientConfig) {ls : List (ClientEnv S × Event)}
    {c : Client S} (h : (Client.lts S cfg).Run (Client.new S) ls c) :
    (c.keys.isSome = true → c.t = true) ∧
    (c.connected = true → c.keys.isSome = true ∧ c.ip.isSome = true ∧ c.gw.isSome = true) ∧
    (c.rekeying = true → c.rekeyHs.isSome = true ∧ c.keys.isSome = true) ∧
    ∀ env e, c.step cfg env e ≠ .error .nilDeref := by
  have horderly : c.shape.Orderly := by
    refine h.reachable.invariant (I := fun c => c.shape.Orderly) orderly_new ?_
    rintro c l c' hc ⟨o, hstep⟩
    exact (leaves_step hc l.2).result hstep
  refine ⟨horderly.keys, fun hc => ?_, horderly.rekeying, fun env e =>
    (leaves_step horderly e).ne_error⟩
  obtain ⟨hk, ha⟩ := horderly.connected hc
  exact ⟨hk, by simpa [shape] using ha⟩

/-- A client of the plain suite that has just connected has keys and a transport, and no event makes
it dereference `nil`. -/
theorem state_consistent_connected : ∃ ls c,
    (Client.lts plain plainConfig).Run (Client.new plain) ls c ∧ c.phase = .running ∧
    c.keys.isSome = true ∧ c.t = true ∧ ∀ env e, c.step plainConfig env e ≠ .error .nilDeref := by
  obtain ⟨c₁, o₁, c₂, o₂, c, h₁, h₂, h₃, -, -, hp, -, -, hkeys⟩ :=
    exists_plain_steps plainConfig rfl
  have hk : c.keys.isSome = true := by
    rw [← Option.isSome_map, hkeys]
    rfl
  have s₁ : (Client.lts plain plainConfig).step (.new plain) (plainEnv 0 7, .retry) c₁ := ⟨o₁, h₁⟩
  have s₂ : (Client.lts plain plainConfig).step c₁ (plainEnv 1 5, .recv _) c₂ := ⟨o₂, h₂⟩
  have s₃ : (Client.lts plain plainConfig).step c₂ (plainEnv 2 0, .recv _) c := ⟨{}, h₃⟩
  have run := ((LTS.Run.nil.snoc s₁).snoc s₂).snoc s₃
  obtain ⟨ht, -, -, hno⟩ := state_consistent plain plainConfig run
  exact ⟨_, c, run, hp, hk, ht hk, hno⟩

end Client

end VibeVpn

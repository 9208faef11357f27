import VibeVpn.LTS.Channel
import VibeVpn.Session.ClientSpec
import VibeVpn.Session.ServerRun

/-!
# One connection

A client, the server session that answers it, and the datagrams in flight between them.  A run of
`Conn.lts` interleaves the events of the two ends in any order with a network that loses,
duplicates, delays and reorders; it begins when the client has sent its first message
(`Conn.Begun`) and ends, for the client, when it gives the connection up.

The state also records the keys each end has installed, oldest first, and when the client last
started a rekey.

`Conn.Ideal` and `Conn.Fresh` are what the results assume of the cryptography besides its laws: the
two kinds of datagrams are not taken for one another, and every handshake derives new keys.
-/

namespace VibeVpn

/-- A datagram in flight. -/
inductive Packet (S : Suite) where
  /-- A handshake message, or a cookie. -/
  | raw (b : Bytes)
  /-- A session frame. -/
  | frame (f : Sealed S)

/-- The bytes of a datagram. -/
def Packet.wire {S : Suite} : Packet S → Bytes
  | .raw b => b
  | .frame f => f.wire

/-- What an output puts in flight: a `Send` that fails delivers nothing. -/
def Out.sent {S : Suite} (o : Out S) : List (Packet S) :=
  (o.raw.filter (·.2)).map (fun r => .raw r.1) ++
    (o.frames.filter (·.2)).map (fun f => .frame f.1)

@[simp] theorem raw_mem_sent {S : Suite} {o : Out S} {b : Bytes} :
    .raw b ∈ o.sent ↔ (b, true) ∈ o.raw := by
  simp [Out.sent]

/-- The datagram is a frame. -/
def Packet.isFrame {S : Suite} : Packet S → Bool
  | .frame _ => true
  | .raw _ => false

@[simp] theorem frame_mem_sent {S : Suite} {o : Out S} {f : Sealed S} :
    .frame f ∈ o.sent ↔ (f, true) ∈ o.frames := by
  simp [Out.sent]

/-- A client and a server that belong together: their keypairs are ones that `KeypairFromPrivate`
has built, and the client pins the server's public key. -/
structure Paired (S : Suite) (cc : ClientConfig) (cs : ServerConfig) : Prop where
  client : S.Built cc.keypair
  server : S.Built cs.keypair
  pins : cc.serverPublic = cs.keypair.pub

/-- A connection. -/
structure Conn (S : Suite) where
  /-- The client. -/
  client : Client S
  /-- The server session. -/
  server : ServerSession S
  /-- The run loop of the server session is running. -/
  up : Bool
  /-- The datagrams in flight to the server. -/
  c2s : List (Packet S)
  /-- The datagrams in flight to the client. -/
  s2c : List (Packet S)
  /-- The keys `(c2s, s2c)` the client has installed, oldest first. -/
  clientKeys : List (S.Key × S.Key)
  /-- The keys `(c2s, s2c)` the server has installed, oldest first. -/
  serverKeys : List (S.Key × S.Key)
  /-- When the client last started a rekey. -/
  rekeyAt : ℤ

namespace Conn

variable {S : Suite}

/-- What happens on a connection. -/
inductive Label (S : Suite) where
  /-- An event of the client other than a datagram. -/
  | client (env : ClientEnv S) (e : Client.Event)
  /-- The client is handed the datagram at position `i`. -/
  | toClient (env : ClientEnv S) (i : ℕ)
  /-- An event of the server session other than a datagram. -/
  | server (env : ServerEnv S) (e : ServerSession.Event)
  /-- The server session is handed the datagram at position `i`. -/
  | toServer (env : ServerEnv S) (i : ℕ)
  /-- The network loses or duplicates a datagram on its way to the server. -/
  | faultC2S (f : Network.Fault)
  /-- The network loses or duplicates a datagram on its way to the client. -/
  | faultS2C (f : Network.Fault)

/-- The client has become `c'` at time `now`, with the output `o`. -/
def clientMove (x : Conn S) (now : ℤ) (c' : Client S) (o : Out S) : Conn S :=
  { x with
    client := c'
    c2s := x.c2s ++ o.sent
    clientKeys := x.clientKeys ++ o.installed
    rekeyAt := if !x.client.rekeying && c'.rekeying then now else x.rekeyAt }

/-- The server session has become `s'`, with the output `o`. -/
def serverMove (x : Conn S) (s' : ServerSession S) (up : Bool) (o : Out S) : Conn S :=
  { x with
    server := s'
    up := up
    s2c := x.s2c ++ o.sent
    serverKeys := x.serverKeys ++ o.installed }

/-- A session that sends frames at the end of an event might have sent them in an event of their
own. -/
theorem serverMove_append (x : Conn S) (s' s'' : ServerSession S) (up up' : Bool) (o : Out S)
    (fs : List (Sealed S × Bool)) : x.serverMove s'' up' (o.append { frames := fs }) =
      (x.serverMove s' up o).serverMove s'' up' { frames := fs } := by
  simp [serverMove, Out.append, Out.sent]

/-- One step of a connection. -/
inductive Step (cc : ClientConfig) (cs : ServerConfig) : Conn S → Label S → Conn S → Prop where
  | client {x : Conn S} {env : ClientEnv S} {e : Client.Event} {c' : Client S} {o : Out S} :
      x.client.phase.live = true → e.isDatagram = false →
      x.client.step cc env e = .ok (c', o) →
      Step cc cs x (.client env e) (x.clientMove env.now c' o)
  | toClient {x : Conn S} {env : ClientEnv S} {i : ℕ} {p : Packet S} {c' : Client S} {o : Out S} :
      x.client.phase.live = true → x.s2c[i]? = some p →
      x.client.step cc env (.recv (some p.wire)) = .ok (c', o) →
      Step cc cs x (.toClient env i)
        ({ x with s2c := x.s2c.eraseIdx i }.clientMove env.now c' o)
  | server {x : Conn S} {env : ServerEnv S} {e : ServerSession.Event} {s' : ServerSession S}
      {o : Out S} {up : Bool} :
      x.up = true → e.isDatagram = false → x.server.step cs env e = .ok (s', o, up) →
      Step cc cs x (.server env e) (x.serverMove s' up o)
  | toServer {x : Conn S} {env : ServerEnv S} {i : ℕ} {p : Packet S} {s' : ServerSession S}
      {o : Out S} {up : Bool} :
      x.up = true → x.c2s[i]? = some p →
      x.server.step cs env (.recv (some p.wire)) = .ok (s', o, up) →
      Step cc cs x (.toServer env i) ({ x with c2s := x.c2s.eraseIdx i }.serverMove s' up o)
  | faultC2S {x : Conn S} (f : Network.Fault) :
      Step cc cs x (.faultC2S f) { x with c2s := Network.fault x.c2s f }
  | faultS2C {x : Conn S} (f : Network.Fault) :
      Step cc cs x (.faultS2C f) { x with s2c := Network.fault x.s2c f }

/-- The step that a label stands for, computed. -/
def next (cc : ClientConfig) (cs : ServerConfig) (x : Conn S) : Label S → Option (Conn S)
  | .client env e =>
    if x.client.phase.live && !e.isDatagram then
      (x.client.step cc env e).toOption.map fun r => x.clientMove env.now r.1 r.2
    else none
  | .toClient env i =>
    if x.client.phase.live then
      x.s2c[i]?.bind fun p => (x.client.step cc env (.recv (some p.wire))).toOption.map fun r =>
        { x with s2c := x.s2c.eraseIdx i }.clientMove env.now r.1 r.2
    else none
  | .server env e =>
    if x.up && !e.isDatagram then
      (x.server.step cs env e).toOption.map fun r => x.serverMove r.1 r.2.2 r.2.1
    else none
  | .toServer env i =>
    if x.up then
      x.c2s[i]?.bind fun p => (x.server.step cs env (.recv (some p.wire))).toOption.map fun r =>
        { x with c2s := x.c2s.eraseIdx i }.serverMove r.1 r.2.2 r.2.1
    else none
  | .faultC2S f => some { x with c2s := Network.fault x.c2s f }
  | .faultS2C f => some { x with s2c := Network.fault x.s2c f }

theorem step_of_next {cc : ClientConfig} {cs : ServerConfig} {x x' : Conn S} {l : Label S}
    (h : x.next cc cs l = some x') : Step cc cs x l x' := by
  have hok : ∀ {α β : Type} {g : Go α} {k : α → β} {b : β}, g.toOption.map k = some b →
      ∃ a, g = .ok a ∧ k a = b := by
    intro α β g k b hb
    cases g with
    | error => cases hb
    | ok a => exact ⟨a, rfl, Option.some.inj hb⟩
  cases l with
  | client env e =>
    simp only [next] at h
    split_ifs at h with hg
    obtain ⟨r, hr, rfl⟩ := hok h
    simp only [Bool.and_eq_true, Bool.not_eq_true'] at hg
    exact .client hg.1 hg.2 hr
  | toClient env i =>
    simp only [next] at h
    split_ifs at h with hg
    obtain ⟨p, hp, h⟩ := Option.bind_eq_some_iff.1 h
    obtain ⟨r, hr, rfl⟩ := hok h
    exact .toClient hg hp hr
  | server env e =>
    simp only [next] at h
    split_ifs at h with hg
    obtain ⟨r, hr, rfl⟩ := hok h
    simp only [Bool.and_eq_true, Bool.not_eq_true'] at hg
    exact .server hg.1 hg.2 hr
  | toServer env i =>
    simp only [next] at h
    split_ifs at h with hg
    obtain ⟨p, hp, h⟩ := Option.bind_eq_some_iff.1 h
    obtain ⟨r, hr, rfl⟩ := hok h
    exact .toServer hg hp hr
  | faultC2S f =>
    cases h
    exact .faultC2S f
  | faultS2C f =>
    cases h
    exact .faultS2C f

/-- A connection as a transition system. -/
def lts (S : Suite) (cc : ClientConfig) (cs : ServerConfig) : LTS (Conn S) (Label S) where
  step := Step cc cs

/-- A connection begins: the client has just sent its first message. -/
def Begun (cc : ClientConfig) (x : Conn S) : Prop :=
  ∃ (c c' : Client S) (env : ClientEnv S) (o : Out S) (sid : ℕ) (peerIP : Option Bytes) (now : ℤ),
    c.phase = .backoff ∧ c.step cc env .retry = .ok (c', o) ∧ c'.phase.live = true ∧
    x = { client := c', server := .new S sid peerIP now, up := true, c2s := o.sent, s2c := [],
          clientKeys := [], serverKeys := [], rekeyAt := 0 }

/-- The ideal AEAD and handshake: no handshake message in flight opens as a session frame, and no
session frame in flight reads as a third message. -/
structure Ideal (x : Conn S) : Prop where
  rawC2S : ∀ b k, .raw b ∈ x.c2s → x.server.keys = some k → authenticate S k.recvKey b = none
  rawS2C : ∀ b k, .raw b ∈ x.s2c → x.client.keys = some k → authenticate S k.recvKey b = none
  frame : ∀ f h, .frame f ∈ x.c2s → x.server.hs = some h → S.read h f.wire = none

theorem Ideal.of_quiet {x : Conn S} (h₁ : x.server.keys = none ∨ ∀ b, .raw b ∉ x.c2s)
    (h₂ : x.client.keys = none ∨ ∀ b, .raw b ∉ x.s2c)
    (h₃ : x.server.hs = none ∨ ∀ f, .frame f ∉ x.c2s) : x.Ideal where
  rawC2S b k hb hk := by
    rcases h₁ with h | h
    · rw [h] at hk; cases hk
    · exact absurd hb (h b)
  rawS2C b k hb hk := by
    rcases h₂ with h | h
    · rw [h] at hk; cases hk
    · exact absurd hb (h b)
  frame f h hf hh := by
    rcases h₃ with h' | h'
    · rw [h'] at hh; cases hh
    · exact absurd hf (h' f)

/-- A test for `Ideal`. -/
def isIdeal (x : Conn S) : Bool :=
  (x.server.keys.isNone || x.c2s.all Packet.isFrame) &&
    (x.client.keys.isNone || x.s2c.all Packet.isFrame) &&
    (x.server.hs.isNone || x.c2s.all fun p => !p.isFrame)

theorem ideal_of_test {x : Conn S} (h : x.isIdeal = true) : x.Ideal := by
  simp only [isIdeal, Bool.and_eq_true, Bool.or_eq_true, Option.isNone_iff_eq_none,
    List.all_eq_true] at h
  obtain ⟨⟨h₁, h₂⟩, h₃⟩ := h
  refine .of_quiet (h₁.imp_right fun h b hb => ?_) (h₂.imp_right fun h b hb => ?_)
    (h₃.imp_right fun h f hf => ?_)
  · cases h _ hb
  · cases h _ hb
  · cases h _ hf

/-- The handshakes of the connection have derived pairwise different keys. -/
structure Fresh (x : Conn S) : Prop where
  c2s : (x.clientKeys.map Prod.fst).Nodup
  s2c : (x.clientKeys.map Prod.snd).Nodup

section

variable {cc : ClientConfig} {cs : ServerConfig} {x x' : Conn S} {l : Label S}

/-- The server's part of a run is a run of the server session. -/
theorem server_run {x₀ : Conn S} {ls : List (Label S)} (h : (lts S cc cs).Run x₀ ls x) :
    ∃ ms, (ServerSession.lts S cs).Run (x₀.server, x₀.up) ms (x.server, x.up) := by
  induction h with
  | nil => exact ⟨[], .nil⟩
  | snoc _ hst ih =>
    obtain ⟨ms, hr⟩ := ih
    cases hst with
    | server hup _ hs => exact ⟨_, hr.snoc (l := (_, _)) ⟨hup, _, hs⟩⟩
    | toServer hup _ hs => exact ⟨_, hr.snoc (l := (_, _)) ⟨hup, _, hs⟩⟩
    | _ => exact ⟨ms, hr⟩

theorem Fresh.of_step (h : Step cc cs x l x') (hf : x'.Fresh) : x.Fresh := by
  have hsub : ∀ o : Out S, x.clientKeys.Sublist (x.clientKeys ++ o.installed) := fun o =>
    List.sublist_append_left ..
  cases h with
  | client => exact ⟨hf.c2s.sublist ((hsub _).map _), hf.s2c.sublist ((hsub _).map _)⟩
  | toClient => exact ⟨hf.c2s.sublist ((hsub _).map _), hf.s2c.sublist ((hsub _).map _)⟩
  | _ => exact ⟨hf.c2s, hf.s2c⟩

end

/-! ### A connection of the plain suite -/

theorem plain_paired : Paired plain Client.plainConfig ServerSession.plainConfig :=
  ⟨⟨[41], rfl⟩, ⟨[1], rfl⟩, rfl⟩

/-- The client 42 has sent its first message to the server 2, at time 0. -/
def plainStart : Conn plain where
  client := { Client.new plain with
    t := true
    phase := .waitReply (.sent1 ⟨[41], [42]⟩ 7) (Plain.message [1, 7] [1, 2, 3, 4]) false
      ⟨1, 2, 3, 4⟩ 0 0 }
  server := .new plain 1 none 0
  up := true
  c2s := [.raw (Plain.message [1, 7] [1, 2, 3, 4])]
  s2c := []
  clientKeys := []
  serverKeys := []
  rekeyAt := 0

theorem begun_plainStart : Begun Client.plainConfig plainStart :=
  ⟨Client.new plain, _, Client.plainEnv 0 7, _, 1, none, 0, rfl, rfl, rfl, rfl⟩

/-- A run of the plain connection is found by computing it together with a test for the condition on
its steps. -/
theorem exists_plain_run {G : Conn plain → Label plain → Prop} (g : Conn plain → Label plain → Bool)
    (hg : ∀ x l, g x l = true → G x l) (x₀ : Conn plain) (ls : List (Label plain))
    (p : Conn plain → Bool)
    (h : (ls.foldlM (fun (x : Conn plain) (l : Label plain) => if g x l then
      x.next Client.plainConfig ServerSession.plainConfig l else none) x₀).any p = true) :
    ∃ x, ((lts plain Client.plainConfig ServerSession.plainConfig).restrict G).Run x₀ ls x ∧
      p x = true :=
  LTS.exists_run_restrict_of_next (fun _ _ _ => step_of_next) g hg x₀ ls p h

/-- The pairs of keys that the client has installed. -/
def plainKeys (x : Conn plain) : List (UInt8 × UInt8) := x.clientKeys

/-- The pair of keys that an end has. -/
def plainPair (k : Option (Keys plain)) : Option (UInt8 × UInt8) := k.map Keys.pair

theorem exists_of_plainPair {k : Option (Keys plain)} {ks : UInt8 × UInt8}
    (h : plainPair k = some ks) : ∃ k', k = some k' ∧ k'.pair = ks :=
  Option.map_eq_some_iff.1 h

/-- The handshakes of a run with different keys. -/
theorem fresh_of_plainKeys {x : Conn plain} {ks : List (UInt8 × UInt8)} (h : plainKeys x = ks)
    (hfst : (ks.map Prod.fst).Nodup) (hsnd : (ks.map Prod.snd).Nodup) : x.Fresh := by
  subst h
  exact ⟨hfst, hsnd⟩

/-- The handshake of the client 42, up to the frame with its address. -/
def plainOpening : List (Label plain) :=
  [.toServer (ServerSession.plainEnv 1 9) 0, .toClient (Client.plainEnv 1 5) 0,
    .toServer (ServerSession.plainEnv 2 0) 0]

/-- The connection after it: the frame is in flight. -/
def plainSettled : Conn plain :=
  (plainOpening.foldlM (next Client.plainConfig ServerSession.plainConfig) plainStart).getD
    plainStart

/-- A step of the plain connection. -/
abbrev PlainStep : Conn plain → Label plain → Conn plain → Prop :=
  Step Client.plainConfig ServerSession.plainConfig

end Conn

end VibeVpn

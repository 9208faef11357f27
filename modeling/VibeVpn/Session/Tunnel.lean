import VibeVpn.LTS.Channel
import VibeVpn.LTS.Runs
import VibeVpn.Session.Journal
import VibeVpn.Session.Ordered

/-!
# The tunnel is a first-in first-out channel

A connection over a carrier that keeps the order, with a record of what the two ends do with their
TUNs (`Conn.acts`).  As there, the server's rekey timeout does not strike while a message of the
rekey is in flight (`Conn.Heeds`), and no send counter comes near `2 ^ 32` (`Conn.Roomy`).

* `Conn.Waits` : the first frame a client is handed is the one that assigns its address;
* `Conn.tunnel_fifo` : **in each direction the packets written to the TUN are those that were
  sealed and sent, in their order**, without the ones that the receiver's own check refuses and
  those still in flight: nothing is lost, repeated or made up, across any number of rekeys.
-/

namespace VibeVpn

namespace Conn

variable {S : Suite} {cc : ClientConfig} {cs : ServerConfig} {n : ℕ} {x x' : Conn S}

/-! ### The record -/

/-- What an end of a connection does with its TUN. -/
inductive Act where
  /-- The client seals a packet of its TUN; `sent` says whether the transport took it. -/
  | clientReads (pkt : Bytes) (sent : Bool)
  /-- The client writes a packet to its TUN. -/
  | clientWrites (pkt : Bytes) (ok : Bool)
  /-- The server seals a packet for the client. -/
  | serverReads (pkt : Bytes) (sent : Bool)
  /-- The server writes a packet to its TUN. -/
  | serverWrites (pkt : Bytes) (ok : Bool)
  deriving DecidableEq, Repr

/-- The packets among the acts that the client sent. -/
def Act.upSent : Act → Option Bytes
  | .clientReads pkt true => some pkt
  | _ => none

/-- The packets among the acts that the server wrote. -/
def Act.upWritten : Act → Option Bytes
  | .serverWrites pkt _ => some pkt
  | _ => none

/-- The packets among the acts that the server sent. -/
def Act.downSent : Act → Option Bytes
  | .serverReads pkt true => some pkt
  | _ => none

/-- The packets among the acts that the client wrote. -/
def Act.downWritten : Act → Option Bytes
  | .clientWrites pkt _ => some pkt
  | _ => none

/-- The acts of the client in an event with the output `o`. -/
def clientActs (e : Client.Event) (o : Out S) : List Act :=
  (e.reads o).map (fun d => .clientReads d.1 d.2) ++ o.tun.map fun w => .clientWrites w.1 w.2

/-- The acts of the server in an event with the output `o`. -/
def serverActs (e : ServerSession.Event) (o : Out S) : List Act :=
  (e.reads o).map (fun d => .serverReads d.1 d.2) ++ o.tun.map fun w => .serverWrites w.1 w.2

/-- What the client shows in an event. -/
def clientShows (cc : ClientConfig) (x : Conn S) (env : ClientEnv S) (e : Client.Event) :
    List Act :=
  match x.client.step cc env e with
  | .ok (_, o) => clientActs e o
  | .error _ => []

/-- What the server shows in an event. -/
def serverShows (cs : ServerConfig) (x : Conn S) (env : ServerEnv S) (e : ServerSession.Event) :
    List Act :=
  match x.server.step cs env e with
  | .ok (_, o, _) => serverActs e o
  | .error _ => []

/-- What a step of the connection shows. -/
def acts (cc : ClientConfig) (cs : ServerConfig) (x : Conn S) : Label S → List Act
  | .client env e => x.clientShows cc env e
  | .toClient env i => x.s2c[i]?.elim [] fun p => x.clientShows cc env (.recv (some p.wire))
  | .server env e => x.serverShows cs env e
  | .toServer env i => x.c2s[i]?.elim [] fun p => x.serverShows cs env (.recv (some p.wire))
  | .faultC2S _ => []
  | .faultS2C _ => []

/-- The packets in flight: the payloads of the data frames. -/
def pending (q : List (Packet S)) : List Bytes :=
  q.filterMap fun
    | .frame f => if f.typ = msgData then some f.payload else none
    | .raw _ => none

theorem pending_data {f : Sealed S} (h : f.typ = msgData) (q : List (Packet S)) :
    pending (.frame f :: q) = f.payload :: pending q := by
  simp [pending, h]

theorem pending_other {f : Sealed S} (h : f.typ ≠ msgData) (q : List (Packet S)) :
    pending (.frame f :: q) = pending q := by
  simp [pending, h]

/-- The packets that were sent of those handed to the transport. -/
def taken (ds : List (Bytes × Bool)) : List Bytes :=
  ds.filterMap fun d => if d.2 then some d.1 else none

/-- What an end sends joins the queue. -/
theorem pending_append_sent (q : List (Packet S)) (o : Out S) :
    pending (q ++ o.sent) = pending q ++ taken (dataOf o.frames) := by
  have hframes : ∀ fs : List (Sealed S × Bool),
      pending ((fs.filter (·.2)).map fun f => .frame f.1) = taken (dataOf fs) := by
    intro fs
    induction fs with
    | nil => rfl
    | cons f fs ih =>
      obtain ⟨f, sent⟩ := f
      simp only [pending, taken, dataOf] at ih ⊢
      by_cases hty : f.typ = msgData <;> cases sent <;> simp [hty, ih]
  have hraw : ∀ rs : List (Bytes × Bool),
      pending (S := S) ((rs.filter (·.2)).map fun r => .raw r.1) = [] := by
    intro rs
    simp [pending]
  rw [← hframes o.frames, Out.sent, pending, List.filterMap_append, List.filterMap_append]
  exact congrArg _ (by rw [← pending, hraw]; rfl)

theorem filterMap_reads {g : Bytes → Bool → Act} {h : Act → Option Bytes}
    (hg : ∀ pkt sent, h (g pkt sent) = if sent then some pkt else none)
    (ds : List (Bytes × Bool)) : (ds.map fun d => g d.1 d.2).filterMap h = taken ds := by
  simp only [List.filterMap_map, Function.comp_def, hg, taken]

theorem filterMap_writes {g : Bytes → Bool → Act} {h : Act → Option Bytes}
    (hg : ∀ pkt ok, h (g pkt ok) = some pkt) (ws : List (Bytes × Bool)) :
    (ws.map fun w => g w.1 w.2).filterMap h = ws.map Prod.fst := by
  simp [List.filterMap_map, hg]

theorem filterMap_others {g : Bytes → Bool → Act} {h : Act → Option Bytes}
    (hg : ∀ pkt b, h (g pkt b) = none) (ds : List (Bytes × Bool)) :
    (ds.map fun d => g d.1 d.2).filterMap h = [] := by
  simp [hg]

/-- The client's part of a record. -/
theorem filterMap_clientActs (e : Client.Event) (o : Out S) :
    (clientActs e o).filterMap Act.upSent = taken (e.reads o) ∧
    (clientActs e o).filterMap Act.upWritten = [] ∧
    (clientActs e o).filterMap Act.downSent = [] ∧
    (clientActs e o).filterMap Act.downWritten = o.tun.map Prod.fst := by
  simp only [clientActs, List.filterMap_append]
  refine ⟨?_, ?_, ?_, ?_⟩
  · rw [filterMap_reads (fun _ b => by cases b <;> rfl), filterMap_others (fun _ _ => rfl),
      List.append_nil]
  · rw [filterMap_others (fun _ _ => rfl), filterMap_others (fun _ _ => rfl), List.append_nil]
  · rw [filterMap_others (fun _ _ => rfl), filterMap_others (fun _ _ => rfl), List.append_nil]
  · rw [filterMap_others (fun _ _ => rfl), filterMap_writes (fun _ _ => rfl), List.nil_append]

/-- The server's part of a record. -/
theorem filterMap_serverActs (e : ServerSession.Event) (o : Out S) :
    (serverActs e o).filterMap Act.upSent = [] ∧
    (serverActs e o).filterMap Act.upWritten = o.tun.map Prod.fst ∧
    (serverActs e o).filterMap Act.downSent = taken (e.reads o) ∧
    (serverActs e o).filterMap Act.downWritten = [] := by
  simp only [serverActs, List.filterMap_append]
  refine ⟨?_, ?_, ?_, ?_⟩
  · rw [filterMap_others (fun _ _ => rfl), filterMap_others (fun _ _ => rfl), List.append_nil]
  · rw [filterMap_others (fun _ _ => rfl), filterMap_writes (fun _ _ => rfl), List.nil_append]
  · rw [filterMap_reads (fun _ b => by cases b <;> rfl), filterMap_others (fun _ _ => rfl),
      List.append_nil]
  · rw [filterMap_others (fun _ _ => rfl), filterMap_others (fun _ _ => rfl), List.append_nil]

/-! ### The two directions -/

/-- The record `r` of the packets from the client to the server, with the queue `q` in flight. -/
def UpFifo (cs : ServerConfig) (ip : Option Byte4) (q : List (Packet S)) (r : List Act) : Prop :=
  Fifo (ServerSession.passes cs ip) (r.filterMap Act.upSent) (r.filterMap Act.upWritten)
    (pending q)

/-- The record `r` of the packets from the server to the client, with the queue `q` in flight. -/
def DownFifo (cc : ClientConfig) (q : List (Packet S)) (r : List Act) : Prop :=
  Fifo (Client.passes cc) (r.filterMap Act.downSent) (r.filterMap Act.downWritten) (pending q)

variable {r : List Act} {q net : List (Packet S)} {ip : Option Byte4}

/-- What the client sends joins the queue. -/
theorem UpFifo.client (h : UpFifo cs ip q r) {env : ClientEnv S} {e : Client.Event}
    {c c' : Client S} {o : Out S} (hs : c.step cc env e = .ok (c', o)) :
    UpFifo cs ip (q ++ o.sent) (r ++ clientActs e o) := by
  obtain ⟨h1, h2, -, -⟩ := filterMap_clientActs e o
  unfold UpFifo
  rw [List.filterMap_append, List.filterMap_append, h1, h2, List.append_nil,
    pending_append_sent, Client.dataOf_step hs]
  exact h.push _

/-- What the server sends joins the queue. -/
theorem DownFifo.server (h : DownFifo cc q r) {env : ServerEnv S} {e : ServerSession.Event}
    {s s' : ServerSession S} {o : Out S} {up : Bool} (hs : s.step cs env e = .ok (s', o, up)) :
    DownFifo cc (q ++ o.sent) (r ++ serverActs e o) := by
  obtain ⟨-, -, h3, h4⟩ := filterMap_serverActs e o
  unfold DownFifo
  rw [List.filterMap_append, List.filterMap_append, h3, h4, List.append_nil,
    pending_append_sent, ServerSession.dataOf_step hs]
  exact h.push _

/-- The server writes `ws`, which takes the queue to `net`. -/
theorem UpFifo.server {e : ServerSession.Event} {o : Out S}
    (h : Fifo (ServerSession.passes cs ip) (r.filterMap Act.upSent)
      (r.filterMap Act.upWritten ++ o.tun.map Prod.fst) (pending net)) :
    UpFifo cs ip net (r ++ serverActs e o) := by
  obtain ⟨h1, h2, -, -⟩ := filterMap_serverActs e o
  unfold UpFifo
  rwa [List.filterMap_append, List.filterMap_append, h1, h2, List.append_nil]

/-- The client writes `ws`, which takes the queue to `net`. -/
theorem DownFifo.client {e : Client.Event} {o : Out S}
    (h : Fifo (Client.passes cc) (r.filterMap Act.downSent)
      (r.filterMap Act.downWritten ++ o.tun.map Prod.fst) (pending net)) :
    DownFifo cc net (r ++ clientActs e o) := by
  obtain ⟨-, -, h3, h4⟩ := filterMap_clientActs e o
  unfold DownFifo
  rwa [List.filterMap_append, List.filterMap_append, h3, h4, List.append_nil]

/-- The receiver is handed the first frame in flight, and writes its payload if it passes. -/
theorem fifo_of_frame {pass : Bytes → Bool} {ins outs : List Bytes} {f : Sealed S} {ok : Bool}
    (h : Fifo pass ins outs (pending (.frame f :: net))) : Fifo pass ins
      (outs ++ (if f.typ = msgData ∧ pass f.payload then [(f.payload, ok)] else []).map Prod.fst)
      (pending net) := by
  by_cases hty : f.typ = msgData
  · rw [pending_data hty] at h
    have := h.pop
    cases hp : pass f.payload <;> simpa [hty, hp] using this
  · rw [pending_other hty] at h
    simpa [hty] using h

/-- A datagram that does not authenticate is refused. -/
theorem open_error {k : Keys S} {b : Bytes} (h : authenticate S k.recvKey b = none) :
    ∃ k' err, k.open b = .ok (k', .error err) := by
  obtain ⟨k', res, hop, hopened⟩ := k.open_ok b
  cases hopened with
  | rejected => exact ⟨_, _, hop⟩
  | replayed => exact ⟨_, _, hop⟩
  | accepted f w ha =>
    rw [h] at ha
    cases ha

/-- The server is handed the first datagram in flight. -/
theorem UpFifo.recv (hA : S.AeadLaws) (h : UpFifo cs x.server.ip x.c2s r) (hi : Sync cc cs x)
    (ho : InOrder x) (hid : x.Ideal) {env : ServerEnv S} {p : Packet S} {s' : ServerSession S}
    {o : Out S} {up : Bool} (hq : x.c2s = p :: net)
    (hs : x.server.step cs env (.recv (some p.wire)) = .ok (s', o, up)) :
    UpFifo cs x.server.ip net (r ++ serverActs (.recv (some p.wire)) o) := by
  obtain ⟨k, hk⟩ := Option.isSome_iff_exists.1 hi.server
  refine UpFifo.server ?_
  unfold UpFifo at h
  rw [hq] at h
  cases p with
  | raw b =>
    obtain ⟨k', err, hop⟩ := open_error (hid.rawC2S b k (by simp [hq]) hk)
    rw [ServerSession.tun_recv hk hop hs]
    simpa [ServerSession.writes, pending] using h
  | frame f =>
    obtain ⟨k', hop, htag⟩ := (ho.up k hk).opens hA hi hk hq
    rw [ServerSession.tun_recv hk hop hs, ServerSession.writes]
    simp only [Sealed.frame, htag, true_and]
    exact fifo_of_frame h

/-- A client with a connection is in the main loop, or waits for its address and is handed the
frame that assigns it next. -/
def Waits (x : Conn S) : Prop :=
  x.client.phase.live = true → x.client.phase = .running ∨ ∃ f q a b,
    x.client.phase = .waitAssign a b ∧ x.s2c = .frame f :: q ∧ f.typ = msgAssign ∧
      f.payload.length = 9

/-- The client is handed the first datagram in flight, and runs the main loop afterwards unless it
gives the connection up. -/
theorem DownFifo.recv (hA : S.AeadLaws) (h : DownFifo cc x.s2c r) (hi : Sync cc cs x)
    (hlag : Lag cc n x) (ho : InOrder x) (hw : Waits x) (hid : x.Ideal)
    (hlive : x.client.phase.live = true) {env : ClientEnv S} {p : Packet S} {c' : Client S}
    {o : Out S} (hq : x.s2c = p :: net)
    (hs : x.client.step cc env (.recv (some p.wire)) = .ok (c', o)) :
    DownFifo cc net (r ++ clientActs (.recv (some p.wire)) o) := by
  obtain ⟨k, hk⟩ := hi.exists_clientKeys hlag hlive
  refine DownFifo.client ?_
  unfold DownFifo at h
  rw [hq] at h
  rcases hw hlive with hp | ⟨f, q, a, b, hp, hq', hty, hlen⟩
  · cases p with
    | raw b =>
      obtain ⟨k', err, hop⟩ := open_error (hid.rawS2C b k (by simp [hq]) hk)
      rw [Client.tun_recv hp hk hop hs]
      simpa [Client.writes, pending] using h
    | frame f =>
      obtain ⟨k', hop, htag⟩ := (ho.down k hk).opens hA hq
      rw [Client.tun_recv hp hk hop hs, Client.writes]
      simp only [Sealed.frame, htag, hi.tag hlive, true_and]
      exact fifo_of_frame h
  · -- the frame that assigns the address is no data
    cases hq.symm.trans hq'
    have htun : o.tun = [] := by
      unfold Client.step at hs
      rw [hp] at hs
      exact (Client.recvAssign_silent hs).2
    rw [pending_other (by rw [hty]; decide)] at h
    rw [htun]
    simpa using h

/-! ### Every step -/

/-- A wake-up of a keyed client leaves it where it waits, in the main loop, or without a
connection. -/
theorem phase_of_steps {env : ClientEnv S} {e : Client.Event} {c c' : Client S} {o : Out S}
    (h : Client.Steps cc env c e c' o) (hk : c.phase.keyed = true) :
    c'.phase = c.phase ∨ c'.phase = .running ∨ c'.phase.live = false := by
  cases h with
  | hangup _ hl => exact .inr (.inr hl)
  | cookie hp => rw [hp] at hk; cases hk
  | keyed hp => rw [hp] at hk; cases hk
  | opened _ _ _ _ _ _ _ _ _ _ _ hp => exact hp.imp (·.1) (.inl ·.1)
  | keepalive _ _ _ _ hm => cases hm <;> exact .inl rfl
  | _ => exact .inl rfl

/-- The client that waits for its address is handed it. -/
theorem running_of_assign {env : ClientEnv S} {c c' : Client S} {o : Out S} {data : Bytes}
    {a b : ℤ} {k k' : Keys S} {f : Frame} (hp : c.phase = .waitAssign a b) (hk : c.keys = some k)
    (hop : k.open data = .ok (k', .ok f)) (htag : f.tag = c.tag) (hty : f.typ = msgAssign)
    (hlen : f.payload.length = 9) (h : c.step cc env (.recv (some data)) = .ok (c', o)) :
    c'.phase = .running := by
  unfold Client.step at h
  rw [hp] at h
  simp only [Client.recvAssign, hk, hop, Go.ok_bind, htag, hty, ne_eq, not_true_eq_false,
    if_false] at h
  obtain ⟨res, hparse, h⟩ := Go.bind_eq_ok.1 h
  unfold parseAssign at hparse
  rw [if_neg (not_not.2 hlen)] at hparse
  obtain ⟨_, -, hparse⟩ := Go.bind_eq_ok.1 hparse
  obtain ⟨_, -, hparse⟩ := Go.bind_eq_ok.1 hparse
  obtain ⟨_, -, hparse⟩ := Go.bind_eq_ok.1 hparse
  cases hparse
  cases h
  rfl

/-- The address of a session with keys does not change. -/
theorem ip_of_steps {env : ServerEnv S} {e : ServerSession.Event} {s s' : ServerSession S}
    {o : Out S} {up : Bool} (h : ServerSession.Steps cs env s e (s', o, up)) {k : Keys S}
    (hk : s.keys = some k) : s'.ip = s.ip := by
  have hloop : ∀ {s' : ServerSession S} {o : Out S} {up : Bool},
      ServerSession.Loops cs env s e (s', o, up) → s'.ip = s.ip := by
    intro s' o up h
    cases h with
    | recv hh =>
      cases hh with
      | keyed hno => exact absurd (hno.symm.trans hk) nofun
      | _ => rfl
    | _ => rfl
  cases h with
  | run hl => exact hloop hl
  | halt hl => exact hloop hl
  | close hl =>
    have := hloop hl
    exact this

/-- The invariant of a connection with its record. -/
structure Channels (cc : ClientConfig) (cs : ServerConfig) (ip : Option Byte4) (x : Conn S)
    (r : List Act) : Prop where
  addr : x.server.ip = ip
  waits : Waits x
  up : UpFifo cs ip x.c2s r
  down : DownFifo cc x.s2c r

/-- An event of the client other than a datagram. -/
theorem Channels.client (h : Channels cc cs ip x r) (hi : Sync cc cs x) (hlag : Lag cc n x)
    (hlive : x.client.phase.live = true) {env : ClientEnv S} {e : Client.Event} {c' : Client S}
    {o : Out S} (he : e.isDatagram = false) (hs : x.client.step cc env e = .ok (c', o)) :
    Channels cc cs ip (x.clientMove env.now c' o) (r ++ clientActs e o) := by
  have hsteps := Client.step_spec hlive hlag.keys_of_reply hs
  refine ⟨h.addr, fun hlive' => ?_, h.up.client hs, DownFifo.client ?_⟩
  · rcases phase_of_steps hsteps (hi.keyed hlive) with hp | hp | hp
    · show c'.phase = _ ∨ _
      rw [hp]
      refine (h.waits hlive).imp id ?_
      rintro ⟨f, q, a, b, hw, hrest⟩
      exact ⟨f, q, a, b, hp.trans hw, hrest⟩
    · exact .inl hp
    · have hlive' : c'.phase.live = true := hlive'
      rw [hp] at hlive'
      cases hlive'
  · have htun : o.tun = [] := by
      refine List.eq_nil_iff_forall_not_mem.2 fun w hw => ?_
      obtain ⟨data, -, -, -, rfl, -⟩ := Client.mem_tun_step hs hw
      cases he
    rw [htun, List.map_nil, List.append_nil]
    exact h.down

/-- The client is handed the first datagram in flight. -/
theorem Channels.toClient (hA : S.AeadLaws) (h : Channels cc cs ip x r) (hi : Sync cc cs x)
    (hlag : Lag cc n x) (ho : InOrder x) (hid : x.Ideal) (hlive : x.client.phase.live = true)
    {env : ClientEnv S} {p : Packet S} {c' : Client S} {o : Out S} (hq : x.s2c = p :: net)
    (hs : x.client.step cc env (.recv (some p.wire)) = .ok (c', o)) :
    Channels cc cs ip ({ x with s2c := net }.clientMove env.now c' o)
      (r ++ clientActs (.recv (some p.wire)) o) := by
  have hsteps := Client.step_spec hlive hlag.keys_of_reply hs
  refine ⟨h.addr, fun hlive' => ?_, h.up.client hs,
    h.down.recv hA hi hlag ho h.waits hid hlive hq hs⟩
  have hlive' : c'.phase.live = true := hlive'
  rcases h.waits hlive with hp | ⟨f, q, a, b, hp, hq', hty, hlen⟩
  · rcases phase_of_steps hsteps (hi.keyed hlive) with hp' | hp' | hp'
    · exact .inl (hp'.trans hp)
    · exact .inl hp'
    · rw [hp'] at hlive'
      cases hlive'
  · cases hq.symm.trans hq'
    obtain ⟨k, hk⟩ := hi.exists_clientKeys hlag hlive
    obtain ⟨k', hop, htag⟩ := (ho.down k hk).opens hA hq
    exact .inl (running_of_assign hp hk hop (htag.trans (hi.tag hlive).symm) hty hlen hs)

/-- An event of the server other than a datagram. -/
theorem Channels.server (h : Channels cc cs ip x r) (hi : Sync cc cs x) {env : ServerEnv S}
    {e : ServerSession.Event} {s' : ServerSession S} {o : Out S} {up : Bool}
    (he : e.isDatagram = false) (hs : x.server.step cs env e = .ok (s', o, up)) :
    Channels cc cs ip (x.serverMove s' up o) (r ++ serverActs e o) := by
  obtain ⟨k, hk⟩ := Option.isSome_iff_exists.1 hi.server
  refine ⟨(ip_of_steps (ServerSession.step_spec hs) hk).trans h.addr, fun hlive => ?_,
    UpFifo.server ?_, h.down.server hs⟩
  · refine (h.waits hlive).imp id ?_
    rintro ⟨f, q, a, b, hp, hq, hrest⟩
    exact ⟨f, q ++ o.sent, a, b, hp, by rw [serverMove, hq]; rfl, hrest⟩
  · have htun : o.tun = [] := by
      refine List.eq_nil_iff_forall_not_mem.2 fun w hw => ?_
      obtain ⟨data, -, -, -, rfl, -⟩ := ServerSession.mem_tun_step hs hw
      cases he
    rw [htun, List.map_nil, List.append_nil]
    exact h.up

/-- The server is handed the first datagram in flight. -/
theorem Channels.toServer (hA : S.AeadLaws) (h : Channels cc cs ip x r) (hi : Sync cc cs x)
    (ho : InOrder x) (hid : x.Ideal) {env : ServerEnv S} {p : Packet S} {s' : ServerSession S}
    {o : Out S} {up : Bool} (hq : x.c2s = p :: net)
    (hs : x.server.step cs env (.recv (some p.wire)) = .ok (s', o, up)) :
    Channels cc cs ip ({ x with c2s := net }.serverMove s' up o)
      (r ++ serverActs (.recv (some p.wire)) o) := by
  obtain ⟨k, hk⟩ := Option.isSome_iff_exists.1 hi.server
  refine ⟨(ip_of_steps (ServerSession.step_spec hs) hk).trans h.addr, fun hlive => ?_, ?_,
    h.down.server hs⟩
  · refine (h.waits hlive).imp id ?_
    rintro ⟨f, q, a, b, hp, hq, hrest⟩
    exact ⟨f, q ++ o.sent, a, b, hp, by rw [serverMove, hq]; rfl, hrest⟩
  · have hup := h.up
    rw [← h.addr] at hup ⊢
    exact hup.recv hA hi ho hid hq hs

/-- **Every step over an ordered carrier keeps both directions first-in first-out.** -/
theorem Channels.step (hA : S.AeadLaws) (h : Channels cc cs ip x r) (hi : Sync cc cs x)
    (hlag : Lag cc n x) (ho : InOrder x) (hid : x.Ideal) {l : Label S} (hseq : InSequence l)
    (hstep : Step cc cs x l x') : Channels cc cs ip x' (r ++ acts cc cs x l) := by
  -- a datagram is taken from the head of the queue
  have hhead : ∀ {q : List (Packet S)} {p : Packet S}, q[0]? = some p → q = p :: q.eraseIdx 0 := by
    intro q p hp
    cases Takes.of_head hp with
    | head h => exact h
  cases hstep with
  | client hlive he hs =>
    simp only [acts, clientShows, hs]
    exact h.client hi hlag hlive he hs
  | @toClient env i p c' o hlive hp hs =>
    obtain rfl : i = 0 := hseq
    simp only [acts, hp, Option.elim_some, clientShows, hs]
    exact h.toClient hA hi hlag ho hid hlive (hhead hp) hs
  | server _ he hs =>
    simp only [acts, serverShows, hs]
    exact h.server hi he hs
  | @toServer env i p s' o up _ hp hs =>
    obtain rfl : i = 0 := hseq
    simp only [acts, hp, Option.elim_some, serverShows, hs]
    exact h.toServer hA hi ho hid (hhead hp) hs
  | faultC2S => exact hseq.elim
  | faultS2C => exact hseq.elim

theorem Settled.channels {ks : S.Key × S.Key} (h : Settled cc ks x) :
    Channels cc cs x.server.ip x [] := by
  obtain ⟨f, k, hq, -, -, -, -, hty, hlen⟩ := h.s2c_eq
  refine ⟨rfl, fun _ => ?_, ?_, ?_⟩
  · cases hp : x.client.phase with
    | running => exact .inl rfl
    | waitAssign a b => exact .inr ⟨f, [], a, b, rfl, hq, hty, hlen⟩
    | _ =>
      have := h.client.1
      rw [hp] at this
      cases this
  · have hno : pending x.c2s = [] := by
      refine List.filterMap_eq_nil_iff.2 fun p hp => ?_
      obtain ⟨b, rfl, -⟩ := h.c2s p hp
      rfl
    unfold UpFifo
    rw [hno]
    exact Fifo.nil
  · unfold DownFifo
    rw [hq, pending_other (by rw [hty]; decide)]
    exact Fifo.nil

/-- The runs of a connection over an ordered carrier, with their record. -/
def tunnelLts (S : Suite) (cc : ClientConfig) (cs : ServerConfig) :
    LTS (Conn S × List Act) (Label S) :=
  (orderedLts S cc cs).recording (acts cc cs)

/-- **The tunnel is first-in first-out.**  Over a carrier that keeps the order, with the rekey
timeout heeding what is in flight (`Heeds`) and fewer than `2 ^ 32` frames under each key (`Roomy`),
the packets that the server writes to its TUN are the first ones that the client has sealed and
sent, in their order, without those that do not pass the server's check; the others are still in
flight.  The same holds from the server to the client. -/
theorem tunnel_fifo (hA : S.AeadLaws) (hX : S.XKLaws) (hpub : Paired S cc cs)
    {ks : S.Key × S.Key} {x₀ : Conn S} {ls : List (Label S)} (h₀ : Settled cc ks x₀)
    (run : (tunnelLts S cc cs).Run (x₀, []) ls (x, r)) (hf : x.Fresh) :
    (∃ done, r.filterMap Act.upSent = done ++ pending x.c2s ∧
      r.filterMap Act.upWritten = done.filter (ServerSession.passes cs x₀.server.ip)) ∧
    ∃ done, r.filterMap Act.downSent = done ++ pending x.s2c ∧
      r.filterMap Act.downWritten = done.filter (Client.passes cc) := by
  suffices h : Channels cc cs x₀.server.ip x r from ⟨h.up, h.down⟩
  generalize hy : (x, r) = y at run
  induction run generalizing x r with
  | nil =>
    cases hy
    exact h₀.channels
  | @snoc ls y y' l hr hst ih =>
    subst hy
    obtain ⟨⟨⟨⟨hid, hheed⟩, hseq, hroom⟩, hstep⟩, hrec⟩ := hst
    have hfresh := Fresh.of_step hstep hf
    obtain ⟨hlag, hsync, ho⟩ := InOrder.run hA hX hpub h₀ hr.of_recording hfresh
    rw [show r = y.2 ++ acts cc cs y.1 l from hrec]
    exact (ih hfresh rfl).step hA hsync hlag ho hid hseq hstep

/-- A packet from 10.77.0.2 to 8.8.8.8. -/
def plainPing : Bytes := [0x45, 0, 0, 20, 0, 0, 0, 0, 64, 17, 0, 0, 10, 77, 0, 2, 8, 8, 8, 8]

/-- The answer to it. -/
def plainPong : Bytes := [0x45, 0, 0, 20, 0, 0, 0, 0, 64, 17, 0, 0, 8, 8, 8, 8, 10, 77, 0, 2]

/-- The client of the plain suite sends a packet, and gets an answer. -/
theorem tunnel_fifo_plain : ∃ x₀ ls x r,
    (idealLts plain Client.plainConfig ServerSession.plainConfig).Reachable plainStart x₀ ∧
    (tunnelLts plain Client.plainConfig ServerSession.plainConfig).Run (x₀, []) ls (x, r) ∧
    r = [.clientReads plainPing true, .serverWrites plainPing true, .serverReads plainPong true,
      .clientWrites plainPong true] ∧
    (∃ done, r.filterMap Act.upSent = done ++ pending x.c2s ∧ r.filterMap Act.upWritten =
      done.filter (ServerSession.passes ServerSession.plainConfig x₀.server.ip)) ∧
    ∃ done, r.filterMap Act.downSent = done ++ pending x.s2c ∧
      r.filterMap Act.downWritten = done.filter (Client.passes Client.plainConfig) := by
  obtain ⟨⟨x, r⟩, run, hp⟩ := LTS.exists_run_of_next
    (A := tunnelLts plain Client.plainConfig ServerSession.plainConfig)
    (f := fun y l => if isOrdered y.1 l then
      (next Client.plainConfig ServerSession.plainConfig y.1 l).map fun x' =>
        (x', y.2 ++ acts Client.plainConfig ServerSession.plainConfig y.1 l)
      else none)
    (fun y l y' hy => by
      split_ifs at hy with ht
      obtain ⟨x', hx', rfl⟩ := Option.map_eq_some_iff.1 hy
      exact ⟨⟨ordered_of_test ht, step_of_next hx'⟩, rfl⟩)
    (plainSettled, [])
    [.toClient (Client.plainEnv 3 0) 0, .client (Client.plainEnv 4 0) (.tun plainPing),
      .toServer (ServerSession.plainEnv 5 0) 0,
      .server (ServerSession.plainEnv 6 0) (.reply plainPong), .toClient (Client.plainEnv 7 0) 0]
    (fun y => plainKeys y.1 == [(5, 133)] && y.2 == [.clientReads plainPing true,
      .serverWrites plainPing true, .serverReads plainPong true, .clientWrites plainPong true])
    (by decide +kernel)
  simp only [Bool.and_eq_true, beq_iff_eq] at hp
  exact ⟨plainSettled, _, x, r, plainSettled_reachable, run, hp.2,
    tunnel_fifo Plain.aeadLaws Plain.xkLaws plain_paired settled_plainSettled run
      (fresh_of_plainKeys hp.1 (by decide) (by decide))⟩

end Conn

end VibeVpn

import VibeVpn.Session.Registry
import VibeVpn.Session.ServerSpec

/-!
# The server process

The server as a whole: the registry, the goroutines of every session and `TunLoop`, in every
interleaving.  Of a session there are its `transportReader`, which fills `recvCh`, and its run loop,
which takes datagrams and packets from its channels, wakes up by its timers, and ends with `finish`.
`TunLoop` reads a packet, looks its destination up and hands the packet to the session it finds, in
two critical sections.

A run loop holds no lock while it works.  So it takes an element from a channel in one step
(`Label.take`) and deals with it in another (`Label.wake`), and anything can happen in between; in
the same way `finish` removes the session in one step and says goodbye to the client in another
(`Label.close`).  What a run loop does between two such points touches only fields of its session
that no other goroutine writes, up to the one thing that others can see: it sends, or writes to the
TUN, or enters `Manager.mu` in `adopt`.  There the registry answers (`Daemon.answer`) and takes the
corresponding step (`Daemon.sections`); the frame with the address that `adopt` has given is sent in
the same step.  Results that compare a session's own fields with the registry are therefore about
the moments between the iterations of its run loop.

The channels hold 512 elements.  A session's channels exist from its registration on.

* `Daemon.step_cases` : what a step of the server does, case by case (`Daemon.Moves`).
* `Daemon.Coherent` : the registry is consistent, and its view of each session is what the session
  itself believes; every step keeps this (`Daemon.Moves.coherent`).
-/

namespace VibeVpn

variable {S : Suite}

/-! ### State -/

/-- A packet that `TunLoop` has read. -/
structure Routed where
  /-- The packet. -/
  pkt : Bytes
  /-- Its destination. -/
  dst : Byte4
  /-- History: the client key registered for the destination at the moment of the lookup. -/
  key : Option Bytes
  deriving DecidableEq, Repr

/-- What a run loop has taken from a channel. -/
inductive Taken where
  /-- A datagram from `recvCh`. -/
  | datagram (data : Bytes)
  /-- A packet from `replyCh`. -/
  | packet (r : Routed)
  deriving DecidableEq, Repr

/-- The datagram. -/
def Taken.datagrams : Taken → List Bytes
  | .datagram d => [d]
  | .packet _ => []

/-- The packet. -/
def Taken.packets : Taken → List Routed
  | .datagram _ => []
  | .packet r => [r]

/-- The goroutines of a session. -/
structure Proc (S : Suite) where
  /-- The session. -/
  session : ServerSession S
  /-- `recvCh`. -/
  recvCh : List Bytes := []
  /-- `replyCh`. -/
  replyCh : List Routed := []
  /-- What the run loop has taken from a channel and not dealt with. -/
  taken : Option Taken := none
  /-- The run loop has not returned. -/
  running : Bool := true
  /-- `finish` has returned. -/
  closed : Bool := false

/-- The capacity of `recvCh` and of `replyCh`. -/
def chanCap : ℕ := 512

/-- The server. -/
structure Daemon (S : Suite) where
  /-- The registry. -/
  reg : Registry
  /-- The sessions, in the order of the registry's `heap`. -/
  procs : List (Proc S)
  /-- `TunLoop` between `LookupIP` and `Reply`. -/
  tunLoop : Option (SessionView × Routed)

/-- What wakes a run loop. -/
inductive Wake where
  /-- `ctx` is done. -/
  | cancel
  /-- A datagram from `recvCh`. -/
  | recv
  /-- A packet from `replyCh`. -/
  | reply
  /-- The one-second ticker. -/
  | tick
  /-- The decoy timer. -/
  | decoy
  deriving DecidableEq, Repr

namespace Proc

/-- The run loop takes an element from a channel. -/
def take (p : Proc S) : Wake → Option (Proc S)
  | .recv =>
    match p.taken, p.recvCh with
    | none, d :: ds => some { p with recvCh := ds, taken := some (.datagram d) }
    | _, _ => none
  | .reply =>
    match p.taken, p.replyCh with
    | none, r :: rs => some { p with replyCh := rs, taken := some (.packet r) }
    | _, _ => none
  | _ => none

/-- The event of the run loop, and the process without the element it deals with. -/
def next (p : Proc S) (cancelled : Bool) : Wake → Option (ServerSession.Event × Proc S)
  | .cancel => if p.taken = none ∧ cancelled then some (.cancel, p) else none
  | .recv =>
    match p.taken with
    | some (.datagram d) => some (.recv (some d), { p with taken := none })
    | _ => none
  | .reply =>
    match p.taken with
    | some (.packet r) => some (.reply r.pkt, { p with taken := none })
    | _ => none
  | .tick => if p.taken = none then some (.tick, p) else none
  | .decoy => if p.taken = none then some (.decoy, p) else none

/-- The datagrams that the session has not dealt with, in their order. -/
def datagrams (p : Proc S) : List Bytes := p.taken.elim [] Taken.datagrams ++ p.recvCh

/-- The packets that the session has not dealt with, in their order. -/
def packets (p : Proc S) : List Routed := p.taken.elim [] Taken.packets ++ p.replyCh

/-- The ways to take an element. -/
inductive Takes (p : Proc S) : Wake → Proc S → Prop where
  | recv {d : Bytes} {ds : List Bytes} : p.taken = none → p.recvCh = d :: ds →
      Takes p .recv { p with recvCh := ds, taken := some (.datagram d) }
  | reply {r : Routed} {rs : List Routed} : p.taken = none → p.replyCh = r :: rs →
      Takes p .reply { p with replyCh := rs, taken := some (.packet r) }

/-- What a run loop deals with. -/
inductive Next (p : Proc S) : Wake → ServerSession.Event → Proc S → Prop where
  | cancel : p.taken = none → Next p .cancel .cancel p
  | recv {d : Bytes} : p.taken = some (.datagram d) →
      Next p .recv (.recv (some d)) { p with taken := none }
  | reply {r : Routed} : p.taken = some (.packet r) →
      Next p .reply (.reply r.pkt) { p with taken := none }
  | tick : p.taken = none → Next p .tick .tick p
  | decoy : p.taken = none → Next p .decoy .decoy p

variable {p p' : Proc S} {w : Wake} {ev : ServerSession.Event} {c : Bool}

theorem take_cases (h : p.take w = some p') : Takes p w p' := by
  cases w with
  | recv =>
    simp only [take] at h
    split at h
    · next ht hc =>
      cases h
      exact .recv ht hc
    · cases h
  | reply =>
    simp only [take] at h
    split at h
    · next ht hc =>
      cases h
      exact .reply ht hc
    · cases h
  | cancel => cases h
  | tick => cases h
  | decoy => cases h

theorem next_cases (h : p.next c w = some (ev, p')) : Next p w ev p' := by
  cases w with
  | cancel =>
    simp only [next] at h
    split_ifs at h with hc
    cases h
    exact .cancel hc.1
  | recv =>
    simp only [next] at h
    split at h
    · next ht =>
      cases h
      exact .recv ht
    · cases h
  | reply =>
    simp only [next] at h
    split at h
    · next ht =>
      cases h
      exact .reply ht
    · cases h
  | tick =>
    simp only [next] at h
    split_ifs at h with ht
    cases h
    exact .tick ht
  | decoy =>
    simp only [next] at h
    split_ifs at h with ht
    cases h
    exact .decoy ht

theorem datagrams_snoc (p : Proc S) (d : Bytes) :
    datagrams { p with recvCh := p.recvCh ++ [d] } = p.datagrams ++ [d] :=
  (List.append_assoc _ _ _).symm

theorem packets_snoc (p : Proc S) (r : Routed) :
    packets { p with replyCh := p.replyCh ++ [r] } = p.packets ++ [r] :=
  (List.append_assoc _ _ _).symm

theorem Takes.datagrams_eq (h : Takes p w p') : p'.datagrams = p.datagrams := by
  cases h with
  | recv ht hc => rw [datagrams, datagrams, ht, hc]; rfl
  | reply ht => rw [datagrams, datagrams, ht]; rfl

theorem Takes.packets_eq (h : Takes p w p') : p'.packets = p.packets := by
  cases h with
  | recv ht => rw [packets, packets, ht]; rfl
  | reply ht hc => rw [packets, packets, ht, hc]; rfl

theorem Takes.session_eq (h : Takes p w p') : p'.session = p.session := by
  cases h <;> rfl

/-- A run loop deals with the first datagram, or with none. -/
theorem Next.datagrams_cases (h : Next p w ev p') :
    p.datagrams = p'.datagrams ∧ ev.isDatagram = false ∨
      ∃ d, ev = .recv (some d) ∧ p.datagrams = d :: p'.datagrams := by
  cases h with
  | cancel => exact .inl ⟨rfl, rfl⟩
  | @recv d ht => exact .inr ⟨d, rfl, by rw [datagrams, ht]; rfl⟩
  | reply ht => exact .inl ⟨by rw [datagrams, ht]; rfl, rfl⟩
  | tick => exact .inl ⟨rfl, rfl⟩
  | decoy => exact .inl ⟨rfl, rfl⟩

/-- A run loop deals with the first packet, or with none. -/
theorem Next.packets_cases (h : Next p w ev p') :
    p.packets = p'.packets ∧ w ≠ .reply ∨
      ∃ r, w = .reply ∧ p.packets = r :: p'.packets := by
  cases h with
  | cancel => exact .inl ⟨rfl, nofun⟩
  | recv ht => exact .inl ⟨by rw [packets, ht]; rfl, nofun⟩
  | @reply r ht => exact .inr ⟨r, rfl, by rw [packets, ht]; rfl⟩
  | tick => exact .inl ⟨rfl, nofun⟩
  | decoy => exact .inl ⟨rfl, nofun⟩

/-- Dealing with an element leaves the rest of the process as it is. -/
theorem Next.eq (h : Next p w ev p') : p' = { p with taken := none } := by
  cases h with
  | cancel ht => rw [← ht]
  | recv => rfl
  | reply => rfl
  | tick ht => rw [← ht]
  | decoy ht => rw [← ht]

end Proc

namespace Daemon

/-- The server before its first client. -/
def start (S : Suite) (m : Manager) : Daemon S where
  reg := .start m
  procs := []
  tunLoop := none

/-- The steps of the server. -/
inductive Label (S : Suite) where
  /-- The first critical section of a `HandleTransport` call. -/
  | check
  /-- The second one, of the call at a position; the session's goroutines start. -/
  | insert (i : ℕ) (peerIP : Option Bytes) (now : ℤ)
  /-- The transport of a session delivers a datagram to its `transportReader`. -/
  | receive (s : Ref) (data : Bytes)
  /-- `CloseAll` cancels a session. -/
  | cancel (s : Ref)
  /-- A session's run loop takes an element from a channel. -/
  | take (s : Ref) (w : Wake)
  /-- A session's run loop deals with what it has taken, or with a timer or the cancellation. -/
  | wake (s : Ref) (env : ServerEnv S) (w : Wake)
  /-- The `remove` in the `finish` of a session whose run loop has returned. -/
  | finish (s : Ref)
  /-- The `sendCloseQuiet` after it. -/
  | close (s : Ref) (env : ServerEnv S)
  /-- `TunLoop` reads a packet and looks its destination up. -/
  | lookup (pkt : Bytes)
  /-- `TunLoop` hands the packet over. -/
  | reply

/-- The address `adopt` would give the session `s` with the fields `e` and the client's key. -/
def answer (m : Manager) (s : Ref) (e : Entry) (key : Bytes) : Go (Option Byte4) := do
  let (_, ip) ← m.adopt s { e with clientKey := some key }
  pure ip

/-- The steps of the registry when the session `s` goes from `a` to `b`. -/
def sections (s : Ref) (a b : ServerSession S) : List Registry.Label :=
  (match b.clientKey with
    | some key => if a.clientKey = some key then [] else [.identify s key]
    | none => []) ++
  if a.ip = none ∧ b.ip.isSome then [.adopt s] else []

/-- `LookupIP` of a packet's destination; a packet that is no IPv4 packet, or whose destination
nobody has, is dropped. -/
def lookup (x : Daemon S) (pkt : Bytes) : Go (Daemon S) := do
  match ← Header.parse pkt with
  | none => pure { x with reg := { x.reg with mgr := x.reg.mgr.drop } }
  | some h =>
    match x.reg.mgr.lookupIP h.dst with
    | none => pure { x with reg := { x.reg with mgr := x.reg.mgr.drop } }
    | some v =>
      let key := do
        let s ← x.reg.mgr.byIP.lookup h.dst
        let e ← x.reg.mgr.heap[s]?
        e.clientKey
      pure { x with tunLoop := some (v, { pkt, dst := h.dst, key }) }

/-- `Reply`; the packet is dropped when the session is gone or its channel is full. -/
def handOver (x : Daemon S) (v : SessionView) (r : Routed) : Daemon S :=
  let dropped := { x with reg := { x.reg with mgr := x.reg.mgr.drop }, tunLoop := none }
  match x.reg.mgr.replyTo v with
  | none => dropped
  | some s =>
    match x.procs[s]? with
    | none => dropped
    | some p =>
      if p.replyCh.length < chanCap then
        { x with procs := x.procs.set s { p with replyCh := p.replyCh ++ [r] }, tunLoop := none }
      else dropped

/-- One step of the server and what it puts out; `.error none` stands for a step that is not
possible now. -/
def step (cfg : ServerConfig) (x : Daemon S) :
    Label S → Except (Option Panic) (Daemon S × Out S)
  | .check => do
    let reg ← x.reg.step .check
    pure ({ x with reg }, {})
  | .insert i peerIP now =>
    match x.reg.calls[i]? with
    | none => .error none
    | some c => do
      let reg ← x.reg.step (.insert i)
      pure ({ x with
        reg
        procs := x.procs ++ [{ session := .new S c.id peerIP now }] }, {})
  | .receive s data =>
    match x.procs[s]? with
    | none => .error none
    | some p =>
      -- the reader blocks on a full channel
      if p.recvCh.length < chanCap then
        .ok ({ x with procs := x.procs.set s { p with recvCh := p.recvCh ++ [data] } }, {})
      else .error none
  | .cancel s =>
    match x.reg.mgr.heap[s]? with
    | none => .error none
    | some e =>
      let mgr := { x.reg.mgr with heap := x.reg.mgr.heap.set s { e with cancelled := true } }
      .ok ({ x with reg := { x.reg with mgr } }, {})
  | .take s w =>
    match x.procs[s]? with
    | none => .error none
    | some p =>
      match p.running, p.take w with
      | true, some p' => .ok ({ x with procs := x.procs.set s p' }, {})
      | _, _ => .error none
  | .wake s env w =>
    match x.reg.mgr.heap[s]?, x.procs[s]? with
    | some e, some p =>
      if p.running then
        match p.next e.cancelled w with
        | none => .error none
        | some (ev, p') =>
          -- whatever the run loop asks `adopt`, the registry of this moment answers
          match p'.session.loop cfg { env with adopt := answer x.reg.mgr s e } ev with
          | .error panic => .error (some panic)
          | .ok (session, o, running) => do
            let reg ← (sections s p.session session).foldlM Registry.step x.reg
            pure ({ x with
              reg
              procs := x.procs.set s { p' with session, running } }, o)
      else .error none
    | _, _ => .error none
  | .finish s =>
    match x.procs[s]? with
    | none => .error none
    | some p =>
      if p.running then .error none
      else do
        let reg ← x.reg.step (.remove s)
        pure ({ x with reg }, {})
  | .close s env =>
    match x.reg.mgr.heap[s]?, x.procs[s]? with
    | some e, some p =>
      -- `finish` has called `remove`, and says goodbye once
      if e.removed ∧ !p.closed then
        match p.session.sendCloseQuiet cfg env with
        | .error panic => .error (some panic)
        | .ok (session, o) =>
          .ok ({ x with procs := x.procs.set s { p with session, closed := true } }, o)
      else .error none
    | _, _ => .error none
  | .lookup pkt =>
    match x.tunLoop, x.lookup pkt with
    | none, .ok x' => .ok (x', {})
    | none, .error panic => .error (some panic)
    | some _, _ => .error none
  | .reply =>
    match x.tunLoop with
    | none => .error none
    | some (v, r) => .ok (x.handOver v r, {})

/-- The server in every interleaving. -/
def lts (S : Suite) (cfg : ServerConfig) : LTS (Daemon S) (Label S) :=
  LTS.ofExcept fun x l => (x.step cfg l).map Prod.fst

/-! ### What a step does -/

/-- The registry counts a dropped packet. -/
def drop (x : Daemon S) : Daemon S := { x with reg := { x.reg with mgr := x.reg.mgr.drop } }

/-- The session `s` is cancelled. -/
def cancel (x : Daemon S) (s : Ref) (e : Entry) : Daemon S :=
  { x with
    reg := { x.reg with
      mgr := { x.reg.mgr with heap := x.reg.mgr.heap.set s { e with cancelled := true } } } }

variable {cfg : ServerConfig} {x x' : Daemon S} {l : Label S} {o : Out S}

/-- The ways a step of the server can go. -/
inductive Moves (cfg : ServerConfig) (x : Daemon S) : Label S → Daemon S × Out S → Prop where
  | check {reg : Registry} :
      Registry.Step x.reg .check reg → Moves cfg x .check ({ x with reg }, {})
  | insert {i : ℕ} {peerIP : Option Bytes} {now : ℤ} {c : Call} {reg : Registry} :
      x.reg.calls[i]? = some c → Registry.Step x.reg (.insert i) reg →
      Moves cfg x (.insert i peerIP now)
        ({ x with reg, procs := x.procs ++ [{ session := .new S c.id peerIP now }] }, {})
  | receive {s : Ref} {data : Bytes} {p : Proc S} :
      x.procs[s]? = some p → p.recvCh.length < chanCap →
      Moves cfg x (.receive s data)
        ({ x with procs := x.procs.set s { p with recvCh := p.recvCh ++ [data] } }, {})
  | cancel {s : Ref} {e : Entry} :
      x.reg.mgr.heap[s]? = some e → Moves cfg x (.cancel s) (x.cancel s e, {})
  | take {s : Ref} {w : Wake} {p p' : Proc S} :
      x.procs[s]? = some p → p.running = true → p.Takes w p' →
      Moves cfg x (.take s w) ({ x with procs := x.procs.set s p' }, {})
  | wake {s : Ref} {env : ServerEnv S} {w : Wake} {e : Entry} {p p' : Proc S}
      {ev : ServerSession.Event} {session : ServerSession S} {o : Out S} {running : Bool}
      {reg : Registry} :
      x.reg.mgr.heap[s]? = some e → x.procs[s]? = some p → p.running = true → p.Next w ev p' →
      p.session.loop cfg { env with adopt := answer x.reg.mgr s e } ev =
        .ok (session, o, running) →
      (sections s p.session session).foldlM Registry.step x.reg = .ok reg →
      Moves cfg x (.wake s env w)
        ({ x with reg, procs := x.procs.set s { p' with session, running } }, o)
  | finish {s : Ref} {p : Proc S} {reg : Registry} :
      x.procs[s]? = some p → p.running = false → Registry.Step x.reg (.remove s) reg →
      Moves cfg x (.finish s) ({ x with reg }, {})
  | close {s : Ref} {env : ServerEnv S} {e : Entry} {p : Proc S} {session : ServerSession S}
      {o : Out S} :
      x.reg.mgr.heap[s]? = some e → x.procs[s]? = some p → e.removed = true → p.closed = false →
      p.session.sendCloseQuiet cfg env = .ok (session, o) →
      Moves cfg x (.close s env)
        ({ x with procs := x.procs.set s { p with session, closed := true } }, o)
  | unrouted {pkt : Bytes} : Moves cfg x (.lookup pkt) (x.drop, {})
  | lookup {pkt : Bytes} {h : Header} {s : Ref} {e : Entry} :
      x.tunLoop = none → Header.parse pkt = .ok (some h) → x.reg.mgr.byIP.lookup h.dst = some s →
      x.reg.mgr.heap[s]? = some e →
      Moves cfg x (.lookup pkt) ({ x with
        tunLoop := some (⟨e.sid, e.ip⟩, { pkt, dst := h.dst, key := e.clientKey }) }, {})
  | lost {v : SessionView} {r : Routed} :
      x.tunLoop = some (v, r) → Moves cfg x .reply ({ x.drop with tunLoop := none }, {})
  | reply {v : SessionView} {r : Routed} {s : Ref} {p : Proc S} :
      x.tunLoop = some (v, r) → x.reg.mgr.byID.lookup v.sid = some s → x.procs[s]? = some p →
      p.replyCh.length < chanCap →
      Moves cfg x .reply ({ x with
        procs := x.procs.set s { p with replyCh := p.replyCh ++ [r] }, tunLoop := none }, {})

theorem lookup_cases {pkt : Bytes} (ht : x.tunLoop = none) (h : x.lookup pkt = .ok x') :
    Moves cfg x (.lookup pkt) (x', {}) := by
  obtain ⟨hdr, hparse, h⟩ := Go.bind_eq_ok.1 h
  split at h
  · cases h
    exact .unrouted
  · next hd =>
    split at h
    · cases h
      exact .unrouted
    · next v hv =>
      cases h
      obtain ⟨s, hs, hv⟩ := Option.bind_eq_some_iff.1 hv
      obtain ⟨e, he, hv⟩ := Option.bind_eq_some_iff.1 hv
      cases hv
      have hkey : (do
          let s ← x.reg.mgr.byIP.lookup hd.dst
          let e ← x.reg.mgr.heap[s]?
          e.clientKey) = e.clientKey := by
        rw [hs]
        change (x.reg.mgr.heap[s]?).bind _ = _
        rw [he]
        rfl
      rw [hkey]
      exact .lookup ht hparse hs he

theorem handOver_cases {v : SessionView} {r : Routed} (ht : x.tunLoop = some (v, r)) :
    Moves cfg x .reply (x.handOver v r, {}) := by
  unfold handOver
  dsimp only
  split
  · exact .lost ht
  · next s hs =>
    split
    · exact .lost ht
    · next p hp =>
      split_ifs with hlen
      · exact .reply ht hs hp hlen
      · exact .lost ht

/-- **What a step of the server does.** -/
theorem step_cases (h : x.step cfg l = .ok (x', o)) : Moves cfg x l (x', o) := by
  cases l with
  | check =>
    obtain ⟨reg, hr, h⟩ := Go.bind_eq_ok.1 h
    cases h
    exact .check (Registry.step_cases hr)
  | insert i peerIP now =>
    simp only [step] at h
    split at h
    · cases h
    · next c hc =>
      obtain ⟨reg, hr, h⟩ := Go.bind_eq_ok.1 h
      cases h
      exact .insert hc (Registry.step_cases hr)
  | receive s data =>
    simp only [step] at h
    split at h
    · cases h
    · next p hp =>
      split_ifs at h with hlen
      cases h
      exact .receive hp hlen
  | cancel s =>
    simp only [step] at h
    split at h
    · cases h
    · next e he =>
      cases h
      exact .cancel he
  | take s w =>
    simp only [step] at h
    split at h
    · cases h
    · next p hp =>
      split at h
      · next p' hrun htake =>
        cases h
        exact .take hp hrun (Proc.take_cases htake)
      · cases h
  | wake s env w =>
    simp only [step] at h
    split at h
    · next e p he hp =>
      split_ifs at h with hrun
      split at h
      · cases h
      · next ev p' hnext =>
        have hn := Proc.next_cases hnext
        split at h
        · cases h
        · next session o' running hloop =>
          have hsess : p'.session = p.session := by rw [hn.eq]
          rw [hsess] at hloop
          obtain ⟨reg, hr, h⟩ := Go.bind_eq_ok.1 h
          cases h
          exact .wake he hp hrun hn hloop hr
    · cases h
  | finish s =>
    simp only [step] at h
    split at h
    · cases h
    · next p hp =>
      split_ifs at h with hrun
      obtain ⟨reg, hr, h⟩ := Go.bind_eq_ok.1 h
      cases h
      exact .finish hp (by simpa using hrun) (Registry.step_cases hr)
  | close s env =>
    simp only [step] at h
    split at h
    · next e p he hp =>
      split_ifs at h with hg
      split at h
      · cases h
      · next session o' hq =>
        cases h
        exact .close he hp hg.1 (by simpa using hg.2) hq
    · cases h
  | lookup pkt =>
    simp only [step] at h
    split at h
    · next ht hl =>
      cases h
      exact lookup_cases ht hl
    · cases h
    · cases h
  | reply =>
    simp only [step] at h
    split at h
    · cases h
    · next v r ht =>
      cases h
      exact handOver_cases ht

/-- What an iteration of the run loop does to the identity of its session. -/
inductive Identified (env : ServerEnv S) (s s' : ServerSession S) (running : Bool) : Prop where
  | same : s'.clientKey = s.clientKey → s'.ip = s.ip → s'.keys.isSome = s.keys.isSome →
      Identified env s s' running
  | refused {key : Bytes} : s.keys = none → s'.keys = none → s'.clientKey = some key →
      s'.ip = s.ip → running = false → Identified env s s' running
  | admitted {key : Bytes} {ip : Byte4} : s.keys = none → env.adopt key = .ok (some ip) →
      s'.keys.isSome = true → s'.clientKey = some key → s'.ip = some ip →
      Identified env s s' running

theorem loop_identified {env : ServerEnv S} {s s' : ServerSession S} {ev : ServerSession.Event}
    {running : Bool} (h : s.loop cfg env ev = .ok (s', o, running)) :
    Identified env s s' running := by
  cases ServerSession.loop_spec h with
  | idle => exact .same rfl rfl rfl
  | sent _ _ hsend => exact .same rfl rfl hsend.frame.2.2.2.2
  | timeout => exact .same rfl rfl rfl
  | recv hh =>
    cases hh with
    | refused => exact .same rfl rfl rfl
    | tagged => exact .same rfl rfl rfl
    | answered => exact .same rfl rfl rfl
    | rejected hk => exact .refused hk hk rfl rfl (by simp)
    | keyed hk _ _ _ hadopt _ hsend => exact .admitted hk hadopt hsend.frame.2.2.2.2 rfl rfl
    | opened hk => exact .same rfl rfl (congrArg Option.isSome hk).symm
    | delivered hk => exact .same rfl rfl (congrArg Option.isSome hk).symm
    | echoed hk _ _ _ hsend =>
      exact .same rfl rfl (hsend.frame.2.2.2.2.trans (congrArg Option.isSome hk).symm)
    | rekey1 hk _ _ _ _ _ _ _ hsend =>
      exact .same rfl rfl (hsend.frame.2.2.2.2.trans (congrArg Option.isSome hk).symm)
    | aborted hk => exact .same rfl rfl (congrArg Option.isSome hk).symm
    | rekeyed hk => exact .same rfl rfl (congrArg Option.isSome hk).symm

theorem lts_step (h : (lts S cfg).step x l x') : ∃ o, x.step cfg l = .ok (x', o) := by
  obtain ⟨⟨y, o⟩, hs, rfl⟩ := Go.map_eq_ok.1 h
  exact ⟨o, hs⟩

end Daemon

/-! ### The registry and the sessions agree -/

namespace Manager

variable {m m' : Manager} {s : Ref} {e : Entry}

/-- Cancelling a session is none of the registry's business. -/
theorem Indexed.cancel (h : m.Indexed) (he : m.heap[s]? = some e) :
    Indexed { m with heap := m.heap.set s { e with cancelled := true } } := by
  refine ⟨?_, ?_, h.used, ?_, ?_, ?_⟩
  · refine h.byIP.congr fun v => congrFun (column_set_of_eq he ?_) v
    rfl
  · refine h.byStatic.congr fun v => congrFun (column_set_of_eq he ?_) v
    rfl
  · intro s' e' he' hip
    obtain ⟨-, rfl⟩ | ⟨-, he'⟩ := getElem?_set_cases he'
    · exact h.named s e he hip
    · exact h.named s' e' he' hip
  · intro s' e' he' ht
    obtain ⟨-, rfl⟩ | ⟨-, he'⟩ := getElem?_set_cases he'
    · exact h.bumped s e he ht
    · exact h.bumped s' e' he' ht
  · have hcount := countP_set_of_removed he { e with cancelled := true } rfl
    exact h.sessions.trans (congrArg _ hcount.symm)

/-- Storing a key a second time changes nothing. -/
theorem identify_self (he : m.heap[s]? = some e) {key : Bytes} (hk : e.clientKey = some key) :
    m.identify s e key = m := by
  have hsame : { e with clientKey := some key } = e := by rw [← hk]
  obtain ⟨hs, rfl⟩ := List.getElem?_eq_some_iff.1 he
  rw [identify, hsame, List.set_getElem_self]

/-- A successful `adopt` does not depend on what the list of sessions says about the session
itself. -/
theorem adopt_identify {key : Bytes} {ip : Byte4}
    (h : m.adopt s { e with clientKey := some key } = .ok (m', some ip)) :
    (m.identify s e key).adopt s { e with clientKey := some key } = .ok (m', some ip) := by
  have hp : (m.identify s e key).predecessor s { e with clientKey := some key } =
      m.predecessor s { e with clientKey := some key } := rfl
  unfold adopt at h ⊢
  rw [hp]
  cases hpre : m.predecessor s { e with clientKey := some key } with
  | none =>
    rw [hpre] at h
    obtain ⟨r, hr, h⟩ := Go.bind_eq_ok.1 h
    refine Go.bind_eq_ok.2 ⟨r, hr, ?_⟩
    cases r with
    | none => cases h
    | some r =>
      cases h
      simp only [identify, enter, List.set_set, Go.pure_eq_ok]
  | some old =>
    rw [hpre] at h
    have hne : s ≠ old := by
      rintro rfl
      exact absurd (Option.filter_eq_some_iff.1 hpre).2 (by simp)
    have hold : (m.identify s e key).heap[old]? = m.heap[old]? := List.getElem?_set_ne hne
    dsimp only at h ⊢
    rw [hold]
    split at h
    · cases h
    · next o ho =>
      split at h
      · cases h
      · next k hk =>
        cases h
        simp only [hk, identify, bump, enter, List.set_comm _ _ hne, List.set_set,
          Go.pure_eq_ok]

/-- What a successful `adopt` leaves: the session has its address, and of the others only flags
change. -/
theorem adopt_heap (he : m.heap[s]? = some e) {ip : Byte4} {e' : Entry}
    (ha : m.adopt s e' = .ok (m', some ip)) :
    m'.heap[s]? = some { e' with ip := some ip } ∧ m'.heap.length = m.heap.length ∧
    ∀ r c, r ≠ s → m'.heap[r]? = some c → ∃ c₀, m.heap[r]? = some c₀ ∧
      c.clientKey = c₀.clientKey ∧ c.ip = c₀.ip ∧ c.removed = c₀.removed := by
  obtain ⟨hs, -⟩ := List.getElem?_eq_some_iff.1 he
  obtain ⟨hn, -⟩ | ⟨k, hn, -, -, rfl⟩ | ⟨k, old, o, hn, hp, ho, -, rfl⟩ := adopt_cases ha
  · cases hn
  · cases hn
    refine ⟨List.getElem?_set_self hs, List.length_set, fun r c hr hc => ?_⟩
    obtain ⟨rfl, -⟩ | ⟨-, hc⟩ := getElem?_set_cases hc
    · exact absurd rfl hr
    · exact ⟨c, hc, rfl, rfl, rfl⟩
  · cases hn
    refine ⟨List.getElem?_set_self (by simpa [bump] using hs), by simp [enter, bump],
      fun r c hr hc => ?_⟩
    obtain ⟨rfl, -⟩ | ⟨-, hc⟩ := getElem?_set_cases hc
    · exact absurd rfl hr
    · obtain ⟨rfl, rfl⟩ | ⟨-, hc⟩ := getElem?_set_cases hc
      · exact ⟨o, ho, rfl, rfl, rfl⟩
      · exact ⟨c, hc, rfl, rfl, rfl⟩

end Manager

namespace Daemon

/-- The registry's fields of a session are what the session itself believes. -/
structure Agrees (e : Entry) (p : Proc S) : Prop where
  clientKey : p.session.clientKey = e.clientKey
  ip : p.session.ip = e.ip
  keys : p.session.keys.isSome = e.ip.isSome
  running : e.removed = true → p.running = false
  closed : p.closed = true → e.removed = true

/-- A session whose run loop has not returned is not removed. -/
theorem Agrees.not_removed {e : Entry} {p : Proc S} (h : Agrees e p) (hrun : p.running = true) :
    e.removed = false :=
  Bool.eq_false_iff.2 fun hr => by simp [h.running hr] at hrun

/-- The registry is consistent and agrees with the sessions. -/
structure Coherent (x : Daemon S) : Prop where
  indexed : x.reg.mgr.Indexed
  length : x.procs.length = x.reg.mgr.heap.length
  agree : ∀ (s : Ref) (e : Entry) (p : Proc S), x.reg.mgr.heap[s]? = some e →
    x.procs[s]? = some p → Agrees e p

variable {cfg : ServerConfig} {x x' : Daemon S} {l : Label S} {o : Out S}

theorem Coherent.start {subnet : Option IPNet} {maxSessions : ℤ} {m : Manager}
    (h : Manager.new subnet maxSessions = .ok m) : Coherent (start S m) := by
  refine ⟨.new h, ?_, fun s e p he hp => ?_⟩
  · obtain ⟨n, -, -, rfl⟩ := Manager.new_eq_ok h
    rfl
  · cases hp

/-- A change of a process that is none of the registry's business. -/
theorem Coherent.set (h : Coherent x) {s : Ref} {p p' : Proc S} (hp : x.procs[s]? = some p)
    (ha : ∀ e, x.reg.mgr.heap[s]? = some e → Agrees e p → Agrees e p') :
    Coherent { x with procs := x.procs.set s p' } := by
  refine ⟨h.indexed, by simpa using h.length, fun r e q he hq => ?_⟩
  obtain ⟨rfl, rfl⟩ | ⟨-, hq⟩ := getElem?_set_cases hq
  · exact ha e he (h.agree r e p he hp)
  · exact h.agree r e q he hq

/-- What the registry does in an iteration of the run loop of the session `s`. -/
inductive Follows (x : Daemon S) (s : Ref) (e : Entry) (p : Proc S) (session : ServerSession S)
    (running : Bool) (reg : Registry) : Prop where
  /-- Nothing. -/
  | same : reg = x.reg → session.clientKey = p.session.clientKey → session.ip = p.session.ip →
      session.keys.isSome = p.session.keys.isSome → Follows x s e p session running reg
  /-- It learns the key of a client that is turned away. -/
  | refused {key : Bytes} : reg = { x.reg with mgr := x.reg.mgr.identify s e key } → e.ip = none →
      session.clientKey = some key → session.ip = none → session.keys = none → running = false →
      Follows x s e p session running reg
  /-- It adopts the session. -/
  | admitted {key : Bytes} {ip : Byte4} {m : Manager} : reg = { x.reg with mgr := m } →
      e.ip = none → e.removed = false →
      x.reg.mgr.adopt s { e with clientKey := some key } = .ok (m, some ip) →
      session.clientKey = some key → session.ip = some ip → session.keys.isSome = true →
      Follows x s e p session running reg

theorem foldlM_nil_inv {reg reg' : Registry}
    (h : ([] : List Registry.Label).foldlM Registry.step reg = .ok reg') : reg' = reg := by
  cases h
  rfl

theorem foldlM_cons_inv {reg reg' : Registry} {a : Registry.Label} {as : List Registry.Label}
    (h : (a :: as).foldlM Registry.step reg = .ok reg') :
    ∃ r, Registry.Step reg a r ∧ as.foldlM Registry.step r = .ok reg' := by
  rw [List.foldlM_cons] at h
  obtain ⟨r, hr, h⟩ := Go.bind_eq_ok.1 h
  exact ⟨r, Registry.step_cases hr, h⟩

/-- The registry learns the key of the session `s`, unless it knows it already. -/
theorem identify_inv {s : Ref} {e : Entry} (he : x.reg.mgr.heap[s]? = some e) {a : Option Bytes}
    {key : Bytes} (ha : a = e.clientKey) {rest : List Registry.Label} {reg : Registry}
    (h : ((if a = some key then [] else [Registry.Label.identify s key]) ++ rest).foldlM
      Registry.step x.reg = .ok reg) :
    rest.foldlM Registry.step { x.reg with mgr := x.reg.mgr.identify s e key } = .ok reg := by
  split_ifs at h with hk
  · rw [Manager.identify_self he (ha ▸ hk)]
    exact h
  · obtain ⟨r, hst, h⟩ := foldlM_cons_inv h
    cases hst with
    | identify he' _ _ =>
      cases he.symm.trans he'
      exact h

theorem follows {s : Ref} {e : Entry} {p : Proc S} {env : ServerEnv S}
    {session : ServerSession S} {running : Bool} {reg : Registry}
    (he : x.reg.mgr.heap[s]? = some e) (ha : Agrees e p)
    (hid : Identified { env with adopt := answer x.reg.mgr s e } p.session session running)
    (h : (sections s p.session session).foldlM Registry.step x.reg = .ok reg) :
    Follows x s e p session running reg := by
  have hkeys : p.session.keys = none → e.ip = none := fun hk => by
    have := ha.keys
    rw [hk] at this
    simpa using this.symm
  obtain ⟨hs, -⟩ := List.getElem?_eq_some_iff.1 he
  cases hid with
  | same hkey hip hk =>
    have hnone : sections s p.session session = [] := by
      unfold sections
      rw [hkey, hip]
      cases hc : p.session.clientKey with
      | none => simp
      | some key => simp
    rw [hnone] at h
    exact .same (foldlM_nil_inv h) hkey hip hk
  | @refused key hk hk' hkey hip hrun =>
    have heip := hkeys hk
    unfold sections at h
    rw [hkey, hip, ha.ip, heip] at h
    have h := identify_inv he ha.clientKey h
    simp only [Option.isSome_none, Bool.false_eq_true, and_false, if_false] at h
    exact .refused (foldlM_nil_inv h) heip hkey (hip.trans (ha.ip.trans heip)) hk' hrun
  | @admitted key ip hk hadopt hk' hkey hip =>
    have heip := hkeys hk
    unfold sections at h
    rw [hkey, hip, ha.ip, heip] at h
    have h := identify_inv he ha.clientKey h
    simp only [Option.isSome_some, and_self, if_true] at h
    obtain ⟨r, hst, h⟩ := foldlM_cons_inv h
    cases foldlM_nil_inv h
    -- the registry's answer was that of the adoption that now happens
    obtain ⟨m, hm⟩ : ∃ m,
        x.reg.mgr.adopt s { e with clientKey := some key } = .ok (m, some ip) := by
      obtain ⟨⟨m, ip'⟩, hm, hip'⟩ := Go.bind_eq_ok.1 hadopt
      cases hip'
      exact ⟨m, hm⟩
    cases hst with
    | @adopt _ e' m' ip' he' _ _ hr ha' =>
      have hset : (x.reg.mgr.identify s e key).heap[s]? = some { e with clientKey := some key } :=
        List.getElem?_set_self hs
      cases hset.symm.trans he'
      cases (Manager.adopt_identify hm).symm.trans ha'
      exact .admitted rfl heip hr hm hkey hip hk'

/-- An iteration of a run loop keeps the registry and the sessions in agreement. -/
theorem Coherent.wake (h : Coherent x) {s : Ref} {e : Entry} {p p' : Proc S}
    {session : ServerSession S} {running : Bool} {reg : Registry}
    (he : x.reg.mgr.heap[s]? = some e) (hp : x.procs[s]? = some p) (hrun : p.running = true)
    (hp' : p'.closed = p.closed) (hf : Follows x s e p session running reg) :
    Coherent { x with reg, procs := x.procs.set s { p' with session, running } } := by
  have ha := h.agree s e p he hp
  have hrem := ha.not_removed hrun
  -- a session whose run loop has not returned is not removed, let alone closed
  have hopen : p'.closed = true → False := fun hc => by
    rw [ha.closed (hp' ▸ hc)] at hrem
    cases hrem
  have hlen : ∀ {m : Manager}, m.heap.length = x.reg.mgr.heap.length →
      (x.procs.set s { p' with session, running }).length = m.heap.length := by
    intro m hm
    rw [List.length_set, hm, h.length]
  cases hf with
  | same hreg hkey hip hk =>
    subst hreg
    refine ⟨h.indexed, hlen rfl, fun r c q hc hq => ?_⟩
    obtain ⟨rfl, rfl⟩ | ⟨-, hq⟩ := getElem?_set_cases hq
    · cases he.symm.trans hc
      exact ⟨hkey.trans ha.clientKey, hip.trans ha.ip, hk.trans ha.keys,
        fun hr => absurd hr (by simp [hrem]), fun hc => (hopen hc).elim⟩
    · exact h.agree r c q hc hq
  | @refused key hreg heip hkey hip hk hstop =>
    subst hreg
    refine ⟨h.indexed.identify he heip key, hlen List.length_set, fun r c q hc hq => ?_⟩
    obtain ⟨rfl, rfl⟩ | ⟨hne, hq⟩ := getElem?_set_cases hq
    · obtain ⟨-, rfl⟩ | ⟨hne, -⟩ := getElem?_set_cases hc
      · exact ⟨hkey, hip.trans heip.symm, by simp [hk, heip], fun _ => hstop,
          fun hc => (hopen hc).elim⟩
      · exact absurd rfl hne
    · obtain ⟨rfl, -⟩ | ⟨-, hc⟩ := getElem?_set_cases hc
      · exact absurd rfl hne
      · exact h.agree r c q hc hq
  | @admitted key ip m hreg heip _ hadopt hkey hip hk =>
    subst hreg
    have hidx : m.Indexed := by
      obtain ⟨hs, -⟩ := List.getElem?_eq_some_iff.1 he
      exact (h.indexed.identify he heip key).adopt (List.getElem?_set_self hs)
        ⟨heip, hrem, rfl⟩ (Manager.adopt_identify hadopt)
    -- `adopt` may bump another session, but leaves its key and address alone
    obtain ⟨hself, hl, hothers⟩ := Manager.adopt_heap he hadopt
    refine ⟨hidx, hlen hl, fun r c q hc hq => ?_⟩
    obtain ⟨rfl, rfl⟩ | ⟨hne, hq⟩ := getElem?_set_cases hq
    · cases hself.symm.trans hc
      exact ⟨hkey, hip, by rw [hk]; rfl, fun hr => absurd hr (by simp [hrem]),
        fun hc => (hopen hc).elim⟩
    · obtain ⟨c₀, hc₀, h₁, h₂, h₃⟩ := hothers r c hne hc
      have hag := h.agree r c₀ q hc₀ hq
      exact ⟨hag.clientKey.trans h₁.symm, hag.ip.trans h₂.symm, by rw [hag.keys, h₂],
        fun hr => hag.running (h₃ ▸ hr), fun hc => h₃.trans (hag.closed hc)⟩

theorem sendCloseQuiet_identity {env : ServerEnv S} {s s' : ServerSession S}
    (h : s.sendCloseQuiet cfg env = .ok (s', o)) :
    s'.clientKey = s.clientKey ∧ s'.ip = s.ip ∧ s'.keys.isSome = s.keys.isSome := by
  obtain ⟨rfl, -⟩ | ⟨ep, fs, sent, -, hsend, rfl, -⟩ := ServerSession.sendCloseQuiet_spec h
  · exact ⟨rfl, rfl, rfl⟩
  · exact ⟨rfl, rfl, hsend.frame.2.2.2.2⟩

/-- **Every step of the server keeps the registry consistent and in agreement with the
sessions.** -/
theorem Moves.coherent (hm : Moves cfg x l (x', o)) (h : Coherent x) : Coherent x' := by
  cases hm with
  | check hst =>
    have hidx := hst.indexed h.indexed
    cases hst with
    | reject => exact ⟨hidx, h.length, h.agree⟩
    | alloc _ ha =>
      obtain ⟨r, -, heq⟩ := Option.map_eq_some_iff.1 ha
      cases heq
      exact ⟨hidx, h.length, h.agree⟩
  | @insert i peerIP now c reg hc hst =>
    have hidx := hst.indexed h.indexed
    cases hst with
    | insert hc' =>
      cases hc.symm.trans hc'
      refine ⟨hidx, by simp [Manager.handleTransportInsert, h.length], fun r e p he hp => ?_⟩
      -- the new session has the last position in both lists
      have hlen := h.length
      obtain he | ⟨hr, rfl⟩ := getElem?_snoc_cases he
      · obtain hp | ⟨hr, -⟩ := getElem?_snoc_cases hp
        · exact h.agree r e p he hp
        · obtain ⟨hlt, -⟩ := List.getElem?_eq_some_iff.1 he
          omega
      · obtain hp | ⟨-, rfl⟩ := getElem?_snoc_cases hp
        · obtain ⟨hlt, -⟩ := List.getElem?_eq_some_iff.1 hp
          omega
        · exact ⟨rfl, rfl, rfl, (absurd · Bool.false_ne_true), (absurd · Bool.false_ne_true)⟩
  | receive hp _ =>
    exact h.set hp fun _ _ ha => ⟨ha.clientKey, ha.ip, ha.keys, ha.running, ha.closed⟩
  | @cancel s e he =>
    refine ⟨h.indexed.cancel he, by simpa [Daemon.cancel] using h.length, fun r c p hc hp => ?_⟩
    obtain ⟨rfl, rfl⟩ | ⟨-, hc⟩ := getElem?_set_cases hc
    · have ha := h.agree r e p he hp
      exact ⟨ha.clientKey, ha.ip, ha.keys, ha.running, ha.closed⟩
    · exact h.agree r c p hc hp
  | take hp _ ht =>
    refine h.set hp fun _ _ ha => ?_
    cases ht <;> exact ⟨ha.clientKey, ha.ip, ha.keys, ha.running, ha.closed⟩
  | @wake s env w e p p' ev session o running reg he hp hrun hnext hloop hfold =>
    have hf := follows he (h.agree s e p he hp) (loop_identified hloop) hfold
    exact h.wake he hp hrun (by rw [hnext.eq]) hf
  | @finish s p reg hp hrun hst =>
    have hidx := hst.indexed h.indexed
    cases hst with
    | @remove _ e he _ =>
      refine ⟨hidx, by simp [Manager.remove, h.length], fun r c q hc hq => ?_⟩
      obtain ⟨rfl, rfl⟩ | ⟨-, hc⟩ := getElem?_set_cases hc
      · cases hp.symm.trans hq
        have ha := h.agree r e p he hp
        exact ⟨ha.clientKey, ha.ip, ha.keys, fun _ => hrun, fun _ => rfl⟩
      · exact h.agree r c q hc hq
  | close he hp hrem _ hq =>
    obtain ⟨h₁, h₂, h₃⟩ := sendCloseQuiet_identity hq
    refine h.set hp fun _ he' ha => ?_
    cases he.symm.trans he'
    exact ⟨h₁.trans ha.clientKey, h₂.trans ha.ip, h₃.trans ha.keys, ha.running, fun _ => hrem⟩
  | unrouted =>
    have hi := h.indexed
    exact ⟨⟨hi.byIP, hi.byStatic, hi.used, hi.named, hi.bumped, hi.sessions⟩, h.length, h.agree⟩
  | lookup => exact ⟨h.indexed, h.length, h.agree⟩
  | lost =>
    have hi := h.indexed
    exact ⟨⟨hi.byIP, hi.byStatic, hi.used, hi.named, hi.bumped, hi.sessions⟩, h.length, h.agree⟩
  | @reply v r s p _ _ hp _ =>
    have hset : Coherent { x with
        procs := x.procs.set s { p with replyCh := p.replyCh ++ [r] } } :=
      h.set hp fun _ _ ha => ⟨ha.clientKey, ha.ip, ha.keys, ha.running, ha.closed⟩
    exact ⟨hset.indexed, hset.length, hset.agree⟩

end Daemon

end VibeVpn

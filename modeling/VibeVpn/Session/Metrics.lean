import VibeVpn.LTS.Runs
import VibeVpn.Session.Accounts
import VibeVpn.Session.Downlink

/-!
# The server's metrics

What the server reports: the sessions there are and were, the handshakes, what was dropped, and the
traffic, which `Manager` counts a second time, over all sessions, next to each `Send` and
`WritePacket` that succeeds.  The counters of traffic wrap around at 2^64, as `atomic.Uint64` does;
those of a session and those in `Stats`, which are compared with the number of things they count,
are left to grow.  The equations hold between the iterations of the run loops.

* `Monitored.Sound` : what the counters mean, in terms of the sessions;
* `Monitored.metrics_sound` : **in every run the counters mean this**, and every transport and every
  packet that has come in is accounted for: it was dropped and counted, or it is with a session, or
  on its way there.
-/

namespace VibeVpn

variable {S : Suite}

/-- The counters that `Manager.Traffic` returns. -/
structure Volume where
  /-- `txPackets`. -/
  txPackets : UInt64 := 0
  /-- `txBytes`. -/
  txBytes : UInt64 := 0
  /-- `rxPackets`. -/
  rxPackets : UInt64 := 0
  /-- `rxBytes`. -/
  rxBytes : UInt64 := 0
  deriving DecidableEq, Repr

namespace Volume

/-- The end of `encryptSend`: when `Send` returned `nil`, `txPackets.Add(1)` and
`txBytes.Add(uint64(len(wire)))`. -/
def encryptSend (v : Volume) (f : Sealed S × Bool) : Volume :=
  if f.2 then
    { v with txPackets := v.txPackets + 1, txBytes := v.txBytes + .ofNat f.1.wire.length }
  else v

/-- The end of `handleData`: when `WritePacket` returned `nil`, `rxPackets.Add(1)` and
`rxBytes.Add(uint64(len(pt)))`. -/
def handleData (v : Volume) (p : Bytes × Bool) : Volume :=
  if p.2 then { v with rxPackets := v.rxPackets + 1, rxBytes := v.rxBytes + .ofNat p.1.length }
  else v

/-- The counters after a step of a session, which has made these calls of `Send` and
`WritePacket`. -/
def add (v : Volume) (o : Out S) : Volume := o.tun.foldl handleData (o.frames.foldl encryptSend v)

/-- What the counters of sessions amount to, modulo 2^64. -/
def of (f : Counter → ℕ) : Volume where
  txPackets := .ofNat (f .packetsSent)
  txBytes := .ofNat (f .bytesSent)
  rxPackets := .ofNat (f .packetsReceived)
  rxBytes := .ofNat (f .bytesReceived)

theorem of_encryptSend (f : Counter → ℕ) (p : Sealed S × Bool) :
    (of f).encryptSend p = of (f + frameCount p) := by
  unfold encryptSend frameCount
  split_ifs
  · simp [of, UInt64.ofNat_add, sizeClass_ne]
  · rw [add_zero]

theorem of_handleData (f : Counter → ℕ) (p : Bytes × Bool) :
    (of f).handleData p = of (f + packetCount p) := by
  unfold handleData packetCount
  split_ifs
  · simp [of, UInt64.ofNat_add, sizeClass_ne]
  · rw [add_zero]

theorem foldl_encryptSend (fs : List (Sealed S × Bool)) (f : Counter → ℕ) :
    fs.foldl encryptSend (of f) = of (f + (fs.map frameCount).sum) := by
  induction fs generalizing f with
  | nil => rw [List.map_nil, List.sum_nil, add_zero]; rfl
  | cons p fs ih =>
    rw [List.foldl_cons, of_encryptSend, ih, List.map_cons, List.sum_cons, add_assoc]

theorem foldl_handleData (ps : List (Bytes × Bool)) (f : Counter → ℕ) :
    ps.foldl handleData (of f) = of (f + (ps.map packetCount).sum) := by
  induction ps generalizing f with
  | nil => rw [List.map_nil, List.sum_nil, add_zero]; rfl
  | cons p ps ih =>
    rw [List.foldl_cons, of_handleData, ih, List.map_cons, List.sum_cons, add_assoc]

/-- The server counts what the sessions count. -/
theorem of_add (f : Counter → ℕ) (o : Out S) : (of f).add o = of (f + o.count) := by
  rw [add, foldl_encryptSend, foldl_handleData, Out.count, add_assoc]

end Volume

theorem Manager.adopt_stats {m m' : Manager} {s : Ref} {e : Entry} {ip : Byte4}
    (h : m.adopt s e = .ok (m', some ip)) :
    m'.stats = { m.stats with handshakes := m.stats.handshakes + 1 } := by
  obtain ⟨hn, -⟩ | ⟨k, -, -, -, rfl⟩ | ⟨k, old, o, -, -, -, -, rfl⟩ := Manager.adopt_cases h
  · cases hn
  · rfl
  · rfl

namespace Daemon

/-- A counter of all sessions together. -/
def counters (x : Daemon S) (c : Counter) : ℕ :=
  (x.procs.map fun p => p.session.stats.counter c).sum

/-- The number of sessions with keys. -/
def established (x : Daemon S) : ℕ :=
  (x.procs.map fun p => if p.session.keys.isSome then 1 else 0).sum

/-- The packets that the sessions have been given and have not dealt with. -/
def queued (x : Daemon S) : ℕ := (x.procs.map fun p => p.packets.length).sum

/-- What has come in and is accounted for: transports that were dropped, are on their way or became
sessions, and packets that were dropped, or that `TunLoop` or a session holds. -/
def accounted (x : Daemon S) : ℕ :=
  x.reg.mgr.stats.dropped + x.reg.calls.length + x.procs.length + x.tunLoop.toList.length +
    x.queued

/-- The transports and packets that come in. -/
def Label.came : Label S → ℕ
  | .check => 1
  | .lookup _ => 1
  | _ => 0

/-- The packets that a run loop deals with. -/
def Label.taken : Label S → ℕ
  | .wake _ _ .reply => 1
  | _ => 0

variable {cfg : ServerConfig} {x x' : Daemon S} {l : Label S} {o : Out S}

/-- A session puts out what its counters say. -/
theorem counters_set (reg : Registry) {s : Ref} {p q : Proc S} (hp : x.procs[s]? = some p)
    (hb : Books p.session.stats q.session.stats o) :
    counters { x with reg, procs := x.procs.set s q } = x.counters + o.count := by
  funext c
  have hsum := sum_map_set (fun p => p.session.stats.counter c) hp q
  have hc := congrFun hb.count c
  simp only [counters, Pi.add_apply] at hsum hc ⊢
  omega

/-- **Every step puts out what the counters of the sessions say.** -/
theorem Moves.counters (hm : Moves cfg x l (x', o)) : x'.counters = x.counters + o.count := by
  cases hm with
  | check => rfl
  | insert =>
    funext c
    have hnew : ∀ id peerIP now, (ServerSession.new S id peerIP now).stats.counter c = 0 := by
      intros
      cases c <;> rfl
    simp [Daemon.counters, hnew]
  | @receive s data p hp => exact counters_set x.reg hp (.refl _)
  | cancel => rfl
  | @take s w p p' hp _ ht => exact counters_set x.reg hp (ht.session_eq ▸ .refl _)
  | @wake s env w e p p' ev session o running reg he hp hrun hnext hloop hreg =>
    exact counters_set _ hp (ServerSession.loop_books hloop)
  | finish => rfl
  | close _ hp _ _ hq => exact counters_set _ hp (ServerSession.sendCloseQuiet_books hq)
  | unrouted => rfl
  | lookup => rfl
  | lost => rfl
  | @reply v r s p _ _ hp => exact counters_set x.reg hp (.refl _)

/-- A change of a process that keeps it established or not. -/
theorem established_set (reg : Registry) {s : Ref} {p q : Proc S} (hp : x.procs[s]? = some p)
    (hk : q.session.keys.isSome = p.session.keys.isSome) :
    established { x with reg, procs := x.procs.set s q } = x.established := by
  have hsum := sum_map_set (fun p => if p.session.keys.isSome then 1 else 0) hp q
  simp only [established, hk] at hsum ⊢
  omega

/-- What an iteration of a run loop does to the counters of the manager. -/
theorem Follows.stats {s : Ref} {e : Entry} {p q : Proc S} {session : ServerSession S}
    {running : Bool} {reg : Registry} (hf : Follows x s e p session running reg)
    (ha : Agrees e p) (hp : x.procs[s]? = some p) (hq : q.session = session) :
    reg.calls = x.reg.calls ∧ ∃ n, reg.mgr.stats =
        { x.reg.mgr.stats with handshakes := x.reg.mgr.stats.handshakes + n } ∧
      established { x with reg, procs := x.procs.set s q } = x.established + n := by
  subst hq
  have hnone : e.ip = none → p.session.keys.isSome = false := fun hip => by
    rw [ha.keys, hip]
    rfl
  cases hf with
  | same hreg _ _ hk =>
    subst hreg
    exact ⟨rfl, 0, rfl, established_set _ hp hk⟩
  | refused hreg hip _ _ hk =>
    subst hreg
    exact ⟨rfl, 0, rfl, established_set _ hp (by rw [hnone hip, hk]; rfl)⟩
  | admitted hreg hip _ hadopt _ _ hk =>
    subst hreg
    refine ⟨rfl, 1, Manager.adopt_stats hadopt, ?_⟩
    have hsum := sum_map_set (fun p => if p.session.keys.isSome then 1 else 0) hp q
    simp only [established, hk, hnone hip, if_true, Bool.false_eq_true, if_false] at hsum ⊢
    omega

/-- A change of a process that leaves its packets alone. -/
theorem queued_set (reg : Registry) {s : Ref} {p q : Proc S} (hp : x.procs[s]? = some p)
    (n : ℕ) (hq : q.packets.length + n = p.packets.length) :
    queued { x with reg, procs := x.procs.set s q } + n = x.queued := by
  have hsum := sum_map_set (fun p => p.packets.length) hp q
  simp only [queued] at hsum ⊢
  omega

theorem next_waiting {p p' : Proc S} {w : Wake} {ev : ServerSession.Event} (h : p.Next w ev p') :
    p'.packets.length + (if w = .reply then 1 else 0) = p.packets.length := by
  obtain ⟨heq, hw⟩ | ⟨r, rfl, heq⟩ := h.packets_cases
  · rw [heq, if_neg hw, add_zero]
  · rw [heq, if_pos rfl, List.length_cons]

/-- What a step does to the counters of the manager. -/
structure Tally (x : Daemon S) (l : Label S) (x' : Daemon S) : Prop where
  total : x'.reg.mgr.stats.sessionsTotal + x.procs.length =
    x.reg.mgr.stats.sessionsTotal + x'.procs.length
  handshakes : x'.reg.mgr.stats.handshakes + x.established =
    x.reg.mgr.stats.handshakes + x'.established
  accounted : x'.accounted + l.taken = x.accounted + l.came

/-- A change of a process that concerns no counter. -/
theorem Tally.set {s : Ref} {p q : Proc S} (hp : x.procs[s]? = some p)
    (hq : q.packets.length = p.packets.length)
    (hk : q.session.keys.isSome = p.session.keys.isSome) (hl : l.taken = l.came) :
    Tally x l { x with procs := x.procs.set s q } := by
  have hqueued := queued_set x.reg hp 0 hq
  refine ⟨by simp, congrArg _ (established_set x.reg hp hk).symm, ?_⟩
  simp only [Daemon.accounted, List.length_set]
  omega

/-- **Every step that changes a counter of the manager does what the counter is for.** -/
theorem Moves.tally (hm : Moves cfg x l (x', o)) (hc : Coherent x) : Tally x l x' := by
  cases hm with
  | check hst =>
    cases hst with
    | reject =>
      refine ⟨rfl, rfl, ?_⟩
      simp only [accounted, queued, Manager.drop, Label.taken, Label.came]
      omega
    | alloc _ ha =>
      obtain ⟨r, -, heq⟩ := Option.map_eq_some_iff.1 ha
      cases heq
      refine ⟨rfl, rfl, ?_⟩
      simp only [accounted, queued, Label.taken, Label.came, List.length_append,
        List.length_singleton]
      omega
  | @insert i peerIP now c reg hi hst =>
    cases hst with
    | insert hi' =>
      cases hi.symm.trans hi'
      -- one pending call less, one session more
      obtain ⟨hlt, -⟩ := List.getElem?_eq_some_iff.1 hi
      have herase := List.length_eraseIdx_add_one hlt
      refine ⟨?_, ?_, ?_⟩
      · simp only [Manager.handleTransportInsert, List.length_append, List.length_singleton]
        omega
      · simp [established, Manager.handleTransportInsert, ServerSession.new]
      · simp only [accounted, queued, Manager.handleTransportInsert, Label.taken, Label.came,
          List.length_append, List.length_singleton, List.map_append, List.map_singleton,
          List.sum_append, List.sum_singleton, Proc.packets, Option.elim_none,
          List.length_nil]
        omega
  | receive hp => exact .set hp rfl rfl rfl
  | cancel => exact ⟨rfl, rfl, rfl⟩
  | take hp _ ht => exact .set hp (congrArg List.length ht.packets_eq) (by rw [ht.session_eq]) rfl
  | @wake s env w e p p' ev session o running reg he hp hrun hnext hloop hreg =>
    have ha := hc.agree s e p he hp
    obtain ⟨hcalls, n, hstats, hest⟩ := (follows he ha (loop_identified hloop) hreg).stats
      (q := { p' with session, running }) ha hp rfl
    have hch := next_waiting hnext
    have hq := queued_set reg (q := { p' with session, running }) hp _ hch
    refine ⟨by simp [hstats], ?_, ?_⟩
    · rw [hest, hstats]
      dsimp only
      omega
    · have htaken : (Label.wake s env w).taken = if w = .reply then 1 else 0 := by
        cases w <;> rfl
      simp only [accounted, hcalls, hstats, htaken, Label.came, List.length_set]
      omega
  | finish _ _ hst =>
    cases hst with
    | remove => exact ⟨rfl, rfl, rfl⟩
  | close _ hp _ _ hclose => exact .set hp rfl (sendCloseQuiet_identity hclose).2.2 rfl
  | unrouted =>
    refine ⟨rfl, rfl, ?_⟩
    simp only [accounted, queued, drop, Manager.drop, Label.taken, Label.came]
    omega
  | lookup ht =>
    refine ⟨rfl, rfl, ?_⟩
    simp only [accounted, queued, Label.taken, Label.came, ht, Option.toList_some,
      Option.toList_none, List.length_nil, List.length_singleton]
    omega
  | lost ht =>
    refine ⟨rfl, rfl, ?_⟩
    simp only [accounted, queued, drop, Manager.drop, Label.taken, Label.came, ht,
      Option.toList_some, Option.toList_none, List.length_nil, List.length_singleton]
    omega
  | @reply v r s p ht _ hp =>
    have hest := established_set x.reg (q := { p with replyCh := p.replyCh ++ [r] }) hp rfl
    refine ⟨by simp, congrArg _ hest.symm, ?_⟩
    have hsum := sum_map_set (fun p => p.packets.length) hp { p with replyCh := p.replyCh ++ [r] }
    simp only [accounted, queued, Label.taken, Label.came, ht, Proc.packets_snoc, List.length_set,
      List.length_append, List.length_singleton, Option.toList_some, Option.toList_none,
      List.length_nil] at hsum ⊢
    omega

end Daemon

/-- The server with its counters of traffic. -/
structure Monitored (S : Suite) where
  /-- The server. -/
  daemon : Daemon S
  /-- The counters. -/
  volume : Volume

namespace Monitored

open Daemon (Label)

/-- The server before its first client. -/
def start (S : Suite) (m : Manager) : Monitored S where
  daemon := .start S m
  volume := {}

/-- One step. -/
def step (cfg : ServerConfig) (x : Monitored S) (l : Label S) :
    Except (Option Panic) (Monitored S) :=
  (x.daemon.step cfg l).map fun r => { daemon := r.1, volume := x.volume.add r.2 }

/-- The server in every interleaving. -/
def lts (S : Suite) (cfg : ServerConfig) : LTS (Monitored S) (Label S) := LTS.ofExcept (step cfg)

/-- **What the counters mean.** -/
structure Sound (x : Monitored S) : Prop where
  /-- `Sessions` is the number of sessions that are not removed. -/
  sessions : x.daemon.reg.mgr.stats.sessions = x.daemon.reg.mgr.heap.countP fun e => !e.removed
  /-- `SessionsTotal` is the number of sessions there ever were. -/
  total : x.daemon.reg.mgr.stats.sessionsTotal = x.daemon.procs.length
  /-- `Handshakes` is the number of those that were established. -/
  handshakes : x.daemon.reg.mgr.stats.handshakes = x.daemon.established
  /-- The traffic of the server is that of its sessions, modulo 2^64. -/
  volume : x.volume = .of x.daemon.counters

variable {cfg : ServerConfig} {x x' : Monitored S} {l : Label S}

theorem step_cases (h : (lts S cfg).step x l x') : ∃ o,
    Daemon.Moves cfg x.daemon l (x'.daemon, o) ∧ x'.volume = x.volume.add o := by
  obtain ⟨⟨y, o⟩, hs, rfl⟩ := Go.map_eq_ok.1 h
  exact ⟨o, Daemon.step_cases hs, rfl⟩

theorem Sound.step (h : Sound x) {o : Out S} (hc : x.daemon.Coherent)
    (hm : Daemon.Moves cfg x.daemon l (x'.daemon, o)) (hv : x'.volume = x.volume.add o) :
    Sound x' := by
  have ht := hm.tally hc
  refine ⟨(hm.coherent hc).indexed.sessions, ?_, ?_, ?_⟩
  · have := ht.total
    have := h.total
    omega
  · have := ht.handshakes
    have := h.handshakes
    omega
  · rw [hv, h.volume, Volume.of_add, hm.counters]

/-- **The metrics are sound.**  In every run of the server, whatever the clients, the network and
the TUN do, the counters mean what they say, and every transport and packet that came in is
accounted for: dropped and counted, or held, or taken by a run loop. -/
theorem metrics_sound {subnet : Option IPNet} {maxSessions : ℤ} {m : Manager}
    {ls : List (Label S)} (h₀ : Manager.new subnet maxSessions = .ok m)
    (hrun : (lts S cfg).Run (start S m) ls x) :
    Sound x ∧ x.daemon.accounted + (ls.map Label.taken).sum = (ls.map Label.came).sum := by
  obtain ⟨n, -, -, hm⟩ := Manager.new_eq_ok h₀
  have hstart : Sound (start S m) := by
    subst hm
    exact ⟨rfl, rfl, rfl, rfl⟩
  have hzero : (start S m).daemon.accounted = 0 := by
    subst hm
    rfl
  have hstep : ∀ x l x', x.daemon.Coherent ∧ Sound x → (lts S cfg).step x l x' →
      (x'.daemon.Coherent ∧ Sound x') ∧
        x'.daemon.accounted + l.taken = x.daemon.accounted + l.came := by
    rintro x l x' ⟨hc, hs⟩ hst
    obtain ⟨o, hmoves, hv⟩ := step_cases hst
    exact ⟨⟨hmoves.coherent hc, hs.step hc hmoves hv⟩, (hmoves.tally hc).accounted⟩
  obtain ⟨⟨-, hs⟩, hb⟩ := hrun.balance ⟨.start h₀, hstart⟩ hstep
  exact ⟨hs, by rw [hb, hzero, zero_add]⟩

/-- A server for one client: it connects and sends a packet, a second client is turned away, and
`TunLoop` reads a packet that nobody gets and one for the client. -/
theorem metrics_sound_plain : ∃ m ls x, Manager.new (some Registry.smallNet) 1 = .ok m ∧
    (lts plain ServerSession.plainConfig).Run (start plain m) ls x ∧
    (x.daemon.reg.mgr.stats.dropped = 2 ∧ x.daemon.reg.mgr.stats.handshakes = 1 ∧
      x.volume.rxPackets = 1) ∧
    Sound x ∧ x.daemon.accounted + (ls.map Label.taken).sum = (ls.map Label.came).sum := by
  have hm : Manager.new (some Registry.smallNet) 1 = .ok (.init Registry.smallNet 1) := rfl
  obtain ⟨x, hrun, hp⟩ := LTS.exists_run_of_any (f := step ServerSession.plainConfig)
    (start plain (.init Registry.smallNet 1))
    (Daemon.plainJoin 0 42 ++ [.receive 0 Daemon.plainUplink, .take 0 .recv,
      Daemon.plainRecv 0, .check, .lookup Daemon.plainPacket, .lookup Daemon.plainReply, .reply])
    (fun (x : Monitored plain) => x.daemon.reg.mgr.stats.dropped == 2 &&
      (x.daemon.reg.mgr.stats.handshakes == 1 && x.volume.rxPackets == 1)) (by decide +kernel)
  simp only [Bool.and_eq_true, beq_iff_eq] at hp
  exact ⟨_, _, x, hm, hrun, hp, metrics_sound hm hrun⟩

end Monitored

end VibeVpn

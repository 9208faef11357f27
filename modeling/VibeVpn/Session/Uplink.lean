import VibeVpn.Session.Daemon
import VibeVpn.Session.ServerRun

/-!
# Who may send from an address

`handleData` lets a packet pass to the TUN when its source is the session's own `ip`.  That field
is never taken back: a session that a reconnect has bumped keeps it, and its run loop goes on with
the datagram it has taken, and with those already in `recvCh`, until it notices that it was
cancelled.  When the newer session has ended meanwhile, the address may belong to another client.

* `Daemon.uplink_owned` : in every run, **a session that has not been bumped at the moment it writes
  a packet to the TUN** writes it for the client registered for the packet's source.
* `Daemon.uplink_stolen` : without the condition, a bumped session injects a packet with an address
  that now belongs to a different client, whether it takes the frame after it was bumped or before.
-/

namespace VibeVpn

namespace Daemon

variable {S : Suite} {cfg : ServerConfig} {x x' : Daemon S} {l : Label S} {o : Out S}

/-- The run loop that takes this step is not that of a bumped session. -/
def Unbumped (x : Daemon S) (l : Label S) : Prop :=
  ∀ s env w e, l = .wake s env w → x.reg.mgr.heap[s]? = some e → e.transferred = false

/-- Only a datagram makes a run loop write to the TUN, and only packets with the session's own
address. -/
theorem loop_tun {env : ServerEnv S} {s s' : ServerSession S} {ev : ServerSession.Event}
    {running : Bool} (h : s.loop cfg env ev = .ok (s', o, running)) {w : Bytes × Bool}
    (hw : w ∈ o.tun) : (∃ data, ev = .recv (some data)) ∧
      ∃ hdr, Header.parse w.1 = .ok (some hdr) ∧ s.ip = some hdr.src := by
  cases ServerSession.loop_spec h with
  | idle => cases hw
  | sent => cases hw
  | timeout => cases hw
  | @recv data s' o err hh =>
    refine ⟨⟨data, rfl⟩, ?_⟩
    cases hh with
    | refused _ _ htun => rw [htun] at hw; cases hw
    | tagged => cases hw
    | answered _ _ _ _ _ _ _ _ htun => rw [htun] at hw; cases hw
    | rejected => cases hw
    | keyed => cases hw
    | opened => cases hw
    | delivered _ _ _ _ hparse hip =>
      rw [List.mem_singleton.1 hw]
      exact ⟨_, hparse, hip⟩
    | echoed => cases hw
    | rekey1 => cases hw
    | aborted => cases hw
    | rekeyed => cases hw

/-- A session that holds its address is the one registered for it. -/
theorem Coherent.registered (h : Coherent x) {s : Ref} {e : Entry} {k : Byte4}
    (he : x.reg.mgr.heap[s]? = some e) (hip : e.ip = some k) (ht : e.transferred = false)
    (hr : e.removed = false) : x.reg.mgr.byIP.lookup k = some s :=
  (h.indexed.byIP k s).2 (column_eq_some.2 ⟨e, he, Entry.heldIP_eq_some.2 ⟨hip, ht, hr⟩⟩)

/-- What a write to the TUN says about its session. -/
theorem Moves.tun (hm : Moves cfg x l (x', o)) (h : Coherent x) {w : Bytes × Bool}
    (hw : w ∈ o.tun) : ∃ s env e p hdr, l = .wake s env .recv ∧ x.reg.mgr.heap[s]? = some e ∧
      x.procs[s]? = some p ∧ e.removed = false ∧ Header.parse w.1 = .ok (some hdr) ∧
      e.ip = some hdr.src := by
  cases hm with
  | check => cases hw
  | insert => cases hw
  | receive => cases hw
  | cancel => cases hw
  | unrouted => cases hw
  | lookup => cases hw
  | lost => cases hw
  | reply => cases hw
  | take => cases hw
  | finish => cases hw
  | close _ _ _ _ hq =>
    obtain ⟨-, rfl⟩ | ⟨ep, fs, sent, -, -, -, rfl⟩ := ServerSession.sendCloseQuiet_spec hq
    · cases hw
    · cases hw
  | @wake s env v e p p' ev session _ running reg he hp hrun hnext hloop =>
    obtain ⟨⟨data, rfl⟩, hdr, hparse, hip⟩ := loop_tun hloop hw
    cases hnext
    have ha := h.agree s e p he hp
    exact ⟨s, env, e, p, hdr, rfl, he, hp, ha.not_removed hrun, hparse, ha.ip.symm.trans hip⟩

theorem coherent_of_run {subnet : Option IPNet} {maxSessions : ℤ} {m : Manager}
    {ls : List (Label S)} (h₀ : Manager.new subnet maxSessions = .ok m)
    (hx : (lts S cfg).Run (start S m) ls x) : Coherent x := by
  refine hx.reachable.invariant (I := Coherent) (.start h₀) fun x l x' hi hst => ?_
  obtain ⟨o, hst⟩ := lts_step hst
  exact (step_cases hst).coherent hi

/-- **Uplink source addresses.**  In every run of the server, a session that writes a packet to the
TUN, and has not been bumped at that moment, is the one registered for the packet's source address,
or at least one with the same client key; if nobody is registered for the address there is nothing
to compare. -/
theorem uplink_owned {subnet : Option IPNet} {maxSessions : ℤ} {m : Manager} {ls : List (Label S)}
    (h₀ : Manager.new subnet maxSessions = .ok m) (hx : (lts S cfg).Run (start S m) ls x)
    (hl : Unbumped x l) (hst : x.step cfg l = .ok (x', o)) {w : Bytes × Bool} (hw : w ∈ o.tun) :
    ∃ s env p hdr, l = .wake s env .recv ∧ x.procs[s]? = some p ∧
      Header.parse w.1 = .ok (some hdr) ∧
      ∀ r e, x.reg.mgr.byIP.lookup hdr.src = some r → x.reg.mgr.heap[r]? = some e →
        e.clientKey = p.session.clientKey := by
  have hc := coherent_of_run h₀ hx
  obtain ⟨s, env, e, p, hdr, rfl, he, hp, hrem, hparse, hip⟩ := (step_cases hst).tun hc hw
  refine ⟨s, env, p, hdr, rfl, hp, hparse, fun r e' hr he' => ?_⟩
  have hreg := hc.registered he hip (hl s env .recv e rfl he) hrem
  -- the writing session is itself the registered one
  cases hreg.symm.trans hr
  cases he.symm.trans he'
  exact (hc.agree s e p he hp).clientKey.symm

/-! ### Two runs -/

/-- A client connects as the session `s`: `HandleTransport` and the two messages of the handshake,
with the client's static key in the second one. -/
def plainJoin (s : Ref) (key : UInt8) : List (Label plain) :=
  [.check, .insert 0 none 0, .receive s (Plain.message [1, 7] [1, 2, 3, 4]), .take s .recv,
    .wake s (ServerSession.plainEnv 1 9) .recv, .receive s [3, 7, 9, 5, key], .take s .recv,
    .wake s (ServerSession.plainEnv 2 9) .recv]

/-- A packet from 10.77.0.2 to 8.8.8.8. -/
def plainPacket : Bytes :=
  [0x45, 0, 0, 20, 0, 0, 0, 0, 64, 17, 0, 0, 10, 77, 0, 2, 8, 8, 8, 8]

/-- The data frame in which a client that has just connected sends `plainPacket`. -/
def plainUplink : Bytes :=
  List.replicate 12 0 ++ (innerOf ⟨1, 2, 3, 4⟩ msgData 0 plainPacket [] ++ Plain.trailer 5)

/-- The session `s` handles the datagram it has taken. -/
def plainRecv (s : Ref) : Label plain := .wake s (ServerSession.plainEnv 3 9) .recv

/-- The step writes `plainPacket` to the TUN. -/
def writesPacket (x : Daemon plain) (l : Label plain) : Bool :=
  (x.step ServerSession.plainConfig l).toOption.any fun r => r.2.tun == [(plainPacket, true)]

theorem writes_of_test {x : Daemon plain} {l : Label plain} (h : writesPacket x l = true) :
    ∃ x' o, x.step ServerSession.plainConfig l = .ok (x', o) ∧ (plainPacket, true) ∈ o.tun := by
  unfold writesPacket at h
  cases hs : x.step ServerSession.plainConfig l with
  | error => rw [hs] at h; cases h
  | ok r =>
    rw [hs] at h
    have htun : r.2.tun = [(plainPacket, true)] := beq_iff_eq.1 h
    exact ⟨r.1, r.2, rfl, by simp [htun]⟩

/-- A client sends a packet from its own address. -/
theorem uplink_owned_plain : ∃ m ls x x' o, Manager.new (some Registry.smallNet) 4 = .ok m ∧
    (lts plain ServerSession.plainConfig).Run (start plain m) ls x ∧ Unbumped x (plainRecv 0) ∧
    x.step ServerSession.plainConfig (plainRecv 0) = .ok (x', o) ∧
    (plainPacket, true) ∈ o.tun ∧
    ∃ p, x.procs[0]? = some p ∧ ∀ r e, x.reg.mgr.byIP.lookup ⟨10, 77, 0, 2⟩ = some r →
      x.reg.mgr.heap[r]? = some e → e.clientKey = p.session.clientKey := by
  have hm : Manager.new (some Registry.smallNet) 4 = .ok (.init Registry.smallNet 4) := rfl
  obtain ⟨x, hrun, hp⟩ := LTS.exists_run_of_any
    (f := fun (x : Daemon plain) l => (x.step ServerSession.plainConfig l).map Prod.fst)
    (start plain (.init Registry.smallNet 4))
    (plainJoin 0 42 ++ [.receive 0 plainUplink, .take 0 .recv])
    (fun x => writesPacket x (plainRecv 0) && x.reg.mgr.heap[0]?.all fun e => !e.transferred)
    (by decide +kernel)
  obtain ⟨hwrite, htest⟩ := Bool.and_eq_true_iff.1 hp
  obtain ⟨x', o, hst, hw⟩ := writes_of_test hwrite
  have hun : Unbumped x (plainRecv 0) := by
    rintro s env w e hl he
    cases hl
    simpa [he] using htest
  refine ⟨_, _, x, x', o, hm, hrun, hun, hst, hw, ?_⟩
  obtain ⟨s, env, p, hdr, hl, hproc, hparse, howner⟩ := uplink_owned hm hrun hun hst hw
  have hpkt : Header.parse plainPacket = .ok (some ⟨⟨10, 77, 0, 2⟩, ⟨8, 8, 8, 8⟩⟩) := by decide
  cases hl
  cases hparse.symm.trans hpkt
  exact ⟨p, hproc, howner⟩

/-- Client 42 connects as session 0 and a data frame of its arrives; it connects again, which bumps
session 0, and session 1 times out, which releases the address; client 43 connects and gets it.
Session 0 takes the frame when it arrives (`early`), or at the end. -/
def plainTheft (early : Bool) : List (Label plain) :=
  let take : List (Label plain) := [.take 0 .recv]
  plainJoin 0 42 ++ [.receive 0 plainUplink] ++ (if early then take else []) ++ plainJoin 1 42 ++
    [.wake 1 (ServerSession.plainEnv 1000 9) .tick, .finish 1] ++ plainJoin 2 43 ++
    if early then [] else take

/-- Session 0 writes the packet of its client 42 while the address belongs to client 43. -/
def isTheft (x : Daemon plain) : Bool :=
  writesPacket x (plainRecv 0) &&
    (x.procs[0]?.any (fun p => p.session.clientKey == some [42]) &&
    (x.reg.mgr.byIP.lookup ⟨10, 77, 0, 2⟩ == some 2 &&
    x.reg.mgr.heap[2]?.any fun e => e.clientKey == some [43]))

/-- **A bumped session injects a packet with another client's address.**  It does not matter whether
it took the frame from `recvCh` before or after it was bumped. -/
theorem uplink_stolen : ∃ m, Manager.new (some Registry.smallNet) 4 = .ok m ∧ ∀ early, ∃ x x' o e p,
    (lts plain ServerSession.plainConfig).Run (start plain m) (plainTheft early) x ∧
    x.step ServerSession.plainConfig (plainRecv 0) = .ok (x', o) ∧
    (plainPacket, true) ∈ o.tun ∧
    Header.parse plainPacket = .ok (some ⟨⟨10, 77, 0, 2⟩, ⟨8, 8, 8, 8⟩⟩) ∧
    x.procs[0]? = some p ∧ p.session.clientKey = some [42] ∧
    x.reg.mgr.byIP.lookup ⟨10, 77, 0, 2⟩ = some 2 ∧ x.reg.mgr.heap[2]? = some e ∧
    e.clientKey = some [43] := by
  have hm : Manager.new (some Registry.smallNet) 4 = .ok (.init Registry.smallNet 4) := rfl
  refine ⟨_, hm, fun early => ?_⟩
  obtain ⟨x, hrun, hp⟩ := LTS.exists_run_of_any
    (f := fun (x : Daemon plain) l => (x.step ServerSession.plainConfig l).map Prod.fst)
    (start plain (.init Registry.smallNet 4)) (plainTheft early) isTheft
    (by cases early <;> decide +kernel)
  simp only [isTheft, Bool.and_eq_true, beq_iff_eq, Option.any_eq_true] at hp
  obtain ⟨hwrite, ⟨p, hproc, hkey⟩, hip, e, he, hkey'⟩ := hp
  obtain ⟨x', o, hst, hw⟩ := writes_of_test hwrite
  exact ⟨x, x', o, e, p, hrun, hst, hw, by decide, hproc, hkey, hip, he, hkey'⟩

end Daemon

end VibeVpn

import VibeVpn.Session.Capacity
import VibeVpn.Session.Daemon
import VibeVpn.Session.ServerRun

/-!
# Sessions that come and go

Every connection uses up a session id, whether or not its peer ever authenticates.  A peer that
connects and stays silent is turned away by the handshake timeout and leaves nothing behind but the
id counter, one higher:

* `Daemon.visit_run` : a visit leaves the tables and the pool as they were.
* `Daemon.exists_aged` : from every state of the server that can take one more session, **visits
  bring the id counter to any id of its first turn**.

The steps of the session that was registered last are the lemmas `step_receive_last`,
`step_take_last`, `step_wake_last`, `step_finish_last`, `step_close_last` and `step_reply_last`.
-/

namespace VibeVpn

namespace Daemon

variable {S : Suite} {cfg : ServerConfig} {x x' : Daemon S} {l : Label S} {o : Out S} {r : Routed}

/-! ### Single steps -/

theorem lts_of_step (h : x.step cfg l = .ok (x', o)) : (lts S cfg).step x l x' :=
  Go.map_eq_ok.2 ⟨_, h, rfl⟩

theorem step_take (cfg : ServerConfig) {s : Ref} {p p' : Proc S} {w : Wake}
    (hp : x.procs[s]? = some p) (hrun : p.running = true) (htake : p.take w = some p') :
    x.step cfg (.take s w) = .ok ({ x with procs := x.procs.set s p' }, {}) := by
  simp only [step, hp, hrun, htake]

theorem step_wake (cfg : ServerConfig) (env : ServerEnv S) {s : Ref} {e : Entry} {p p' : Proc S}
    {w : Wake} {ev : ServerSession.Event} {session : ServerSession S} {running : Bool}
    {reg : Registry} (he : x.reg.mgr.heap[s]? = some e) (hp : x.procs[s]? = some p)
    (hrun : p.running = true) (hnext : p.next e.cancelled w = some (ev, p'))
    (hloop : p'.session.loop cfg { env with adopt := answer x.reg.mgr s e } ev =
      .ok (session, o, running))
    (hsec : (sections s p.session session).foldlM Registry.step x.reg = .ok reg) :
    x.step cfg (.wake s env w) =
      .ok ({ x with reg, procs := x.procs.set s { p' with session, running } }, o) := by
  simp only [step, he, hp, hrun, if_true, hnext, hloop, hsec]
  rfl

theorem step_finish (cfg : ServerConfig) {s : Ref} {e : Entry} {p : Proc S}
    (he : x.reg.mgr.heap[s]? = some e) (hp : x.procs[s]? = some p) (hrun : p.running = false)
    (hrem : e.removed = false) :
    x.step cfg (.finish s) =
      .ok ({ x with reg := { x.reg with mgr := x.reg.mgr.remove s e } }, {}) := by
  have hreg : x.reg.step (.remove s) = .ok { x.reg with mgr := x.reg.mgr.remove s e } := by
    simp [Registry.step, he, hrem]
  simp only [step, hp]
  rw [if_neg (by simp [hrun]), hreg]
  rfl

theorem step_close {s : Ref} {e : Entry} {p : Proc S} {env : ServerEnv S}
    {session : ServerSession S} (he : x.reg.mgr.heap[s]? = some e) (hp : x.procs[s]? = some p)
    (hrem : e.removed = true) (hclosed : p.closed = false)
    (hq : p.session.sendCloseQuiet cfg env = .ok (session, o)) :
    x.step cfg (.close s env) =
      .ok ({ x with procs := x.procs.set s { p with session, closed := true } }, o) := by
  simp [step, he, hp, hrem, hclosed, hq]

/-! The steps of the session that was registered last. -/

section Last

variable {h : List Entry} {ps : List (Proc S)} {e : Entry} {p p' : Proc S}

theorem step_receive_last (cfg : ServerConfig) {d : Bytes} (hp : x.procs = ps ++ [p])
    (hlen : p.recvCh.length < chanCap) :
    x.step cfg (.receive ps.length d) =
      .ok ({ x with procs := ps ++ [{ p with recvCh := p.recvCh ++ [d] }] }, {}) := by
  simp [step, hp, hlen]

theorem step_take_last (cfg : ServerConfig) {w : Wake} (hp : x.procs = ps ++ [p])
    (hrun : p.running = true) (htake : p.take w = some p') :
    x.step cfg (.take ps.length w) = .ok ({ x with procs := ps ++ [p'] }, {}) := by
  rw [step_take cfg (by simp [hp]) hrun htake]
  simp [hp]

theorem step_wake_last (cfg : ServerConfig) (env : ServerEnv S) {w : Wake}
    {ev : ServerSession.Event} {session : ServerSession S} {running : Bool} {reg : Registry}
    (hh : x.reg.mgr.heap = h ++ [e]) (hp : x.procs = ps ++ [p]) (hl : h.length = ps.length)
    (hrun : p.running = true) (hnext : p.next e.cancelled w = some (ev, p'))
    (hloop : p'.session.loop cfg { env with adopt := answer x.reg.mgr ps.length e } ev =
      .ok (session, o, running))
    (hsec : (sections ps.length p.session session).foldlM Registry.step x.reg = .ok reg) :
    x.step cfg (.wake ps.length env w) =
      .ok ({ x with reg, procs := ps ++ [{ p' with session, running }] }, o) := by
  have he : x.reg.mgr.heap[ps.length]? = some e := by simp [hh, ← hl]
  rw [step_wake cfg env he (by simp [hp]) hrun hnext hloop hsec]
  simp [hp]

theorem step_finish_last (cfg : ServerConfig) (hh : x.reg.mgr.heap = h ++ [e])
    (hp : x.procs = ps ++ [p]) (hl : h.length = ps.length) (hrun : p.running = false)
    (hrem : e.removed = false) :
    x.step cfg (.finish ps.length) =
      .ok ({ x with reg := { x.reg with mgr := x.reg.mgr.remove ps.length e } }, {}) :=
  step_finish cfg (by simp [hh, ← hl]) (by rw [hp, List.getElem?_concat_length]) hrun hrem

theorem step_close_last {env : ServerEnv S} {session : ServerSession S}
    (hh : x.reg.mgr.heap = h ++ [e]) (hp : x.procs = ps ++ [p]) (hl : h.length = ps.length)
    (hrem : e.removed = true) (hclosed : p.closed = false)
    (hq : p.session.sendCloseQuiet cfg env = .ok (session, o)) :
    x.step cfg (.close ps.length env) =
      .ok ({ x with procs := ps ++ [{ p with session, closed := true }] }, o) := by
  have he : x.reg.mgr.heap[ps.length]? = some e := by simp [hh, ← hl]
  rw [step_close he (by simp [hp]) hrem hclosed hq]
  simp [hp]

theorem step_reply_last (cfg : ServerConfig) {v : SessionView} (ht : x.tunLoop = some (v, r))
    (hp : x.procs = ps ++ [p]) (hs : x.reg.mgr.byID.lookup v.sid = some ps.length)
    (hlen : p.replyCh.length < chanCap) :
    x.step cfg .reply = .ok ({ x with
      procs := ps ++ [{ p with replyCh := p.replyCh ++ [r] }], tunLoop := none }, {}) := by
  simp [step, ht, handOver, Manager.replyTo, hs, hp, hlen]

end Last

/-! ### Visits -/

/-- A peer has connected: the two critical sections of its `HandleTransport` call are done. -/
def connected (x : Daemon S) (n id : ℕ) : Daemon S :=
  { x with
    reg :=
      { mgr := { x.reg.mgr with nextID := id }.handleTransportInsert id
        calls := []
        ticks := x.reg.ticks + n
        born := x.reg.born ++ [x.reg.ticks + n] }
    procs := x.procs ++ [{ session := .new S id none 0 }] }

theorem connect_run {n id : ℕ} (hcalls : x.reg.calls = [])
    (hfull : x.reg.mgr.isFull = false) (halloc : x.reg.mgr.allocIDLocked = some (n, id)) :
    (lts S cfg).Run x [.check, .insert 0 none 0] (connected x n id) := by
  have h₁ : x.step cfg .check = .ok
      ({ x with
        reg := { x.reg with
          mgr := { x.reg.mgr with nextID := id }
          calls := [⟨id, x.reg.ticks + n⟩]
          ticks := x.reg.ticks + n } }, {}) := by
    simp [step, Registry.step, hfull, Manager.handleTransportAlloc, halloc, hcalls, bind,
      Except.bind, pure, Except.pure]
  refine (LTS.Run.nil.snoc (lts_of_step h₁)).snoc (lts_of_step (o := {}) ?_)
  rfl

/-- A session that is removed right after its registration leaves the tables as they were. -/
theorem remove_insert {m : Manager} {id : ℕ} (hfree : m.byID.lookup id = none) :
    (m.handleTransportInsert id).remove m.heap.length (Entry.new id) =
      { m with
        stats := { m.stats with sessionsTotal := m.stats.sessionsTotal + 1 }
        heap := m.heap ++ [{ Entry.new id with removed := true }] } := by
  have hid : GoMap.eraseIf (m.byID.insert id m.heap.length) (some id) m.heap.length = m.byID := by
    simp only [GoMap.eraseIf, GoMap.lookup_insert_eq, if_true]
    exact GoMap.erase_insert hfree
  have hsid : (Entry.new id).sid = id := rfl
  simp only [Manager.remove, Manager.handleTransportInsert, hsid, hid, Int.add_sub_cancel]
  simp [Entry.new, GoMap.eraseIf]

/-- A peer that connects and never says anything: it is turned away by the handshake timeout. -/
def visit (r : Ref) : List (Label plain) :=
  [.check, .insert 0 none 0, .wake r (ServerSession.plainEnv 11 9) .tick, .finish r,
    .close r (ServerSession.plainEnv 11 9)]

/-- The goroutines of the session of such a peer, when they are done. -/
def departed (id : ℕ) : Proc plain :=
  { session := .new plain id none 0, running := false, closed := true }

/-- What such a peer leaves behind. -/
def visited (x : Daemon plain) (n id : ℕ) : Daemon plain :=
  { x with
    reg :=
      { mgr := { x.reg.mgr with
          nextID := id
          stats := { x.reg.mgr.stats with sessionsTotal := x.reg.mgr.stats.sessionsTotal + 1 }
          heap := x.reg.mgr.heap ++ [{ Entry.new id with removed := true }] }
        calls := []
        ticks := x.reg.ticks + n
        born := x.reg.born ++ [x.reg.ticks + n] }
    procs := x.procs ++ [departed id] }

theorem visit_run {x : Daemon plain} {n id : ℕ} (hcalls : x.reg.calls = [])
    (hfull : x.reg.mgr.isFull = false) (halloc : x.reg.mgr.allocIDLocked = some (n, id))
    (hlen : x.reg.mgr.heap.length = x.procs.length) :
    (lts plain ServerSession.plainConfig).Run x (visit x.procs.length) (visited x n id) := by
  have hfree : x.reg.mgr.byID.lookup id = none := Manager.lookup_of_allocLoop halloc
  have hrun : (lts plain ServerSession.plainConfig).Run x [.check, .insert 0 none 0]
      (connected x n id) := connect_run hcalls hfull halloc
  let late : Proc plain := { session := .new plain id none 0, running := false }
  have hwake := step_wake_last (x := connected x n id) (w := .tick) ServerSession.plainConfig
    (ServerSession.plainEnv 11 9) rfl rfl hlen rfl rfl rfl rfl
  have hfin := step_finish_last (x := { connected x n id with procs := x.procs ++ [late] })
    ServerSession.plainConfig (h := x.reg.mgr.heap) (e := Entry.new id) rfl rfl hlen rfl rfl
  have hmgr := remove_insert (m := { x.reg.mgr with nextID := id }) hfree
  dsimp only at hmgr
  rw [hlen] at hmgr
  have hall := (hrun.snoc (lts_of_step hwake)).snoc (lts_of_step hfin)
  simp only [connected] at hall
  rw [hmgr] at hall
  exact hall.snoc (lts_of_step (step_close_last (x := { visited x n id with
    procs := x.procs ++ [late] }) (h := x.reg.mgr.heap) rfl rfl hlen rfl rfl rfl))

/-- The server after visits that have brought the id counter to `n`. -/
def aged (x : Daemon plain) (n : ℕ) (stats : ManagerStats) (heap : List Entry)
    (procs : List (Proc plain)) (ticks : ℕ) (born : List ℕ) : Daemon plain :=
  { x with
    reg :=
      { mgr := { x.reg.mgr with nextID := n, stats, heap := x.reg.mgr.heap ++ heap }
        calls := []
        ticks
        born }
    procs := x.procs ++ procs }

theorem visited_aged (x : Daemon plain) (n k id t : ℕ) (st : ManagerStats) (H : List Entry)
    (P : List (Proc plain)) (b : List ℕ) :
    visited (aged x n st H P t b) k id =
      aged x id { st with sessionsTotal := st.sessionsTotal + 1 }
        (H ++ [{ Entry.new id with removed := true }])
        (P ++ [departed id]) (t + k) (b ++ [t + k]) := by
  simp [visited, aged]

/-- A step of `TunLoop`. -/
def Label.isTunLoop : Label S → Bool
  | .lookup _ => true
  | .reply => true
  | _ => false

/-- The first critical section of a `HandleTransport` call. -/
def Label.isCheck : Label S → Bool
  | .check => true
  | _ => false

/-- **Visits bring the counter to any id of its first turn.** -/
theorem exists_aged {x : Daemon plain} (hcalls : x.reg.calls = [])
    (hfull : x.reg.mgr.isFull = false) (hlen : x.reg.mgr.heap.length = x.procs.length)
    (hfree : ∀ id, x.reg.mgr.nextID < id → x.reg.mgr.byID.lookup id = none) {n : ℕ}
    (hn : x.reg.mgr.nextID ≤ n) (hn' : n < 2 ^ 32) :
    ∃ ls st H P t b, (lts plain ServerSession.plainConfig).Run x ls (aged x n st H P t b) ∧
      H.length = P.length ∧ ∀ l ∈ ls, l.isTunLoop = false := by
  induction n, hn using Nat.le_induction with
  | base =>
    refine ⟨[], x.reg.mgr.stats, [], [], x.reg.ticks, x.reg.born, ?_, rfl, nofun⟩
    have : aged x x.reg.mgr.nextID x.reg.mgr.stats [] [] x.reg.ticks x.reg.born = x := by
      simp [aged, ← hcalls]
    rw [this]
    exact .nil
  | succ n hn ih =>
    obtain ⟨ls, st, H, P, t, b, hrun, hHP, hls⟩ := ih (by omega)
    have hnext : Manager.bumpID n = n + 1 := by
      rw [Manager.bumpID, Nat.mod_eq_of_lt hn']
      simp
    have halloc : (aged x n st H P t b).reg.mgr.allocIDLocked = some (1, n + 1) := by
      have hfree' := AList.lookup_eq_none.1 (hfree (n + 1) (by omega))
      change Manager.allocLoop x.reg.mgr.byID (Manager.idCount - 1 + 1) n = _
      rw [Manager.allocLoop, hnext, if_neg hfree']
    have hvisit := visit_run (x := aged x n st H P t b) rfl hfull halloc
      (by simp [aged, hlen, hHP])
    rw [visited_aged] at hvisit
    refine ⟨_, _, _, _, _, _, hrun.append hvisit, by simp [hHP], fun l hl => ?_⟩
    obtain hl | hl := List.mem_append.1 hl
    · exact hls l hl
    · simp only [visit, List.mem_cons, List.not_mem_nil, or_false] at hl
      obtain rfl | rfl | rfl | rfl | rfl := hl <;> rfl

end Daemon

end VibeVpn

import VibeVpn.Session.Allowlist
import VibeVpn.Session.Uplink
import VibeVpn.Session.Lease

/-!
# Revoking a client

On `SIGHUP` the server loads its configuration again and replaces the list of allowed clients; a
configuration that does not load, has no section for the server or names a peer that is no key
leaves the list as it is.  `handshake3` reads the list under `peersMu` and adopts the session under
`Manager.mu` afterwards, so a session may be adopted on the word of a list that was replaced
meanwhile; `Service.seen` is the list that a run loop has read since its last iteration.

* `Service.loop_allowPeer` : an established session never looks at the list again, not even for a
  rekey, so a client that is struck off keeps the sessions it has;
* `Service.revoked` : **a client that is struck off gets no new session**, apart from one that had
  passed the check before; and once the goroutines of its sessions are gone, it has no address, and
  the server seals nothing for it and writes no packet of its to the TUN, until a list allows it
  again.
-/

namespace VibeVpn

variable {S : Suite}

/-- What the handler of `SIGHUP` makes of the peers that `config.Load` returns: an error, no section
for the server, or a list. -/
def Allowlist.reload (a : Allowlist) : Except String (Option (List Bytes)) → Allowlist
  | .error _ => a
  | .ok none => a
  | .ok (some list) =>
    match parsePeers list with
    | .error _ => a
    | .ok peers => a.setPeers peers

/-- The server and its list of allowed clients. -/
structure Service (S : Suite) where
  /-- The sessions and their registry. -/
  daemon : Daemon S
  /-- `Manager.peers`. -/
  allow : Allowlist
  /-- The list that a run loop has read in its current iteration. -/
  seen : Ref → Option Allowlist

namespace Service

/-- The server before its first client. -/
def start (S : Suite) (m : Manager) (a : Allowlist) : Service S where
  daemon := .start S m
  allow := a
  seen _ := none

/-- The steps of the server. -/
inductive Label (S : Suite) where
  /-- A step of the sessions, of their registry or of `TunLoop`. -/
  | daemon (l : Daemon.Label S)
  /-- The run loop of a session reads the list. -/
  | permit (s : Ref)
  /-- `SIGHUP`, with the outcome of `config.Load`. -/
  | reload (loaded : Except String (Option (List Bytes)))

/-- A run loop goes by the list it has read. -/
def gate (x : Service S) : Daemon.Label S → Daemon.Label S
  | .wake s env w => .wake s { env with allowPeer := ((x.seen s).getD x.allow).allowPeer } w
  | l => l

/-- The next iteration reads the list again. -/
def forget (x : Service S) : Daemon.Label S → Ref → Option Allowlist
  | .wake s _ _ => Function.update x.seen s none
  | _ => x.seen

/-- One step and what it puts out. -/
def step (cfg : ServerConfig) (x : Service S) :
    Label S → Except (Option Panic) (Service S × Out S)
  | .daemon l =>
    (x.daemon.step cfg (x.gate l)).map fun r =>
      ({ x with daemon := r.1, seen := x.forget l }, r.2)
  | .permit s => .ok ({ x with seen := Function.update x.seen s (some x.allow) }, {})
  | .reload loaded => .ok ({ x with allow := x.allow.reload loaded }, {})

/-- The server in every interleaving. -/
def lts (S : Suite) (cfg : ServerConfig) : LTS (Service S) (Label S) :=
  LTS.ofExcept fun x l => (x.step cfg l).map Prod.fst

/-- The reload puts a list in force that allows the client. -/
def Label.Readmits (key : Bytes) : Label S → Prop
  | .reload (.ok (some list)) => ∃ peers, parsePeers list = .ok peers ∧ (list = [] ∨ Names list key)
  | _ => False

/-- The session has read a list that allows the client. -/
def Passed (x : Service S) (key : Bytes) (s : Ref) : Prop :=
  ∃ a, x.seen s = some a ∧ a.allowPeer key = true

/-- The session serves the client, until it has sent its last frame. -/
def Serves (x : Service S) (key : Bytes) (s : Ref) (ip : Byte4) : Prop :=
  ∃ e p, x.daemon.reg.mgr.heap[s]? = some e ∧ x.daemon.procs[s]? = some p ∧
    e.clientKey = some key ∧ e.ip = some ip ∧ p.closed = false

/-! ### What the list is asked for -/

variable {cfg : ServerConfig} {env : ServerEnv S} {s s' : ServerSession S} {o : Out S}
  {ev : ServerSession.Event} {running : Bool}

/-- **An established session does not look at the list.** -/
theorem loop_allowPeer (hk : s.keys.isSome = true) (f : Bytes → Bool) :
    s.loop cfg { env with allowPeer := f } ev = s.loop cfg env ev := by
  obtain ⟨k, hk⟩ := Option.isSome_iff_exists.1 hk
  cases ev with
  | cancel => rfl
  | recv data =>
    cases data with
    | none => rfl
    | some data =>
      simp only [ServerSession.loop, ServerSession.drainRecv, ServerSession.handle, hk]
      rfl
  | reply => rfl
  | tick => rfl
  | decoy => rfl

/-- A session is established for a client that the list allows. -/
theorem allowed_of_loop (h : s.loop cfg env ev = .ok (s', o, running)) (hk : s.keys = none)
    (hk' : s'.keys.isSome = true) :
    ∃ key, s'.clientKey = some key ∧ env.allowPeer key = true := by
  have hstay : ∀ {b : Bool}, b = s.keys.isSome → b = true → False := by
    rintro b rfl hb
    rw [hk] at hb
    cases hb
  cases ServerSession.loop_spec h with
  | idle => exact (hstay rfl hk').elim
  | sent _ _ hsend => exact (hstay hsend.frame.2.2.2.2 hk').elim
  | timeout => exact (hstay rfl hk').elim
  | recv hh =>
    cases hh with
    | keyed _ _ _ hallow => exact ⟨_, rfl, hallow⟩
    | refused => exact (hstay rfl hk').elim
    | tagged => exact (hstay rfl hk').elim
    | answered => exact (hstay rfl hk').elim
    | rejected => exact (hstay rfl hk').elim
    | opened hs | delivered hs | echoed hs | rekey1 hs | aborted hs | rekeyed hs =>
      cases hk.symm.trans hs

/-- Whoever seals a frame or writes to the TUN is established. -/
theorem keyed_of_loop (h : s.loop cfg env ev = .ok (s', o, running))
    (ho : o.frames ≠ [] ∨ o.tun ≠ []) : s'.keys.isSome = true := by
  have hsends : ∀ {a b : Endpoint S} {typ : UInt8} {pt : Bytes} {fs : List (Sealed S × Bool)}
      {sent : Bool}, a.Sends typ pt b fs sent → fs ≠ [] ∨ ([] : List (Bytes × Bool)) ≠ [] →
        b.keys.isSome = true := by
    intro a b typ pt fs sent hsend hne
    cases hsend with
    | idle => simp at hne
    | sealed => rfl
  cases ServerSession.loop_spec h with
  | idle => simp at ho
  | sent _ _ hsend => exact hsends hsend ho
  | timeout => simp at ho
  | recv hh =>
    cases hh with
    | keyed _ _ _ _ _ _ hsend => exact hsends hsend ho
    | refused _ hf ht => simp [hf, ht] at ho
    | tagged => simp at ho
    | answered _ _ _ _ _ _ _ hf ht => simp [hf, ht] at ho
    | rejected => simp at ho
    | opened => rfl
    | delivered => rfl
    | echoed _ _ _ _ hsend => exact hsends hsend ho
    | rekey1 _ _ _ _ _ _ _ _ hsend => exact hsends hsend ho
    | aborted => rfl
    | rekeyed => rfl

end Service

/-! ### Who gets in -/

namespace Daemon

variable {cfg : ServerConfig} {x x' : Daemon S} {l : Label S} {o : Out S}

/-- **A session that has an address after a step had it before**, or its run loop was told just now
that its client is allowed. -/
theorem Moves.admitted (hm : Moves cfg x l (x', o)) (h : Coherent x) {s : Ref} {e' : Entry}
    (he' : x'.reg.mgr.heap[s]? = some e') (hip : e'.ip.isSome = true) :
    (∃ e, x.reg.mgr.heap[s]? = some e ∧ e.clientKey = e'.clientKey ∧ e.ip = e'.ip) ∨
    ∃ env w key, l = .wake s env w ∧ e'.clientKey = some key ∧ env.allowPeer key = true := by
  cases hm with
  | check hst =>
    cases hst with
    | reject => exact .inl ⟨e', he', rfl, rfl⟩
    | alloc _ ha =>
      obtain ⟨r, -, heq⟩ := Option.map_eq_some_iff.1 ha
      cases heq
      exact .inl ⟨e', he', rfl, rfl⟩
  | insert _ hst =>
    cases hst with
    | insert =>
      obtain he | ⟨-, rfl⟩ := getElem?_snoc_cases he'
      · exact .inl ⟨e', he, rfl, rfl⟩
      · cases hip
  | receive => exact .inl ⟨e', he', rfl, rfl⟩
  | @cancel r e he =>
    obtain ⟨rfl, rfl⟩ | ⟨-, he'⟩ := getElem?_set_cases he'
    · exact .inl ⟨e, he, rfl, rfl⟩
    · exact .inl ⟨e', he', rfl, rfl⟩
  | @wake r env w e p p' ev session o running reg he hp hrun hnext hloop hfold =>
    have hag := h.agree r e p he hp
    cases follows he hag (loop_identified hloop) hfold with
    | same hreg =>
      subst hreg
      exact .inl ⟨e', he', rfl, rfl⟩
    | refused hreg heip =>
      subst hreg
      obtain ⟨rfl, rfl⟩ | ⟨-, he'⟩ := getElem?_set_cases he'
      · rw [show e.ip = none from heip] at hip
        cases hip
      · exact .inl ⟨e', he', rfl, rfl⟩
    | @admitted key ip m hreg heip _ hadopt hkey _ hk =>
      subst hreg
      obtain ⟨hself, -, hothers⟩ := Manager.adopt_heap he hadopt
      by_cases hs : s = r
      · subst hs
        cases hself.symm.trans he'
        have hnone : p.session.keys = none := by
          have := hag.keys
          rw [heip] at this
          exact Option.not_isSome_iff_eq_none.1 (by rw [this]; exact Bool.false_ne_true)
        obtain ⟨key', hkey', hallow⟩ := Service.allowed_of_loop hloop hnone hk
        cases hkey.symm.trans hkey'
        exact .inr ⟨env, w, key, rfl, rfl, hallow⟩
      · obtain ⟨c, hc, h₁, h₂, -⟩ := hothers s e' hs he'
        exact .inl ⟨c, hc, h₁.symm, h₂.symm⟩
  | finish _ _ hst =>
    cases hst with
    | @remove _ e he _ =>
      obtain ⟨rfl, rfl⟩ | ⟨-, he'⟩ := getElem?_set_cases he'
      · exact .inl ⟨e, he, rfl, rfl⟩
      · exact .inl ⟨e', he', rfl, rfl⟩
  | take => exact .inl ⟨e', he', rfl, rfl⟩
  | close => exact .inl ⟨e', he', rfl, rfl⟩
  | unrouted => exact .inl ⟨e', he', rfl, rfl⟩
  | lookup => exact .inl ⟨e', he', rfl, rfl⟩
  | lost => exact .inl ⟨e', he', rfl, rfl⟩
  | reply => exact .inl ⟨e', he', rfl, rfl⟩

/-- Once the goroutines of a session are gone, they stay gone. -/
theorem Moves.open (hm : Moves cfg x l (x', o)) {s : Ref} {p p' : Proc S}
    (hp : x.procs[s]? = some p) (hp' : x'.procs[s]? = some p') (hc : p'.closed = false) :
    p.closed = false := by
  have hset : ∀ {r : Ref} {a b : Proc S}, x.procs[r]? = some a →
      (x.procs.set r b)[s]? = some p' → (b.closed = false → a.closed = false) →
      p.closed = false := by
    intro r a b ha hb hab
    obtain ⟨rfl, rfl⟩ | ⟨-, hb⟩ := getElem?_set_cases hb
    · cases hp.symm.trans ha
      exact hab hc
    · cases hp.symm.trans hb
      exact hc
  cases hm with
  | check | cancel | finish | unrouted | lookup | lost =>
    cases hp.symm.trans hp'
    exact hc
  | insert =>
    obtain hp' | ⟨hs, -⟩ := getElem?_snoc_cases hp'
    · cases hp.symm.trans hp'
      exact hc
    · obtain ⟨hlt, -⟩ := List.getElem?_eq_some_iff.1 hp
      omega
  | receive hq => exact hset hq hp' id
  | take hq _ ht => exact hset hq hp' (by cases ht <;> exact id)
  | wake _ hq _ hnext => exact hset hq hp' (by rw [hnext.eq]; exact id)
  | close _ hq _ hopen => exact hset hq hp' fun _ => hopen
  | reply _ _ hq => exact hset hq hp' id

/-- A session in the registry has its goroutines. -/
theorem Coherent.proc (h : Coherent x) {s : Ref} {e : Entry} (he : x.reg.mgr.heap[s]? = some e) :
    ∃ p, x.procs[s]? = some p := by
  obtain ⟨hlt, -⟩ := List.getElem?_eq_some_iff.1 he
  exact ⟨_, List.getElem?_eq_getElem (h.length ▸ hlt)⟩

/-- An established session has its address. -/
theorem Coherent.established (h : Coherent x) {s : Ref} {p : Proc S} (hp : x.procs[s]? = some p)
    (hk : p.session.keys.isSome = true) : ∃ e, x.reg.mgr.heap[s]? = some e ∧
      e.clientKey = p.session.clientKey ∧ e.ip.isSome = true := by
  obtain ⟨hlt, -⟩ := List.getElem?_eq_some_iff.1 hp
  have he : x.reg.mgr.heap[s]? = some (x.reg.mgr.heap.get ⟨s, h.length ▸ hlt⟩) :=
    List.getElem?_eq_getElem (h.length ▸ hlt)
  have hag := h.agree s _ p he hp
  exact ⟨_, he, hag.clientKey.symm, hag.keys ▸ hk⟩

/-- The session whose goroutine takes the step. -/
def Label.session : Label S → Option Ref
  | .wake s _ _ => some s
  | .close s _ => some s
  | _ => none

/-- What is sealed or written to the TUN comes from a session that is established and has not sent
its last frame yet. -/
theorem Moves.speaks (hm : Moves cfg x l (x', o)) (h : Coherent x)
    (ho : o.frames ≠ [] ∨ o.tun ≠ []) : ∃ (s : Ref) (e : Entry) (p p' : Proc S),
      l.session = some s ∧ x.reg.mgr.heap[s]? = some e ∧ x.procs[s]? = some p ∧
      p.closed = false ∧ x'.procs[s]? = some p' ∧ p'.session.keys.isSome = true := by
  cases hm with
  | check | insert | receive | cancel | take | finish | unrouted | lookup | lost | reply =>
    simp at ho
  | @wake r env w e p p' ev session o running reg he hp hrun hnext hloop hfold =>
    have ha := h.agree r e p he hp
    have hopen : p.closed = false := Bool.eq_false_iff.2 fun hc =>
      Bool.eq_false_iff.1 (ha.not_removed hrun) (ha.closed hc)
    obtain ⟨hlt, -⟩ := List.getElem?_eq_some_iff.1 hp
    exact ⟨r, e, p, _, rfl, he, hp, hopen, List.getElem?_set_self hlt,
      Service.keyed_of_loop hloop ho⟩
  | @close r env e p session o he hp _ hopen hq =>
    have hkeyed : session.keys.isSome = true := by
      obtain ⟨rfl, rfl⟩ | ⟨ep, fs, sent, hk, hsend, rfl, rfl⟩ :=
        ServerSession.sendCloseQuiet_spec hq
      · simp at ho
      · exact hsend.frame.2.2.2.2.trans hk
    obtain ⟨hlt, -⟩ := List.getElem?_eq_some_iff.1 hp
    exact ⟨r, e, p, _, rfl, he, hp, hopen, List.getElem?_set_self hlt, hkeyed⟩

end Daemon

namespace Service

variable {cfg : ServerConfig} {x x' y : Service S} {l : Label S} {o : Out S} {key : Bytes}

theorem lts_step (h : (lts S cfg).step x l x') : ∃ o, x.step cfg l = .ok (x', o) := by
  obtain ⟨⟨y, o⟩, hs, rfl⟩ := Go.map_eq_ok.1 h
  exact ⟨o, hs⟩

/-- The ways a step can go. -/
inductive Moves (cfg : ServerConfig) (x : Service S) : Label S → Service S × Out S → Prop where
  | daemon {l : Daemon.Label S} {d : Daemon S} {o : Out S} :
      Daemon.Moves cfg x.daemon (x.gate l) (d, o) →
      Moves cfg x (.daemon l) ({ x with daemon := d, seen := x.forget l }, o)
  | permit {s : Ref} :
      Moves cfg x (.permit s) ({ x with seen := Function.update x.seen s (some x.allow) }, {})
  | reload {loaded : Except String (Option (List Bytes))} :
      Moves cfg x (.reload loaded) ({ x with allow := x.allow.reload loaded }, {})

theorem step_cases (h : x.step cfg l = .ok (x', o)) : Moves cfg x l (x', o) := by
  cases l with
  | daemon l =>
    obtain ⟨r, hs, h⟩ := Go.map_eq_ok.1 h
    cases h
    exact .daemon (Daemon.step_cases hs)
  | permit s => cases h; exact .permit
  | reload loaded => cases h; exact .reload

theorem Moves.coherent (hm : Moves cfg x l (x', o)) (h : x.daemon.Coherent) :
    x'.daemon.Coherent := by
  cases hm with
  | daemon hd => exact hd.coherent h
  | permit => exact h
  | reload => exact h

theorem coherent_of_reachable {subnet : Option IPNet} {maxSessions : ℤ} {m : Manager}
    (h₀ : Manager.new subnet maxSessions = .ok m) {a : Allowlist}
    (hx : (lts S cfg).Reachable (start S m a) x) : x.daemon.Coherent :=
  hx.invariant (I := fun x => x.daemon.Coherent) (.start h₀) fun _ _ _ h hst =>
    (step_cases (lts_step hst).choose_spec).coherent h

/-! ### A client that is struck off -/

/-- A reload that does not readmit a client leaves it struck off. -/
theorem reload_allowPeer {a : Allowlist} {loaded : Except String (Option (List Bytes))}
    (ha : a.allowPeer key = false) (hl : ¬ (Label.reload loaded : Label S).Readmits key) :
    (a.reload loaded).allowPeer key = false := by
  cases loaded with
  | error => exact ha
  | ok loaded =>
    cases loaded with
    | none => exact ha
    | some list =>
      simp only [Allowlist.reload]
      cases hp : parsePeers list with
      | error => exact ha
      | ok peers =>
        refine Bool.eq_false_iff.2 fun h => hl ?_
        exact ⟨peers, hp, (Allowlist.allowPeer_setPeers a hp key).1 h⟩

/-- The list that the run loop of a session goes by. -/
theorem gate_wake {l : Daemon.Label S} {s : Ref} {env : ServerEnv S} {w : Wake}
    (h : x.gate l = .wake s env w) (hx : x.allow.allowPeer key = false)
    (ha : env.allowPeer key = true) : x.Passed key s := by
  cases l with
  | wake s' env' w' =>
    cases h
    cases hs : x.seen s with
    | none =>
      rw [hs] at ha
      cases hx.symm.trans ha
    | some a =>
      rw [hs] at ha
      exact ⟨a, hs, ha⟩
  | _ => cases h

/-- What has happened to a client since it was struck off in `x`. -/
structure Since (x : Service S) (key : Bytes) (y : Service S) : Prop where
  coherent : y.daemon.Coherent
  allow : y.allow.allowPeer key = false
  passed : ∀ s, y.Passed key s → x.Passed key s
  serves : ∀ s ip, y.Serves key s ip → x.Serves key s ip ∨ x.Passed key s

theorem Since.step {y' : Service S} (h : Since x key y) (hm : Moves cfg y l (y', o))
    (hl : ¬ l.Readmits key) : Since x key y' := by
  have hc := hm.coherent h.coherent
  cases hm with
  | @daemon l d o hd =>
    refine ⟨hc, h.allow, ?_, ?_⟩
    · rintro s ⟨a, hs, ha⟩
      refine h.passed s ⟨a, ?_, ha⟩
      cases l with
      | wake r env w =>
        simp only [forget, Function.update_apply] at hs
        split_ifs at hs
        exact hs
      | _ => exact hs
    · rintro s ip ⟨e', p', he', hp', hk, hip, hopen⟩
      obtain ⟨e, he, hk₀, hip₀⟩ | ⟨env, w, key', hw, hk', ha⟩ :=
        hd.admitted h.coherent he' (by rw [hip]; rfl)
      · obtain ⟨p, hp⟩ := h.coherent.proc he
        exact h.serves s ip ⟨e, p, he, hp, hk₀.trans hk, hip₀.trans hip, hd.open hp hp' hopen⟩
      · cases hk.symm.trans hk'
        exact .inr (h.passed s (gate_wake hw h.allow ha))
  | @permit r =>
    refine ⟨hc, h.allow, ?_, h.serves⟩
    rintro s ⟨a, hs, ha⟩
    simp only [Function.update_apply] at hs
    split_ifs at hs
    · cases hs
      cases h.allow.symm.trans ha
    · exact h.passed s ⟨a, hs, ha⟩
  | reload => exact ⟨hc, reload_allowPeer h.allow hl, h.passed, h.serves⟩

theorem session_gate (x : Service S) (l : Daemon.Label S) : (x.gate l).session = l.session := by
  cases l <;> rfl

/-- **A client that is struck off.**  While no list allows a client, every session that serves it
served it at the beginning, or had read a list that allowed it; reloads that fail change nothing.
When there are no such sessions, the client has no address, and whatever the server seals or writes
to the TUN is for another; a session serves its client until its last frame, the one that `finish`
sends, is out.  A session that is established goes on whatever the list says. -/
theorem revoked {subnet : Option IPNet} {maxSessions : ℤ} {m : Manager} {a : Allowlist}
    {ls : List (Label S)} (h₀ : Manager.new subnet maxSessions = .ok m)
    (hx : (lts S cfg).Reachable (start S m a) x) (hkey : x.allow.allowPeer key = false)
    (run : ((lts S cfg).restrict fun _ l => ¬ l.Readmits key).Run x ls y) :
    y.allow.allowPeer key = false ∧
    (∀ s ip, y.Serves key s ip → x.Serves key s ip ∨ x.Passed key s) ∧
    ((∀ s, ¬ x.Passed key s ∧ ∀ ip, ¬ x.Serves key s ip) →
      y.daemon.reg.mgr.leases key = none ∧
      ∀ l y' o, y.step cfg (.daemon l) = .ok (y', o) → o.frames ≠ [] ∨ o.tun ≠ [] →
        ∃ s p, l.session = some s ∧ y'.daemon.procs[s]? = some p ∧
          p.session.clientKey ≠ some key) ∧
    ∀ (s : Ref) (p : Proc S) env ev f, y.daemon.procs[s]? = some p →
      p.session.keys.isSome = true →
      p.session.loop cfg { env with allowPeer := f } ev = p.session.loop cfg env ev := by
  have hsince : Since x key y := by
    refine run.reachable.invariant
      ⟨coherent_of_reachable h₀ hx, hkey, fun _ => id, fun _ _ => .inl⟩ ?_
    intro z l z' hz hst
    obtain ⟨o, ho⟩ := lts_step hst.2
    exact hz.step (step_cases ho) hst.1
  refine ⟨hsince.allow, hsince.serves, fun hgone => ?_,
    fun s p env ev f _ hk => loop_allowPeer hk f⟩
  have hserve : ∀ s ip, ¬ y.Serves key s ip := fun s ip h =>
    (hsince.serves s ip h).elim ((hgone s).2 ip) (hgone s).1
  have hidx := hsince.coherent.indexed
  refine ⟨Option.eq_none_iff_forall_ne_some.2 fun ip hl => ?_, fun l y' o hst ho => ?_⟩
  · -- the holder of a lease would serve the client
    obtain ⟨s, e, hs, he, hact, hip⟩ := hidx.leases_eq_some.1 hl
    obtain ⟨e', he', -, hk⟩ := (hidx.consistent.byStatic key s).1 hs
    cases he.symm.trans he'
    obtain ⟨p, hp⟩ := hsince.coherent.proc he
    have hopen : p.closed = false := Bool.eq_false_iff.2 fun hc =>
      Bool.eq_false_iff.1 hact.2.2 ((hsince.coherent.agree s e p he hp).closed hc)
    exact hserve s ip ⟨e, p, he, hp, hk, hip, hopen⟩
  · cases step_cases hst with
    | @daemon l d o hd =>
      obtain ⟨s, e, p, p', hl, he, hp, hopen, hp', hk⟩ := hd.speaks hsince.coherent ho
      refine ⟨s, p', (session_gate y l).symm.trans hl, hp', fun hpk => ?_⟩
      obtain ⟨e', he', hk', hip'⟩ := (hd.coherent hsince.coherent).established hp' hk
      obtain ⟨e₀, he₀, hk₀, hip₀⟩ | ⟨env, w, key', hw, hkey', ha⟩ :=
        hd.admitted hsince.coherent he' hip'
      · -- a session that was established before the step
        cases he.symm.trans he₀
        obtain ⟨ip, hip⟩ := Option.isSome_iff_exists.1 (hip₀ ▸ hip')
        exact hserve s ip ⟨e, p, he, hp, (hk₀.trans hk').trans hpk, hip, hopen⟩
      · -- a session that is established by it
        cases hkey'.symm.trans (hk'.trans hpk)
        exact (hgone s).1 (hsince.passed s (gate_wake hw hsince.allow ha))

/-- The label is no reload. -/
def Label.isStep : Label S → Bool
  | .reload _ => false
  | _ => true

theorem not_readmits_of_isStep (h : l.isStep = true) : ¬ l.Readmits key := by
  cases l with
  | reload => cases h
  | daemon => exact id
  | permit => exact id

/-- A test that a session serves a client. -/
def servesTest (x : Service S) (key : Bytes) (s : Ref) (ip : Byte4) : Bool :=
  x.daemon.reg.mgr.heap[s]?.any (fun e => e.clientKey == some key && e.ip == some ip) &&
    x.daemon.procs[s]?.any fun p => !p.closed

theorem serves_of_test {s : Ref} {ip : Byte4} (h : x.servesTest key s ip = true) :
    x.Serves key s ip := by
  simp only [servesTest, Option.any_eq_true, Bool.and_eq_true, beq_iff_eq, Bool.not_eq_true'] at h
  obtain ⟨⟨e, he, hk, hip⟩, p, hp, hopen⟩ := h
  exact ⟨e, p, he, hp, hk, hip, hopen⟩

/-- The zero key, as a configuration spells it. -/
def zeroPeer : Bytes := List.replicate 43 65

/-- The client 42 connects while everyone is allowed, and is struck off.  When it connects again, it
is turned away; its first session goes on. -/
theorem revoked_plain : ∃ m x ls y, Manager.new (some Registry.smallNet) 4 = .ok m ∧
    (lts plain ServerSession.plainConfig).Reachable (start plain m ⟨∅⟩) x ∧
    x.allow.allowPeer [42] = false ∧ x.Serves [42] 0 ⟨10, 77, 0, 2⟩ ∧
    ((lts plain ServerSession.plainConfig).restrict fun _ l => ¬ l.Readmits [42]).Run x ls y ∧
    y.daemon.procs.length = 2 ∧ y.Serves [42] 0 ⟨10, 77, 0, 2⟩ ∧
    ∀ ip, ¬ y.Serves [42] 1 ip := by
  let again : List (Label plain) := (Daemon.plainJoin 1 42).map .daemon
  obtain ⟨x, hx, hp⟩ := LTS.exists_run_of_any
    (f := fun (x : Service plain) l => (x.step ServerSession.plainConfig l).map Prod.fst)
    (start plain (.init Registry.smallNet 4) ⟨∅⟩)
    ((Daemon.plainJoin 0 42).map Label.daemon ++ [.reload (.ok (some [zeroPeer]))])
    (fun x => (!x.allow.allowPeer [42] && x.daemon.reg.mgr.heap.length == 1) &&
      ((x.seen 1).isNone && x.servesTest [42] 0 ⟨10, 77, 0, 2⟩) &&
      (again.foldlM (fun (x : Service plain) (l : Label plain) => if l.isStep then
        ((x.step ServerSession.plainConfig l).map Prod.fst).toOption else none) x).any fun y =>
          y.daemon.procs.length == 2 && y.servesTest [42] 0 ⟨10, 77, 0, 2⟩) (by decide +kernel)
  simp only [Bool.and_eq_true, beq_iff_eq, Bool.not_eq_true', Option.isNone_iff_eq_none] at hp
  obtain ⟨⟨⟨hkey, hlen⟩, hseen, hserve⟩, hrest⟩ := hp
  obtain ⟨y, hy, hq⟩ := LTS.exists_run_restrict_of_any (fun _ l => l.isStep)
    (fun _ _ => not_readmits_of_isStep) x again _ hrest
  simp only [Bool.and_eq_true, beq_iff_eq] at hq
  have hm : Manager.new (some Registry.smallNet) 4 = .ok (.init Registry.smallNet 4) := rfl
  refine ⟨_, x, again, y, hm, hx.reachable, hkey, serves_of_test hserve, hy, hq.1,
    serves_of_test hq.2, fun ip hs => ?_⟩
  rcases (revoked hm hx.reachable hkey hy).2.1 1 ip hs with ⟨e, p, he, -⟩ | ⟨a, ha, -⟩
  · obtain ⟨hlt, -⟩ := List.getElem?_eq_some_iff.1 he
    omega
  · cases hseen.symm.trans ha

end Service

end VibeVpn

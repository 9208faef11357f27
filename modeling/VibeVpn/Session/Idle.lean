import Mathlib.Data.Int.Order.Basic
import VibeVpn.Session.ServerRun
import VibeVpn.Session.ClientSpec

/-!
# The idle timeout

Both ends close a session that has been idle for `SessionTimeout`, measured from `lastRecv`.
`drainRecv` sets `lastRecv` for every datagram it is handed, before `handle` (`handleFrame`) has
authenticated it.

* `idle_timeout_iff` : along any events after `T` in which no datagram opens, `lastRecv` stays at
  or before `T`, and the first tick later than `T + SessionTimeout` ends the session, **exactly
  when no datagram arrives at all**.
-/

namespace VibeVpn

variable {S : Suite}

namespace ServerSession

variable {cfg : ServerConfig} {env : ServerEnv S} {s s' : ServerSession S} {o : Out S}
  {running : Bool} {e : Event}

theorem lastRecv_handles {data : Bytes} {err : Option SessionErr}
    (h : Handles cfg env s data (s', o, err)) : s'.lastRecv = s.lastRecv := by
  cases h with
  | keyed _ _ _ _ _ _ hsend => exact hsend.frame.2.2.2.1
  | echoed _ _ _ _ hsend => exact hsend.frame.2.2.2.1
  | rekey1 _ _ _ _ _ _ _ _ hsend => exact hsend.frame.2.2.2.1
  | _ => rfl

theorem lastRecv_loops (h : Loops cfg env s e (s', o, running)) :
    s'.lastRecv = if e.isDatagram then env.now else s.lastRecv := by
  cases h with
  | idle he => rw [Event.isDatagram_eq_false he]; rfl
  | recv hh => exact lastRecv_handles hh
  | sent he _ hsend => rw [Event.isDatagram_eq_false he]; exact hsend.frame.2.2.2.1
  | timeout => rfl

/-- Every datagram sets `lastRecv`, and nothing else does. -/
theorem lastRecv_step (h : s.step cfg env e = .ok (s', o, running)) :
    s'.lastRecv = if e.isDatagram then env.now else s.lastRecv := by
  cases step_spec h with
  | run hl => exact lastRecv_loops hl
  | halt hl => exact lastRecv_loops hl
  | close hl hsend => exact hsend.frame.2.2.2.1.trans (lastRecv_loops hl)

/-- The event is after `T`, and no datagram that opens under the session's keys. -/
def Silent (T : ℤ) (x : ServerSession S × Bool) (l : Label S) : Prop :=
  T < l.1.now ∧ ∀ data k k' f, l.2 = .recv (some data) → x.1.keys = some k →
    k.open data ≠ .ok (k', .ok f)

/-- The tick after the idle timeout ends the session. -/
theorem tick_closes (h : cfg.sessionTimeout < env.now - s.lastRecv)
    (hs : s.step cfg env .tick = .ok (s', o, running)) : running = false := by
  obtain ⟨⟨s₁, o₁, r⟩, hl, hs⟩ := Go.bind_eq_ok.1 hs
  have hr : r = false := by
    simp only [loop, tick] at hl
    by_cases hc : s.keys.isNone ∧ cfg.handshakeTimeout < env.now - s.created
    · rw [if_pos hc] at hl
      cases hl
      rfl
    · rw [if_neg hc, if_pos h] at hl
      obtain ⟨q, -, hl⟩ := Go.bind_eq_ok.1 hl
      cases hl
      rfl
  subst hr
  obtain ⟨q, -, hs⟩ := Go.bind_eq_ok.1 hs
  cases hs
  rfl

end ServerSession

namespace Client

variable {cfg : ClientConfig} {env : ClientEnv S} {c c' : Client S} {o : Out S} {e : Event}

/-- The client as a transition system. -/
def lts (S : Suite) (cfg : ClientConfig) : LTS (Client S) (ClientEnv S × Event) where
  step c l c' := ∃ o, c.step cfg l.1 l.2 = .ok (c', o)

/-- The client is in its main loop; the event is after `T`, and no datagram that opens under the
client's keys. -/
def Silent (T : ℤ) (c : Client S) (l : ClientEnv S × Event) : Prop :=
  c.phase = .running ∧ T < l.1.now ∧ ∀ data k k' f, l.2 = .recv (some data) → c.keys = some k →
    k.open data ≠ .ok (k', .ok f)

theorem lastRecv_maybeRekeys (h : MaybeRekeys cfg env c c' o) : c'.lastRecv = c.lastRecv := by
  cases h with
  | no => rfl
  | unsent _ _ hsend => exact hsend.frame.2.2.2.1
  | started _ _ hsend => exact hsend.frame.2.2.2.1

/-- Only datagrams set `lastRecv`. -/
theorem lastRecv_of_not_datagram (hp : c.phase = .running) (he : e.isDatagram = false)
    (h : c.step cfg env e = .ok (c', o)) : c'.lastRecv = c.lastRecv := by
  have hno : ∀ data, e ≠ .recv (some data) := by
    rintro data rfl
    cases he
  have hspec := step_spec (by rw [hp]; rfl) (by rw [hp]; nofun) h
  cases hspec with
  | idle => rfl
  | hangup _ _ _ hlast => exact hlast hno
  | sent _ _ _ hsend => exact hsend.frame.2.2.2.1
  | keepalive _ _ _ hsend hm => exact (lastRecv_maybeRekeys hm).trans hsend.frame.2.2.2.1
  | _ => cases he

/-- A datagram that does not open sets `lastRecv` all the same. -/
theorem lastRecv_of_unopened {data : Bytes} (hp : c.phase = .running)
    (ho : ∀ k k' f, c.keys = some k → k.open data ≠ .ok (k', .ok f))
    (h : c.step cfg env (.recv (some data)) = .ok (c', o)) : c'.lastRecv = env.now := by
  unfold step at h
  rw [hp] at h
  obtain ⟨⟨c₁, o₁, err⟩, hf, h⟩ := Go.bind_eq_ok.1 h
  unfold handleFrame at hf
  split at hf
  · cases hf; cases h; rfl
  · next k hk =>
    obtain ⟨⟨k', r⟩, hopen, hf⟩ := Go.bind_eq_ok.1 hf
    cases r with
    | error err => cases hf; cases h; rfl
    | ok f => exact absurd hopen (ho k k' f hk)

/-- The keepalive tick after the idle timeout reconnects. -/
theorem keepalive_reconnects (hp : c.phase = .running)
    (h : cfg.sessionTimeout < env.now - c.lastRecv) :
    c.step cfg env .keepalive = .ok (c.reconnect, {}) := by
  unfold step
  rw [hp]
  simp only [keepalive, if_pos h]
  rfl

end Client

/-- **The idle timeout counts every datagram.**  Along events after `T` none of which is a datagram
that opens, the clock `lastRecv` stays at or before `T`, so that the first tick later than
`T + SessionTimeout` closes the session (makes the client reconnect), exactly when no datagram
arrives. -/
theorem idle_timeout_iff (T : ℤ) :
    (∀ (cfg : ServerConfig) (x y : ServerSession S × Bool) (ls : List (ServerSession.Label S)),
      x.1.lastRecv ≤ T →
      ((ServerSession.lts S cfg).restrict (ServerSession.Silent T)).Run x ls y →
      ((y.1.lastRecv ≤ T ∧ ∀ env s' o running, T + cfg.sessionTimeout < env.now →
          y.1.step cfg env .tick = .ok (s', o, running) → running = false) ↔
        ∀ l ∈ ls, l.2.isDatagram = false)) ∧
    (∀ (cfg : ClientConfig) (c d : Client S) (ls : List (ClientEnv S × Client.Event)),
      c.lastRecv ≤ T → ((Client.lts S cfg).restrict (Client.Silent T)).Run c ls d →
      ((d.lastRecv ≤ T ∧ ∀ env, d.phase = .running → T + cfg.sessionTimeout < env.now →
          d.step cfg env .keepalive = .ok (d.reconnect, {})) ↔
        ∀ l ∈ ls, l.2.isDatagram = false)) := by
  constructor
  · intro cfg x y ls hx run
    rw [← run.clock_le_iff (f := fun x => x.1.lastRecv) (p := fun l => l.2.isDatagram) ?_ ?_ hx]
    · refine and_iff_left_of_imp fun hy env s' o running hnow hs => ?_
      exact ServerSession.tick_closes (by omega) hs
    · rintro s l s' ⟨-, -, o, hs⟩ hl
      simpa [hl] using ServerSession.lastRecv_step hs
    · rintro s l s' ⟨hsil, -, o, hs⟩ hl
      rw [ServerSession.lastRecv_step hs, if_pos hl]
      exact hsil.1
  · intro cfg c d ls hc run
    rw [← run.clock_le_iff (f := fun c => c.lastRecv) (p := fun l => l.2.isDatagram) ?_ ?_ hc]
    · refine and_iff_left_of_imp fun hd env hp hnow => ?_
      exact Client.keepalive_reconnects hp (by omega)
    · rintro c l c' ⟨hsil, o, hs⟩ hl
      exact Client.lastRecv_of_not_datagram hsil.1 hl hs
    · rintro c ⟨env, e⟩ c' ⟨⟨hp, hnow, ho⟩, o, hs⟩ hl
      match e, hl with
      | .recv (some data), _ =>
        rw [Client.lastRecv_of_unopened hp (fun k k' f => ho data k k' f rfl) hs]
        exact hnow

/-- Without datagrams, a session that was last heard at time 2 ends at the tick at time 63, and a
client reconnects then. -/
theorem idle_timeout_plain : ∃ (x y : ServerSession plain × Bool) (c d : Client plain),
    (ServerSession.lts plain ServerSession.plainConfig).step x
      (ServerSession.plainEnv 30 0, .tick) y ∧
    (∀ s' o running, y.1.step ServerSession.plainConfig (ServerSession.plainEnv 63 0) .tick =
      .ok (s', o, running) → running = false) ∧
    (Client.lts plain Client.plainConfig).step c (Client.plainEnv 30 0, .keepalive) d ∧
    d.step Client.plainConfig (Client.plainEnv 63 0) .keepalive = .ok (d.reconnect, {}) := by
  let k := newKeys plain true (5, 133)
  let x : ServerSession plain :=
    { ServerSession.new plain 1 none 0 with keys := some k, lastRecv := 2 }
  let c : Client plain :=
    { Client.new plain with keys := some k, lastRecv := 2, t := true, phase := .running }
  have hx : (ServerSession.lts plain ServerSession.plainConfig).step (x, true)
      (ServerSession.plainEnv 30 0, .tick) (x, true) := ⟨rfl, {}, rfl⟩
  have hc : (Client.lts plain Client.plainConfig).step c
      (Client.plainEnv 30 0, .keepalive) c := ⟨{}, rfl⟩
  have hserver := (idle_timeout_iff 2).1 ServerSession.plainConfig (x, true) (x, true) _
    (le_refl _) (.snoc .nil ⟨⟨by decide, fun _ _ _ _ h => by cases h⟩, hx⟩)
  have hclient := (idle_timeout_iff 2).2 Client.plainConfig c c _
    (le_refl _) (.snoc .nil ⟨⟨rfl, by decide, fun _ _ _ _ h => by cases h⟩, hc⟩)
  exact ⟨(x, true), (x, true), c, c, hx,
    fun s' o running => (hserver.2 (by simp [ServerSession.Event.isDatagram])).2 _ s' o running
      (by decide), hc,
    (hclient.2 (by simp [Client.Event.isDatagram])).2 _ rfl (by decide)⟩

/-- An unauthenticated datagram at time 60 keeps the session that was last heard at time 2 from
ending at the tick at time 63, the timeout being 60. -/
theorem idle_session_kept_alive : ∃ (x y : ServerSession plain × Bool)
    (ls : List (ServerSession.Label plain)),
    (ServerSession.lts plain ServerSession.plainConfig).Reachable (.new plain 1 none 0, true) x ∧
    x.1.keys.isSome ∧ x.1.lastRecv ≤ 2 ∧
    ((ServerSession.lts plain ServerSession.plainConfig).restrict
      (ServerSession.Silent 2)).Run x ls y ∧
    ServerSession.plainConfig.sessionTimeout = 60 ∧ y.1.lastRecv = 60 ∧
    ∃ s' o, y.1.step ServerSession.plainConfig (ServerSession.plainEnv 63 0) .tick =
      .ok (s', o, true) := by
  obtain ⟨ls, x, run, hup, hk, -, hr, hlast⟩ := ServerSession.exists_plain_session
  have hopen : (newKeys plain false (5, 133)).advance.open [0] =
    .ok ((newKeys plain false (5, 133)).advance, .error .short) := rfl
  have hstep : x.1.step ServerSession.plainConfig (ServerSession.plainEnv 60 0)
      (.recv (some [0])) = .ok ({ x.1 with lastRecv := 60, stats := x.1.stats.dropped },
        {}, true) := by
    simp only [ServerSession.step, ServerSession.loop, ServerSession.drainRecv,
      ServerSession.handle, hk, hopen, Go.ok_bind]
    rfl
  refine ⟨x, ({ x.1 with lastRecv := 60, stats := x.1.stats.dropped }, true),
    [(ServerSession.plainEnv 60 0, .recv (some [0]))], run.reachable,
    by rw [hk]; rfl, le_of_eq hlast, .snoc .nil ⟨⟨by decide, ?_⟩, hup, {}, hstep⟩, rfl, rfl, ?_⟩
  · rintro data k k' f hd hk'
    cases hd
    rw [hk] at hk'
    cases hk'
    rw [hopen]
    intro h
    cases h
  · refine ⟨{ x.1 with lastRecv := 60, stats := x.1.stats.dropped }, {}, ?_⟩
    simp only [ServerSession.step, ServerSession.loop, ServerSession.tick, hk, hr]
    rfl

end VibeVpn

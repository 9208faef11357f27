import VibeVpn.Session.Cookie
import VibeVpn.Session.RateBound
import VibeVpn.Session.Uplink

/-!
# What a flood of first messages costs

Reading a first message costs the server Diffie-Hellman operations, before it knows anything about
the client.  `handshake1` does it for a message that passes the rate limit of its address, or brings
a cookie for it.  Here the rate limit and the cookies are those of one `Manager`, which all sessions
share, in every interleaving of the server.

## The model

`Guarded` is the server with `cookieRate`.  The environment of a run loop gets the manager's
`requireCookie`, `validCookie` and `cookieFor` (`Guarded.act`), and the clock does not run
backwards.  The history keeps the calls of `requireCookie`, the cookies sent (`issued`) and the
first messages that were read (`work`).

An attacker who does not see what the server sends to an address cannot make a cookie for it: in the
runs considered, a valid cookie is one that the server has sent to somebody (`Guarded.Feasible`).

## Main results

* `Guarded.Inv` : the rate limit has answered for the work done without a cookie, and cookies for
  the rest;
* `Guarded.work_bounded` : **of the first messages from an address, at most 40 within 10 seconds are
  read without a cookie**, and with a cookie only one that the server has sent to this very address,
  in the current window or the one before.
-/

namespace VibeVpn

variable {S : Suite}

/-! ### The decision about a first message -/

namespace ServerSession

variable {env : ServerEnv S} {s : ServerSession S} {ip data : Bytes}

/-- The cookie that a first message brings. -/
def cookieOf (data : Bytes) : Option Bytes :=
  if data.length = hs1Len + cookieLen then some (data.drop hs1Len) else none

theorem decision_bare (hip : s.peerIP = some ip) (hlen : data.length = hs1Len) :
    decision env s data =
      .ok (if env.requireCookie ip then .challenge (env.cookieFor ip) else .noise data) := by
  rw [decision, splitCookie_of_length hlen, Go.ok_bind]
  simp only [challenge, hip]
  split_ifs <;> rfl

theorem decision_presented (hip : s.peerIP = some ip)
    (hlen : data.length = hs1Len + cookieLen) :
    decision env s data = .ok (if env.validCookie ip (data.drop hs1Len)
      then .noise (data.take hs1Len) else .challenge (env.cookieFor ip)) := by
  have htake : (data.take hs1Len).length = hs1Len := by
    rw [List.length_take]
    omega
  have hdrop : (data.drop hs1Len).length = cookieLen := by
    rw [List.length_drop]
    omega
  have h := decision_cookie hip htake hdrop env
  rwa [List.take_append_drop] at h

theorem decision_malformed (hlen : data.length ≠ hs1Len)
    (hlen' : data.length ≠ hs1Len + cookieLen) : decision env s data = .ok .malformed := by
  have hsplit : splitCookie data = .ok none := by
    simp [splitCookie, hlen, hlen', Go.pure_eq_ok]
  rw [decision, hsplit, Go.ok_bind]
  rfl

theorem decision_hidden (hip : s.peerIP = none) (env : ServerEnv S) (data : Bytes) :
    (∃ n, decision env s data = .ok (.noise n)) ∨ decision env s data = .ok .malformed := by
  obtain ⟨r, hr, -⟩ := splitCookie_eq data
  rw [decision, hr, Go.ok_bind]
  cases r with
  | none => exact .inr rfl
  | some mc =>
    simp only [challenge, hip]
    exact .inl ⟨_, rfl⟩

end ServerSession

namespace Daemon

variable {cfg : ServerConfig} {x x' : Daemon S} {l : Label S} {o : Out S}

theorem loop_peerIP {env : ServerEnv S} {s s' : ServerSession S} {ev : ServerSession.Event}
    {running : Bool} (h : s.loop cfg env ev = .ok (s', o, running)) : s'.peerIP = s.peerIP := by
  cases ServerSession.loop_spec h with
  | recv hh => cases hh <;> rfl
  | idle => rfl
  | sent => rfl
  | timeout => rfl

theorem sendCloseQuiet_peerIP {env : ServerEnv S} {s s' : ServerSession S}
    (h : s.sendCloseQuiet cfg env = .ok (s', o)) : s'.peerIP = s.peerIP := by
  obtain ⟨rfl, -⟩ | ⟨ep, fs, sent, -, -, rfl, -⟩ := ServerSession.sendCloseQuiet_spec h
  · rfl
  · rfl

/-- A session keeps the address of its peer, which it gets from `HandleTransport`. -/
theorem Moves.peerIP (hm : Moves cfg x l (x', o)) {q : Proc S} (hq : q ∈ x'.procs) :
    (∃ p ∈ x.procs, q.session.peerIP = p.session.peerIP) ∨
      ∃ i now, l = .insert i q.session.peerIP now := by
  have hset : ∀ {s : Ref} {p q' : Proc S}, x.procs[s]? = some p →
      q ∈ x.procs.set s q' → q'.session.peerIP = p.session.peerIP →
      ∃ p ∈ x.procs, q.session.peerIP = p.session.peerIP := by
    intro s p q' hp hmem heq
    obtain hold | rfl := List.mem_or_eq_of_mem_set hmem
    · exact ⟨q, hold, rfl⟩
    · exact ⟨p, List.mem_of_getElem? hp, heq⟩
  cases hm with
  | check => exact .inl ⟨q, hq, rfl⟩
  | @insert i peerIP now c reg =>
    obtain hold | hnew := List.mem_append.1 hq
    · exact .inl ⟨q, hold, rfl⟩
    · obtain rfl := List.mem_singleton.1 hnew
      exact .inr ⟨i, now, rfl⟩
  | receive hp => exact .inl (hset hp hq rfl)
  | cancel => exact .inl ⟨q, hq, rfl⟩
  | take hp _ ht => exact .inl (hset hp hq (by rw [ht.session_eq]))
  | wake _ hp _ _ hloop => exact .inl (hset hp hq (loop_peerIP hloop))
  | finish => exact .inl ⟨q, hq, rfl⟩
  | close _ hp _ _ hclose => exact .inl (hset hp hq (sendCloseQuiet_peerIP hclose))
  | unrouted => exact .inl ⟨q, hq, rfl⟩
  | lookup => exact .inl ⟨q, hq, rfl⟩
  | lost => exact .inl ⟨q, hq, rfl⟩
  | reply _ _ hp => exact .inl (hset hp hq rfl)

end Daemon

/-- Time passes. -/
theorem RateLimit.Inv.later {b : Option RateBucket} {n : ℕ} {past : List RateLimit.Answer}
    {t t' : ℤ} (h : RateLimit.Inv b n past t) (ht : t ≤ t') : RateLimit.Inv b n past t' :=
  { h with
    time_le := fun a ha => (h.time_le a ha).trans ht
    old := fun a ha hb => (h.old a ha hb).trans_le ht }

/-! ### The server and its manager's rate limit -/

/-- A cookie that was sent. -/
structure Issue where
  /-- The address it was made for and sent to. -/
  ip : Bytes
  /-- The cookie. -/
  cookie : Bytes
  /-- When. -/
  unix : UnixTime

/-- A first message that was read. -/
structure Work where
  /-- The address it came from, if the transport tells. -/
  ip : Option Bytes
  /-- When, on the monotonic clock. -/
  time : ℤ
  /-- The cookie it brought. -/
  cookie : Option Bytes
  /-- When, on the wall clock. -/
  unix : UnixTime

/-- The address and the time of work that was done without a cookie. -/
def Work.free (w : Work) : Option (Bytes × ℤ) :=
  match w.ip, w.cookie with
  | some ip, none => some (ip, w.time)
  | _, _ => none

/-- The server with the rate limit of its manager. -/
structure Guarded (S : Suite) where
  /-- The server. -/
  daemon : Daemon S
  /-- `cookieRate`, with the number of buckets made for each address. -/
  limit : RateLimit.State
  /-- History: the last reading of the clock. -/
  clock : ℤ
  /-- History: the calls of `requireCookie`. -/
  answers : List RateLimit.Answer
  /-- History: the cookies sent. -/
  issued : List Issue
  /-- History: the first messages read. -/
  work : List Work

namespace Guarded

open ServerSession (hs1Len cookieOf)

/-- The server before its first client. -/
def start (S : Suite) (mgr : Manager) (now : ℤ) : Guarded S where
  daemon := .start S mgr
  limit := .start
  clock := now
  answers := []
  issued := []
  work := []

/-- A step of the server, with the clocks it reads. -/
structure Label (S : Suite) where
  /-- The step. -/
  act : Daemon.Label S
  /-- How much later the clock is read again, to set a new limit. -/
  delay : ℕ
  /-- The wall clock. -/
  unix : UnixTime

/-- The clock of a run loop. -/
def Label.now (l : Label S) : Option ℤ :=
  match l.act with
  | .wake _ env _ => some env.now
  | _ => none

/-- The step, with the rate limit and the cookies of the manager. -/
def act (m : CookieOffice) (x : Guarded S) (l : Label S) : Daemon.Label S :=
  match l.act with
  | .wake s env w => .wake s
      { env with
        requireCookie := fun ip => (requireCookie x.limit.rate env.now (env.now + l.delay) ip).2
        validCookie := m.validCookie l.unix
        cookieFor := m.cookieFor l.unix } w
  | a => a

/-- The message that a step hands to `handshake1`, with the session and its environment. -/
def first (x : Daemon S) : Daemon.Label S → Option (ServerSession S × ServerEnv S × Bytes)
  | .wake s env .recv =>
    match x.procs[s]? with
    | none => none
    | some p =>
      match p.taken with
      | some (.datagram data) =>
        if p.session.keys.isNone && p.session.hs.isNone then some (p.session, env, data) else none
      | _ => none
  | _ => none

/-- `requireCookie` counts a first message without a cookie. -/
def count (x : Guarded S) (ip : Option Bytes) (now : ℤ) (delay : ℕ) (data : Bytes) : Guarded S :=
  match ip with
  | none => x
  | some ip =>
    if data.length = hs1Len then
      let r := x.limit.step ⟨ip, now, now, now + delay, Int.le_refl _,
        Int.le_add_of_nonneg_right (Int.natCast_nonneg delay)⟩
      { x with limit := r.1, answers := x.answers ++ [r.2] }
    else x

/-- What a step does to the rate limit and to the history. -/
def note (m : CookieOffice) (x : Guarded S) (l : Label S) : Guarded S :=
  match first x.daemon (x.act m l) with
  | none => x
  | some (s, env, data) =>
    let x := x.count s.peerIP env.now l.delay data
    match s.decision env data with
    | .ok (.noise _) =>
      { x with work := x.work ++ [⟨s.peerIP, env.now, cookieOf data, l.unix⟩] }
    | .ok (.challenge c) => { x with issued := x.issued ++ [⟨s.peerIP.getD [], c, l.unix⟩] }
    | _ => x

/-- One step; the clock does not run backwards. -/
def step (m : CookieOffice) (cfg : ServerConfig) (x : Guarded S) (l : Label S) :
    Except (Option Panic) (Guarded S) :=
  if l.now.all fun now => x.clock ≤ now then
    (x.daemon.step cfg (x.act m l)).map fun r =>
      { x.note m l with
        daemon := r.1
        clock := (l.now.map (· + (l.delay : ℤ))).getD x.clock }
  else .error none

/-- The server in every interleaving. -/
def lts (S : Suite) (m : CookieOffice) (cfg : ServerConfig) : LTS (Guarded S) (Label S) :=
  LTS.ofExcept (step m cfg)

/-! ### What a step does -/

variable {m : CookieOffice} {cfg : ServerConfig} {x x' : Guarded S} {l : Label S}

/-- A session whose transport tells the address `ip`. -/
def Known (x : Guarded S) (ip : Bytes) : Prop := ∃ p ∈ x.daemon.procs, p.session.peerIP = some ip

/-- A first message brings a cookie. -/
def Presents (m : CookieOffice) (x : Guarded S) (l : Label S) (ip c : Bytes) : Prop :=
  ∃ s env data, first x.daemon (x.act m l) = some (s, env, data) ∧ s.peerIP = some ip ∧
    cookieOf data = some c

/-- What a step does to the rate limit and to the history, case by case. -/
inductive Notes (m : CookieOffice) (x : Guarded S) (l : Label S) : Guarded S → Prop where
  /-- There is no first message, or it is malformed. -/
  | quiet : Notes m x l x
  /-- The message is read, since nobody knows where it comes from. -/
  | hidden {t : ℤ} {c : Option Bytes} :
      Notes m x l { x with work := x.work ++ [⟨none, t, c, l.unix⟩] }
  /-- The rate limit lets the message pass. -/
  | passed {c : RateLimit.Call} : l.now = some c.now → c.now' = c.now + l.delay →
      (x.limit.step c).2.cookie = false →
      Notes m x l { x with
        limit := (x.limit.step c).1
        answers := x.answers ++ [(x.limit.step c).2]
        work := x.work ++ [⟨some c.ip, c.time, none, l.unix⟩] }
  /-- The rate limit does not. -/
  | challenged {c : RateLimit.Call} : l.now = some c.now → c.now' = c.now + l.delay →
      x.Known c.ip → (x.limit.step c).2.cookie = true →
      Notes m x l { x with
        limit := (x.limit.step c).1
        answers := x.answers ++ [(x.limit.step c).2]
        issued := x.issued ++ [⟨c.ip, m.cookieFor l.unix c.ip, l.unix⟩] }
  /-- The message brings a valid cookie. -/
  | paid {ip c : Bytes} {t : ℤ} : x.Known ip → Presents m x l ip c →
      m.validCookie l.unix ip c = true →
      Notes m x l { x with work := x.work ++ [⟨some ip, t, some c, l.unix⟩] }
  /-- It brings another one. -/
  | bounced {ip : Bytes} : x.Known ip →
      Notes m x l { x with
        issued := x.issued ++ [⟨ip, m.cookieFor l.unix ip, l.unix⟩] }

theorem first_eq_some {y : Daemon S} {a : Daemon.Label S} {s : ServerSession S}
    {env : ServerEnv S} {data : Bytes} (h : first y a = some (s, env, data)) :
    ∃ r p, a = .wake r env .recv ∧ p ∈ y.procs ∧ p.session = s := by
  unfold first at h
  split at h
  · next r env' =>
    split at h
    · cases h
    · next p hp =>
      split at h
      · split_ifs at h
        cases h
        exact ⟨r, p, rfl, List.mem_of_getElem? hp, rfl⟩
      · cases h
  · cases h

/-- The environment of a run loop is the manager's. -/
theorem act_eq_wake {r : Ref} {env : ServerEnv S} {w : Wake} (h : x.act m l = .wake r env w) :
    l.now = some env.now ∧
      env.requireCookie = (fun ip =>
        (requireCookie x.limit.rate env.now (env.now + l.delay) ip).2) ∧
      env.validCookie = m.validCookie l.unix ∧ env.cookieFor = m.cookieFor l.unix := by
  unfold act at h
  split at h
  · next hact =>
    cases h
    exact ⟨by rw [Label.now, hact], rfl, rfl, rfl⟩
  · next hne => exact absurd h (hne _ _ _)

theorem note_cases (m : CookieOffice) (x : Guarded S) (l : Label S) : Notes m x l (x.note m l) := by
  unfold note
  split
  · exact .quiet
  · next s env data hfirst =>
    obtain ⟨r, p, hact, hp, rfl⟩ := first_eq_some hfirst
    obtain ⟨hnow, hreq, hvalid, hfor⟩ := act_eq_wake hact
    dsimp only
    cases hip : p.session.peerIP with
    | none =>
      obtain ⟨n, hd⟩ | hd := ServerSession.decision_hidden hip env data
      · rw [hd]
        exact .hidden
      · rw [hd]
        exact .quiet
    | some ip =>
      have hknown : x.Known ip := ⟨p, hp, hip⟩
      by_cases hbare : data.length = hs1Len
      · -- a message without a cookie is counted
        have hno : cookieOf data = none := if_neg (by rw [hbare]; decide)
        rw [ServerSession.decision_bare hip hbare, hno, hreq, hfor]
        simp only [count, if_pos hbare]
        split_ifs with hc
        · exact .challenged hnow rfl hknown hc
        · exact .passed hnow rfl (Bool.eq_false_of_not_eq_true hc)
      · simp only [count, if_neg hbare]
        by_cases hlen : data.length = hs1Len + cookieLen
        · have hcookie : cookieOf data = some (data.drop hs1Len) := if_pos hlen
          rw [ServerSession.decision_presented hip hlen, hcookie, hvalid, hfor]
          split_ifs with hv
          · exact .paid hknown ⟨_, _, _, hfirst, hip, hcookie⟩ hv
          · exact .bounced hknown
        · rw [ServerSession.decision_malformed hbare hlen]
          exact .quiet

theorem step_cases (h : (lts S m cfg).step x l x') :
    (∃ o, Daemon.Moves cfg x.daemon (x.act m l) (x'.daemon, o)) ∧
      (∀ now, l.now = some now → x.clock ≤ now ∧ x'.clock = now + l.delay) ∧
      x.clock ≤ x'.clock ∧
      ∃ y, Notes m x l y ∧ x' = { y with daemon := x'.daemon, clock := x'.clock } := by
  simp only [lts, LTS.ofExcept, step] at h
  split_ifs at h with hclock
  obtain ⟨r, hs, h⟩ := Go.map_eq_ok.1 h
  cases h
  refine ⟨⟨r.2, Daemon.step_cases hs⟩, fun now hnow => ?_, ?_, _, note_cases m x l, rfl⟩
  · rw [hnow] at hclock ⊢
    exact ⟨by simpa using hclock, rfl⟩
  · cases hnow : l.now with
    | none => exact Int.le_refl _
    | some now =>
      rw [hnow] at hclock
      have : x.clock ≤ now := by simpa using hclock
      change x.clock ≤ now + (l.delay : ℤ)
      omega

/-! ### What the history says -/

/-- What the outside can do: a valid cookie is one that the server has sent, and transports tell
addresses. -/
structure Feasible (m : CookieOffice) (x : Guarded S) (l : Label S) : Prop where
  unforged : ∀ ip c, Presents m x l ip c → m.validCookie l.unix ip c = true →
    ∃ i ∈ x.issued, i.cookie = c
  address : ∀ i ip now, l.act = .insert i (some ip) now → Cookie.IsIP ip

/-- The answers of the rate limit to an address. -/
def answersFor (x : Guarded S) (ip : Bytes) : List RateLimit.Answer :=
  x.answers.filter fun a => a.call.ip == ip

/-- The address and the time of a call that has passed. -/
def pass (a : RateLimit.Answer) : Option (Bytes × ℤ) :=
  if a.cookie then none else some (a.call.ip, a.call.time)

/-- **The rate limit has answered for the work done without a cookie, and cookies for the rest.** -/
structure Inv (m : CookieOffice) (x : Guarded S) : Prop where
  known : ∀ ip, x.Known ip → Cookie.IsIP ip
  limit : ∀ ip, RateLimit.Inv (x.limit.rate.lookup ip) (x.limit.made ip) (x.answersFor ip) x.clock
  free : x.work.filterMap Work.free = x.answers.filterMap pass
  issued : ∀ i ∈ x.issued, Cookie.IsIP i.ip ∧ i.cookie = m.cookieFor i.unix i.ip
  paid : ∀ w ∈ x.work, ∀ ip c, w.ip = some ip → w.cookie = some c →
    ∃ i ∈ x.issued, i.ip = ip ∧ i.cookie = c ∧
      (w.unix.window - i.unix.window = 0 ∨ w.unix.window - i.unix.window = 1)

theorem Inv.start (m : CookieOffice) (S : Suite) (mgr : Manager) (now : ℤ) :
    Inv m (start S mgr now) where
  known := by
    rintro ip ⟨p, hp, -⟩
    cases hp
  limit _ := .start now
  free := rfl
  issued _ hi := by cases hi
  paid _ hw := by cases hw

/-- A call of `requireCookie` for some address. -/
theorem Inv.call (h : Inv m x) {c : RateLimit.Call} (hc : x.clock ≤ c.now) (ip : Bytes) :
    RateLimit.Inv ((x.limit.step c).1.rate.lookup ip) ((x.limit.step c).1.made ip)
      ((x.answers ++ [(x.limit.step c).2]).filter fun a => a.call.ip == ip) c.now' := by
  have hlim := h.limit ip
  have hcall : (x.limit.step c).2.call = c := rfl
  rw [List.filter_append]
  by_cases hip : c.ip = ip
  · rw [List.filter_cons_of_pos (by simp [hcall, hip])]
    exact hlim.step hip hc
  · rw [List.filter_cons_of_neg (by simp [hcall, hip]), List.filter_nil, List.append_nil]
    have hsame := RateLimit.Same.step_other ⟨rfl, rfl⟩ hip (s := x.limit)
    have := c.now_le
    have := c.le_now'
    rw [hsame.1, hsame.2]
    exact hlim.later (by omega)

/-- A cookie that was sent and is accepted for an address was sent to it. -/
theorem Inv.sent (h : Inv m x) (hm : m.Injective) {ip : Bytes} (hip : Cookie.IsIP ip) {i : Issue}
    (hi : i ∈ x.issued) {t : UnixTime} (hv : m.validCookie t ip i.cookie = true) :
    i.ip = ip ∧ (t.window - i.unix.window = 0 ∨ t.window - i.unix.window = 1) := by
  obtain ⟨hiip, hcookie⟩ := h.issued i hi
  rw [hcookie] at hv
  obtain ⟨heq, hwin⟩ := (CookieOffice.validCookie_iff hm hiip hip).1 hv
  exact ⟨heq.symm, hwin⟩

/-- The addresses that sessions know are addresses. -/
theorem Inv.known_moves (h : Inv m x) (hf : Feasible m x l) {o : Out S}
    (hm : Daemon.Moves cfg x.daemon (x.act m l) (x'.daemon, o)) (ip : Bytes) (hip : x'.Known ip) :
    Cookie.IsIP ip := by
  obtain ⟨q, hq, hip⟩ := hip
  obtain ⟨p, hp, heq⟩ | ⟨i, now, hl⟩ := hm.peerIP hq
  · exact h.known ip ⟨p, hp, heq.symm.trans hip⟩
  · refine hf.address i ip now ?_
    rw [hip] at hl
    unfold act at hl
    split at hl
    · cases hl
    · exact hl

/-- The rate limit of every address, at the time `t` at which the step ends. -/
theorem Notes.limit (hn : Notes m x l x') (h : Inv m x) {t : ℤ}
    (hnow : ∀ now, l.now = some now → x.clock ≤ now ∧ t = now + l.delay) (hle : x.clock ≤ t)
    (ip : Bytes) :
    RateLimit.Inv (x'.limit.rate.lookup ip) (x'.limit.made ip) (x'.answersFor ip) t := by
  have hcalled : ∀ {c : RateLimit.Call}, l.now = some c.now → c.now' = c.now + l.delay →
      RateLimit.Inv ((x.limit.step c).1.rate.lookup ip) ((x.limit.step c).1.made ip)
        ((x.answers ++ [(x.limit.step c).2]).filter fun a => a.call.ip == ip) t := by
    intro c hc hc'
    obtain ⟨hclock, hnext⟩ := hnow _ hc
    rw [hnext, ← hc']
    exact h.call hclock ip
  cases hn with
  | quiet => exact (h.limit ip).later hle
  | hidden => exact (h.limit ip).later hle
  | passed hc hc' => exact hcalled hc hc'
  | challenged hc hc' => exact hcalled hc hc'
  | paid => exact (h.limit ip).later hle
  | bounced => exact (h.limit ip).later hle

/-- Work without a cookie goes with a call that passes. -/
theorem Notes.free (hn : Notes m x l x') (h : Inv m x) :
    x'.work.filterMap Work.free = x'.answers.filterMap pass := by
  have hcovered : ∀ {w : Work}, Work.free w = none →
      (x.work ++ [w]).filterMap Work.free = x.answers.filterMap pass := by
    intro w hw
    simp only [List.filterMap_append, List.filterMap_cons, List.filterMap_nil, hw, h.free,
      List.append_nil]
  cases hn with
  | quiet => exact h.free
  | hidden => exact hcovered rfl
  | @passed c _ _ hans =>
    have hfree : Work.free ⟨some c.ip, c.time, none, l.unix⟩ = some (c.ip, c.time) := rfl
    have hpass : pass (x.limit.step c).2 = some (c.ip, c.time) := by
      rw [pass, hans]
      rfl
    simp only [List.filterMap_append, List.filterMap_cons, List.filterMap_nil, hfree, hpass, h.free]
  | @challenged c _ _ _ hans =>
    have hpass : pass (x.limit.step c).2 = none := by
      rw [pass, hans]
      rfl
    simp only [List.filterMap_append, List.filterMap_cons, List.filterMap_nil, hpass, h.free,
      List.append_nil]
  | paid => exact hcovered rfl
  | bounced => exact h.free

/-- Cookies are made for the address they are sent to. -/
theorem Notes.issued (hn : Notes m x l x') (h : Inv m x) :
    ∀ i ∈ x'.issued, Cookie.IsIP i.ip ∧ i.cookie = m.cookieFor i.unix i.ip := by
  have hnew : ∀ {ip : Bytes}, x.Known ip →
      ∀ i ∈ x.issued ++ [⟨ip, m.cookieFor l.unix ip, l.unix⟩],
        Cookie.IsIP i.ip ∧ i.cookie = m.cookieFor i.unix i.ip := by
    intro ip hk i hi
    obtain hi | hi := List.mem_append.1 hi
    · exact h.issued i hi
    · obtain rfl := List.mem_singleton.1 hi
      exact ⟨h.known _ hk, rfl⟩
  cases hn with
  | quiet => exact h.issued
  | hidden => exact h.issued
  | passed => exact h.issued
  | challenged _ _ hk => exact hnew hk
  | paid => exact h.issued
  | bounced hk => exact hnew hk

/-- Work with a cookie was paid for by a cookie that was sent. -/
theorem Notes.paid_for (hn : Notes m x l x') (h : Inv m x) (hm : m.Injective)
    (hf : Feasible m x l) : ∀ w ∈ x'.work, ∀ ip c, w.ip = some ip → w.cookie = some c →
      ∃ i ∈ x'.issued, i.ip = ip ∧ i.cookie = c ∧
        (w.unix.window - i.unix.window = 0 ∨ w.unix.window - i.unix.window = 1) := by
  intro w hw ip c hip hc
  have hold : w ∈ x.work → ∀ {is : List Issue}, ∃ i ∈ x.issued ++ is, i.ip = ip ∧ i.cookie = c ∧
      (w.unix.window - i.unix.window = 0 ∨ w.unix.window - i.unix.window = 1) := by
    intro hmem is
    obtain ⟨i, hi, hrest⟩ := h.paid w hmem ip c hip hc
    exact ⟨i, List.mem_append_left _ hi, hrest⟩
  cases hn with
  | quiet => exact h.paid w hw ip c hip hc
  | hidden =>
    obtain hw | hw := List.mem_append.1 hw
    · exact h.paid w hw ip c hip hc
    · obtain rfl := List.mem_singleton.1 hw
      cases hip
  | passed =>
    obtain hw | hw := List.mem_append.1 hw
    · exact h.paid w hw ip c hip hc
    · obtain rfl := List.mem_singleton.1 hw
      cases hc
  | challenged => exact hold hw
  | paid hk hpres hv =>
    obtain hw | hw := List.mem_append.1 hw
    · exact h.paid w hw ip c hip hc
    · obtain rfl := List.mem_singleton.1 hw
      cases hip
      cases hc
      -- the cookie was sent to somebody, and is accepted for this address
      obtain ⟨i, hi, rfl⟩ := hf.unforged ip c hpres hv
      obtain ⟨heq, hwin⟩ := h.sent hm (h.known ip hk) hi hv
      exact ⟨i, hi, heq, rfl, hwin⟩
  | bounced => exact hold hw

/-- **One step.** -/
theorem Inv.step (h : Inv m x) (hm : m.Injective) (hf : Feasible m x l)
    (hst : (lts S m cfg).step x l x') : Inv m x' := by
  obtain ⟨⟨o, hmoves⟩, hnow, hle, y, hy, hx'⟩ := step_cases hst
  have hknown := h.known_moves hf hmoves
  have hlimit := hy.limit h hnow hle
  rw [hx'] at hknown ⊢
  exact ⟨hknown, hlimit, hy.free h, hy.issued h, hy.paid_for h hm hf⟩

/-- The work that passed the rate limit is counted in its answers. -/
theorem Inv.countP_work (h : Inv m x) (ip : Bytes) (p : ℤ → Bool) :
    (x.work.countP fun w => w.ip == some ip && w.cookie == none && p w.time) =
      (x.answersFor ip).countP fun a => !a.cookie && p a.call.time := by
  have hcount := congrArg (List.countP fun r : Bytes × ℤ => r.1 == ip && p r.2) h.free
  rw [List.countP_filterMap, List.countP_filterMap] at hcount
  rw [answersFor, List.countP_filter]
  refine Eq.trans (List.countP_congr fun w _ => ?_) (hcount.trans (List.countP_congr fun a _ => ?_))
  · obtain ⟨wip, t, c, u⟩ := w
    cases wip <;> cases c <;> simp [Work.free]
  · unfold pass
    cases a.cookie <;> simp [and_comm]

/-- **A flood is bounded.**  In every run of the server, from an address whose transport tells it,
at most 40 first messages within 10 seconds are read without a cookie, as long as no bucket of the
address gets `2 ^ 32` calls; and a first message with a cookie is read only when the server has sent
this cookie to this very address before, in the same window of an hour or the one before.  The MAC
that makes the cookies is taken to be injective, and a cookie that the server never sent is not
brought (`Feasible`). -/
theorem work_bounded (hm : m.Injective) {mgr : Manager} {now : ℤ} {ls : List (Label S)}
    (hrun : ((lts S m cfg).restrict (Feasible m)).Run (start S mgr now) ls x) (ip : Bytes)
    (hlife : ∀ k, ((x.answersFor ip).countP fun a => a.bucket == k) < 2 ^ 32) :
    (∀ T : ℤ, (x.work.countP fun w => w.ip == some ip && w.cookie == none &&
      (decide (T ≤ w.time) && decide (w.time ≤ T + 10 * 10 ^ 9))) ≤ 40) ∧
    ∀ w ∈ x.work, w.ip = some ip → ∀ c, w.cookie = some c →
      ∃ i ∈ x.issued, i.ip = ip ∧ i.cookie = c ∧
        (w.unix.window - i.unix.window = 0 ∨ w.unix.window - i.unix.window = 1) := by
  have hi : Inv m x := hrun.reachable.invariant (.start m S mgr now)
    fun _ _ _ hi hst => hi.step hm hst.1 hst.2
  refine ⟨fun T => ?_, fun w hw hip c hc => hi.paid w hw ip c hip hc⟩
  have hlim := hi.limit ip
  rw [hi.countP_work ip fun t => decide (T ≤ t) && decide (t ≤ T + 10 * 10 ^ 9)]
  -- an interval of 10 seconds meets at most two buckets
  refine countP_le_of_adjacent RateLimit.Answer.bucket (n := 20) (fun k => ?_) ?_
  · refine Nat.le_trans (List.countP_mono_left fun a _ ha => ?_) (hlim.passed k (hlife k))
    simp only [Bool.and_eq_true] at ha ⊢
    exact ⟨ha.1.1, ha.2⟩
  · intro a ha a' ha' hp hp'
    simp only [Bool.and_eq_true, decide_eq_true_eq] at hp hp'
    by_contra hfar
    have := hlim.apart a ha a' ha' (by omega)
    unfold handshakeRateWindow at this
    omega

/-! ### A message that passes, and one that pays -/

/-- A test for `Feasible`. -/
def isFeasible (m : CookieOffice) (x : Guarded S) (l : Label S) : Bool :=
  ((first x.daemon (x.act m l)).all fun r => (cookieOf r.2.2).all fun c =>
    (x.issued.any fun i => i.cookie == c) ||
      r.1.peerIP.all fun ip => !m.validCookie l.unix ip c) &&
  match l.act with
  | .insert _ (some ip) _ => ip.length == 4
  | _ => true

/-- A first message of the plain suite. -/
def plainFirst : Bytes := Plain.message [1, 7] [1, 2, 3, 4]

/-- An hour after the epoch. -/
def plainHour : UnixTime := ⟨3600, by decide, by decide⟩

/-- A step at that time. -/
def plainAt (a : Daemon.Label plain) : Label plain := ⟨a, 0, plainHour⟩

/-- The cookie for 192.0.2.1 at that time. -/
def plainCookie : Bytes := CookieOffice.cookieFor ⟨plainMac, []⟩ plainHour [192, 0, 2, 1]

theorem feasible_of_test (h : isFeasible m x l = true) : Feasible m x l := by
  obtain ⟨hcookie, hip⟩ := Bool.and_eq_true_iff.1 h
  refine ⟨?_, ?_⟩
  · rintro ip c ⟨s, env, data, hfirst, hpeer, hc⟩ hv
    rw [hfirst] at hcookie
    simp only [Option.all_some, hc, hpeer, hv, Bool.not_true, Bool.or_false] at hcookie
    obtain ⟨i, hi, heq⟩ := List.any_eq_true.1 hcookie
    exact ⟨i, hi, beq_iff_eq.1 heq⟩
  · intro i ip now hact
    rw [hact] at hip
    exact .inl (beq_iff_eq.1 hip)

/-- Two sessions from 192.0.2.1: the first message of one passes; the other one brings a wrong
cookie, gets the right one and brings that. -/
theorem work_bounded_plain : ∃ ls x,
    ((lts plain ⟨plainMac, []⟩ ServerSession.plainConfig).restrict (Feasible ⟨plainMac, []⟩)).Run
      (start plain (.init Registry.smallNet 4) 0) ls x ∧
    x.work.map Work.cookie = [none, some plainCookie] ∧
    (x.work.countP fun w => w.ip == some [192, 0, 2, 1] && w.cookie == none &&
      (decide (0 ≤ w.time) && decide (w.time ≤ 0 + 10 * 10 ^ 9))) ≤ 40 ∧
    ∃ i ∈ x.issued, i.ip = [192, 0, 2, 1] ∧ i.cookie = plainCookie := by
  obtain ⟨x, hrun, hp⟩ := LTS.exists_run_restrict_of_any
    (f := step (S := plain) ⟨plainMac, []⟩ ServerSession.plainConfig)
    (isFeasible ⟨plainMac, []⟩) (fun _ _ => feasible_of_test)
    (start plain (.init Registry.smallNet 4) 0)
    ([.check, .insert 0 (some [192, 0, 2, 1]) 0, .check, .insert 0 (some [192, 0, 2, 1]) 0,
      .receive 0 plainFirst, .take 0 .recv, .wake 0 (ServerSession.plainEnv 1 9) .recv,
      .receive 1 (plainFirst ++ List.replicate 32 0), .take 1 .recv,
      .wake 1 (ServerSession.plainEnv 1 9) .recv, .receive 1 (plainFirst ++ plainCookie),
      .take 1 .recv, .wake 1 (ServerSession.plainEnv 1 9) .recv].map plainAt)
    (fun x => x.work.map Work.cookie == [none, some plainCookie] &&
      (x.work.all (fun w => w.ip == some [192, 0, 2, 1]) && decide (x.answers.length < 2 ^ 32)))
    (by decide +kernel)
  simp only [Bool.and_eq_true, beq_iff_eq, decide_eq_true_eq, List.all_eq_true] at hp
  obtain ⟨hcookies, hips, hlen⟩ := hp
  obtain ⟨hfree, hpaid⟩ := work_bounded plainMac_injective hrun [192, 0, 2, 1] fun k =>
    (List.countP_le_length.trans (List.length_filter_le _ _)).trans_lt hlen
  refine ⟨_, x, hrun, hcookies, hfree 0, ?_⟩
  have hmem : some plainCookie ∈ x.work.map Work.cookie := by
    rw [hcookies]
    exact List.mem_cons_of_mem _ (List.mem_singleton_self _)
  obtain ⟨w, hw, hc⟩ := List.mem_map.1 hmem
  obtain ⟨i, hi, hip, hcookie, -⟩ := hpaid w hw (hips w hw) _ hc
  exact ⟨i, hi, hip, hcookie⟩

end Guarded

end VibeVpn

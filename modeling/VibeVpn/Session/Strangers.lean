import VibeVpn.LTS.Runs
import VibeVpn.Session.Reload

/-!
# What a stranger gets

A stranger is a peer whose session has no keys: it has not shown that it is an allowed client.  This
file is about everything the server puts out on account of such a session, in every interleaving
with the others.

* `ServerSession.loop_cost` : an iteration of the run loop answers a datagram with at most one
  message outside frames, which is at least four bytes shorter than the datagram;
* `Daemon.strangers` : **a stranger gets less than it sends**: in every run, the messages of its
  session, each counted with four more bytes, are not longer than the datagrams that have come from
  it; no frame is sealed for it, nothing reaches the TUN, and the registry has no address for it.

So a spoofed source address is worth nothing to an attacker who wants the server to send more than
it is sent.  The headers that the carrier adds are not counted.
-/

namespace VibeVpn

variable {S : Suite}

/-- The bytes that an output sends outside frames, and four more for each message. -/
def Out.cost (o : Out S) : ℕ := (o.raw.map fun r => r.1.length + 4).sum

namespace ServerSession

variable {cfg : ServerConfig} {env : ServerEnv S} {s s' : ServerSession S} {o : Out S}
  {data : Bytes} {err : Option SessionErr} {running : Bool}

theorem sendRaw_cost (env : ServerEnv S) (b : Bytes) :
    (sendRaw env b).1.cost ≤ b.length + 4 := by
  unfold sendRaw
  split_ifs <;> simp [Out.cost]

/-- A first message is 52 bytes long, or longer by a cookie. -/
theorem splitCookie_length {m : Bytes} {c : Option Bytes}
    (h : splitCookie data = .ok (some (m, c))) : hs1Len ≤ data.length := by
  unfold splitCookie at h
  split_ifs at h with hlong hshort
  · omega
  · omega
  · cases h

theorem respond_cost (hX : S.XKLaws) {m : Bytes} (h : respond cfg env s m = (s', o, err)) :
    o.cost ≤ 52 := by
  unfold respond at h
  split at h
  · cases h; exact Nat.zero_le _
  · next r hr =>
    split at h
    · cases h; exact Nat.zero_le _
    · next st hst =>
      split_ifs at h
      · cases h; exact Nat.zero_le _
      · dsimp only at h
        split at h
        · cases h; exact Nat.zero_le _
        · next st₂ hst₂ =>
          have hlen := hX.second_length ⟨r, env.seed, st, st₂, hr, hst, hst₂, rfl, rfl⟩
          have hcost := sendRaw_cost env st₂.out
          obtain ⟨-, hsend⟩ := Prod.mk.inj h
          rw [hsend, hlen] at hcost
          exact hcost

theorem handshake1_cost (hX : S.XKLaws) (hc : ∀ ip, (env.cookieFor ip).length = cookieLen)
    (h : s.handshake1 cfg env data = .ok (s', o, err)) : o.cost ≤ data.length := by
  unfold handshake1 at h
  split at h
  · cases h; exact Nat.zero_le _
  · obtain ⟨r, hsplit, h⟩ := Go.bind_eq_ok.1 h
    cases r with
    | none => cases h; exact Nat.zero_le _
    | some mc =>
      have hlong : 52 ≤ data.length := splitCookie_length hsplit
      dsimp only at h
      split at h
      · next c hchallenge =>
        -- the challenge is a cookie
        have hcookie : c.length = cookieLen := by
          unfold challenge at hchallenge
          split at hchallenge
          · cases hchallenge
          · split_ifs at hchallenge
            cases hchallenge
            exact hc _
          · split_ifs at hchallenge
            cases hchallenge
            exact hc _
        have hcost := sendRaw_cost env c
        obtain ⟨-, hsend⟩ := Prod.mk.inj (Except.ok.inj h)
        rw [hsend, hcookie] at hcost
        exact hcost.trans (Nat.le_trans (by decide) hlong)
      · exact (respond_cost hX (Except.ok.inj h)).trans hlong

theorem handshake3_raw (h : s.handshake3 cfg env data = .ok (s', o, err)) : o.raw = [] := by
  unfold handshake3 at h
  split at h
  · cases h; rfl
  · split at h
    · cases h; rfl
    · dsimp only at h
      split_ifs at h
      · cases h; rfl
      · obtain ⟨ip, -, h⟩ := Go.bind_eq_ok.1 h
        cases ip with
        | none => cases h; rfl
        | some ip =>
          dsimp only at h
          split at h
          · cases h
          · obtain ⟨⟨s₁, o₁⟩, hs, h⟩ := Go.bind_eq_ok.1 h
            cases h
            obtain ⟨ep, fs, sent, -, -, rfl⟩ := encryptSend_spec hs
            rfl

theorem handle_cost (hX : S.XKLaws) (hc : ∀ ip, (env.cookieFor ip).length = cookieLen)
    (h : s.handle cfg env data = .ok (s', o, err)) : o.cost ≤ data.length := by
  cases hk : s.keys with
  | none =>
    simp only [handle, hk] at h
    split_ifs at h
    · exact handshake1_cost hX hc h
    · rw [Out.cost, handshake3_raw h]
      exact Nat.zero_le _
  | some k =>
    have hkeyed : s.keys ≠ none := by simp [hk]
    cases handle_spec h with
    | refused hn => exact absurd hn hkeyed
    | tagged hn => exact absurd hn hkeyed
    | answered hn => exact absurd hn hkeyed
    | rejected hn => exact absurd hn hkeyed
    | keyed hn => exact absurd hn hkeyed
    | opened => exact Nat.zero_le _
    | delivered => exact Nat.zero_le _
    | echoed => exact Nat.zero_le _
    | rekey1 => exact Nat.zero_le _
    | aborted => exact Nat.zero_le _
    | rekeyed => exact Nat.zero_le _

/-- The last message of a session is in a frame. -/
theorem sendCloseQuiet_cost (h : s.sendCloseQuiet cfg env = .ok (s', o)) : o.cost = 0 := by
  obtain ⟨-, rfl⟩ | ⟨ep, fs, sent, -, -, -, rfl⟩ := sendCloseQuiet_spec h
  · rfl
  · rfl

/-- The bytes of the datagram that an event brings. -/
def Event.bytes : Event → ℕ
  | .recv (some data) => data.length
  | _ => 0

/-- **A datagram is answered with less than itself, and nothing else is answered.** -/
theorem loop_cost (hX : S.XKLaws) {e : Event} (h : s.loop cfg env e = .ok (s', o, running))
    (hc : ∀ ip, (env.cookieFor ip).length = cookieLen) : o.cost ≤ e.bytes := by
  by_cases hdata : ∃ data, e = .recv (some data)
  · obtain ⟨data, rfl⟩ := hdata
    obtain ⟨⟨s₁, o₁, err⟩, hh, h⟩ := Go.bind_eq_ok.1 h
    cases h
    exact handle_cost hX hc hh
  · cases loop_spec h with
    | idle => exact Nat.zero_le _
    | recv => exact absurd ⟨_, rfl⟩ hdata
    | sent => exact Nat.zero_le _
    | timeout => exact Nat.zero_le _

end ServerSession

namespace Daemon

variable {cfg : ServerConfig} {x x' : Daemon S} {l : Label S} {o : Out S} {s : Ref}

/-! ### The record of a run -/

/-- What a session puts out in a step. -/
def shows (cfg : ServerConfig) (x : Daemon S) (l : Label S) : List (Ref × Out S) :=
  match l.session, x.step cfg l with
  | some s, .ok r => [(s, r.2)]
  | _, _ => []

/-- What the messages of a session outside frames amount to. -/
def told (s : Ref) (record : List (Ref × Out S)) : ℕ :=
  (record.map fun r => if r.1 = s then r.2.cost else 0).sum

/-- The bytes that come from the peer of a session. -/
def Label.heard (s : Ref) : Label S → ℕ
  | .receive r data => if r = s then data.length else 0
  | _ => 0

/-- The bytes of datagrams. -/
def waiting (ch : List Bytes) : ℕ := (ch.map List.length).sum

/-- The bytes that wait for the run loop of a session. -/
def backlog (s : Ref) (x : Daemon S) : ℕ :=
  match x.procs[s]? with
  | none => 0
  | some p => waiting p.datagrams

/-- Cookies have their length. -/
def Cookies (l : Label S) : Prop :=
  ∀ s env w, l = .wake s env w → ∀ ip, (env.cookieFor ip).length = cookieLen

theorem shows_eq (h : x.step cfg l = .ok (x', o)) : (l.session = none ∧ shows cfg x l = []) ∨
    ∃ r, l.session = some r ∧ shows cfg x l = [(r, o)] := by
  unfold shows
  rw [h]
  cases l.session with
  | none => exact .inl ⟨rfl, rfl⟩
  | some r => exact .inr ⟨r, rfl, rfl⟩

theorem told_append (s : Ref) (a b : List (Ref × Out S)) :
    told s (a ++ b) = told s a + told s b := by
  simp [told]

/-- A step adds to the record of its own session. -/
theorem told_shows (h : x.step cfg l = .ok (x', o)) :
    told s (shows cfg x l) = if l.session = some s then o.cost else 0 := by
  obtain ⟨hl, hshows⟩ | ⟨r, hl, hshows⟩ := shows_eq h
  · rw [hshows, if_neg (by simp [hl])]
    rfl
  · rw [hshows, hl]
    simp [told]

theorem bytes_of_not_isDatagram {ev : ServerSession.Event} (h : ev.isDatagram = false) :
    ev.bytes = 0 := by
  cases ev with
  | recv data =>
    cases data with
    | none => rfl
    | some => cases h
  | _ => rfl

theorem next_bytes {p p' : Proc S} {w : Wake} {ev : ServerSession.Event} (h : p.Next w ev p') :
    waiting p'.datagrams + ev.bytes = waiting p.datagrams := by
  obtain ⟨heq, hev⟩ | ⟨d, rfl, heq⟩ := h.datagrams_cases
  · rw [heq, bytes_of_not_isDatagram hev, Nat.add_zero]
  · rw [heq]
    exact Nat.add_comm _ _

/-- A process changes. -/
theorem backlog_set (reg : Registry) (tunLoop : Option (SessionView × Routed)) {r : Ref}
    {p q : Proc S} (hp : x.procs[r]? = some p) (s : Ref) :
    backlog s ⟨reg, x.procs.set r q, tunLoop⟩ + (if r = s then waiting p.datagrams else 0) =
      backlog s x + if r = s then waiting q.datagrams else 0 := by
  unfold backlog
  by_cases hrs : r = s
  · subst hrs
    obtain ⟨hlt, -⟩ := List.getElem?_eq_some_iff.1 hp
    simp only [List.getElem?_set_self hlt, hp, if_true]
    exact Nat.add_comm _ _
  · simp only [List.getElem?_set_ne hrs, if_neg hrs]

/-- Nothing waits for a new process. -/
theorem backlog_snoc (reg : Registry) (tunLoop : Option (SessionView × Routed)) {q : Proc S}
    (hq : q.datagrams = []) (s : Ref) : backlog s ⟨reg, x.procs ++ [q], tunLoop⟩ = backlog s x := by
  unfold backlog
  dsimp only
  obtain hlt | rfl | hgt := Nat.lt_trichotomy s x.procs.length
  · rw [List.getElem?_append_left hlt]
  · rw [List.getElem?_concat_length, List.getElem?_eq_none (Nat.le_refl _)]
    simp [waiting, hq]
  · rw [List.getElem?_eq_none (Nat.le_of_lt hgt), List.getElem?_eq_none]
    rw [List.length_append]
    exact hgt

/-- **The balance of one step**: what waits for a session, with what the step answers. -/
theorem Moves.cost (hm : Moves cfg x l (x', o)) (hX : S.XKLaws) (hc : Cookies l) (s : Ref) :
    (if l.session = some s then o.cost else 0) + backlog s x' ≤ backlog s x + l.heard s := by
  -- a step that is not of a session, and leaves what waits for the sessions
  have hidle : backlog s x' = backlog s x → l.session = none →
      (if l.session = some s then o.cost else 0) + backlog s x' ≤ backlog s x + l.heard s := by
    intro hb hl
    rw [if_neg (by simp [hl]), hb]
    omega
  cases hm with
  | check => exact hidle rfl rfl
  | @insert i peerIP now c reg =>
    exact hidle (backlog_snoc reg x.tunLoop rfl s) rfl
  | @receive r data p hp =>
    have hset := backlog_set x.reg x.tunLoop (q := { p with recvCh := p.recvCh ++ [data] }) hp s
    have hone : waiting (Proc.datagrams { p with recvCh := p.recvCh ++ [data] }) =
        waiting p.datagrams + data.length := by
      simp [waiting, Proc.datagrams_snoc]
    simp only [Label.session, Label.heard, hone, reduceCtorEq, if_false] at hset ⊢
    split_ifs at hset ⊢ <;> omega
  | cancel => exact hidle rfl rfl
  | @take r w p p' hp _ ht =>
    have hset := backlog_set x.reg x.tunLoop (q := p') hp s
    rw [ht.datagrams_eq] at hset
    exact hidle (by omega) rfl
  | @wake r env w e p p' ev session o running reg he hp hrun hnext hloop hreg =>
    have hset := backlog_set reg x.tunLoop (q := { p' with session, running }) hp s
    have hsame : Proc.datagrams { p' with session, running } = p'.datagrams := rfl
    have hbytes := next_bytes hnext
    have hcookies : ∀ ip, (env.cookieFor ip).length = cookieLen := hc r env w rfl
    have hcost := ServerSession.loop_cost hX hloop hcookies
    simp only [Label.session, Label.heard, Option.some.injEq, hsame] at hset ⊢
    split_ifs at hset ⊢ <;> omega
  | finish => exact hidle rfl rfl
  | @close r env e p session o _ hp _ _ hclose =>
    have hset := backlog_set x.reg x.tunLoop (q := { p with session, closed := true }) hp s
    have hsame : Proc.datagrams { p with session, closed := true } = p.datagrams := rfl
    have hraw := ServerSession.sendCloseQuiet_cost hclose
    simp only [Label.session, Label.heard, hraw, hsame] at hset ⊢
    split_ifs at hset ⊢ <;> omega
  | unrouted => exact hidle rfl rfl
  | lookup => exact hidle rfl rfl
  | lost => exact hidle rfl rfl
  | @reply v q r p _ _ hp =>
    have hset := backlog_set x.reg none (q := { p with replyCh := p.replyCh ++ [q] }) hp s
    exact hidle (Nat.add_right_cancel hset) rfl

/-- An established session stays established. -/
theorem Moves.keyed (hm : Moves cfg x l (x', o)) {p : Proc S} (hp : x.procs[s]? = some p)
    (hk : p.session.keys.isSome = true) :
    ∃ p', x'.procs[s]? = some p' ∧ p'.session.keys.isSome = true := by
  have hset : ∀ {r : Ref} {q q' : Proc S}, x.procs[r]? = some q →
      (q.session.keys.isSome = true → q'.session.keys.isSome = true) →
      ∃ p', (x.procs.set r q')[s]? = some p' ∧ p'.session.keys.isSome = true := by
    intro r q q' hq hkeys
    by_cases hrs : r = s
    · subst hrs
      obtain ⟨hlt, -⟩ := List.getElem?_eq_some_iff.1 hp
      cases hp.symm.trans hq
      exact ⟨q', List.getElem?_set_self hlt, hkeys hk⟩
    · exact ⟨p, (List.getElem?_set_ne hrs).trans hp, hk⟩
  cases hm with
  | check => exact ⟨p, hp, hk⟩
  | insert =>
    obtain ⟨hlt, -⟩ := List.getElem?_eq_some_iff.1 hp
    exact ⟨p, (List.getElem?_append_left hlt).trans hp, hk⟩
  | receive hq => exact hset hq id
  | cancel => exact ⟨p, hp, hk⟩
  | take hq _ ht => exact hset hq fun hkeys => by rw [ht.session_eq]; exact hkeys
  | wake _ hq _ _ hloop =>
    refine hset hq fun hkeys => ?_
    cases loop_identified hloop with
    | same _ _ hsame => exact hsame.trans hkeys
    | refused hn => simp [hn] at hkeys
    | admitted _ _ hnew => exact hnew
  | finish => exact ⟨p, hp, hk⟩
  | close _ hq _ _ hclose =>
    exact hset hq fun hkeys => (sendCloseQuiet_identity hclose).2.2.trans hkeys
  | unrouted => exact ⟨p, hp, hk⟩
  | lookup => exact ⟨p, hp, hk⟩
  | lost => exact ⟨p, hp, hk⟩
  | reply _ _ hq => exact hset hq id

/-- A session without keys has no address, and is registered for none and for no client. -/
theorem Coherent.unkeyed (h : Coherent x) {p : Proc S} (hp : x.procs[s]? = some p)
    (hk : p.session.keys = none) : p.session.ip = none ∧
      (∀ k, x.reg.mgr.byIP.lookup k ≠ some s) ∧
      ∀ key, x.reg.mgr.byStatic.lookup key ≠ some s := by
  obtain ⟨hlt, -⟩ := List.getElem?_eq_some_iff.1 hp
  obtain ⟨e, he⟩ : ∃ e, x.reg.mgr.heap[s]? = some e :=
    ⟨_, List.getElem?_eq_getElem (h.length ▸ hlt)⟩
  -- the registry says of the session what it says itself
  have hag := h.agree s e p he hp
  have hip : e.ip = none := by
    have hkeys := hag.keys
    rw [hk] at hkeys
    simpa using hkeys.symm
  refine ⟨hag.ip.trans hip, fun k hreg => ?_, fun key hreg => ?_⟩
  · obtain ⟨e', he', hheld⟩ := column_eq_some.1 ((h.indexed.byIP k s).1 hreg)
    cases he.symm.trans he'
    simp [Entry.heldIP_of_ip hip] at hheld
  · obtain ⟨e', he', hheld⟩ := column_eq_some.1 ((h.indexed.byStatic key s).1 hreg)
    cases he.symm.trans he'
    simp [Entry.heldKey_of_ip hip] at hheld

/-- The server with the record of what its sessions put out. -/
def recordedLts (S : Suite) (cfg : ServerConfig) :
    LTS (Daemon S × List (Ref × Out S)) (Label S) :=
  ((lts S cfg).recording (shows cfg)).restrict fun _ l => Cookies l

/-- Whoever has sealed a frame or written to the TUN is established. -/
def Spoke (y : Daemon S × List (Ref × Out S)) : Prop :=
  ∀ r ∈ y.2, (r.2.frames ≠ [] ∨ r.2.tun ≠ []) →
    ∃ p, y.1.procs[r.1]? = some p ∧ p.session.keys.isSome = true

theorem Spoke.step {y y' : Daemon S × List (Ref × Out S)} (h : Spoke y) (hc : Coherent y.1)
    (hst : (recordedLts S cfg).step y l y') : Spoke y' := by
  obtain ⟨-, hmove, hrec⟩ := hst
  obtain ⟨o, hstep⟩ := lts_step hmove
  have hm := step_cases hstep
  intro r hr ho
  rw [hrec] at hr
  obtain hr | hr := List.mem_append.1 hr
  · obtain ⟨p, hp, hk⟩ := h r hr ho
    exact hm.keyed hp hk
  · obtain ⟨-, hnone⟩ | ⟨q, hq, hone⟩ := shows_eq hstep
    · rw [hnone] at hr
      cases hr
    · rw [hone] at hr
      obtain rfl := List.mem_singleton.1 hr
      obtain ⟨q', e, p, p', hq', -, -, -, hp', hk'⟩ := hm.speaks hc ho
      cases hq.symm.trans hq'
      exact ⟨p', hp', hk'⟩

/-- **Strangers.**  In every run of the server, with cookies of 32 bytes, a session without keys has
sent fewer bytes than it was sent: its messages, each counted with four more bytes, are not longer
than the datagrams that have come from its peer.  No frame was sealed for it and nothing of its was
written to the TUN; it has no address, and is registered for none and for no client. -/
theorem strangers (hX : S.XKLaws) {subnet : Option IPNet} {maxSessions : ℤ} {m : Manager}
    (h₀ : Manager.new subnet maxSessions = .ok m) {ls : List (Label S)}
    {record : List (Ref × Out S)} (hrun : (recordedLts S cfg).Run (start S m, []) ls (x, record))
    {p : Proc S} (hp : x.procs[s]? = some p) (hk : p.session.keys = none) :
    told s record ≤ (ls.map (Label.heard s)).sum ∧
    (∀ r ∈ record, r.1 = s → r.2.frames = [] ∧ r.2.tun = []) ∧
    p.session.ip = none ∧
    (∀ k, x.reg.mgr.byIP.lookup k ≠ some s) ∧ ∀ key, x.reg.mgr.byStatic.lookup key ≠ some s := by
  have hstep : ∀ y l y', Coherent y.1 ∧ Spoke y → (recordedLts S cfg).step y l y' →
      (Coherent y'.1 ∧ Spoke y') ∧
        told s y'.2 + backlog s y'.1 ≤ told s y.2 + backlog s y.1 + Label.heard s l := by
    rintro y l y' ⟨hcoh, hspoke⟩ hst
    have hspoke' := hspoke.step hcoh hst
    obtain ⟨hcookies, hmove, hrec⟩ := hst
    obtain ⟨o, hstep⟩ := lts_step hmove
    have hm := step_cases hstep
    have hcost := hm.cost hX hcookies s
    have htold : told s y'.2 = told s y.2 + if l.session = some s then o.cost else 0 := by
      rw [hrec, told_append, told_shows hstep]
    exact ⟨⟨hm.coherent hcoh, hspoke'⟩, by omega⟩
  have hstart : Coherent (start S m) ∧ Spoke (start S m, ([] : List (Ref × Out S))) :=
    ⟨.start h₀, fun r hr => by cases hr⟩
  obtain ⟨⟨hcoh, hspoke⟩, hbytes⟩ := hrun.balance_le (I := fun y => Coherent y.1 ∧ Spoke y)
    (f := fun y => told s y.2 + backlog s y.1) hstart hstep
  have hzero : told s ([] : List (Ref × Out S)) + backlog s (start S m) = 0 := rfl
  refine ⟨by dsimp only at hbytes; omega, fun r hr hrs => ?_, hcoh.unkeyed hp hk⟩
  by_contra hno
  obtain ⟨q, hq, hkeyed⟩ := hspoke r hr (by rwa [not_and_or] at hno)
  rw [hrs] at hq
  cases hp.symm.trans hq
  simp [hk] at hkeyed

/-- The outside of a session that asks for cookies. -/
def plainChallenge : ServerEnv plain :=
  { ServerSession.plainEnv 1 9 with
    requireCookie := fun _ => true
    cookieFor := fun _ => List.replicate 32 0 }

/-- The same, with a cookie that is accepted. -/
def plainAccept : ServerEnv plain := { plainChallenge with requireCookie := fun _ => false }

/-- A stranger sends a first message twice, and gets a cookie and the second message of the
handshake. -/
theorem strangers_plain : ∃ m ls x record, Manager.new (some Registry.smallNet) 4 = .ok m ∧
    (recordedLts plain ServerSession.plainConfig).Run (start plain m, []) ls (x, record) ∧
    told 0 record = 32 + 4 + (48 + 4) ∧ told 0 record ≤ (ls.map (Label.heard 0)).sum ∧
    ∀ k, x.reg.mgr.byIP.lookup k ≠ some 0 := by
  have hm : Manager.new (some Registry.smallNet) 4 = .ok (.init Registry.smallNet 4) := rfl
  obtain ⟨⟨x, record⟩, hrun, hp⟩ := LTS.exists_run_of_any
    (f := fun (y : Daemon plain × List (Ref × Out plain)) l =>
      ((y.1.step ServerSession.plainConfig l).map Prod.fst).map fun x' =>
        (x', y.2 ++ shows ServerSession.plainConfig y.1 l))
    (start plain (.init Registry.smallNet 4), [])
    [.check, .insert 0 (some [192, 0, 2, 1]) 0, .receive 0 (Plain.message [1, 7] [1, 2, 3, 4]),
      .take 0 .recv, .wake 0 plainChallenge .recv,
      .receive 0 (Plain.message [1, 7] [1, 2, 3, 4]), .take 0 .recv, .wake 0 plainAccept .recv]
    (fun y => told 0 y.2 == 32 + 4 + (48 + 4) &&
      y.1.procs[0]?.any fun p => p.session.keys.isNone) (by decide +kernel)
  simp only [Bool.and_eq_true, beq_iff_eq, Option.any_eq_true, Option.isNone_iff_eq_none] at hp
  obtain ⟨htold, p, hproc, hkeys⟩ := hp
  rw [← LTS.recording_ofExcept (fun (x : Daemon plain) l =>
    (x.step ServerSession.plainConfig l).map Prod.fst) (shows ServerSession.plainConfig)] at hrun
  have hrun' : (recordedLts plain ServerSession.plainConfig).Run _ _ (x, record) :=
    hrun.restrict_of_labels (G := Cookies)
      (by simp [Cookies, plainChallenge, plainAccept, cookieLen])
  obtain ⟨hle, -, -, hip, -⟩ := strangers Plain.xkLaws hm hrun' hproc hkeys
  exact ⟨_, _, x, record, hm, hrun', htold, hle, hip⟩

end Daemon

end VibeVpn

import VibeVpn.Session.Uplink
import VibeVpn.Session.Visits

/-!
# Who receives a packet

`TunLoop` finds the session of a packet's destination in one critical section and hands the packet
over in another; in between it holds only the session's id.  The packet then waits in `replyCh` for
the session's run loop, which takes it and seals it some time later.  What keeps packets apart is
that an id means one session:

* `Daemon.downlink_isolated` : **in every run in which no id is allocated again while `TunLoop`
  holds it, or while a `HandleTransport` call has allocated but not yet inserted it**, a data frame
  is sealed only by a session whose address is the packet's destination and whose client key is the
  one that was registered for the destination at the moment of the lookup.
* `Daemon.downlink_misrouted` : ids do come back, after 2^32 - 1 allocations in the lifetime of a
  session.  One allocation between a lookup and its reply is then enough to hand a packet to
  another client.
-/

namespace VibeVpn

namespace Manager

variable {m m' : Manager} {s : Ref} {e : Entry}

/-- From `m` to `m'` the table of ids only loses entries, and adopted sessions keep their address
and their client. -/
structure Narrows (m m' : Manager) : Prop where
  byID : ∀ k s, m'.byID.lookup k = some s → m.byID.lookup k = some s
  kept : ∀ (s : Ref) (e : Entry), m.heap[s]? = some e → e.ip.isSome →
    ∃ e', m'.heap[s]? = some e' ∧ e'.ip = e.ip ∧ e'.clientKey = e.clientKey

theorem Narrows.trans {m'' : Manager} (h : Narrows m m') (h' : Narrows m' m'') :
    Narrows m m'' := by
  refine ⟨fun k s hs => h.byID k s (h'.byID k s hs), fun s e he hip => ?_⟩
  obtain ⟨e₁, he₁, hip₁, hkey₁⟩ := h.kept s e he hip
  obtain ⟨e₂, he₂, hip₂, hkey₂⟩ := h'.kept s e₁ he₁ (hip₁ ▸ hip)
  exact ⟨e₂, he₂, hip₂.trans hip₁, hkey₂.trans hkey₁⟩

/-- Overwriting a session that is not adopted, or by one with the same address and client. -/
theorem Narrows.set {e' : Entry} (he : m.heap[s]? = some e) (hheap : m'.heap = m.heap.set s e')
    (hkeep : e.ip.isSome → e'.ip = e.ip ∧ e'.clientKey = e.clientKey)
    (hbyID : ∀ k s, m'.byID.lookup k = some s → m.byID.lookup k = some s) : Narrows m m' := by
  refine ⟨hbyID, fun r c hc hip => ?_⟩
  rw [hheap]
  by_cases hr : r = s
  · subst hr
    cases he.symm.trans hc
    exact ⟨e', List.getElem?_set_self (List.getElem?_eq_some_iff.1 he).1, hkeep hip⟩
  · exact ⟨c, by rw [List.getElem?_set_ne (Ne.symm hr)]; exact hc, rfl, rfl⟩

theorem Narrows.adopt (hi : m.Indexed) (he : m.heap[s]? = some e) (hip : e.ip = none)
    {e' : Entry} (hk : e'.clientKey.isSome) {ip : Byte4}
    (ha : m.adopt s e' = .ok (m', some ip)) : Narrows m m' := by
  have hnone : ¬ e.ip.isSome := by simp [hip]
  obtain ⟨hn, -⟩ | ⟨k, -, -, -, rfl⟩ | ⟨k, old, o, -, hp, ho, -, rfl⟩ := adopt_cases ha
  · cases hn
  · exact .set he rfl (fun h => absurd h hnone) fun _ _ h => h
  · obtain ⟨hne, -⟩ := hi.predecessor_active hk hp ho
    have hbump : Narrows m (m.bump old o) :=
      .set ho rfl (fun _ => ⟨rfl, rfl⟩) fun _ _ h => (GoMap.lookup_erase_some.1 h).2
    have he' : (m.bump old o).heap[s]? = some e := by
      simpa [Manager.bump, List.getElem?_set_ne hne] using he
    exact hbump.trans (.set he' rfl (fun h => absurd h hnone) fun _ _ h => h)

theorem Narrows.remove (he : m.heap[s]? = some e) : Narrows m (m.remove s e) := by
  refine .set he rfl (fun _ => ⟨rfl, rfl⟩) fun k r h => ?_
  simp only [Manager.remove, GoMap.eraseIf] at h
  split_ifs at h
  · exact (GoMap.lookup_erase_some.1 h).2
  · exact h

end Manager

namespace Daemon

variable {S : Suite} {cfg : ServerConfig} {x₀ x x' : Daemon S} {l : Label S} {o : Out S}
  {ls : List (Label S)} {r : Routed}

/-! ### The condition -/

/-- An id that is allocated is neither the one `TunLoop` holds nor one that a call in progress has
allocated before. -/
def NotRecycled (x : Daemon S) (l : Label S) : Prop :=
  ∀ m n id, l = .check → x.reg.mgr.handleTransportAlloc = some (m, n, id) →
    (∀ c ∈ x.reg.calls, c.id ≠ id) ∧ ∀ v r, x.tunLoop = some (v, r) → v.sid ≠ id

/-! ### The invariant -/

/-- In the run, `TunLoop` has read the packet, with the session of the given client registered for
its destination. -/
def LookedUp (cfg : ServerConfig) (x₀ : Daemon S) (ls : List (Label S)) (r : Routed) : Prop :=
  ∃ ls₁ ls₂ y s e hdr, ls = ls₁ ++ .lookup r.pkt :: ls₂ ∧ (lts S cfg).Run x₀ ls₁ y ∧
    Header.parse r.pkt = .ok (some hdr) ∧ hdr.dst = r.dst ∧
    y.reg.mgr.byIP.lookup r.dst = some s ∧ y.reg.mgr.heap[s]? = some e ∧ e.clientKey = r.key

theorem LookedUp.snoc (h : LookedUp cfg x₀ ls r) (l : Label S) :
    LookedUp cfg x₀ (ls ++ [l]) r := by
  obtain ⟨ls₁, ls₂, y, s, e, hdr, rfl, hrest⟩ := h
  exact ⟨ls₁, ls₂ ++ [l], y, s, e, hdr, by simp, hrest⟩

/-- The packet belongs to a session with this address and client. -/
def Owned (r : Routed) (ip : Option Byte4) (key : Option Bytes) : Prop :=
  ip = some r.dst ∧ key = r.key

/-- Ids are unambiguous, the id that `TunLoop` holds is that of the session it has looked up or
nobody's, and the packets that a session has not dealt with belong to it. -/
structure Isolated (cfg : ServerConfig) (x₀ : Daemon S) (ls : List (Label S)) (x : Daemon S) :
    Prop where
  coherent : Coherent x
  tabled : x.reg.mgr.Tabled
  nodup : (x.reg.calls.map Call.id).Nodup
  apart : ∀ c ∈ x.reg.calls, x.reg.mgr.byID.lookup c.id = none
  view : ∀ v r, x.tunLoop = some (v, r) → LookedUp cfg x₀ ls r ∧
    (∀ c ∈ x.reg.calls, c.id ≠ v.sid) ∧
    ∀ s, x.reg.mgr.byID.lookup v.sid = some s →
      ∃ e, x.reg.mgr.heap[s]? = some e ∧ Owned r e.ip e.clientKey
  queued : ∀ (s : Ref) (p : Proc S) (r : Routed), x.procs[s]? = some p → r ∈ p.packets →
    LookedUp cfg x₀ ls r ∧ Owned r p.session.ip p.session.clientKey

theorem Isolated.start {subnet : Option IPNet} {maxSessions : ℤ} {m : Manager}
    (h : Manager.new subnet maxSessions = .ok m) :
    Isolated cfg x₀ [] (Daemon.start S m) := by
  have hc := Coherent.start (S := S) h
  obtain ⟨n, -, -, rfl⟩ := Manager.new_eq_ok h
  refine ⟨hc, GoMap.indexes_empty fun _ => rfl, List.nodup_nil, fun c hc => ?_, fun v r hv => ?_,
    fun s p r hp => ?_⟩
  · cases hc
  · cases hv
  · cases hp

/-- A change that narrows the manager and leaves `TunLoop` and the calls in progress alone. -/
theorem Isolated.narrow (h : Isolated cfg x₀ ls x) {reg : Registry} {procs : List (Proc S)}
    (l : Label S) (hc : Coherent { x with reg, procs }) (ht : reg.mgr.Tabled)
    (hcalls : reg.calls = x.reg.calls) (hn : Manager.Narrows x.reg.mgr reg.mgr)
    (hq : ∀ (s : Ref) (p : Proc S) (r : Routed), procs[s]? = some p → r ∈ p.packets →
      LookedUp cfg x₀ ls r ∧ Owned r p.session.ip p.session.clientKey) :
    Isolated cfg x₀ (ls ++ [l]) { x with reg, procs } := by
  refine ⟨hc, ht, ?_, ?_, ?_, ?_⟩
  · dsimp only
    rw [hcalls]
    exact h.nodup
  · intro c hcm
    dsimp only at hcm
    rw [hcalls] at hcm
    refine Option.eq_none_iff_forall_ne_some.2 fun s hs => ?_
    have := h.apart c hcm
    rw [hn.byID c.id s hs] at this
    cases this
  · intro v r hv
    obtain ⟨hlook, hapart, hown⟩ := h.view v r hv
    refine ⟨hlook.snoc l, fun c hcm => hapart c (hcalls ▸ hcm), fun s hs => ?_⟩
    obtain ⟨e, he, hip, hkey⟩ := hown s (hn.byID v.sid s hs)
    obtain ⟨e', he', hip', hkey'⟩ := hn.kept s e he (by simp [hip])
    exact ⟨e', he', hip'.trans hip, hkey'.trans hkey⟩
  · intro s p r hp hr
    obtain ⟨hlook, hown⟩ := hq s p r hp hr
    exact ⟨hlook.snoc l, hown⟩

theorem narrows_refl (m : Manager) : Manager.Narrows m m :=
  ⟨fun _ _ h => h, fun _ e he _ => ⟨e, he, rfl, rfl⟩⟩

/-- What the registry does in an iteration of a run loop. -/
theorem Follows.narrows {s : Ref} {e : Entry} {p : Proc S} {session : ServerSession S}
    {running : Bool} {reg : Registry} (hf : Follows x s e p session running reg)
    (hi : x.reg.mgr.Indexed) (ht : x.reg.mgr.Tabled) (he : x.reg.mgr.heap[s]? = some e) :
    reg.mgr.Tabled ∧ reg.calls = x.reg.calls ∧ Manager.Narrows x.reg.mgr reg.mgr := by
  cases hf with
  | same hreg =>
    subst hreg
    exact ⟨ht, rfl, narrows_refl _⟩
  | refused hreg heip =>
    subst hreg
    exact ⟨ht.set_of_eq he rfl rfl rfl, rfl,
      .set he rfl (fun h => absurd h (by simp [heip])) fun _ _ h => h⟩
  | @admitted key ip m hreg heip hr hadopt =>
    subst hreg
    obtain ⟨hs, -⟩ := List.getElem?_eq_some_iff.1 he
    have ht' : (x.reg.mgr.identify s e key).Tabled := ht.set_of_eq he rfl rfl rfl
    exact ⟨ht'.adopt (hi.identify he heip key) (List.getElem?_set_self hs) rfl
      (Manager.adopt_identify hadopt), rfl, .adopt hi he heip rfl hadopt⟩

/-- A session that has been given packets is adopted, and stays who it is. -/
theorem Follows.owned {s : Ref} {e : Entry} {p : Proc S} {session : ServerSession S}
    {running : Bool} {reg : Registry} (hf : Follows x s e p session running reg)
    (ha : Agrees e p) (hr : Owned r p.session.ip p.session.clientKey) :
    Owned r session.ip session.clientKey := by
  have hnone : e.ip ≠ none := by
    rw [← ha.ip, hr.1]
    exact nofun
  cases hf with
  | same _ hkey hip =>
    rw [hkey, hip]
    exact hr
  | refused _ heip => exact absurd heip hnone
  | admitted _ heip => exact absurd heip hnone

/-- The packets of the sessions after one process was replaced. -/
theorem Isolated.queued_set (h : Isolated cfg x₀ ls x) {s : Ref} {p' : Proc S}
    (hp' : ∀ r ∈ p'.packets,
      LookedUp cfg x₀ ls r ∧ Owned r p'.session.ip p'.session.clientKey)
    {t : Ref} {q : Proc S} (hq : (x.procs.set s p')[t]? = some q) (hr : r ∈ q.packets) :
    LookedUp cfg x₀ ls r ∧ Owned r q.session.ip q.session.clientKey := by
  obtain ⟨-, rfl⟩ | ⟨-, hq⟩ := getElem?_set_cases hq
  · exact hp' r hr
  · exact h.queued t q r hq hr

/-- A new id is allocated. -/
theorem Isolated.check (h : Isolated cfg x₀ ls x) {reg : Registry}
    (hc : Coherent { x with reg }) (hg : NotRecycled x .check)
    (hst : Registry.Step x.reg .check reg) :
    Isolated cfg x₀ (ls ++ [.check]) { x with reg } := by
  cases hst with
  | reject => exact h.narrow .check hc h.tabled rfl ⟨fun _ _ h => h, (narrows_refl _).kept⟩ h.queued
  | @alloc m n id hf ha =>
    obtain ⟨hcalls, hview⟩ := hg m n id rfl ha
    obtain ⟨a, hal, heq⟩ := Option.map_eq_some_iff.1 ha
    cases heq
    have hfree := Manager.lookup_of_allocLoop hal
    refine ⟨hc, h.tabled, ?_, ?_, ?_, ?_⟩
    · dsimp only
      rw [List.map_append, List.map_singleton]
      refine List.nodup_append.2 ⟨h.nodup, List.nodup_singleton _, ?_⟩
      intro a ha b hb hab
      obtain ⟨c, hcm, rfl⟩ := List.mem_map.1 ha
      rw [List.mem_singleton.1 hb] at hab
      exact hcalls c hcm hab
    · intro c hcm
      obtain hcm | hcm := List.mem_append.1 hcm
      · exact h.apart c hcm
      · rw [List.mem_singleton.1 hcm]
        exact hfree
    · intro v r hv
      obtain ⟨hlook, hapart, hown⟩ := h.view v r hv
      refine ⟨hlook.snoc _, fun c hcm => ?_, hown⟩
      obtain hcm | hcm := List.mem_append.1 hcm
      · exact hapart c hcm
      · rw [List.mem_singleton.1 hcm]
        exact (hview v r hv).symm
    · intro s p r hp hr
      obtain ⟨hlook, hown⟩ := h.queued s p r hp hr
      exact ⟨hlook.snoc _, hown⟩

/-- The session of a call enters the table, under an id that nobody else has. -/
theorem Isolated.insert (h : Isolated cfg x₀ ls x) {i : ℕ} {c : Call} {p : Proc S} {born : List ℕ}
    {l : Label S} (hci : x.reg.calls[i]? = some c) (hp : p.packets = [])
    (hc : Coherent { x with
      reg := ⟨x.reg.mgr.handleTransportInsert c.id, x.reg.calls.eraseIdx i, x.reg.ticks, born⟩
      procs := x.procs ++ [p] }) :
    Isolated cfg x₀ (ls ++ [l]) { x with
      reg := ⟨x.reg.mgr.handleTransportInsert c.id, x.reg.calls.eraseIdx i, x.reg.ticks, born⟩
      procs := x.procs ++ [p] } := by
  have hmem := List.mem_of_getElem? hci
  have hrest : ((x.reg.calls.eraseIdx i).map Call.id).Nodup ∧
      ∀ d ∈ x.reg.calls.eraseIdx i, d.id ≠ c.id := Registry.eraseIdx_ids hci h.nodup
  refine ⟨hc, h.tabled.insert (h.apart c hmem), hrest.1, ?_, ?_, ?_⟩
  · intro d hd
    simp only [Manager.handleTransportInsert, GoMap.lookup_insert_eq, if_neg (hrest.2 d hd)]
    exact h.apart d (List.mem_of_mem_eraseIdx hd)
  · intro v r hv
    obtain ⟨hlook, hapart, hown⟩ := h.view v r hv
    refine ⟨hlook.snoc l, fun d hd => hapart d (List.mem_of_mem_eraseIdx hd), fun s hs => ?_⟩
    simp only [Manager.handleTransportInsert, GoMap.lookup_insert_eq,
      if_neg (hapart c hmem).symm] at hs
    obtain ⟨e, he, hown⟩ := hown s hs
    obtain ⟨hlt, -⟩ := List.getElem?_eq_some_iff.1 he
    exact ⟨e, by simpa [Manager.handleTransportInsert, List.getElem?_append, hlt] using he, hown⟩
  · intro s q r hq hr
    obtain hq | ⟨-, rfl⟩ := getElem?_snoc_cases hq
    · obtain ⟨hlook, hown⟩ := h.queued s q r hq hr
      exact ⟨hlook.snoc l, hown⟩
    · rw [hp] at hr
      cases hr

/-- A process changes, and no packet comes to it. -/
theorem Isolated.set (h : Isolated cfg x₀ ls x) (l : Label S) {s : Ref} {p p' : Proc S}
    (hp : x.procs[s]? = some p) (hc : Coherent { x with procs := x.procs.set s p' })
    (hq : ∀ r ∈ p'.packets, r ∈ p.packets) (hip : p'.session.ip = p.session.ip)
    (hkey : p'.session.clientKey = p.session.clientKey) :
    Isolated cfg x₀ (ls ++ [l]) { x with procs := x.procs.set s p' } := by
  refine h.narrow _ hc h.tabled rfl (narrows_refl _) fun t q r ht hr => ?_
  refine h.queued_set (fun r hr => ?_) ht hr
  obtain ⟨hlook, hown⟩ := h.queued s p r hp (hq r hr)
  exact ⟨hlook, hip.trans hown.1, hkey.trans hown.2⟩

/-- `TunLoop` holds a packet for the session that it has looked up. -/
theorem Isolated.lookup (h : Isolated cfg x₀ ls x) (hrun : (lts S cfg).Run x₀ ls x) {pkt : Bytes}
    {hdr : Header} {s : Ref} {e : Entry} (hparse : Header.parse pkt = .ok (some hdr))
    (hs : x.reg.mgr.byIP.lookup hdr.dst = some s) (he : x.reg.mgr.heap[s]? = some e) :
    Isolated cfg x₀ (ls ++ [.lookup pkt]) { x with
      tunLoop := some (⟨e.sid, e.ip⟩, { pkt, dst := hdr.dst, key := e.clientKey }) } := by
  -- the session that is looked up stands in the table under its id
  obtain ⟨e', he', hheld⟩ := column_eq_some.1 ((h.coherent.indexed.byIP hdr.dst s).1 hs)
  cases he.symm.trans he'
  obtain ⟨hip, ht, hr⟩ := Entry.heldIP_eq_some.1 hheld
  have htab : x.reg.mgr.byID.lookup e.sid = some s := by
    refine (h.tabled e.sid s).2 (column_eq_some.2 ⟨e, he, ?_⟩)
    exact Entry.tableID_of_active ⟨by simp [hip], ht, hr⟩
  refine ⟨⟨h.coherent.indexed, h.coherent.length, h.coherent.agree⟩, h.tabled, h.nodup, h.apart,
    fun v r hv => ?_, fun t p r hp hr => ?_⟩
  · cases hv
    refine ⟨⟨ls, [], x, s, e, hdr, by simp, hrun, hparse, rfl, hs, he, rfl⟩, fun c hcm heq => ?_,
      fun t ht => ?_⟩
    · have := h.apart c hcm
      rw [heq, htab] at this
      cases this
    · cases htab.symm.trans ht
      exact ⟨e, he, hip, rfl⟩
  · obtain ⟨hlook, hown⟩ := h.queued t p r hp hr
    exact ⟨hlook.snoc _, hown⟩

/-- `TunLoop` hands its packet to the session that has the id. -/
theorem Isolated.reply (h : Isolated cfg x₀ ls x) (l : Label S) {v : SessionView} {r : Routed}
    {s : Ref} {p : Proc S} (hv : x.tunLoop = some (v, r))
    (hs : x.reg.mgr.byID.lookup v.sid = some s) (hp : x.procs[s]? = some p)
    (hc : Coherent { x with
      procs := x.procs.set s { p with replyCh := p.replyCh ++ [r] }, tunLoop := none }) :
    Isolated cfg x₀ (ls ++ [l]) { x with
      procs := x.procs.set s { p with replyCh := p.replyCh ++ [r] }, tunLoop := none } := by
  -- the id was not recycled, so the session under it is the one that was looked up
  obtain ⟨hlook, -, hown⟩ := h.view v r hv
  obtain ⟨e, he, hip, hkey⟩ := hown s hs
  have ha := h.coherent.agree s e p he hp
  refine ⟨hc, h.tabled, h.nodup, h.apart, fun v r hv => ?_, fun t q r' hq hr' => ?_⟩
  · cases hv
  · have hall := h.queued_set (fun r' hr' => ?_) hq hr'
    · exact ⟨hall.1.snoc _, hall.2⟩
    · rw [Proc.packets_snoc] at hr'
      obtain hr' | hr' := List.mem_append.1 hr'
      · exact h.queued s p r' hp hr'
      · rw [List.mem_singleton.1 hr']
        exact ⟨hlook, ha.ip.trans hip, ha.clientKey.trans hkey⟩

theorem Isolated.step (h : Isolated cfg x₀ ls x) (hrun : (lts S cfg).Run x₀ ls x)
    (hg : NotRecycled x l) (hm : Moves cfg x l (x', o)) : Isolated cfg x₀ (ls ++ [l]) x' := by
  have hc := hm.coherent h.coherent
  cases hm with
  | check hst => exact h.check hc hg hst
  | insert hci hst =>
    cases hst with
    | insert hci' =>
      cases hci.symm.trans hci'
      exact h.insert hci rfl hc
  | receive hp _ => exact h.set _ hp hc (fun _ hr => hr) rfl rfl
  | @cancel s e he =>
    exact h.narrow _ hc (h.tabled.set_of_eq he rfl rfl rfl) rfl
      (.set he rfl (fun _ => ⟨rfl, rfl⟩) fun _ _ h => h) h.queued
  | take hp _ ht =>
    exact h.set _ hp hc (fun _ hr => ht.packets_eq ▸ hr) (by rw [ht.session_eq])
      (by rw [ht.session_eq])
  | @wake s env w e p p' ev session o running reg he hp hrunning hnext hloop hfold =>
    have ha := h.coherent.agree s e p he hp
    have hf := follows he ha (loop_identified hloop) hfold
    obtain ⟨ht, hcalls, hn⟩ := hf.narrows h.coherent.indexed h.tabled he
    refine h.narrow _ hc ht hcalls hn fun t q r hq hr => ?_
    refine h.queued_set (fun r hr => ?_) hq hr
    have hmem : r ∈ p.packets := by
      obtain ⟨heq, -⟩ | ⟨r', -, heq⟩ := hnext.packets_cases
      · exact heq ▸ hr
      · exact heq ▸ List.mem_cons_of_mem r' hr
    obtain ⟨hlook, hown⟩ := h.queued s p r hp hmem
    exact ⟨hlook, hf.owned ha hown⟩
  | finish _ _ hst =>
    cases hst with
    | remove he _ => exact h.narrow _ hc (h.tabled.remove he) rfl (.remove he) h.queued
  | close _ hp _ _ hq =>
    obtain ⟨h₁, h₂, -⟩ := sendCloseQuiet_identity hq
    exact h.set _ hp hc (fun _ hr => hr) h₂ h₁
  | unrouted =>
    exact h.narrow _ hc h.tabled rfl ⟨fun _ _ h => h, (narrows_refl _).kept⟩ h.queued
  | lookup _ hparse hs he => exact h.lookup hrun hparse hs he
  | lost =>
    refine ⟨hc, h.tabled, h.nodup, h.apart, fun v r hv => ?_, fun t p r hp hr => ?_⟩
    · cases hv
    · obtain ⟨hlook, hown⟩ := h.queued t p r hp hr
      exact ⟨hlook.snoc _, hown⟩
  | reply hv hs hp _ => exact h.reply _ hv hs hp hc

/-! ### The data frames -/

/-- A run loop seals a data frame only for a packet from `replyCh`. -/
theorem loop_data {env : ServerEnv S} {s s' : ServerSession S} {ev : ServerSession.Event}
    {running : Bool} (h : s.loop cfg env ev = .ok (s', o, running)) {f : Sealed S} {sent : Bool}
    (hf : (f, sent) ∈ o.frames) (htyp : f.typ = msgData) : ev = .reply f.payload := by
  have hother : ∀ {ep ep' : Endpoint S} {typ : UInt8} {pt : Bytes} {fs : List (Sealed S × Bool)}
      {ok : Bool}, ep.Sends typ pt ep' fs ok → (f, sent) ∈ fs → typ ≠ msgData → False := by
    intro ep ep' typ pt fs ok hsend hmem hne
    exact hne ((hsend.key hmem).1.symm.trans htyp)
  cases ev with
  | cancel =>
    cases h
    cases hf
  | recv d =>
    cases d with
    | none =>
      cases h
      cases hf
    | some data =>
      cases ServerSession.loop_spec h with
      | idle => cases hf
      | sent hev _ _ => exact absurd rfl (hev data)
      | recv hh =>
        cases hh with
        | refused _ hfr => rw [hfr] at hf; cases hf
        | tagged => cases hf
        | answered _ _ _ _ _ _ _ hfr => rw [hfr] at hf; cases hf
        | rejected => cases hf
        | keyed _ _ _ _ _ _ hsend => exact absurd (hother hsend hf (by decide)) id
        | opened => cases hf
        | delivered => cases hf
        | echoed _ _ _ _ hsend => exact absurd (hother hsend hf (by decide)) id
        | rekey1 _ _ _ _ _ _ _ _ hsend => exact absurd (hother hsend hf (by decide)) id
        | aborted => cases hf
        | rekeyed => cases hf
  | reply pkt =>
    simp only [ServerSession.loop] at h
    split_ifs at h
    · obtain ⟨ep, fs, ok, hsend, rfl, rfl, rfl⟩ := ServerSession.encryptSend_last_spec h
      obtain ⟨-, k, -, hby⟩ := hsend.sealedBy hf
      rw [hby.payload]
    · cases h
      cases hf
  | tick =>
    simp only [ServerSession.loop, ServerSession.tick] at h
    split_ifs at h
    · cases h
      cases hf
    · obtain ⟨ep, fs, ok, hsend, rfl, rfl, rfl⟩ := ServerSession.encryptSend_last_spec h
      exact absurd (hother hsend hf (by decide)) id
    · cases h
      cases hf
    · cases h
      cases hf
  | decoy =>
    simp only [ServerSession.loop] at h
    split_ifs at h
    · obtain ⟨ep, fs, ok, hsend, rfl, rfl, rfl⟩ := ServerSession.encryptSend_last_spec h
      exact absurd (hother hsend hf (by decide)) id
    · cases h
      cases hf

/-- What a data frame says about the session that seals it. -/
theorem Moves.data (hm : Moves cfg x l (x', o)) {f : Sealed S} {sent : Bool}
    (hf : (f, sent) ∈ o.frames) (htyp : f.typ = msgData) :
    ∃ s env p r, l = .wake s env .reply ∧ x.procs[s]? = some p ∧ p.taken = some (.packet r) ∧
      f.payload = r.pkt := by
  cases hm with
  | check => cases hf
  | insert => cases hf
  | receive => cases hf
  | cancel => cases hf
  | unrouted => cases hf
  | lookup => cases hf
  | lost => cases hf
  | reply => cases hf
  | take => cases hf
  | finish => cases hf
  | close _ _ _ _ hq =>
    obtain ⟨-, rfl⟩ | ⟨ep, fs, ok, -, hsend, -, rfl⟩ := ServerSession.sendCloseQuiet_spec hq
    · cases hf
    · have := (hsend.key hf).1.symm.trans htyp
      exact absurd this (by decide)
  | @wake s env w e p p' ev session _ running reg he hp _ hnext hloop =>
    have hev := loop_data hloop hf htyp
    cases hnext with
    | @reply r ht => exact ⟨s, env, p, r, rfl, hp, ht, (ServerSession.Event.reply.inj hev).symm⟩
    | cancel => cases hev
    | recv => cases hev
    | tick => cases hev
    | decoy => cases hev

theorem isolated_of_run {subnet : Option IPNet} {maxSessions : ℤ} {m : Manager}
    (h₀ : Manager.new subnet maxSessions = .ok m)
    (hx : ((lts S cfg).restrict NotRecycled).Run (start S m) ls x) :
    Isolated cfg (start S m) ls x := by
  induction hx with
  | nil => exact .start h₀
  | snoc hr hstep ih =>
    obtain ⟨o, hmove⟩ := lts_step hstep.2
    exact ih.step hr.of_restrict hstep.1 (step_cases hmove)

/-- **Downlink isolation.**  In every run in which no id is allocated again while `TunLoop` holds it
or while a call that has allocated it is in progress, a data frame is sealed only for a packet that
`TunLoop` has read and looked up, by a session whose address is the packet's destination and whose
client key was registered for this destination at the moment of the lookup. -/
theorem downlink_isolated {subnet : Option IPNet} {maxSessions : ℤ} {m : Manager}
    (h₀ : Manager.new subnet maxSessions = .ok m)
    (hx : ((lts S cfg).restrict NotRecycled).Run (start S m) ls x)
    (hst : x.step cfg l = .ok (x', o)) {f : Sealed S} {sent : Bool} (hf : (f, sent) ∈ o.frames)
    (htyp : f.typ = msgData) :
    ∃ s env p r, l = .wake s env .reply ∧ x.procs[s]? = some p ∧ f.payload = r.pkt ∧
      LookedUp cfg (start S m) ls r ∧ p.session.ip = some r.dst ∧
      p.session.clientKey = r.key := by
  have hiso := isolated_of_run h₀ hx
  obtain ⟨s, env, p, r, rfl, hp, ht, hpay⟩ := (step_cases hst).data hf htyp
  obtain ⟨hlook, hip, hkey⟩ := hiso.queued s p r hp (by simp [Proc.packets, ht, Taken.packets])
  exact ⟨s, env, p, r, rfl, hp, hpay, hlook, hip, hkey⟩

/-- A test for `NotRecycled`. -/
def isNotRecycled (x : Daemon S) : Label S → Bool
  | .check => x.reg.mgr.handleTransportAlloc.all fun r =>
      x.reg.calls.all (fun c => c.id != r.2.2) && x.tunLoop.all fun v => v.1.sid != r.2.2
  | _ => true

theorem notRecycled_of_test (h : isNotRecycled x l = true) : NotRecycled x l := by
  rintro m n id rfl ha
  simp only [isNotRecycled, ha, Option.all_some, Bool.and_eq_true, List.all_eq_true,
    bne_iff_ne] at h
  refine ⟨h.1, fun v r hv => ?_⟩
  simpa [hv] using h.2

/-- A packet from 8.8.8.8 to 10.77.0.2. -/
def plainReply : Bytes :=
  [0x45, 0, 0, 20, 0, 0, 0, 0, 64, 17, 0, 0, 8, 8, 8, 8, 10, 77, 0, 2]

/-- The session `s` sends the packet it has taken. -/
def plainSend (s : Ref) : Label plain := .wake s (ServerSession.plainEnv 3 9) .reply

/-- The step seals `plainReply` in a data frame. -/
def sealsReply (x : Daemon plain) (l : Label plain) : Bool :=
  (x.step ServerSession.plainConfig l).toOption.any fun r =>
    r.2.frames.any fun f => f.1.typ == msgData && f.1.payload == plainReply

theorem seals_of_test {x : Daemon plain} {l : Label plain} (h : sealsReply x l = true) :
    ∃ x' o f sent, x.step ServerSession.plainConfig l = .ok (x', o) ∧ (f, sent) ∈ o.frames ∧
      f.typ = msgData ∧ f.payload = plainReply := by
  unfold sealsReply at h
  cases hs : x.step ServerSession.plainConfig l with
  | error => rw [hs] at h; cases h
  | ok r =>
    rw [hs] at h
    obtain ⟨f, hf, hb⟩ := List.any_eq_true.1 h
    simp only [Bool.and_eq_true, beq_iff_eq] at hb
    exact ⟨r.1, r.2, f.1, f.2, rfl, hf, hb⟩

/-- Client 42 connects and receives a packet. -/
theorem downlink_isolated_plain : ∃ m ls x x' o f sent,
    Manager.new (some Registry.smallNet) 4 = .ok m ∧
    ((lts plain ServerSession.plainConfig).restrict NotRecycled).Run (start plain m) ls x ∧
    x.step ServerSession.plainConfig (plainSend 0) = .ok (x', o) ∧ (f, sent) ∈ o.frames ∧
    f.typ = msgData ∧ f.payload = plainReply ∧
    ∃ p r, x.procs[0]? = some p ∧ r.pkt = plainReply ∧
      LookedUp ServerSession.plainConfig (start plain m) ls r ∧ p.session.ip = some r.dst ∧
      p.session.clientKey = r.key := by
  have hm : Manager.new (some Registry.smallNet) 4 = .ok (.init Registry.smallNet 4) := rfl
  obtain ⟨x, hrun, hp⟩ := LTS.exists_run_restrict_of_any
    (f := fun (x : Daemon plain) l => (x.step ServerSession.plainConfig l).map Prod.fst)
    isNotRecycled (fun _ _ => notRecycled_of_test) (start plain (.init Registry.smallNet 4))
    (plainJoin 0 42 ++ [.lookup plainReply, .reply, .take 0 .reply])
    (fun x => sealsReply x (plainSend 0)) (by decide +kernel)
  obtain ⟨x', o, f, sent, hst, hf, htyp, hpay⟩ := seals_of_test hp
  refine ⟨_, _, x, x', o, f, sent, hm, hrun, hst, hf, htyp, hpay, ?_⟩
  obtain ⟨s, env, p, r, hl, hproc, hpkt, hrest⟩ := downlink_isolated hm hrun hst hf htyp
  cases hl
  exact ⟨p, r, hproc, hpkt.symm.trans hpay, hrest⟩

/-! ### Ids come back

Client 42 connects, and leaves while `TunLoop` holds a packet for it. -/

/-- The registry when client 42 has connected, as the session 0 with the id 1. -/
def joinedMgr : Manager :=
  { Manager.init Registry.smallNet 4 with
    byID := (∅ : GoMap ℕ Ref).insert 1 0
    byIP := (∅ : GoMap Byte4 Ref).insert ⟨10, 77, 0, 2⟩ 0
    byStatic := (∅ : GoMap Bytes Ref).insert [42] 0
    nextID := 1
    pool := (IpPool.new Registry.smallNet).take ⟨10, 77, 0, 2⟩
    stats := { sessions := 1, sessionsTotal := 1, handshakes := 1 }
    heap := [{ Entry.new 1 with clientKey := some [42], ip := some ⟨10, 77, 0, 2⟩ }] }

/-- Client 42 connects; if it then stays silent, its session ends by the idle timeout. -/
theorem exists_joined : ∃ p,
    (lts plain ServerSession.plainConfig).Run (start plain (.init Registry.smallNet 4))
      (plainJoin 0 42) ⟨⟨joinedMgr, [], 1, [1]⟩, [p], none⟩ ∧ p.running = true ∧
    p.taken = none ∧
    ∃ s o, p.session.loop ServerSession.plainConfig (ServerSession.plainEnv 1000 9) .tick =
        .ok (s, o, false) ∧ sections 0 p.session s = [] :=
  ⟨_, LTS.run_ofExcept_iff.2 rfl, rfl, rfl, _, _, rfl, rfl⟩

/-- The registry when client 42 has gone again and the id counter is about to wrap around. -/
def leftMgr (st : ManagerStats) (H : List Entry) : Manager :=
  { Manager.init Registry.smallNet 4 with
    nextID := 4294967295
    stats := { st with sessions := st.sessions - 1 }
    heap := { Entry.new 1 with
      clientKey := some [42], ip := some ⟨10, 77, 0, 2⟩, removed := true } :: H }

theorem leftMgr_alloc (st : ManagerStats) (H : List Entry) :
    (leftMgr st H).allocIDLocked = some (1, 1) := by
  have : Manager.allocLoop ∅ Manager.idCount 4294967295 = some (1, 1) := rfl
  exact this

/-- What `TunLoop` holds after it has looked `plainReply` up for client 42. -/
def heldReply : SessionView × Routed :=
  (⟨1, some ⟨10, 77, 0, 2⟩⟩, ⟨plainReply, ⟨10, 77, 0, 2⟩, some [42]⟩)

section Recycled

variable {st : ManagerStats} {H : List Entry} {P ps : List (Proc plain)} {t : ℕ} {b : List ℕ}
  {s s' : ServerSession plain} {o : Out plain}

variable (st H P t b) in
/-- `TunLoop` looks a packet for client 42 up, whose session then ends. -/
theorem exists_left {p : Proc plain} (hrun : p.running = true) (htaken : p.taken = none)
    (hloop : p.session.loop ServerSession.plainConfig (ServerSession.plainEnv 1000 9) .tick =
      .ok (s, o, false)) (hsec : sections 0 p.session s = []) :
    ∃ q : Proc plain, (lts plain ServerSession.plainConfig).Run
      (aged ⟨⟨joinedMgr, [], 1, [1]⟩, [p], none⟩ 4294967295 st H P t b)
      [.lookup plainReply, .wake 0 (ServerSession.plainEnv 1000 9) .tick, .finish 0]
      ⟨⟨leftMgr st H, [], t, b⟩, q :: P, some heldReply⟩ := by
  let m : Manager :=
    { joinedMgr with nextID := 4294967295, stats := st, heap := joinedMgr.heap ++ H }
  have h₁ : (aged ⟨⟨joinedMgr, [], 1, [1]⟩, [p], none⟩ 4294967295 st H P t b).step
      ServerSession.plainConfig (.lookup plainReply) =
        .ok (⟨⟨m, [], t, b⟩, p :: P, some heldReply⟩, {}) := rfl
  have h₂ := step_wake (x := ⟨⟨m, [], t, b⟩, p :: P, some heldReply⟩) (w := .tick)
    ServerSession.plainConfig (ServerSession.plainEnv 1000 9) rfl rfl hrun (if_pos htaken) hloop
    (by rw [hsec]; rfl)
  have h₃ := step_finish
    (x := ⟨⟨m, [], t, b⟩, { p with session := s, running := false } :: P, some heldReply⟩)
    ServerSession.plainConfig (s := 0) (p := { p with session := s, running := false })
    (e := { Entry.new 1 with clientKey := some [42], ip := some ⟨10, 77, 0, 2⟩ }) rfl rfl rfl rfl
  exact ⟨_, ((LTS.Run.nil.snoc (lts_of_step h₁)).snoc (lts_of_step h₂)).snoc (lts_of_step h₃)⟩

/-! Client 43 connects, under the id 1 again. -/

/-- A client nobody knows gets an address of the pool. -/
theorem adopt_fresh {m : Manager} {s : Ref} {e : Entry} {pool : IpPool} {ip : Byte4}
    (hstatic : m.byStatic.lookup (e.clientKey.getD []) = none)
    (hpool : m.pool.alloc e.requestedIP = .ok (some (pool, ip))) :
    m.adopt s e = .ok ({ m with pool }.enter s e ip, some ip) := by
  have hpred : m.predecessor s e = none := by simp [Manager.predecessor, hstatic]
  simp only [Manager.adopt, hpred, hpool, Go.ok_bind]
  rfl

theorem answer_of_adopt {m m' : Manager} {s : Ref} {e : Entry} {key : Bytes} {ip : Option Byte4}
    (ha : m.adopt s { e with clientKey := some key } = .ok (m', ip)) :
    answer m s e key = .ok ip := by
  rw [answer, ha]
  rfl

/-- The two critical sections of a successful handshake. -/
theorem foldlM_adopt (reg : Registry) {s : Ref} {e : Entry} {key : Bytes} {m : Manager}
    {ip : Byte4} (he : reg.mgr.heap[s]? = some e) (hip : e.ip = none) (hrem : e.removed = false)
    (ha : reg.mgr.adopt s { e with clientKey := some key } = .ok (m, some ip)) :
    [Registry.Label.identify s key, .adopt s].foldlM Registry.step reg =
      .ok { reg with mgr := m } := by
  obtain ⟨hs, -⟩ := List.getElem?_eq_some_iff.1 he
  have h₁ : reg.step (.identify s key) = .ok { reg with mgr := reg.mgr.identify s e key } := by
    simp [Registry.step, he, hip, hrem]
  have hself : (reg.mgr.identify s e key).heap[s]? = some { e with clientKey := some key } :=
    List.getElem?_set_self hs
  have h₂ : ({ reg with mgr := reg.mgr.identify s e key } : Registry).step (.adopt s) =
      .ok { reg with mgr := m } := by
    have ha' := Manager.adopt_identify ha
    simp only [hip, hrem] at ha' hself ⊢
    simp [Registry.step, hself, ha']
  simp only [List.foldlM_cons, List.foldlM_nil, h₁, h₂, bind, Except.bind, pure, Except.pure]

theorem sections_nil {s : Ref} {a b : ServerSession S} (hk : b.clientKey = none)
    (hip : b.ip = none) : sections s a b = [] := by
  simp [sections, hk, hip]

theorem sections_adopt {s : Ref} {a b : ServerSession S} {key : Bytes} {ip : Byte4}
    (ha : a.clientKey = none) (hipa : a.ip = none) (hk : b.clientKey = some key)
    (hip : b.ip = some ip) : sections s a b = [.identify s key, .adopt s] := by
  simp [sections, ha, hipa, hk, hip]

/-- The registry when another client has connected, under the id 1 again. -/
def againMgr (st : ManagerStats) (H : List Entry) : Manager :=
  { leftMgr st H with nextID := 1 }.handleTransportInsert 1

/-- The first address that the pool gives out. -/
theorem smallNet_alloc : (IpPool.new Registry.smallNet).alloc none =
    .ok (some ((IpPool.new Registry.smallNet).take ⟨10, 77, 0, 2⟩, ⟨10, 77, 0, 2⟩)) := rfl

theorem again_adopt (r : Ref) (key : Bytes) :
    (againMgr st H).adopt r { Entry.new 1 with clientKey := some key } =
      .ok ({ againMgr st H with pool := joinedMgr.pool }.enter r
        { Entry.new 1 with clientKey := some key } ⟨10, 77, 0, 2⟩, some ⟨10, 77, 0, 2⟩) :=
  adopt_fresh rfl smallNet_alloc

/-- The server then, with the process of that client. -/
def again (st : ManagerStats) (H : List Entry) (ps : List (Proc plain)) (t : ℕ) (b : List ℕ)
    (p : Proc plain) : Daemon plain :=
  ⟨⟨againMgr st H, [], t + 1, b ++ [t + 1]⟩, ps ++ [p], some heldReply⟩

/-- The server when client 43 has got its address. -/
def adopted (st : ManagerStats) (H : List Entry) (ps : List (Proc plain)) (t : ℕ) (b : List ℕ)
    (p : Proc plain) (held : Option (SessionView × Routed)) : Daemon plain :=
  ⟨⟨{ againMgr st H with pool := joinedMgr.pool }.enter ps.length
      { Entry.new 1 with clientKey := some [43] } ⟨10, 77, 0, 2⟩, [], t + 1, b ++ [t + 1]⟩,
    ps ++ [p], held⟩

/-- A datagram arrives, and the run loop takes it. -/
theorem again_receive (s : ServerSession plain) (d : Bytes) :
    (lts plain ServerSession.plainConfig).Run (again st H ps t b { session := s })
      [.receive ps.length d, .take ps.length .recv]
      (again st H ps t b { session := s, taken := some (.datagram d) }) := by
  have hrecv := step_receive_last (x := again st H ps t b { session := s })
    ServerSession.plainConfig (d := d) rfl (show 0 < chanCap by decide)
  exact (LTS.Run.nil.snoc (lts_of_step hrecv)).snoc
    (lts_of_step (step_take_last ServerSession.plainConfig rfl rfl rfl))

/-- The registry gives the address that `plainEnv` says. -/
theorem again_loop {r : Ref} {n : ℤ} {ev : ServerSession.Event}
    {a : ServerSession plain × Out plain × Bool}
    (h : s.loop ServerSession.plainConfig (ServerSession.plainEnv n 9) ev = .ok a) :
    s.loop ServerSession.plainConfig { ServerSession.plainEnv n 9 with
      adopt := answer (againMgr st H) r (Entry.new 1) } ev = .ok a := by
  have hans : answer (againMgr st H) r (Entry.new 1) = fun _ => .ok (some ⟨10, 77, 0, 2⟩) := by
    funext key
    exact answer_of_adopt (again_adopt r key)
  rw [hans]
  exact h

theorem again_hello (hlen : (leftMgr st H).heap.length = ps.length) {n : ℤ} {d : Bytes}
    (h : s.loop ServerSession.plainConfig (ServerSession.plainEnv n 9) (.recv (some d)) =
      .ok (s', o, true)) (hkey : s'.clientKey = none) (hip : s'.ip = none) :
    (lts plain ServerSession.plainConfig).step
      (again st H ps t b { session := s, taken := some (.datagram d) })
      (.wake ps.length (ServerSession.plainEnv n 9) .recv) (again st H ps t b { session := s' }) :=
  lts_of_step (step_wake_last
    (x := again st H ps t b { session := s, taken := some (.datagram d) })
    (h := (leftMgr st H).heap) (e := Entry.new 1) (w := .recv) ServerSession.plainConfig
    (ServerSession.plainEnv n 9) rfl rfl hlen rfl rfl (again_loop h)
    (by rw [sections_nil hkey hip]; rfl))

theorem again_auth (hlen : (leftMgr st H).heap.length = ps.length) {n : ℤ} {d : Bytes} {ip : Byte4}
    (h : s.loop ServerSession.plainConfig (ServerSession.plainEnv n 9) (.recv (some d)) =
      .ok (s', o, true)) (hk : s.clientKey = none) (hi : s.ip = none)
    (hkey : s'.clientKey = some [43]) (hip : s'.ip = some ip) :
    (lts plain ServerSession.plainConfig).step
      (again st H ps t b { session := s, taken := some (.datagram d) })
      (.wake ps.length (ServerSession.plainEnv n 9) .recv)
      (adopted st H ps t b { session := s' } (some heldReply)) := by
  have he : (againMgr st H).heap[ps.length]? = some (Entry.new 1) := by
    rw [← hlen]
    exact List.getElem?_concat_length
  have hfold := foldlM_adopt ⟨againMgr st H, [], t + 1, b ++ [t + 1]⟩ he rfl rfl
    (again_adopt ps.length [43])
  rw [← sections_adopt (s := ps.length) hk hi hkey hip] at hfold
  exact lts_of_step (step_wake_last
    (x := again st H ps t b { session := s, taken := some (.datagram d) })
    (h := (leftMgr st H).heap) (e := Entry.new 1) (w := .recv) ServerSession.plainConfig
    (ServerSession.plainEnv n 9) rfl rfl hlen rfl rfl (again_loop h)
    hfold)

/-- `TunLoop` hands its packet over, and the run loop takes it. -/
theorem adopted_reply (hlen : (leftMgr st H).heap.length = ps.length)
    (s : ServerSession plain) :
    (lts plain ServerSession.plainConfig).Run
      (adopted st H ps t b { session := s } (some heldReply)) [.reply, .take ps.length .reply]
      (adopted st H ps t b { session := s, taken := some (.packet heldReply.2) } none) := by
  have hid : ((leftMgr st H).byID.insert 1 (leftMgr st H).heap.length).lookup 1 =
      some ps.length := by
    rw [GoMap.lookup_insert_eq, if_pos rfl, hlen]
  have hreply := step_reply_last (x := adopted st H ps t b { session := s } (some heldReply))
    ServerSession.plainConfig rfl rfl hid (show 0 < chanCap by decide)
  exact (LTS.Run.nil.snoc (lts_of_step hreply)).snoc
    (lts_of_step (step_take_last ServerSession.plainConfig rfl rfl rfl))

/-- Only the handshake asks the registry. -/
theorem loop_reply_adopt (s : ServerSession S) (env : ServerEnv S) (g : Bytes → Go (Option Byte4))
    (pkt : Bytes) :
    s.loop cfg { env with adopt := g } (.reply pkt) = s.loop cfg env (.reply pkt) := rfl

theorem adopted_send (hlen : (leftMgr st H).heap.length = ps.length) {n : ℤ} {ip : Byte4}
    (h : s.loop ServerSession.plainConfig (ServerSession.plainEnv n 9) (.reply plainReply) =
      .ok (s', o, true)) (hk : s.clientKey = some [43]) (hi : s.ip = some ip)
    (hkey : s'.clientKey = some [43]) :
    ∃ x', (adopted st H ps t b { session := s, taken := some (.packet heldReply.2) } none).step
      ServerSession.plainConfig (.wake ps.length (ServerSession.plainEnv n 9) .reply) =
        .ok (x', o) := by
  have hlast : ps.length < (againMgr st H).heap.length := by
    change ps.length < ((leftMgr st H).heap ++ [Entry.new 1]).length
    rw [List.length_append, hlen]
    exact Nat.lt_succ_self _
  have hnil : sections ps.length s s' = [] := by simp [sections, hk, hkey, hi]
  exact ⟨_, step_wake ServerSession.plainConfig (ServerSession.plainEnv n 9)
    (x := adopted st H ps t b { session := s, taken := some (.packet heldReply.2) } none)
    (s := ps.length) (w := .reply) (List.getElem?_set_self hlast)
    List.getElem?_concat_length rfl rfl ((loop_reply_adopt _ _ _ _).trans h) (by rw [hnil]; rfl)⟩

/-- What the session with the id 1 does when client 43 connects and a packet waits for it. -/
theorem exists_plain_client : ∃ s₁ o₁,
    (ServerSession.new plain 1 none 0).loop ServerSession.plainConfig (ServerSession.plainEnv 1 9)
      (.recv (some (Plain.message [1, 7] [1, 2, 3, 4]))) = .ok (s₁, o₁, true) ∧
    s₁.clientKey = none ∧ s₁.ip = none ∧
    ∃ s₂ o₂, s₁.loop ServerSession.plainConfig (ServerSession.plainEnv 2 9)
        (.recv (some [3, 7, 9, 5, 43])) = .ok (s₂, o₂, true) ∧
      s₂.clientKey = some [43] ∧ s₂.ip = some ⟨10, 77, 0, 2⟩ ∧
      ∃ s₃ f sent, s₂.loop ServerSession.plainConfig (ServerSession.plainEnv 3 9)
          (.reply plainReply) = .ok (s₃, { frames := [(f, sent)] }, true) ∧
        s₃.clientKey = some [43] ∧ f.typ = msgData ∧ f.payload = plainReply :=
  ⟨_, _, rfl, rfl, rfl, _, _, rfl, rfl, rfl, _, _, _, rfl, rfl, rfl, rfl⟩

/-- Client 43 gets the id 1, and the packet that `TunLoop` holds. -/
theorem exists_handed (hlen : (leftMgr st H).heap.length = ps.length) :
    ∃ x p x' o f sent, (lts plain ServerSession.plainConfig).Run
      ⟨⟨leftMgr st H, [], t, b⟩, ps, some heldReply⟩
      (plainJoin ps.length 43 ++ [.reply, .take ps.length .reply]) x ∧
      x.procs[ps.length]? = some p ∧ p.session.clientKey = some [43] ∧
      x.step ServerSession.plainConfig (plainSend ps.length) = .ok (x', o) ∧
      (f, sent) ∈ o.frames ∧ f.typ = msgData ∧ f.payload = plainReply := by
  obtain ⟨s₁, o₁, hloop₁, hkey₁, hip₁, s₂, o₂, hloop₂, hkey₂, hip₂, s₃, f, sent, hloop₃, hkey₃,
    htyp, hpay⟩ := exists_plain_client
  have h₁ : (lts plain ServerSession.plainConfig).Run
      ⟨⟨leftMgr st H, [], t, b⟩, ps, some heldReply⟩ [.check, .insert 0 none 0]
      (again st H ps t b { session := .new plain 1 none 0 }) :=
    connect_run rfl rfl (leftMgr_alloc st H)
  have h₂ := (h₁.append (again_receive _ _)).snoc (again_hello hlen hloop₁ hkey₁ hip₁)
  have h₃ := (h₂.append (again_receive _ _)).snoc (again_auth hlen hloop₂ hkey₁ hip₁ hkey₂ hip₂)
  obtain ⟨x', hsend⟩ := adopted_send (t := t) (b := b) hlen hloop₃ hkey₂ hip₂ hkey₃
  exact ⟨_, _, x', _, f, sent, h₃.append (adopted_reply hlen _), List.getElem?_concat_length, hkey₂,
    hsend, List.mem_singleton_self _, htyp, hpay⟩

end Recycled

theorem plainJoin_isTunLoop (s : Ref) (key : UInt8) :
    ∀ l ∈ plainJoin s key, l.isTunLoop = false := by
  simp [plainJoin, Label.isTunLoop]

/-- **One allocation between a lookup and its reply hands a packet to another client.**  Client 42
connects and stays, as the session with the id 1, while 2^32 - 2 peers come and go.  `TunLoop` looks
its address up; its session ends; client 43 connects and gets the id 1, the next one after the
wrap-around; then `TunLoop` replies, and the session of client 43 seals the packet. -/
theorem downlink_misrouted : ∃ m ls₁ ls₂ y x x' o e s p f sent,
    Manager.new (some Registry.smallNet) 4 = .ok m ∧
    (lts plain ServerSession.plainConfig).Run (start plain m) ls₁ y ∧
    (lts plain ServerSession.plainConfig).Run y
      (.lookup plainReply :: ls₂ ++ [.reply, .take s .reply]) x ∧
    (∀ l ∈ ls₁ ++ ls₂, l.isTunLoop = false) ∧ ls₂.countP Label.isCheck = 1 ∧
    y.reg.mgr.byIP.lookup ⟨10, 77, 0, 2⟩ = some 0 ∧ y.reg.mgr.heap[0]? = some e ∧
    e.clientKey = some [42] ∧ x.procs[s]? = some p ∧ p.session.clientKey = some [43] ∧
    x.step ServerSession.plainConfig (plainSend s) = .ok (x', o) ∧ (f, sent) ∈ o.frames ∧
    f.typ = msgData ∧ f.payload = plainReply := by
  have hm : Manager.new (some Registry.smallNet) 4 = .ok (.init Registry.smallNet 4) := rfl
  obtain ⟨p, hjoin, hrun, htaken, s, o, hloop, hsec⟩ := exists_joined
  have hfree : ∀ id, 1 < id → ((∅ : GoMap ℕ Ref).insert 1 0).lookup id = none := by
    intro id hid
    rw [GoMap.lookup_insert_eq, if_neg (Nat.ne_of_gt hid)]
    rfl
  obtain ⟨ls, st, H, P, t, b, haged, hHP, hls⟩ := exists_aged
    (x := ⟨⟨joinedMgr, [], 1, [1]⟩, [p], none⟩) (n := 4294967295) rfl rfl rfl hfree
    (show 1 ≤ 4294967295 by decide) (by decide)
  obtain ⟨q, hleft⟩ := exists_left st H P t b hrun htaken hloop hsec
  obtain ⟨x, p', x', o', f, sent, hhanded, hproc, hkey, hsend, hf⟩ :=
    exists_handed (t := t) (b := b)
      (show (leftMgr st H).heap.length = (q :: P).length by simp [leftMgr, hHP])
  refine ⟨_, plainJoin 0 42 ++ ls, [.wake 0 (ServerSession.plainEnv 1000 9) .tick, .finish 0] ++
    plainJoin (q :: P).length 43, _, x, x', o', _, _, p', f, sent, hm, hjoin.append haged,
    hleft.append hhanded, fun l hl => ?_, rfl, rfl, rfl, rfl, hproc, hkey, hsend, hf⟩
  simp only [List.mem_append, List.mem_cons, List.not_mem_nil, or_false] at hl
  obtain (hl | hl) | (rfl | rfl) | hl := hl
  · exact plainJoin_isTunLoop 0 42 l hl
  · exact hls l hl
  · rfl
  · rfl
  · exact plainJoin_isTunLoop _ 43 l hl

end Daemon

end VibeVpn

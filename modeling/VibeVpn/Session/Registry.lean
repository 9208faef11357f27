import VibeVpn.LTS.Basic
import VibeVpn.Session.Manager

/-!
# The registry of sessions

The critical sections of `Manager.mu` in every order: any number of `HandleTransport` calls, each
in its two sections, and for every session that one of them has registered the storing of its
client's key, `adopt` and `remove`.  What a session does between its sections is left open, so every
behaviour of the sessions is covered; what is kept is the order its run loop fixes: a session is
adopted at most once and only before `remove`, which runs once.

* `Manager.Consistent` : the tables, the pool and the counters agree with the sessions.
* `Registry.registry_consistent` : **in every reachable state the registry is consistent**, and
  an `adopt` that fails changes nothing.

The proof goes through `Manager.Indexed`: `byIP` and `byStatic` are indexes of the sessions that
hold an address, by that address and by the client's key.
-/

namespace VibeVpn

/-! ### The steps -/

/-- A `HandleTransport` call between its two critical sections. -/
structure Call where
  /-- The id it has allocated. -/
  id : ℕ
  /-- History: how many ids had been tried when it did. -/
  tick : ℕ
  deriving DecidableEq, Repr

/-- The manager, the `HandleTransport` calls in progress and the history of the id counter. -/
structure Registry where
  /-- The manager. -/
  mgr : Manager
  /-- The calls between their critical sections. -/
  calls : List Call
  /-- History: how often `nextID` was advanced. -/
  ticks : ℕ
  /-- History: the tick at which each session's id was allocated. -/
  born : List ℕ

namespace Registry

/-- Nothing has happened yet. -/
def start (m : Manager) : Registry where
  mgr := m
  calls := []
  ticks := 0
  born := []

/-- The critical sections. -/
inductive Label where
  /-- The first of `HandleTransport`. -/
  | check
  /-- The second of `HandleTransport`, of the call at a position. -/
  | insert (i : ℕ)
  /-- `handshake3` stores the client's key. -/
  | identify (s : Ref) (key : Bytes)
  /-- `adopt`. -/
  | adopt (s : Ref)
  /-- `remove`. -/
  | remove (s : Ref)
  deriving DecidableEq, Repr

/-- One critical section.  `.error none` stands for a section that cannot run now: it belongs to no
call or session, or its session has not come so far or is past it. -/
def step (x : Registry) : Label → Except (Option Panic) Registry
  | .check =>
    if x.mgr.isFull then .ok { x with mgr := x.mgr.drop }
    else match x.mgr.handleTransportAlloc with
      | none => .error none
      | some (m, n, id) => .ok
          { x with mgr := m, calls := x.calls ++ [⟨id, x.ticks + n⟩], ticks := x.ticks + n }
  | .insert i =>
    match x.calls[i]? with
    | none => .error none
    | some c => .ok
        { x with
          mgr := x.mgr.handleTransportInsert c.id
          calls := x.calls.eraseIdx i
          born := x.born ++ [c.tick] }
  | .identify s key =>
    match x.mgr.heap[s]? with
    | none => .error none
    | some e =>
      if e.ip = none ∧ e.removed = false then .ok { x with mgr := x.mgr.identify s e key }
      else .error none
  | .adopt s =>
    match x.mgr.heap[s]? with
    | none => .error none
    | some e =>
      if e.clientKey.isSome ∧ e.ip = none ∧ e.removed = false then
        match x.mgr.adopt s e with
        | .error p => .error (some p)
        | .ok (m, _) => .ok { x with mgr := m }
      else .error none
  | .remove s =>
    match x.mgr.heap[s]? with
    | none => .error none
    | some e =>
      if e.removed = false then .ok { x with mgr := x.mgr.remove s e } else .error none

/-- The critical sections in every order. -/
def lts : LTS Registry Label := LTS.ofExcept step

/-- What a critical section does, case by case. -/
inductive Step (x : Registry) : Label → Registry → Prop where
  | reject : x.mgr.isFull = true → Step x .check { x with mgr := x.mgr.drop }
  | alloc {m : Manager} {n id : ℕ} :
      x.mgr.isFull = false → x.mgr.handleTransportAlloc = some (m, n, id) →
      Step x .check
        { x with mgr := m, calls := x.calls ++ [⟨id, x.ticks + n⟩], ticks := x.ticks + n }
  | insert {i : ℕ} {c : Call} :
      x.calls[i]? = some c →
      Step x (.insert i)
        { x with
          mgr := x.mgr.handleTransportInsert c.id
          calls := x.calls.eraseIdx i
          born := x.born ++ [c.tick] }
  | identify {s : Ref} {e : Entry} {key : Bytes} :
      x.mgr.heap[s]? = some e → e.ip = none → e.removed = false →
      Step x (.identify s key) { x with mgr := x.mgr.identify s e key }
  | adopt {s : Ref} {e : Entry} {m : Manager} {ip : Option Byte4} :
      x.mgr.heap[s]? = some e → e.clientKey.isSome → e.ip = none → e.removed = false →
      x.mgr.adopt s e = .ok (m, ip) →
      Step x (.adopt s) { x with mgr := m }
  | remove {s : Ref} {e : Entry} :
      x.mgr.heap[s]? = some e → e.removed = false →
      Step x (.remove s) { x with mgr := x.mgr.remove s e }

theorem step_cases {x x' : Registry} {l : Label} (h : x.step l = .ok x') : Step x l x' := by
  cases l with
  | check =>
    simp only [step] at h
    split_ifs at h with hf
    · cases h
      exact .reject hf
    · split at h
      · cases h
      · next ha =>
        cases h
        exact .alloc (by simpa using hf) ha
  | insert i =>
    simp only [step] at h
    split at h
    · cases h
    · next hc =>
      cases h
      exact .insert hc
  | identify s key =>
    simp only [step] at h
    split at h
    · cases h
    · next he =>
      split_ifs at h with hg
      cases h
      exact .identify he hg.1 hg.2
  | adopt s =>
    simp only [step] at h
    split at h
    · cases h
    · next he =>
      split_ifs at h with hg
      split at h
      · cases h
      · next ha =>
        cases h
        exact .adopt he hg.1 hg.2.1 hg.2.2 ha
  | remove s =>
    simp only [step] at h
    split at h
    · cases h
    · next he =>
      split_ifs at h with hg
      cases h
      exact .remove he hg

end Registry

/-! ### Consistency -/

namespace Entry

/-- The session is adopted, not transferred and not removed: it holds its address. -/
def Active (e : Entry) : Prop := e.ip.isSome ∧ e.transferred = false ∧ e.removed = false

instance (e : Entry) : Decidable e.Active := inferInstanceAs (Decidable (_ ∧ _ ∧ _))

/-- The address the session holds. -/
def heldIP (e : Entry) : Option Byte4 := if e.Active then e.ip else none

/-- The key under which the session holds an address. -/
def heldKey (e : Entry) : Option Bytes := if e.Active then e.clientKey else none

/-- The session knows its client's key and is neither adopted nor removed. -/
structure Unadopted (e : Entry) (key : Bytes) : Prop where
  ip : e.ip = none
  removed : e.removed = false
  clientKey : e.clientKey = some key

theorem heldIP_eq_some {e : Entry} {k : Byte4} :
    e.heldIP = some k ↔ e.ip = some k ∧ e.transferred = false ∧ e.removed = false := by
  unfold heldIP
  split_ifs with h
  · simp [h.2.1, h.2.2]
  · constructor
    · exact nofun
    · rintro ⟨hk, ht, hr⟩
      exact absurd ⟨by simp [hk], ht, hr⟩ h

theorem heldKey_eq_some {e : Entry} {key : Bytes} :
    e.heldKey = some key ↔ e.Active ∧ e.clientKey = some key := by
  unfold heldKey
  split_ifs with h <;> simp [h]

theorem heldIP_of_ip {e : Entry} (h : e.ip = none) : e.heldIP = none := by
  simp [heldIP, h]

theorem heldKey_of_ip {e : Entry} (h : e.ip = none) : e.heldKey = none := by
  simp [heldKey, Active, h]

end Entry

namespace Manager

/-- **The tables, the pool and the counters agree with the sessions.** -/
structure Consistent (m : Manager) : Prop where
  /-- A session registered for an address holds it. -/
  byIP : ∀ k s, m.byIP.lookup k = some s →
    ∃ e, m.heap[s]? = some e ∧ e.ip = some k ∧ e.transferred = false ∧ e.removed = false
  /-- No address is held twice. -/
  distinct : ∀ (s s' : Ref) (e e' : Entry), m.heap[s]? = some e → m.heap[s']? = some e' →
    e.Active → e'.Active → e.ip = e'.ip → s = s'
  /-- The pool's addresses in use are those held. -/
  used : ∀ k, m.pool.isUsed k = true ↔
    ∃ (s : Ref) (e : Entry), m.heap[s]? = some e ∧ e.Active ∧ e.ip = some k
  /-- A session is registered for a key exactly when it holds an address under this key. -/
  byStatic : ∀ key s, m.byStatic.lookup key = some s ↔
    ∃ e, m.heap[s]? = some e ∧ e.Active ∧ e.clientKey = some key
  /-- `stats.Sessions` counts the sessions that are not removed. -/
  sessions : m.stats.sessions = m.heap.countP fun e => !e.removed

/-- The inductive form of `Consistent`. -/
structure Indexed (m : Manager) : Prop where
  byIP : GoMap.Indexes m.byIP (column Entry.heldIP m.heap)
  byStatic : GoMap.Indexes m.byStatic (column Entry.heldKey m.heap)
  used : ∀ k, m.pool.isUsed k = (m.byIP.lookup k).isSome
  named : ∀ (s : Ref) (e : Entry), m.heap[s]? = some e → e.ip.isSome → e.clientKey.isSome
  bumped : ∀ (s : Ref) (e : Entry), m.heap[s]? = some e → e.transferred = true → e.ip.isSome
  sessions : m.stats.sessions = m.heap.countP fun e => !e.removed

theorem Indexed.consistent {m : Manager} (h : m.Indexed) : m.Consistent := by
  have hheld : ∀ {k s}, m.byIP.lookup k = some s ↔
      ∃ e, m.heap[s]? = some e ∧ e.ip = some k ∧ e.transferred = false ∧ e.removed = false := by
    intro k s
    rw [h.byIP k s, column_eq_some]
    simp only [Entry.heldIP_eq_some]
  refine ⟨fun k s hs => hheld.1 hs, ?_, ?_, ?_, h.sessions⟩
  · intro s s' e e' hs hs' ha ha' heq
    obtain ⟨k, hk⟩ := Option.isSome_iff_exists.1 ha.1
    refine h.byIP.inj (k := k) ?_ ?_
    · exact column_eq_some.2 ⟨e, hs, Entry.heldIP_eq_some.2 ⟨hk, ha.2⟩⟩
    · exact column_eq_some.2 ⟨e', hs', Entry.heldIP_eq_some.2 ⟨heq ▸ hk, ha'.2⟩⟩
  · intro k
    rw [h.used k, Option.isSome_iff_exists]
    simp only [hheld]
    constructor
    · rintro ⟨s, e, he, hk, hrest⟩
      exact ⟨s, e, he, ⟨by simp [hk], hrest⟩, hk⟩
    · rintro ⟨s, e, he, ha, hk⟩
      exact ⟨s, e, he, hk, ha.2⟩
  · intro key s
    rw [h.byStatic key s, column_eq_some]
    simp only [Entry.heldKey_eq_some]

/-! ### What each critical section preserves -/

variable {m m' : Manager} {s : Ref} {e : Entry}

/-- Overwriting an entry without touching its `removed` flag. -/
theorem countP_set_of_removed {l : List Entry} (h : l[s]? = some e) (e' : Entry)
    (hr : e'.removed = e.removed) :
    (l.set s e').countP (fun e => !e.removed) = l.countP fun e => !e.removed := by
  obtain ⟨hs, rfl⟩ := List.getElem?_eq_some_iff.1 h
  have hpos : (!l[s].removed) = true → 0 < l.countP fun e => !e.removed := fun hp =>
    List.countP_pos_iff.2 ⟨l[s], List.getElem_mem hs, hp⟩
  rw [List.countP_set hs, hr]
  split_ifs with hp
  · have := hpos hp
    omega
  · omega

theorem Indexed.insert (h : m.Indexed) (id : ℕ) : (m.handleTransportInsert id).Indexed := by
  refine ⟨?_, ?_, h.used, ?_, ?_, ?_⟩
  · exact h.byIP.congr fun v => congrFun (column_append rfl) v
  · exact h.byStatic.congr fun v => congrFun (column_append rfl) v
  · intro s e he hip
    obtain he | ⟨-, rfl⟩ := getElem?_snoc_cases he
    · exact h.named s e he hip
    · exact absurd hip (by simp [Entry.new])
  · intro s e he ht
    obtain he | ⟨-, rfl⟩ := getElem?_snoc_cases he
    · exact h.bumped s e he ht
    · exact absurd ht (by simp [Entry.new])
  · simp [handleTransportInsert, h.sessions, Entry.new]

theorem Indexed.identify (h : m.Indexed) (he : m.heap[s]? = some e) (hip : e.ip = none)
    (key : Bytes) : (m.identify s e key).Indexed := by
  refine ⟨?_, ?_, h.used, ?_, ?_, ?_⟩
  · refine h.byIP.congr fun v => congrFun (column_set_of_eq he ?_) v
    rw [Entry.heldIP_of_ip hip]
    exact Entry.heldIP_of_ip hip
  · refine h.byStatic.congr fun v => congrFun (column_set_of_eq he ?_) v
    rw [Entry.heldKey_of_ip hip]
    exact Entry.heldKey_of_ip hip
  · intro s' e' he' hip'
    obtain ⟨-, rfl⟩ | ⟨-, he'⟩ := getElem?_set_cases he'
    · rfl
    · exact h.named s' e' he' hip'
  · intro s' e' he' ht
    obtain ⟨-, rfl⟩ | ⟨-, he'⟩ := getElem?_set_cases he'
    · exact h.bumped s e he ht
    · exact h.bumped s' e' he' ht
  · have hcount := countP_set_of_removed he { e with clientKey := some key } rfl
    exact h.sessions.trans (congrArg _ hcount.symm)

theorem predecessor_eq {key : Bytes} (h : e.clientKey = some key) :
    m.predecessor s e = (m.byStatic.lookup key).filter fun old => old != s := by
  unfold predecessor
  rw [h]
  rfl

/-- What a session holds once it has got an address. -/
theorem Indexed.gets (h : m.Indexed) (he : m.heap[s]? = some e) {key : Bytes}
    (hu : e.Unadopted key) (ip : Byte4) :
    Entry.heldIP { e with ip := some ip } = some ip ∧
      Entry.heldKey { e with ip := some ip } = some key := by
  have ht : e.transferred = false := by
    cases ht : e.transferred with
    | false => rfl
    | true => exact absurd (h.bumped s e he ht) (by simp [hu.ip])
  exact ⟨Entry.heldIP_eq_some.2 ⟨rfl, ht, hu.removed⟩,
    Entry.heldKey_eq_some.2 ⟨⟨rfl, ht, hu.removed⟩, hu.clientKey⟩⟩

/-- A session that holds nothing yet is adopted with an address from the pool. -/
theorem Indexed.enter_alloc (h : m.Indexed) (he : m.heap[s]? = some e) {key : Bytes}
    (hu : e.Unadopted key) (hp : m.predecessor s e = none) {ip : Byte4}
    (hfree : m.pool.isUsed ip = false) :
    Indexed ({ m with pool := m.pool.take ip }.enter s e ip) := by
  obtain ⟨hgetIP, hgetKey⟩ := h.gets he hu ip
  have hnoIP : column Entry.heldIP m.heap s = none := by
    rw [column_of_getElem? he, Entry.heldIP_of_ip hu.ip]
  have hnoKey : column Entry.heldKey m.heap s = none := by
    rw [column_of_getElem? he, Entry.heldKey_of_ip hu.ip]
  have hip : m.byIP.lookup ip = none := by
    have := h.used ip
    rw [hfree] at this
    exact Option.not_isSome_iff_eq_none.1 (by simp [← this])
  -- no session holds an address under this key: it would be the predecessor
  have hkey : m.byStatic.lookup key = none := by
    refine Option.eq_none_iff_forall_ne_some.2 fun old hold => ?_
    rw [predecessor_eq hu.clientKey, Option.filter_eq_none_iff] at hp
    have hs : old = s := by simpa using hp old hold
    rw [hs, h.byStatic key s, hnoKey] at hold
    cases hold
  refine ⟨?_, ?_, ?_, ?_, ?_, ?_⟩
  · have := h.byIP.insert hnoIP hip
    rw [← hgetIP, ← column_set he] at this
    exact this
  · have := h.byStatic.insert hnoKey hkey
    rw [← hgetKey, ← column_set he] at this
    simpa only [enter, hu.clientKey, Option.getD_some] using this
  · intro k
    simp only [enter, IpPool.isUsed_take, GoMap.lookup_insert_eq, h.used k]
    split_ifs with hk <;> simp [hk]
  · intro s' e' he' hip'
    obtain ⟨-, rfl⟩ | ⟨-, he'⟩ := getElem?_set_cases he'
    · simp [hu.clientKey]
    · exact h.named s' e' he' hip'
  · intro s' e' he' ht
    obtain ⟨-, rfl⟩ | ⟨-, he'⟩ := getElem?_set_cases he'
    · rfl
    · exact h.bumped s' e' he' ht
  · have hcount := countP_set_of_removed he { e with ip := some ip } rfl
    exact h.sessions.trans (congrArg _ hcount.symm)

/-- A session that holds nothing yet takes the address of its predecessor over. -/
theorem Indexed.enter_bump (h : m.Indexed) (he : m.heap[s]? = some e) {key : Bytes}
    (hu : e.Unadopted key) {old : Ref} {o : Entry} {ip : Byte4}
    (hp : m.predecessor s e = some old) (ho : m.heap[old]? = some o) (hip : o.ip = some ip) :
    Indexed ((m.bump old o).enter s e ip) := by
  obtain ⟨hgetIP, hgetKey⟩ := h.gets he hu ip
  rw [predecessor_eq hu.clientKey, Option.filter_eq_some_iff, bne_iff_ne] at hp
  obtain ⟨hold, hne⟩ := hp
  have hoKey : column Entry.heldKey m.heap old = some key := (h.byStatic key old).1 hold
  have hact : o.Active ∧ o.clientKey = some key := by
    rw [column_of_getElem? ho] at hoKey
    exact Entry.heldKey_eq_some.1 hoKey
  have hoIP : column Entry.heldIP m.heap old = some ip := by
    rw [column_of_getElem? ho]
    exact Entry.heldIP_eq_some.2 ⟨hip, hact.1.2⟩
  have hnoIP : column Entry.heldIP m.heap s = none := by
    rw [column_of_getElem? he, Entry.heldIP_of_ip hu.ip]
  have hnoKey : column Entry.heldKey m.heap s = none := by
    rw [column_of_getElem? he, Entry.heldKey_of_ip hu.ip]
  -- the predecessor gives up what it holds, and the session's own entry is not touched by that
  set o' : Entry := { o with transferred := true, cancelled := true } with ho'
  have hlostIP : o'.heldIP = none := by simp [Entry.heldIP, Entry.Active, ho']
  have hlostKey : o'.heldKey = none := by simp [Entry.heldKey, Entry.Active, ho']
  have he' : (m.heap.set old o')[s]? = some e := by
    rw [List.getElem?_set_ne hne]
    exact he
  refine ⟨?_, ?_, ?_, ?_, ?_, ?_⟩
  · have := h.byIP.transfer hoIP hnoIP
    rw [← hlostIP, ← column_set ho, ← hgetIP, ← column_set he'] at this
    exact this
  · have := h.byStatic.transfer hoKey hnoKey
    rw [← hlostKey, ← column_set ho, ← hgetKey, ← column_set he'] at this
    simpa only [enter, bump, hu.clientKey, Option.getD_some] using this
  · intro k
    simp only [enter, bump, GoMap.lookup_insert_eq]
    split_ifs with hk
    · rw [hk, h.used ip, (h.byIP ip old).2 hoIP]
      rfl
    · exact h.used k
  · intro r c hc hcip
    obtain ⟨-, rfl⟩ | ⟨-, hc⟩ := getElem?_set_cases hc
    · simp [hu.clientKey]
    · obtain ⟨-, rfl⟩ | ⟨-, hc⟩ := getElem?_set_cases hc
      · exact h.named old o ho hcip
      · exact h.named r c hc hcip
  · intro r c hc ht
    obtain ⟨-, rfl⟩ | ⟨-, hc⟩ := getElem?_set_cases hc
    · rfl
    · obtain ⟨-, rfl⟩ | ⟨-, hc⟩ := getElem?_set_cases hc
      · simp [hip]
      · exact h.bumped r c hc ht
  · have hcount := (countP_set_of_removed he' { e with ip := some ip } rfl).trans
      (countP_set_of_removed ho o' rfl)
    exact h.sessions.trans (congrArg _ hcount.symm)

/-- The ways `adopt` ends when it does not panic. -/
theorem adopt_cases {ip : Option Byte4} (h : m.adopt s e = .ok (m', ip)) :
    (ip = none ∧ m' = m) ∨
    (∃ k, ip = some k ∧ m.predecessor s e = none ∧ m.pool.isUsed k = false ∧
      m' = { m with pool := m.pool.take k }.enter s e k) ∨
    (∃ k old o, ip = some k ∧ m.predecessor s e = some old ∧ m.heap[old]? = some o ∧
      o.ip = some k ∧ m' = (m.bump old o).enter s e k) := by
  unfold adopt at h
  split at h
  · next old hp =>
    split at h
    · cases h
    · next o ho =>
      split at h
      · cases h
      · next k hk =>
        cases h
        exact .inr (.inr ⟨k, old, o, rfl, hp, ho, hk, rfl⟩)
  · next hp =>
    obtain ⟨r, hr, h⟩ := Go.bind_eq_ok.1 h
    split at h
    · cases h
      exact .inl ⟨rfl, rfl⟩
    · next pool k =>
      cases h
      obtain ⟨hfree, rfl⟩ := IpPool.alloc_spec hr
      exact .inr (.inl ⟨k, rfl, hp, hfree, rfl⟩)

theorem Indexed.adopt (h : m.Indexed) (he : m.heap[s]? = some e) {key : Bytes}
    (hu : e.Unadopted key) {ip : Option Byte4} (ha : m.adopt s e = .ok (m', ip)) : m'.Indexed := by
  obtain ⟨-, rfl⟩ | ⟨k, -, hp, hfree, rfl⟩ | ⟨k, old, o, -, hp, ho, hk, rfl⟩ := adopt_cases ha
  · exact h
  · exact h.enter_alloc he hu hp hfree
  · exact h.enter_bump he hu hp ho hk

theorem Indexed.remove (h : m.Indexed) (he : m.heap[s]? = some e) (hr : e.removed = false) :
    (m.remove s e).Indexed := by
  have hlostIP : Entry.heldIP { e with removed := true } = none := by
    simp [Entry.heldIP, Entry.Active]
  have hlostKey : Entry.heldKey { e with removed := true } = none := by
    simp [Entry.heldKey, Entry.Active]
  refine ⟨?_, ?_, ?_, ?_, ?_, ?_⟩
  · have := h.byIP.eraseIf (v := s) (k := e.ip) fun k hk => by
      rw [column_of_getElem? he] at hk
      exact (Entry.heldIP_eq_some.1 hk).1
    rw [← hlostIP, ← column_set he] at this
    exact this
  · have := h.byStatic.eraseIf (v := s) (k := e.clientKey) fun k hk => by
      rw [column_of_getElem? he] at hk
      exact (Entry.heldKey_eq_some.1 hk).2
    rw [← hlostKey, ← column_set he] at this
    exact this
  · intro k
    -- the session is registered for its address unless it was transferred
    have hreg : ∀ ip, e.ip = some ip →
        (m.byIP.lookup ip = some s ↔ e.transferred = false) := by
      intro ip hip
      rw [h.byIP ip s, column_of_getElem? he, Entry.heldIP_eq_some]
      simp [hip, hr]
    simp only [Manager.remove]
    cases hip : e.ip with
    | none => exact h.used k
    | some ip =>
      simp only [GoMap.eraseIf, hreg ip hip]
      cases e.transferred with
      | true => simpa using h.used k
      | false =>
        simp only [Bool.false_eq_true, if_false, if_true, IpPool.isUsed_release,
          GoMap.lookup_erase_eq, h.used k]
        split_ifs with hk <;> simp [hk]
  · intro s' e' he' hip'
    obtain ⟨-, rfl⟩ | ⟨-, he'⟩ := getElem?_set_cases he'
    · exact h.named s e he hip'
    · exact h.named s' e' he' hip'
  · intro s' e' he' ht
    obtain ⟨-, rfl⟩ | ⟨-, he'⟩ := getElem?_set_cases he'
    · exact h.bumped s e he ht
    · exact h.bumped s' e' he' ht
  · obtain ⟨hs, rfl⟩ := List.getElem?_eq_some_iff.1 he
    have hpos : 0 < m.heap.countP fun e => !e.removed :=
      List.countP_pos_iff.2 ⟨m.heap[s], List.getElem_mem hs, by simp [hr]⟩
    have hcount := List.countP_set (p := fun e : Entry => !e.removed)
      (a := { m.heap[s] with removed := true }) hs
    simp only [Manager.remove, h.sessions, hcount, hr]
    simp only [Bool.not_false, Bool.not_true, if_true, Bool.false_eq_true, if_false]
    omega

theorem Indexed.new {subnet : Option IPNet} {maxSessions : ℤ}
    (h : Manager.new subnet maxSessions = .ok m) : m.Indexed := by
  obtain ⟨n, -, -, rfl⟩ := new_eq_ok h
  refine ⟨GoMap.indexes_empty fun _ => rfl, GoMap.indexes_empty fun _ => rfl, fun _ => rfl,
    fun s e he => ?_, fun s e he => ?_, rfl⟩
  · cases he
  · cases he

end Manager

namespace Registry

variable {x x' : Registry} {l : Label}

/-- One critical section keeps the registry indexed. -/
theorem Step.indexed (hst : Step x l x') (h : x.mgr.Indexed) : x'.mgr.Indexed := by
  cases hst with
  | reject => exact ⟨h.byIP, h.byStatic, h.used, h.named, h.bumped, h.sessions⟩
  | alloc _ ha =>
    obtain ⟨r, -, hr⟩ := Option.map_eq_some_iff.1 ha
    cases hr
    exact ⟨h.byIP, h.byStatic, h.used, h.named, h.bumped, h.sessions⟩
  | insert => exact h.insert _
  | identify he hip _ => exact h.identify he hip _
  | adopt he hk hip hr ha =>
    obtain ⟨key, hkey⟩ := Option.isSome_iff_exists.1 hk
    exact h.adopt he ⟨hip, hr, hkey⟩ ha
  | remove he hr => exact h.remove he hr

theorem indexed_of_reachable {subnet : Option IPNet} {maxSessions : ℤ} {m : Manager}
    (h₀ : Manager.new subnet maxSessions = .ok m) (hx : lts.Reachable (.start m) x) :
    x.mgr.Indexed :=
  hx.invariant (I := fun x => x.mgr.Indexed) (.new h₀) fun _ _ _ hi hst =>
    (step_cases hst).indexed hi

/-- **The registry and the address pool are consistent in every reachable state**, and an `adopt`
that finds the subnet exhausted changes nothing. -/
theorem registry_consistent {subnet : Option IPNet} {maxSessions : ℤ} {m : Manager}
    (h₀ : Manager.new subnet maxSessions = .ok m) (hx : lts.Reachable (.start m) x) :
    x.mgr.Consistent ∧
      ∀ s e m', x.mgr.heap[s]? = some e → x.mgr.adopt s e = .ok (m', none) → m' = x.mgr := by
  refine ⟨(indexed_of_reachable h₀ hx).consistent, fun s e m' _ ha => ?_⟩
  obtain ⟨-, rfl⟩ | ⟨_, hn, _⟩ | ⟨_, _, _, hn, _⟩ := Manager.adopt_cases ha
  · rfl
  · cases hn
  · cases hn

/-- A subnet with five addresses for clients. -/
def smallNet : IPNet where
  ip4 := some ⟨10, 77, 0, 0⟩
  ones := 29

/-- A client reconnects: the second session takes the address of the first over, and the first is
removed without releasing it. -/
theorem registry_consistent_takeover : ∃ m x, Manager.new (some smallNet) 2 = .ok m ∧
    lts.Reachable (.start m) x ∧ x.mgr.byIP.lookup ⟨10, 77, 0, 2⟩ = some 1 ∧
    x.mgr.stats.sessions = 1 ∧ x.mgr.Consistent := by
  have hm : Manager.new (some smallNet) 2 = .ok (.init smallNet 2) := rfl
  obtain ⟨x, hrun, hp⟩ := LTS.exists_run_of_any (f := step) (.start (.init smallNet 2))
    [.check, .insert 0, .check, .insert 0, .identify 0 [7], .adopt 0, .identify 1 [7], .adopt 1,
      .remove 0]
    (fun x => x.mgr.byIP.lookup ⟨10, 77, 0, 2⟩ == some 1 && x.mgr.stats.sessions == 1) (by decide)
  simp only [Bool.and_eq_true, beq_iff_eq] at hp
  exact ⟨_, x, hm, hrun.reachable, hp.1, hp.2, (registry_consistent hm hrun.reachable).1⟩

end Registry

end VibeVpn

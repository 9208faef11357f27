import VibeVpn.LTS.Refinement
import VibeVpn.Session.Registry

/-!
# Leases

What the registry of sessions is for: each client, known by its static key, has the *lease* of at
most one tunnel address, and no two clients have the same one.  `Lease.lts` is this and nothing
else; it knows no sessions, tables or pools.

A client may have several sessions one after the other, and for a while two at a time, when it
reconnects before the server has noticed that the old connection is gone.  The lease is what goes on
meanwhile: it is granted to the first session, renewed by those that take over, and expires with the
session that holds it last.

* `Manager.leases` : the lease table that the tables of the registry stand for;
* `Registry.refines_lease` : the critical sections of `Manager.mu` refine `Lease.lts`;
* `Registry.leases_kept` : **a client keeps its address, over any number of reconnects, until the
  session that is registered for its key is removed**, and until then no other client gets it.
-/

namespace VibeVpn

/-! ### The abstract table -/

namespace Lease

variable {K A : Type*}

/-- What can happen to a lease. -/
inductive Act (K A : Type*) where
  /-- A client gets an address. -/
  | grant (k : K) (a : A)
  /-- A client that comes back gets the address it has. -/
  | renew (k : K) (a : A)
  /-- A client loses its address. -/
  | expire (k : K) (a : A)

variable [DecidableEq K]

/-- The steps of a lease table. -/
inductive Step (t : K → Option A) : Act K A → (K → Option A) → Prop where
  | grant {k : K} {a : A} : t k = none → (∀ k', t k' ≠ some a) →
      Step t (.grant k a) (Function.update t k (some a))
  | renew {k : K} {a : A} : t k = some a → Step t (.renew k a) t
  | expire {k : K} {a : A} : t k = some a → Step t (.expire k a) (Function.update t k none)

/-- The lease table as a transition system. -/
def lts (K A : Type*) [DecidableEq K] : LTS (K → Option A) (Act K A) where
  step := Step

/-- No address is leased twice. -/
def Exclusive (t : K → Option A) : Prop := ∀ k k' a, t k = some a → t k' = some a → k = k'

variable {t t' : K → Option A} {m : Act K A} {ms : List (Act K A)} {k : K} {a : A}

theorem Step.exclusive (h : Step t m t') (hx : Exclusive t) : Exclusive t' := by
  cases h with
  | @grant k a hk ha =>
    intro k₁ k₂ b h₁ h₂
    rw [Function.update_apply] at h₁ h₂
    split_ifs at h₁ h₂ with e₁ e₂ e₂
    · rw [e₁, e₂]
    · cases h₁
      exact absurd h₂ (ha k₂)
    · cases h₂
      exact absurd h₁ (ha k₁)
    · exact hx k₁ k₂ b h₁ h₂
  | renew => exact hx
  | @expire k a hk =>
    intro k₁ k₂ b h₁ h₂
    rw [Function.update_apply] at h₁ h₂
    split_ifs at h₁ h₂
    exact hx k₁ k₂ b h₁ h₂

theorem run_exclusive (h : (lts K A).Run t ms t') (hx : Exclusive t) : Exclusive t' :=
  h.reachable.invariant hx fun _ _ _ hx hst => Step.exclusive hst hx

/-- A lease changes by expiring only. -/
theorem Step.kept (h : Step t m t') (hk : t k = some a) : t' k = some a ∨ m = .expire k a := by
  cases h with
  | @grant k' a' hk' _ =>
    have hne : k ≠ k' := by
      rintro rfl
      rw [hk'] at hk
      cases hk
    exact .inl (by rw [Function.update_of_ne hne]; exact hk)
  | renew => exact .inl hk
  | @expire k' a' hk' =>
    by_cases he : k = k'
    · subst he
      rw [hk'] at hk
      cases hk
      exact .inr rfl
    · exact .inl (by rw [Function.update_of_ne he]; exact hk)

/-- **A lease lasts until it expires.** -/
theorem run_kept (h : (lts K A).Run t ms t') (hk : t k = some a) :
    t' k = some a ∨ .expire k a ∈ ms := by
  induction h with
  | nil => exact .inl hk
  | snoc _ hst ih =>
    rcases ih with ih | ih
    · refine (Step.kept hst ih).imp_right ?_
      rintro rfl
      exact List.mem_append_right _ (List.mem_singleton_self _)
    · exact .inr (List.mem_append_left _ ih)

end Lease

/-! ### The leases of a registry -/

namespace Manager

variable {m m' : Manager} {s : Ref} {e : Entry} {key : Bytes} {ip : Byte4}

/-- The address registered for a client's key. -/
def leases (m : Manager) (key : Bytes) : Option Byte4 :=
  (m.byStatic.lookup key).bind (column Entry.ip m.heap)

/-- A session without an address is registered for no key. -/
theorem Indexed.ne_of_lookup (h : m.Indexed) (he : m.heap[s]? = some e) (hip : e.ip = none)
    {r : Ref} (hr : m.byStatic.lookup key = some r) : r ≠ s := by
  rintro rfl
  rw [h.byStatic key r, column_of_getElem? he, Entry.heldKey_of_ip hip] at hr
  cases hr

/-- Who holds a lease. -/
theorem Indexed.leases_eq_some (h : m.Indexed) : m.leases key = some ip ↔
    ∃ s e, m.byStatic.lookup key = some s ∧ m.heap[s]? = some e ∧ e.Active ∧ e.ip = some ip := by
  simp only [leases, Option.bind_eq_some_iff, column_eq_some]
  constructor
  · rintro ⟨s, hs, e, he, hip⟩
    rw [h.byStatic key s, column_of_getElem? he] at hs
    exact ⟨s, e, (h.byStatic key s).2 (column_eq_some.2 ⟨e, he, hs⟩), he,
      (Entry.heldKey_eq_some.1 hs).1, hip⟩
  · rintro ⟨s, e, hs, he, -, hip⟩
    exact ⟨s, hs, e, he, hip⟩

/-- An address that the pool has is leased to nobody. -/
theorem Indexed.leases_ne_of_free (h : m.Indexed) (hfree : m.pool.isUsed ip = false) (key : Bytes) :
    m.leases key ≠ some ip := by
  intro hl
  obtain ⟨s, e, -, he, ha, hip⟩ := h.leases_eq_some.1 hl
  have := (h.consistent.used ip).2 ⟨s, e, he, ha, hip⟩
  rw [hfree] at this
  cases this

theorem leases_insert (m : Manager) (id : ℕ) : (m.handleTransportInsert id).leases = m.leases := by
  have hheap : column Entry.ip (m.handleTransportInsert id).heap = column Entry.ip m.heap :=
    column_append rfl
  funext key
  rw [leases, hheap]
  rfl

theorem leases_identify (he : m.heap[s]? = some e) (key : Bytes) :
    (m.identify s e key).leases = m.leases := by
  have hheap : column Entry.ip (m.identify s e key).heap = column Entry.ip m.heap :=
    column_set_of_eq he rfl
  funext key'
  rw [leases, hheap]
  rfl

/-- The session that enters has the lease, and the other leases are as before. -/
theorem Indexed.leases_enter (h : m.Indexed) (he : m.heap[s]? = some e) (hu : e.Unadopted key)
    (hstatic : m'.byStatic = m.byStatic) (hheap : column Entry.ip m'.heap = column Entry.ip m.heap)
    (he' : m'.heap[s]? = some e) (ip : Byte4) :
    (m'.enter s e ip).leases = Function.update m.leases key (some ip) := by
  have hcol : column Entry.ip (m'.enter s e ip).heap =
      Function.update (column Entry.ip m.heap) s (some ip) := by
    rw [← hheap]
    exact column_set he'
  have hlook : (m'.enter s e ip).byStatic = m.byStatic.insert key s := by
    simp only [enter, hu.clientKey, hstatic, Option.getD_some]
  funext key'
  rw [leases, hcol, hlook, GoMap.lookup_insert_eq, Function.update_apply]
  split_ifs with hk
  · exact Function.update_self s _ _
  · -- The other keys are registered for sessions with an address, and this one had none.
    cases hr : m.byStatic.lookup key' with
    | none => rw [leases, hr]; rfl
    | some r =>
      rw [leases, hr]
      exact Function.update_of_ne (h.ne_of_lookup he hu.ip hr) _ _

theorem leases_remove (he : m.heap[s]? = some e) (hk : e.clientKey = some key) :
    (m.remove s e).leases =
      if m.byStatic.lookup key = some s then Function.update m.leases key none else m.leases := by
  have hheap : column Entry.ip (m.remove s e).heap = column Entry.ip m.heap :=
    column_set_of_eq he rfl
  have hstatic : (m.remove s e).byStatic =
      if m.byStatic.lookup key = some s then m.byStatic.erase key else m.byStatic := by
    simp only [remove, hk, GoMap.eraseIf]
  funext key'
  rw [leases, hheap, hstatic]
  split_ifs with hs
  · rw [GoMap.lookup_erase_eq, Function.update_apply]
    split_ifs
    · rfl
    · rfl
  · rfl

/-- A session without a key leaves without touching the leases. -/
theorem leases_remove_of_anonymous (he : m.heap[s]? = some e) (hk : e.clientKey = none) :
    (m.remove s e).leases = m.leases := by
  have hheap : column Entry.ip (m.remove s e).heap = column Entry.ip m.heap :=
    column_set_of_eq he rfl
  have hstatic : (m.remove s e).byStatic = m.byStatic := by
    simp only [remove, hk, GoMap.eraseIf]
  funext key
  rw [leases, hheap, hstatic]
  rfl

/-- What `adopt` does to the leases: nothing when the subnet is exhausted; else the client gets an
address that nobody has, or the one it has already. -/
theorem Indexed.leases_adopt (h : m.Indexed) (he : m.heap[s]? = some e) (hu : e.Unadopted key)
    {ip : Option Byte4} (ha : m.adopt s e = .ok (m', ip)) :
    (ip = none ∧ m' = m) ∨
    (∃ a, ip = some a ∧ m.leases key = none ∧ (∀ k, m.leases k ≠ some a) ∧
      m'.leases = Function.update m.leases key (some a)) ∨
    (∃ a, ip = some a ∧ m.leases key = some a ∧ m'.leases = m.leases) := by
  obtain ⟨rfl, rfl⟩ | ⟨a, rfl, hp, hfree, rfl⟩ | ⟨a, old, o, rfl, hp, ho, hip, rfl⟩ :=
    adopt_cases ha
  · exact .inl ⟨rfl, rfl⟩
  · have hnone : m.leases key = none := by
      rw [predecessor_eq hu.clientKey] at hp
      cases hr : m.byStatic.lookup key with
      | none => rw [leases, hr]; rfl
      | some r =>
        rw [hr, Option.filter_eq_none_iff] at hp
        exact absurd (by simpa using h.ne_of_lookup he hu.ip hr) (hp r rfl)
    exact .inr (.inl ⟨a, rfl, hnone, h.leases_ne_of_free hfree,
      h.leases_enter he hu rfl rfl he a⟩)
  · rw [predecessor_eq hu.clientKey] at hp
    obtain ⟨hr, -⟩ := Option.filter_eq_some_iff.1 hp
    have hne := h.ne_of_lookup he hu.ip hr
    have hlease : m.leases key = some a := by
      rw [leases, hr]
      exact (column_of_getElem? ho).trans hip
    have he' : (m.bump old o).heap[s]? = some e :=
      (List.getElem?_set_ne hne).trans he
    have hstatic : (m.bump old o).byStatic = m.byStatic := rfl
    refine .inr (.inr ⟨a, rfl, hlease, ?_⟩)
    rw [h.leases_enter he hu hstatic (column_set_of_eq ho rfl) he' a, ← hlease,
      Function.update_eq_self]

end Manager

namespace Registry

variable {x x' y : Registry} {l : Label} {ls : List Label} {key : Bytes} {ip : Byte4}

/-- What a critical section does to the leases. -/
def event (x : Registry) : Label → Option (Lease.Act Bytes Byte4)
  | .adopt s => do
    let e ← x.mgr.heap[s]?
    let key ← e.clientKey
    match x.mgr.adopt s e with
    | .ok (_, some ip) =>
      if x.mgr.leases key = some ip then some (.renew key ip) else some (.grant key ip)
    | _ => none
  | .remove s => do
    let e ← x.mgr.heap[s]?
    let key ← e.clientKey
    let ip ← e.ip
    if x.mgr.byStatic.lookup key = some s then some (.expire key ip) else none
  | _ => none

/-- One critical section and the lease table. -/
theorem Step.lease (hst : Step x l x') (h : x.mgr.Indexed) :
    (event x l = none ∧ x'.mgr.leases = x.mgr.leases) ∨
      ∃ m, event x l = some m ∧ Lease.Step x.mgr.leases m x'.mgr.leases := by
  cases hst with
  | reject => exact .inl ⟨rfl, rfl⟩
  | alloc _ halloc =>
    obtain ⟨r, -, heq⟩ := Option.map_eq_some_iff.1 halloc
    cases heq
    exact .inl ⟨rfl, rfl⟩
  | insert => exact .inl ⟨rfl, Manager.leases_insert _ _⟩
  | identify he => exact .inl ⟨rfl, Manager.leases_identify he _⟩
  | @adopt s e m ip he hk hip hr ha =>
    obtain ⟨key, hkey⟩ := Option.isSome_iff_exists.1 hk
    obtain ⟨rfl, rfl⟩ | ⟨a, rfl, hnone, hfree, hl⟩ | ⟨a, rfl, hsome, hl⟩ :=
      h.leases_adopt he ⟨hip, hr, hkey⟩ ha
    · exact .inl ⟨by simp [event, he, hkey, ha], rfl⟩
    · refine .inr ⟨.grant key a, by simp [event, he, hkey, ha, hfree], ?_⟩
      rw [hl]
      exact .grant hnone hfree
    · refine .inr ⟨.renew key a, by simp [event, he, hkey, ha, hsome], ?_⟩
      rw [hl]
      exact .renew hsome
  | @remove s e he hr =>
    cases hkey : e.clientKey with
    | none => exact .inl ⟨by simp [event, he, hkey], Manager.leases_remove_of_anonymous he hkey⟩
    | some key =>
      by_cases hs : x.mgr.byStatic.lookup key = some s
      · obtain ⟨e', he', hact, -⟩ := (h.consistent.byStatic key s).1 hs
        obtain rfl : e' = e := Option.some.inj (he'.symm.trans he)
        obtain ⟨ip, hip⟩ := Option.isSome_iff_exists.1 hact.1
        have hlease : x.mgr.leases key = some ip := h.leases_eq_some.2 ⟨s, e', hs, he, hact, hip⟩
        refine .inr ⟨.expire key ip, by simp [event, he, hkey, hip, hs], ?_⟩
        rw [Manager.leases_remove he hkey, if_pos hs]
        exact .expire hlease
      · refine .inl ⟨by cases hip : e.ip <;> simp [event, he, hkey, hip, hs], ?_⟩
        rw [Manager.leases_remove he hkey, if_neg hs]

/-- **The registry refines the lease table.** -/
theorem refines_lease : LTS.Refines lts (Lease.lts Bytes Byte4) (fun x => x.mgr.Indexed)
    (fun x => x.mgr.leases) event where
  keeps hx hst := (step_cases hst).indexed hx
  silent hx hst hev := by
    obtain ⟨-, heq⟩ | ⟨m, hm, -⟩ := (step_cases hst).lease hx
    · exact heq
    · cases hev.symm.trans hm
  visible hx hst hev := by
    obtain ⟨hnone, -⟩ | ⟨m, hm, hstep⟩ := (step_cases hst).lease hx
    · cases hev.symm.trans hnone
    · cases hev.symm.trans hm
      exact hstep

/-- A lease expires when the session that is registered for the key is removed. -/
theorem event_eq_expire (h : x.mgr.Indexed) (hev : event x l = some (.expire key ip)) :
    ∃ s, l = .remove s ∧ x.mgr.byStatic.lookup key = some s ∧ x.mgr.leases key = some ip := by
  cases l with
  | check | insert | identify => cases hev
  | adopt s =>
    simp only [event, Option.bind_eq_bind, Option.bind_eq_some_iff] at hev
    obtain ⟨e, -, k, -, hev⟩ := hev
    split at hev
    · split_ifs at hev
      · cases hev
      · cases hev
    · cases hev
  | remove s =>
    simp only [event, Option.bind_eq_bind, Option.bind_eq_some_iff] at hev
    obtain ⟨e, he, k, hk, a, ha, hev⟩ := hev
    split_ifs at hev with hs
    cases hev
    obtain ⟨e', he', hact, -⟩ := (h.consistent.byStatic key s).1 hs
    obtain rfl : e' = e := Option.some.inj (he'.symm.trans he)
    exact ⟨s, rfl, hs, h.leases_eq_some.2 ⟨s, e', hs, he, hact, ha⟩⟩

/-- The packets for a leased address go to the session that is registered for the key. -/
theorem byIP_of_lease (h : x.mgr.Indexed) (hl : x.mgr.leases key = some ip) :
    ∃ s, x.mgr.byStatic.lookup key = some s ∧ x.mgr.byIP.lookup ip = some s := by
  obtain ⟨s, e, hs, he, ⟨-, ht, hr⟩, hip⟩ := h.leases_eq_some.1 hl
  refine ⟨s, hs, (h.byIP ip s).2 (column_eq_some.2 ⟨e, he, ?_⟩)⟩
  exact Entry.heldIP_eq_some.2 ⟨hip, ht, hr⟩

/-- No address is leased twice, since the lease table sees to that. -/
theorem leases_exclusive {subnet : Option IPNet} {maxSessions : ℤ} {m : Manager}
    (h₀ : Manager.new subnet maxSessions = .ok m) (hx : lts.Reachable (.start m) x) :
    Lease.Exclusive x.mgr.leases := by
  obtain ⟨n, -, -, rfl⟩ := Manager.new_eq_ok h₀
  obtain ⟨ls, run⟩ := hx
  obtain ⟨ms, hms⟩ := run.traced event
  obtain ⟨-, habs⟩ := refines_lease.run (Manager.Indexed.new h₀) hms
  refine Lease.run_exclusive habs ?_
  intro k k' a hk
  cases hk

/-- **A client keeps its address.**  What a run of critical sections does to the leases is a run of
the lease table; no two clients have the same address, and the packets for an address go to the
session that is registered for the client who has it.  A client who has an address at the start of
the run has it at the end, unless the run removes the session that is then registered for its key:
the removal of a session that another has taken over from costs the client nothing. -/
theorem leases_kept {subnet : Option IPNet} {maxSessions : ℤ} {m : Manager}
    (h₀ : Manager.new subnet maxSessions = .ok m) (hx : lts.Reachable (.start m) x)
    (run : lts.Run x ls y) :
    (∃ ms, lts.Traced event x ls ms y ∧
      (Lease.lts Bytes Byte4).Run x.mgr.leases ms y.mgr.leases) ∧
    Lease.Exclusive y.mgr.leases ∧
    (∀ key ip, y.mgr.leases key = some ip →
      ∃ s, y.mgr.byStatic.lookup key = some s ∧ y.mgr.byIP.lookup ip = some s) ∧
    ∀ key ip, x.mgr.leases key = some ip → y.mgr.leases key = some ip ∨
      ∃ l₁ s l₂ z, ls = l₁ ++ .remove s :: l₂ ∧ lts.Run x l₁ z ∧
        z.mgr.byStatic.lookup key = some s ∧ z.mgr.leases key = some ip := by
  have hi := indexed_of_reachable h₀ hx
  obtain ⟨ls₀, run₀⟩ := hx
  obtain ⟨ms, hms⟩ := run.traced event
  obtain ⟨hy, habs⟩ := refines_lease.run hi hms
  have hexcl := leases_exclusive h₀ (run₀.append run).reachable
  refine ⟨⟨ms, hms, habs⟩, hexcl, fun key ip => byIP_of_lease hy, fun key ip hl => ?_⟩
  refine (Lease.run_kept habs hl).imp_right fun hexp => ?_
  obtain ⟨l₁, l, l₂, z, z', rfl, run₁, -, hev⟩ := hms.exists_step hexp
  obtain ⟨ms₁, hms₁⟩ := run₁.traced event
  obtain ⟨s, rfl, hs, hlease⟩ := event_eq_expire (refines_lease.run hi hms₁).1 hev
  exact ⟨l₁, s, l₂, z, rfl, run₁, hs, hlease⟩

/-- A client that reconnects keeps its address when its first session is removed. -/
theorem leases_kept_takeover : ∃ m x y, Manager.new (some smallNet) 2 = .ok m ∧
    lts.Reachable (.start m) x ∧ x.mgr.leases [7] = some ⟨10, 77, 0, 2⟩ ∧
    lts.Run x [.check, .insert 0, .identify 1 [7], .adopt 1, .remove 0] y ∧
    y.mgr.leases [7] = some ⟨10, 77, 0, 2⟩ ∧ Lease.Exclusive y.mgr.leases := by
  have hm : Manager.new (some smallNet) 2 = .ok (.init smallNet 2) := rfl
  obtain ⟨x, hx, hp⟩ := LTS.exists_run_of_any (f := step) (.start (.init smallNet 2))
    [.check, .insert 0, .identify 0 [7], .adopt 0]
    (fun x => x.mgr.leases [7] == some ⟨10, 77, 0, 2⟩ &&
      (List.foldlM step x [.check, .insert 0, .identify 1 [7], .adopt 1, .remove 0]).toOption.any
        fun y => y.mgr.leases [7] == some ⟨10, 77, 0, 2⟩) (by decide)
  simp only [Bool.and_eq_true, beq_iff_eq] at hp
  obtain ⟨y, hy, hq⟩ := LTS.exists_run_of_any x _ _ hp.2
  exact ⟨_, x, y, hm, hx.reachable, hp.1, hy, beq_iff_eq.1 hq,
    (leases_kept hm hx.reachable hy).2.1⟩

end Registry

end VibeVpn

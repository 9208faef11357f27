import Mathlib.Data.List.Perm.Basic
import Mathlib.Data.Nat.Find
import VibeVpn.Session.Registry

/-!
# The session cap and the session ids

`HandleTransport` checks the number of sessions and allocates an id in one critical section and
inserts the session in another.  Calls of several listeners overlap, so a check may pass although
the calls before it have used up the room: **the cap holds only for runs in which every check counts
them in** (`Registry.Roomy`).  Session ids come from a 32-bit counter that skips the ids in `byID`;
the ids of the calls in progress and of the sessions that a reconnect has bumped are not there, and
stay unique as long as the counter makes less than a turn meanwhile (`Registry.Fresh`).

* `Manager.allocIDLocked_fresh` : the loop that looks for an id has no bound of its own, but ends
  after at most one id more than there are entries in `byID`.
* `Registry.session_cap` : under these two conditions the cap holds and no two live sessions share
  an id.
* `Registry.session_cap_exceeded` : two overlapping calls exceed a cap of one.

`idAt t` is the id the counter stands at when `t` ids have been tried, so an id is determined by its
tick, and two ticks less than a turn apart have different ids (`idAt_ne`).
-/

namespace VibeVpn

namespace Manager

/-! ### The id counter -/

/-- The id the counter stands at when `t` ids have been tried. -/
def idAt (t : ℕ) : ℕ := if t = 0 then 0 else (t - 1) % idCount + 1

theorem idCount_eq : idCount = 4294967295 := rfl

theorem bumpID_idAt (t : ℕ) : bumpID (idAt t) = idAt (t + 1) := by
  simp only [bumpID, idAt, idCount_eq, Nat.add_one_ne_zero, if_false, Nat.add_sub_cancel]
  split_ifs <;> omega

/-- Ticks less than a turn apart have different ids. -/
theorem idAt_ne {t t' : ℕ} (h₀ : 0 < t) (hlt : t < t') (hturn : t' < t + idCount) :
    idAt t ≠ idAt t' := by
  rw [idCount_eq] at hturn
  simp only [idAt, idCount_eq]
  split_ifs <;> omega

/-- A counter that has not come round stands at its own number of ticks. -/
theorem idAt_mod (n : ℕ) : idAt (n % 2 ^ 32) = n % 2 ^ 32 := by
  simp only [idAt, idCount_eq]
  split_ifs <;> omega

/-- A counter that has been bumped is an id. -/
theorem idAt_bounds {t : ℕ} (ht : 0 < t) : idAt t ≠ 0 ∧ idAt t < 2 ^ 32 := by
  rw [idAt, idCount_eq, if_neg (by omega)]
  omega

/-- The counter comes to every id within one turn. -/
theorem exists_idAt_eq (t : ℕ) {id : ℕ} (h₀ : 0 < id) (hid : id < 2 ^ 32) :
    ∃ n, 0 < n ∧ n ≤ idCount ∧ idAt (t + n) = id := by
  by_cases hlt : t % 4294967295 < id
  · refine ⟨id - t % 4294967295, ?_⟩
    rw [idAt, idCount_eq, if_neg (by omega)]
    omega
  · -- the counter has passed `id` in this turn
    refine ⟨id + 4294967295 - t % 4294967295, ?_⟩
    rw [idAt, idCount_eq, if_neg (by omega)]
    omega

/-- The loop ends at a free id. -/
theorem lookup_of_allocLoop {byID : GoMap ℕ Ref} {fuel start n id : ℕ}
    (h : allocLoop byID fuel start = some (n, id)) : byID.lookup id = none := by
  induction fuel generalizing start n with
  | zero => cases h
  | succ fuel ih =>
    rw [allocLoop] at h
    split_ifs at h with hmem
    · obtain ⟨⟨n', id'⟩, hr, heq⟩ := Option.map_eq_some_iff.1 h
      cases heq
      exact ih hr
    · cases h
      exact AList.lookup_eq_none.2 hmem

/-- The loop ends a positive number of ticks later. -/
theorem allocLoop_spec {byID : GoMap ℕ Ref} {fuel t n id : ℕ}
    (h : allocLoop byID fuel (idAt t) = some (n, id)) :
    0 < n ∧ id = idAt (t + n) := by
  induction fuel generalizing t n with
  | zero => cases h
  | succ fuel ih =>
    rw [allocLoop, bumpID_idAt] at h
    split_ifs at h with hmem
    · obtain ⟨⟨n', id'⟩, hr, heq⟩ := Option.map_eq_some_iff.1 h
      cases heq
      obtain ⟨-, hid⟩ := ih hr
      exact ⟨Nat.succ_pos _, by rw [hid]; congr 1; omega⟩
    · cases h
      exact ⟨Nat.one_pos, rfl⟩

/-! ### Allocation terminates -/

/-- The loop reads the counter as a `uint32`. -/
theorem allocLoop_mod (byID : GoMap ℕ Ref) (fuel n : ℕ) :
    allocLoop byID fuel (n % 2 ^ 32) = allocLoop byID fuel n := by
  cases fuel with
  | zero => rfl
  | succ fuel =>
    have hb : bumpID (n % 2 ^ 32) = bumpID n := by simp only [bumpID, Nat.mod_add_mod]
    rw [allocLoop, allocLoop, hb]

/-- The loop stops at the first free id. -/
theorem allocLoop_eq_of_first {byID : GoMap ℕ Ref} {t n fuel : ℕ} (hn : 0 < n)
    (hfree : idAt (t + n) ∉ byID) (htaken : ∀ j, 0 < j → j < n → idAt (t + j) ∈ byID)
    (hfuel : n ≤ fuel) : allocLoop byID fuel (idAt t) = some (n, idAt (t + n)) := by
  induction fuel generalizing t n with
  | zero => omega
  | succ fuel ih =>
    rw [allocLoop, bumpID_idAt]
    by_cases h1 : n = 1
    · subst h1
      rw [if_neg hfree]
    · obtain ⟨n, rfl⟩ : ∃ k, n = k + 1 := ⟨n - 1, by omega⟩
      have hshift : ∀ j, t + 1 + j = t + (j + 1) := fun j => by omega
      rw [if_pos (htaken 1 Nat.one_pos (by omega)),
        ih (t := t + 1) (n := n) (by omega) (by rwa [hshift])
          (fun j h₀ hj => by rw [hshift]; exact htaken (j + 1) (by omega) (by omega)) (by omega),
        hshift]
      rfl

/-- Ids taken one after the other, less than a turn, are different entries of the table. -/
theorem le_len_of_taken {byID : GoMap ℕ Ref} {t n : ℕ} (hn : n ≤ idCount)
    (htaken : ∀ j, 0 < j → j < n → idAt (t + j) ∈ byID) : n ≤ GoMap.len byID + 1 := by
  have hnodup : ((List.range' 1 (n - 1)).map fun j => idAt (t + j)).Nodup := by
    refine List.Nodup.map_on ?_ List.nodup_range'
    intro i hi j hj heq
    rw [List.mem_range'_1] at hi hj
    by_contra hne
    obtain hlt | hlt := Nat.lt_or_gt_of_ne hne
    · exact idAt_ne (by omega) (by omega) (by omega) heq
    · exact idAt_ne (by omega) (by omega) (by omega) heq.symm
  have hsub : ((List.range' 1 (n - 1)).map fun j => idAt (t + j)) ⊆ byID.keys := by
    intro id hid
    obtain ⟨j, hj, rfl⟩ := List.mem_map.1 hid
    rw [List.mem_range'_1] at hj
    exact AList.mem_keys.1 (htaken j (by omega) (by omega))
  have := hnodup.length_le_of_subset hsub
  simp only [List.length_map, List.length_range'] at this
  unfold GoMap.len
  omega

/-- **Allocation ends at a fresh id**: as long as some id is free, the loop tries at most one id
more than there are entries, whatever the counter stands at, and the id found becomes the
counter. -/
theorem allocIDLocked_fresh (m : Manager) (hfree : ∃ id, 1 ≤ id ∧ id ≤ 2 ^ 32 - 1 ∧ id ∉ m.byID) :
    ∃ n id, n ≤ GoMap.len m.byID + 1 ∧
      (∀ fuel, n ≤ fuel → allocLoop m.byID fuel m.nextID = some (n, id)) ∧
      m.handleTransportAlloc = some ({ m with nextID := id }, n, id) ∧
      id ≠ 0 ∧ id < 2 ^ 32 ∧ id ∉ m.byID := by
  obtain ⟨free, h₁, h₂, hfree⟩ := hfree
  set t := m.nextID % 2 ^ 32 with ht
  obtain ⟨k, hk₀, hk, hkid⟩ := exists_idAt_eq t (by omega : 0 < free) (by omega)
  -- the number of ids tried is the first at which the counter comes to a free id
  have hex : ∃ n, 0 < n ∧ idAt (t + n) ∉ m.byID := ⟨k, hk₀, by rwa [hkid]⟩
  obtain ⟨hn₀, hn⟩ := Nat.find_spec hex
  have hle : Nat.find hex ≤ idCount := le_trans (Nat.find_min' hex ⟨hk₀, by rwa [hkid]⟩) hk
  have htaken : ∀ j, 0 < j → j < Nat.find hex → idAt (t + j) ∈ m.byID := by
    intro j hj₀ hj
    by_contra hmem
    exact Nat.find_min hex hj ⟨hj₀, hmem⟩
  have hloop : ∀ fuel, Nat.find hex ≤ fuel →
      allocLoop m.byID fuel m.nextID = some (Nat.find hex, idAt (t + Nat.find hex)) := by
    intro fuel hfuel
    rw [← allocLoop_mod, ← idAt_mod]
    exact allocLoop_eq_of_first hn₀ hn htaken hfuel
  obtain ⟨hid₀, hid⟩ := idAt_bounds (Nat.add_pos_right t hn₀)
  refine ⟨_, _, le_len_of_taken hle htaken, hloop, ?_, hid₀, hid, hn⟩
  rw [handleTransportAlloc, allocIDLocked, hloop _ hle]
  rfl

/-- A counter that comes round skips zero and the id in use. -/
theorem allocIDLocked_fresh_wrap : ∃ (m : Manager) (n id : ℕ),
    m.nextID = 2 ^ 32 - 1 ∧ 1 ∈ m.byID ∧ n ≤ 2 ∧
    m.handleTransportAlloc = some ({ m with nextID := id }, n, id) ∧ id ≠ 0 ∧ id ∉ m.byID := by
  let m := { (Manager.init Registry.smallNet 2).handleTransportInsert 1 with nextID := 2 ^ 32 - 1 }
  obtain ⟨n, id, hn, -, halloc, hid, -, hnot⟩ := allocIDLocked_fresh m ⟨2, by decide⟩
  exact ⟨m, n, id, rfl, by decide, hn, halloc, hid, hnot⟩

end Manager

namespace Entry

/-- The id under which the session stands in `byID`. -/
def tableID (e : Entry) : Option ℕ := if e.transferred ∨ e.removed then none else some e.sid

/-- The id of a live session, bumped or not. -/
def liveID (e : Entry) : Option ℕ := if e.removed then none else some e.sid

theorem liveID_eq_some {e : Entry} {k : ℕ} :
    e.liveID = some k ↔ e.removed = false ∧ e.sid = k := by
  unfold liveID
  split_ifs with h <;> simp [h]

theorem liveID_of_tableID {e : Entry} {k : ℕ} (h : e.tableID = some k) : e.liveID = some k := by
  unfold tableID at h
  split_ifs at h with hf
  rw [liveID_eq_some]
  exact ⟨by simpa using (not_or.1 hf).2, Option.some.inj h⟩

theorem tableID_of_active {e : Entry} (h : e.Active) : e.tableID = some e.sid := by
  rw [tableID, if_neg (by simp [h.2.1, h.2.2])]

end Entry

namespace Manager

/-! ### The table of ids -/

/-- `byID` finds the sessions that are neither bumped nor removed, by their ids. -/
def Tabled (m : Manager) : Prop := GoMap.Indexes m.byID (column Entry.tableID m.heap)

variable {m m' : Manager} {s old : Ref} {e o : Entry} {ip : Option Byte4}

theorem Tabled.insert (h : m.Tabled) {id : ℕ} (hfree : m.byID.lookup id = none) :
    (m.handleTransportInsert id).Tabled := by
  have hnew : some id = Entry.tableID (Entry.new id) := rfl
  have := GoMap.Indexes.insert h column_length hfree
  rw [hnew, ← column_snoc] at this
  exact this

/-- Overwriting a session by one that stands in the table alike. -/
theorem Tabled.set_of_eq (h : m.Tabled) {e' : Entry} (he : m.heap[s]? = some e)
    (hheap : m'.heap = m.heap.set s e') (hbyID : m'.byID = m.byID)
    (ht : e'.tableID = e.tableID) : m'.Tabled := by
  rw [Tabled, hbyID, hheap, column_set_of_eq he ht]
  exact h

theorem Tabled.bump (h : m.Tabled) (ho : m.heap[old]? = some o) (ha : o.Active) :
    (m.bump old o).Tabled := by
  have hold : column Entry.tableID m.heap old = some o.sid := by
    rw [column_of_getElem? ho, Entry.tableID_of_active ha]
  have hout : Entry.tableID { o with transferred := true, cancelled := true } = none := by
    simp [Entry.tableID]
  have := GoMap.Indexes.erase h hold
  rw [← hout, ← column_set ho] at this
  exact this

/-- The predecessor of a session is another one that holds an address. -/
theorem Indexed.predecessor_active (h : m.Indexed) (hk : e.clientKey.isSome)
    (hp : m.predecessor s e = some old) (ho : m.heap[old]? = some o) : old ≠ s ∧ o.Active := by
  obtain ⟨key, hkey⟩ := Option.isSome_iff_exists.1 hk
  rw [predecessor_eq hkey, Option.filter_eq_some_iff, bne_iff_ne] at hp
  have hheld := (h.byStatic key old).1 hp.1
  rw [column_of_getElem? ho] at hheld
  exact ⟨hp.2, (Entry.heldKey_eq_some.1 hheld).1⟩

theorem Tabled.adopt (h : m.Tabled) (hi : m.Indexed) (he : m.heap[s]? = some e)
    (hk : e.clientKey.isSome) (ha : m.adopt s e = .ok (m', ip)) : m'.Tabled := by
  obtain ⟨-, rfl⟩ | ⟨k, -, -, -, rfl⟩ | ⟨k, old, o, -, hp, ho, -, rfl⟩ := adopt_cases ha
  · exact h
  · exact h.set_of_eq he rfl rfl rfl
  · obtain ⟨hne, hact⟩ := hi.predecessor_active hk hp ho
    have he' : (m.bump old o).heap[s]? = some e := by
      simpa [Manager.bump, List.getElem?_set_ne hne] using he
    exact (h.bump ho hact).set_of_eq he' rfl rfl rfl

theorem Tabled.remove (h : m.Tabled) (he : m.heap[s]? = some e) : (m.remove s e).Tabled := by
  have hout : Entry.tableID { e with removed := true } = none := by
    simp [Entry.tableID]
  have := GoMap.Indexes.eraseIf h (v := s) (k := some e.sid) fun k hk => by
    rw [column_of_getElem? he] at hk
    exact congrArg some (Entry.liveID_eq_some.1 (Entry.liveID_of_tableID hk)).2
  rw [← hout, ← column_set he] at this
  exact this

/-- An adoption leaves the ids of the live sessions alone. -/
theorem column_liveID_adopt (hi : m.Indexed) (he : m.heap[s]? = some e) (hk : e.clientKey.isSome)
    (ha : m.adopt s e = .ok (m', ip)) :
    column Entry.liveID m'.heap = column Entry.liveID m.heap := by
  obtain ⟨-, rfl⟩ | ⟨k, -, -, -, rfl⟩ | ⟨k, old, o, -, hp, ho, -, rfl⟩ := adopt_cases ha
  · rfl
  · exact column_set_of_eq he rfl
  · obtain ⟨hne, -⟩ := hi.predecessor_active hk hp ho
    have he' : (m.bump old o).heap[s]? = some e := by
      simpa [Manager.bump, List.getElem?_set_ne hne] using he
    have h₁ : column Entry.liveID ((m.bump old o).enter s e k).heap =
        column Entry.liveID (m.bump old o).heap := column_set_of_eq he' rfl
    have h₂ : column Entry.liveID (m.bump old o).heap = column Entry.liveID m.heap :=
      column_set_of_eq ho rfl
    exact h₁.trans h₂

end Manager

namespace Registry

open Manager

/-! ### Where the ids come from -/

/-- Every id in use is the id of the tick at which it was allocated. -/
structure Numbered (x : Registry) : Prop where
  next : x.mgr.nextID = idAt x.ticks
  calls : ∀ c ∈ x.calls, c.id = idAt c.tick ∧ 0 < c.tick ∧ c.tick ≤ x.ticks
  born : x.born.length = x.mgr.heap.length
  sids : ∀ (s : Ref) (e : Entry) (t : ℕ), x.mgr.heap[s]? = some e → x.born[s]? = some t →
    e.sid = idAt t ∧ 0 < t ∧ t ≤ x.ticks

variable {x x' : Registry} {l : Label}

/-- Overwriting a session without changing its id. -/
theorem Numbered.set (h : Numbered x) {s : Ref} {e e' : Entry} {m : Manager}
    (he : x.mgr.heap[s]? = some e) (hheap : m.heap = x.mgr.heap.set s e') (hsid : e'.sid = e.sid)
    (hnext : m.nextID = x.mgr.nextID) : Numbered { x with mgr := m } := by
  refine ⟨hnext.trans h.next, h.calls, ?_, ?_⟩
  · simpa [hheap] using h.born
  · intro r c t hc ht
    simp only [hheap] at hc
    obtain ⟨rfl, rfl⟩ | ⟨-, hc⟩ := getElem?_set_cases hc
    · rw [hsid]
      exact h.sids r e t he ht
    · exact h.sids r c t hc ht

theorem Step.numbered (hst : Step x l x') (h : Numbered x) : Numbered x' := by
  cases hst with
  | reject => exact ⟨h.next, h.calls, h.born, h.sids⟩
  | @alloc m n id _ ha =>
    obtain ⟨r, hr, heq⟩ := Option.map_eq_some_iff.1 ha
    cases heq
    rw [allocIDLocked, h.next] at hr
    obtain ⟨hn, hid⟩ := allocLoop_spec hr
    refine ⟨hid, ?_, h.born, ?_⟩
    · intro c hc
      obtain hc | hc := List.mem_append.1 hc
      · obtain ⟨h₁, h₂, h₃⟩ := h.calls c hc
        exact ⟨h₁, h₂, le_trans h₃ (Nat.le_add_right _ _)⟩
      · rw [List.mem_singleton.1 hc]
        exact ⟨hid, by dsimp only; omega, le_refl _⟩
    · intro s e t he ht
      obtain ⟨h₁, h₂, h₃⟩ := h.sids s e t he ht
      exact ⟨h₁, h₂, le_trans h₃ (Nat.le_add_right _ _)⟩
  | @insert i c hc =>
    refine ⟨h.next, fun d hd => h.calls d (List.mem_of_mem_eraseIdx hd), ?_, ?_⟩
    · simp [handleTransportInsert, h.born]
    · intro s e t he ht
      have hlen := h.born
      obtain he | ⟨hs, rfl⟩ := getElem?_snoc_cases he
      · obtain ht | ⟨hs, -⟩ := getElem?_snoc_cases ht
        · exact h.sids s e t he ht
        · -- an old session has an old tick
          obtain ⟨hlt, -⟩ := List.getElem?_eq_some_iff.1 he
          omega
      · obtain ht | ⟨-, rfl⟩ := getElem?_snoc_cases ht
        · obtain ⟨hlt, -⟩ := List.getElem?_eq_some_iff.1 ht
          omega
        · exact h.calls c (List.mem_of_getElem? hc)
  | identify he => exact h.set he rfl rfl rfl
  | @adopt s e m ip he hk hip hr ha =>
    obtain ⟨-, rfl⟩ | ⟨k, -, -, -, rfl⟩ | ⟨k, old, o, -, hp, ho, -, rfl⟩ := adopt_cases ha
    · exact h
    · exact h.set he rfl rfl rfl
    · obtain ⟨key, hkey⟩ := Option.isSome_iff_exists.1 hk
      rw [predecessor_eq hkey, Option.filter_eq_some_iff, bne_iff_ne] at hp
      have hbump : Numbered { x with mgr := x.mgr.bump old o } := h.set ho rfl rfl rfl
      have he' : (x.mgr.bump old o).heap[s]? = some e := by
        simpa [bump, List.getElem?_set_ne hp.2] using he
      exact hbump.set he' rfl rfl rfl
  | remove he => exact h.set he rfl rfl rfl

/-! ### Uniqueness of the ids -/

/-- The counter has made less than a turn since the id of a call in progress, or of a bumped
session that is still running, was allocated. -/
def Fresh (x : Registry) : Prop :=
  (∀ c ∈ x.calls, x.ticks < c.tick + idCount) ∧
  ∀ (s : Ref) (e : Entry) (t : ℕ), x.mgr.heap[s]? = some e → x.born[s]? = some t →
    e.transferred = true → e.removed = false → x.ticks < t + idCount

/-- No id is in use twice.  About the calls in progress this is said of fresh states only: the step
that ends the freshness may allocate an id again. -/
structure Unique (x : Registry) : Prop where
  table : x.mgr.Tabled
  live : ∀ s s' k, column Entry.liveID x.mgr.heap s = some k →
    column Entry.liveID x.mgr.heap s' = some k → s = s'
  calls : Fresh x → (x.calls.map Call.id).Nodup ∧
    ∀ c ∈ x.calls, ∀ s, column Entry.liveID x.mgr.heap s ≠ some c.id

/-- A change to the sessions that keeps their ids and takes no live session away. -/
theorem Unique.congr (h : Unique x) (hf : Fresh x) {m : Manager}
    (htable : m.Tabled)
    (hlive : ∀ s k, column Entry.liveID m.heap s = some k →
      column Entry.liveID x.mgr.heap s = some k) : Unique { x with mgr := m } := by
  refine ⟨htable, ?_, fun _ => ⟨(h.calls hf).1, ?_⟩⟩
  · intro s s' k hs hs'
    exact h.live s s' k (hlive s k hs) (hlive s' k hs')
  · intro c hc s hs
    exact (h.calls hf).2 c hc s (hlive s _ hs)

theorem Unique.remove (h : Unique x) (hf : Fresh x) {s : Ref} {e : Entry}
    (he : x.mgr.heap[s]? = some e) : Unique { x with mgr := x.mgr.remove s e } := by
  refine h.congr hf (h.table.remove he) ?_
  intro r k hr
  obtain ⟨c, hc, hk⟩ := column_eq_some.1 hr
  obtain ⟨rfl, rfl⟩ | ⟨-, hc⟩ := getElem?_set_cases hc
  · simp [Entry.liveID] at hk
  · exact column_eq_some.2 ⟨c, hc, hk⟩

/-- The ids of the remaining calls differ from that of a call which is done. -/
theorem eraseIdx_ids {calls : List Call} {i : ℕ} {c : Call} (hc : calls[i]? = some c)
    (hnodup : (calls.map Call.id).Nodup) :
    ((calls.eraseIdx i).map Call.id).Nodup ∧ ∀ d ∈ calls.eraseIdx i, d.id ≠ c.id := by
  obtain ⟨hi, rfl⟩ := List.getElem?_eq_some_iff.1 hc
  have hperm := (List.getElem_cons_eraseIdx_perm hi).map Call.id
  rw [List.map_cons] at hperm
  obtain ⟨hnot, hn⟩ := List.nodup_cons.1 (hperm.nodup_iff.2 hnodup)
  exact ⟨hn, fun d hd heq => hnot (heq ▸ List.mem_map_of_mem hd)⟩

/-- The session of a call enters the table. -/
theorem Unique.insert (h : Unique x) (hf : Fresh x) {i : ℕ} {c : Call} {born : List ℕ}
    (hc : x.calls[i]? = some c) :
    Unique { x with
      mgr := x.mgr.handleTransportInsert c.id
      calls := x.calls.eraseIdx i
      born := born } := by
  obtain ⟨hnodup, hapart⟩ := h.calls hf
  have hmem := List.mem_of_getElem? hc
  have hnew : Entry.liveID (Entry.new c.id) = some c.id := rfl
  have hlive : column Entry.liveID (x.mgr.handleTransportInsert c.id).heap =
      Function.update (column Entry.liveID x.mgr.heap) x.mgr.heap.length (some c.id) := by
    rw [← hnew]
    exact column_snoc
  have hrest := eraseIdx_ids hc hnodup
  refine ⟨?_, ?_, fun _ => ⟨hrest.1, ?_⟩⟩
  · have hfree : x.mgr.byID.lookup c.id = none := by
      refine Option.eq_none_iff_forall_ne_some.2 fun s hs => hapart c hmem s ?_
      obtain ⟨e, he, hk⟩ := column_eq_some.1 ((h.table c.id s).1 hs)
      exact column_eq_some.2 ⟨e, he, Entry.liveID_of_tableID hk⟩
    exact h.table.insert hfree
  · intro s s' k hs hs'
    simp only [hlive, Function.update_apply] at hs hs'
    split_ifs at hs hs' with h₁ h₂ h₂
    · exact h₁.trans h₂.symm
    · exact absurd (hs'.trans hs.symm) (hapart c hmem s')
    · exact absurd (hs.trans hs'.symm) (hapart c hmem s)
    · exact h.live s s' k hs hs'
  · intro d hd s hs
    simp only [hlive, Function.update_apply] at hs
    split_ifs at hs with h₁
    · exact hrest.2 d hd (Option.some.inj hs).symm
    · exact hapart d (List.mem_of_mem_eraseIdx hd) s hs

/-- A new id is nobody's, if the counter has not come around. -/
theorem Unique.alloc (h : Unique x) (hnum : Numbered x) (hf : Fresh x) {n id : ℕ}
    (hn : 0 < n) (hfree : x.mgr.byID.lookup id = none) (hid : id = idAt (x.ticks + n)) :
    Unique { x with
      mgr := { x.mgr with nextID := id }
      calls := x.calls ++ [⟨id, x.ticks + n⟩]
      ticks := x.ticks + n } := by
  obtain ⟨hnodup, hapart⟩ := h.calls hf
  refine ⟨h.table, h.live, fun hf' => ⟨?_, ?_⟩⟩
  · rw [List.map_append, List.map_singleton]
    refine List.nodup_append.2 ⟨hnodup, List.nodup_singleton _, ?_⟩
    intro a ha b hb hab
    obtain ⟨d, hd, rfl⟩ := List.mem_map.1 ha
    obtain ⟨hdid, hd₀, hdt⟩ := hnum.calls d hd
    rw [List.mem_singleton.1 hb, hdid] at hab
    have hturn : x.ticks + n < d.tick + idCount := hf'.1 d (List.mem_append_left _ hd)
    exact idAt_ne hd₀ (by omega) hturn (hab.trans hid)
  · intro d hd s hs
    obtain hd | hd := List.mem_append.1 hd
    · exact hapart d hd s hs
    · rw [List.mem_singleton.1 hd] at hs
      obtain ⟨e, he, hk⟩ := column_eq_some.1 hs
      obtain ⟨hr, hsid⟩ := Entry.liveID_eq_some.1 hk
      cases ht : e.transferred with
      | false =>
        -- a session in the table: its id is not free
        have htab : column Entry.tableID x.mgr.heap s = some id := by
          rw [column_of_getElem? he, Entry.tableID, if_neg (by simp [ht, hr])]
          exact congrArg some hsid
        rw [(h.table id s).2 htab] at hfree
        cases hfree
      | true =>
        have hs' : s < x.born.length := hnum.born ▸ (List.getElem?_eq_some_iff.1 he).1
        have hb := List.getElem?_eq_getElem hs'
        obtain ⟨hsid', hb₀, hbt⟩ := hnum.sids s e _ he hb
        have hturn : x.ticks + n < x.born[s] + idCount := hf'.2 s e _ he hb ht hr
        exact idAt_ne hb₀ (by omega) hturn (hsid'.symm.trans (hsid.trans hid))

theorem Step.unique (hst : Step x l x') (hi : x.mgr.Indexed) (hnum : Numbered x) (hf : Fresh x)
    (h : Unique x) : Unique x' := by
  cases hst with
  | reject => exact h.congr hf h.table fun _ _ hs => hs
  | alloc _ ha =>
    obtain ⟨r, hr, heq⟩ := Option.map_eq_some_iff.1 ha
    cases heq
    rw [allocIDLocked, hnum.next] at hr
    obtain ⟨hn, hid⟩ := allocLoop_spec hr
    exact h.alloc hnum hf hn (lookup_of_allocLoop hr) hid
  | insert hc => exact h.insert hf hc
  | @identify s e key he _ _ =>
    refine h.congr hf (h.table.set_of_eq he rfl rfl rfl) fun r k hr => ?_
    have hsame : column Entry.liveID (x.mgr.identify s e key).heap =
        column Entry.liveID x.mgr.heap := column_set_of_eq he rfl
    rw [hsame] at hr
    exact hr
  | adopt he hk _ _ ha =>
    refine h.congr hf (h.table.adopt hi he hk ha) fun r k hr => ?_
    rw [column_liveID_adopt hi he hk ha] at hr
    exact hr
  | remove he => exact h.remove hf he

/-! ### The cap -/

/-- A capacity check that passes finds room for the calls in progress as well. -/
def Roomy (x : Registry) (l : Label) : Prop :=
  l = .check → x.mgr.isFull = false →
    ((GoMap.len x.mgr.byID + x.calls.length : ℕ) : ℤ) < x.mgr.maxSessions

/-- The table has room for the sessions and the calls in progress. -/
structure Capped (n : ℤ) (x : Registry) : Prop where
  max : x.mgr.maxSessions = n
  room : ((GoMap.len x.mgr.byID + x.calls.length : ℕ) : ℤ) ≤ n

variable {n : ℤ}

/-- A change of the manager that does not add to the table. -/
theorem Capped.of_le (h : Capped n x) {m : Manager} (hmax : m.maxSessions = x.mgr.maxSessions)
    (hlen : GoMap.len m.byID ≤ GoMap.len x.mgr.byID) : Capped n { x with mgr := m } := by
  refine ⟨hmax.trans h.max, Int.le_trans ?_ h.room⟩
  dsimp only
  omega

theorem Step.capped (hst : Step x l x') (hroom : Roomy x l) (h : Capped n x) : Capped n x' := by
  cases hst with
  | reject => exact h.of_le rfl (le_refl _)
  | alloc hf ha =>
    obtain ⟨r, -, heq⟩ := Option.map_eq_some_iff.1 ha
    cases heq
    have hlt := hroom rfl hf
    rw [h.max] at hlt
    refine ⟨h.max, ?_⟩
    simp only [List.length_append, List.length_singleton]
    omega
  | @insert i c hc =>
    obtain ⟨hi, -⟩ := List.getElem?_eq_some_iff.1 hc
    refine ⟨h.max, Int.le_trans ?_ h.room⟩
    have hlen := GoMap.len_insert_le x.mgr.byID c.id x.mgr.heap.length
    simp only [handleTransportInsert, List.length_eraseIdx_of_lt hi]
    omega
  | identify => exact h.of_le rfl (le_refl _)
  | adopt _ _ _ _ ha =>
    obtain ⟨-, rfl⟩ | ⟨k, -, -, -, rfl⟩ | ⟨k, old, o, -, -, -, -, rfl⟩ := adopt_cases ha
    · exact h
    · exact h.of_le rfl (le_refl _)
    · exact h.of_le rfl (GoMap.len_erase_le _ _)
  | @remove s e _ _ => exact h.of_le rfl (GoMap.len_eraseIf_le _ _ _)

/-! ### The main result -/

/-- The condition under which the cap and the ids are safe. -/
def Orderly (x : Registry) (l : Label) : Prop := Roomy x l ∧ Fresh x

/-- All that is known of the states of an orderly run. -/
structure Inv (n : ℤ) (x : Registry) : Prop where
  indexed : x.mgr.Indexed
  numbered : Numbered x
  unique : Unique x
  capped : Capped n x

theorem Inv.start {subnet : Option IPNet} {maxSessions : ℤ} {m : Manager}
    (h : Manager.new subnet maxSessions = .ok m) : Inv m.maxSessions (.start m) := by
  have hix := Manager.Indexed.new h
  obtain ⟨net, -, -, rfl⟩ := Manager.new_eq_ok h
  refine ⟨hix, ⟨rfl, ?_, rfl, ?_⟩, ⟨GoMap.indexes_empty fun _ => rfl, ?_, ?_⟩, rfl, ?_⟩
  · intro c hc
    cases hc
  · intro s e t he
    cases he
  · intro s s' k hs
    cases hs
  · intro _
    refine ⟨List.nodup_nil, fun c hc => ?_⟩
    cases hc
  · -- `NewManager` makes the cap positive
    simp only [Registry.start, Manager.init, GoMap.len_empty, List.length_nil]
    split_ifs with hmax
    · decide
    · omega

theorem Inv.step (h : Inv n x) (ho : Orderly x l) (hst : Step x l x') : Inv n x' :=
  ⟨hst.indexed h.indexed, hst.numbered h.numbered,
    hst.unique h.indexed h.numbered ho.2 h.unique, hst.capped ho.1 h.capped⟩

/-- **The session cap.**  In every run in which each capacity check that passes finds room for the
calls in progress too, and the id counter makes less than a turn while a call is in progress or a
bumped session is still running, there are never more than `MaxSessions` sessions, and two live
sessions never share an id. -/
theorem session_cap {subnet : Option IPNet} {maxSessions : ℤ} {m : Manager} {ls : List Label}
    (h₀ : Manager.new subnet maxSessions = .ok m)
    (hx : (lts.restrict Orderly).Run (.start m) ls x) :
    (GoMap.len x.mgr.byID : ℤ) ≤ m.maxSessions ∧
    ∀ (s s' : Ref) (e e' : Entry), x.mgr.heap[s]? = some e → x.mgr.heap[s']? = some e' →
      e.removed = false → e'.removed = false → e.sid = e'.sid → s = s' := by
  have hinv : Inv m.maxSessions x :=
    hx.reachable.invariant (I := Inv m.maxSessions) (.start h₀)
      fun _ _ _ hi hst => hi.step hst.1 (step_cases hst.2)
  constructor
  · have := hinv.capped.room
    push_cast at this
    omega
  · intro s s' e e' he he' hr hr' hsid
    refine hinv.unique.live s s' e.sid ?_ ?_
    · exact column_eq_some.2 ⟨e, he, Entry.liveID_eq_some.2 ⟨hr, rfl⟩⟩
    · exact column_eq_some.2 ⟨e', he', Entry.liveID_eq_some.2 ⟨hr', hsid.symm⟩⟩

/-- A test for orderly steps in the first turn of the counter. -/
def roomyFirstTurn (x : Registry) (l : Label) : Bool :=
  decide (x.ticks < idCount) && (decide (l ≠ .check) ||
    decide (((GoMap.len x.mgr.byID + x.calls.length : ℕ) : ℤ) < x.mgr.maxSessions))

theorem orderly_of_first_turn (h : roomyFirstTurn x l = true) : Orderly x l := by
  simp only [roomyFirstTurn, Bool.and_eq_true, Bool.or_eq_true, decide_eq_true_eq] at h
  obtain ⟨hturn, hroom⟩ := h
  refine ⟨fun hl _ => hroom.resolve_left fun hne => hne hl, fun c _ => ?_, fun s e t _ _ _ _ => ?_⟩
  · omega
  · omega

/-- Two calls one after the other fill a table of two. -/
theorem session_cap_two : ∃ m x, Manager.new (some smallNet) 2 = .ok m ∧
    (lts.restrict Orderly).Run (.start m) [.check, .insert 0, .check, .insert 0] x ∧
    (GoMap.len x.mgr.byID : ℤ) = 2 ∧ (GoMap.len x.mgr.byID : ℤ) ≤ m.maxSessions := by
  have hm : Manager.new (some smallNet) 2 = .ok (.init smallNet 2) := rfl
  obtain ⟨x, hrun, hp⟩ := LTS.exists_run_restrict_of_any (f := step) roomyFirstTurn
    (fun _ _ => orderly_of_first_turn) (.start (.init smallNet 2))
    [.check, .insert 0, .check, .insert 0] (fun x => GoMap.len x.mgr.byID == 2) (by decide)
  exact ⟨_, x, hm, hrun, congrArg _ (beq_iff_eq.1 hp), (session_cap hm hrun).1⟩

/-- **Two overlapping calls exceed a cap of one**: both check before either inserts. -/
theorem session_cap_exceeded : ∃ m x, Manager.new (some smallNet) 1 = .ok m ∧
    lts.Reachable (.start m) x ∧ m.maxSessions < (GoMap.len x.mgr.byID : ℤ) := by
  obtain ⟨x, hrun, hp⟩ := LTS.exists_run_of_any (f := step) (.start (.init smallNet 1))
    [.check, .check, .insert 0, .insert 0] (fun x => GoMap.len x.mgr.byID == 2) (by decide)
  refine ⟨_, x, rfl, hrun.reachable, ?_⟩
  rw [beq_iff_eq.1 hp]
  decide

end Registry

end VibeVpn

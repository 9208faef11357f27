import VibeVpn.Transport.Udp

/-!
# Closing endpoints

Three parties close an endpoint's `done` channel, and a second `close` panics: a rejecting
`dispatch` and `Server.Close` close it without looking; `endpointTransport.Close` looks first, but
the look and the `close` are two steps.

* `Udp.no_double_close` : **no channel is closed twice** if the three parties do not work on one
  endpoint at the same time.
* `Udp.double_close` : they panic if they do.  While a callback decides, `Server.Close` closes the
  new endpoint, and then the callback rejects it; or `Server.Close` closes an endpoint between the
  look and the `close` of `endpointTransport.Close`.
-/

namespace VibeVpn

namespace Udp

/-- The call of `endpointTransport.Close` is running. -/
def CloseStage.running : CloseStage → Bool
  | .idle => false
  | .marked => true
  | .unregistered => true
  | .committed => true
  | .returned => false

namespace Server

/-- The endpoint is in the table. -/
def Registered (x : Server) (r : Ref) : Prop := ∃ k, x.eps.lookup k = some r

/-- The call of `dispatch` admits the endpoint. -/
def Admitting (x : Server) (r : Ref) : Prop :=
  ∃ c s, x.call = some c ∧ c.place = .admitting r s

/-- **The parties keep apart**: `Server.Close` takes over no endpoint that is being admitted or
closed, and `endpointTransport.Close` begins on no endpoint that is being admitted or that
`Server.Close` has taken over. -/
def Apart (x : Server) : Label → Prop
  | .close => ∀ k r e, x.eps.lookup k = some r → x.heap[r]? = some e →
      ¬ x.Admitting r ∧ e.stage.running = false
  | .closeTransport r => ∀ e, x.heap[r]? = some e → e.stage = .idle →
      ¬ x.Admitting r ∧ r ∉ x.closing
  | _ => True

/-- What is to be known of an endpoint's `done`. -/
def status (x : Server) : Ref → Option (Bool × CloseStage) :=
  column (fun e => some (e.done, e.stage)) x.heap

/-- At most one party has the endpoint, and then `done` is open. -/
structure Fine (x : Server) (r : Ref) : Prop where
  /-- An endpoint that somebody will close is open. -/
  isOpen : x.Registered r ∨ x.Admitting r ∨ r ∈ x.closing → ∃ g, x.status r = some (false, g)
  /-- `Server.Close` shares no endpoint with the table or with `dispatch`, -/
  closing : r ∈ x.closing → ¬ x.Registered r ∧ ¬ x.Admitting r
  /-- nor does a running `endpointTransport.Close`, -/
  running : ∀ {d g}, x.status r = some (d, g) → g.running = true → ¬ x.Admitting r ∧ r ∉ x.closing
  /-- which has left the table before it looks at `done`. -/
  left : ∀ {d g}, x.status r = some (d, g) → g ≠ .idle → g ≠ .marked → ¬ x.Registered r
  /-- An endpoint found open stays so. -/
  committed : ∀ {d}, x.status r = some (d, .committed) → d = false
  /-- A rejected endpoint has left the table before `dispatch` closes it. -/
  shutting : ∀ {c}, x.call = some c → c.place = .admitting r .shutting → ¬ x.Registered r

/-- Every endpoint is fine, and `Server.Close` has taken it over at most once. -/
structure Single (x : Server) : Prop where
  fine : ∀ r, Fine x r
  nodup : x.closing.Nodup

variable {x y : Server} {l : Label} {r : Ref}

/-- The call of `dispatch` admits the endpoint in `y` only if it does so in `x`, and then it is not
about to close it only in `y`. -/
def Admits (x y : Server) (r : Ref) : Prop :=
  ∀ c s, y.call = some c → c.place = .admitting r s →
    ∃ c' s', x.call = some c' ∧ c'.place = .admitting r s' ∧ (s = .shutting → s' = .shutting)

/-- A step of another endpoint may only take hands off this one. -/
theorem Fine.frame (hi : Fine x r) (hs : y.status r = x.status r)
    (hreg : y.Registered r → x.Registered r) (hcall : Admits x y r)
    (hclo : r ∈ y.closing → r ∈ x.closing) : Fine y r := by
  have hadm : y.Admitting r → x.Admitting r := by
    rintro ⟨c, s, hc, hp⟩
    obtain ⟨c', s', hc', hp', -⟩ := hcall _ _ hc hp
    exact ⟨c', s', hc', hp'⟩
  refine ⟨fun h => ?_, fun h => ?_, fun h hg => ?_, fun h hg hg' => ?_, fun h => ?_, fun h hp => ?_⟩
  · rw [hs]
    exact hi.isOpen (h.imp hreg (Or.imp hadm hclo))
  · obtain ⟨h₁, h₂⟩ := hi.closing (hclo h)
    exact ⟨fun h => h₁ (hreg h), fun h => h₂ (hadm h)⟩
  · obtain ⟨h₁, h₂⟩ := hi.running (hs ▸ h) hg
    exact ⟨fun h => h₁ (hadm h), fun h => h₂ (hclo h)⟩
  · exact fun hr => hi.left (hs ▸ h) hg hg' (hreg hr)
  · exact hi.committed (hs ▸ h)
  · obtain ⟨c', s', hc', hp', hsh⟩ := hcall _ _ h hp
    cases hsh rfl
    exact fun hr => hi.shutting hc' hp' (hreg hr)

/-- An endpoint that nobody has. -/
theorem Fine.of_free (hreg : ¬ x.Registered r) (hadm : ¬ x.Admitting r) (hclo : r ∉ x.closing)
    (hcom : ∀ {d}, x.status r = some (d, .committed) → d = false) : Fine x r where
  isOpen h := by
    obtain h | h | h := h
    · exact absurd h hreg
    · exact absurd h hadm
    · exact absurd h hclo
  closing h := absurd h hclo
  running _ _ := ⟨hadm, hclo⟩
  left _ _ _ := hreg
  committed := hcom
  shutting _ _ := hreg

theorem single_start : Single start where
  fine r := by
    refine .of_free ?_ ?_ (List.not_mem_nil) fun h => ?_
    · rintro ⟨k, hk⟩
      cases hk
    · rintro ⟨c, s, hc, -⟩
      cases hc
    · cases h
  nodup := .nil

/-- An endpoint that is overwritten. -/
theorem status_put {e : Endpoint} (he : x.heap[r]? = some e) (e' : Endpoint) (q : Ref) :
    (x.put r e').status q = if q = r then some (e'.done, e'.stage) else x.status q := by
  rw [status, put, column_set he, Function.update_apply]
  rfl

theorem status_of_heap {e : Endpoint} (he : x.heap[r]? = some e) :
    x.status r = some (e.done, e.stage) :=
  column_of_getElem? he

theorem admits_of_eq (h : y.call = x.call) : Admits x y r :=
  fun c s hc hp => ⟨c, s, h ▸ hc, hp, id⟩

theorem admits_of_none (h : y.call = none) : Admits x y r := by
  intro c s hc
  cases h.symm.trans hc

/-- The call goes on with its datagram. -/
theorem admits_of_offer {c : Call} {q : Ref} (hy : y.call = some { c with place := .offering q }) :
    Admits x y r := by
  intro c' s hc hp
  cases hy.symm.trans hc
  cases hp

/-- The call goes on with its endpoint. -/
theorem admits_of_goto {c : Call} {q : Ref} {s s' : Stage} (hx : x.call = some c)
    (hp : c.place = .admitting q s) (hy : y.call = some { c with place := .admitting q s' })
    (hs : s' ≠ .shutting) : Admits x y r := by
  intro c' s'' hc hp'
  cases hy.symm.trans hc
  cases hp'
  exact ⟨c, s, hx, hp, fun h => absurd h hs⟩

/-- The table, the endpoints and `Server.Close` go on unchanged. -/
theorem Single.congr (hi : Single x) (hs : ∀ q, y.status q = x.status q) (ht : y.eps = x.eps)
    (hcall : ∀ q, Admits x y q) (hclo : y.closing = x.closing) : Single y where
  fine q := (hi.fine q).frame (hs q) (fun ⟨k, h⟩ => ⟨k, ht ▸ h⟩) (hcall q) (fun h => hclo ▸ h)
  nodup := hclo ▸ hi.nodup

/-- One endpoint changes, and is fine afterwards. -/
theorem Single.update (hi : Single x) {e e' : Endpoint} (he : x.heap[r]? = some e)
    (hh : y.heap = x.heap.set r e')
    (ht : ∀ {k q}, y.eps.lookup k = some q → x.eps.lookup k = some q)
    (hcall : ∀ q, q ≠ r → Admits x y q) (hclo : y.closing.Sublist x.closing) (hr : Fine y r) :
    Single y where
  fine q := by
    by_cases hq : q = r
    · exact hq ▸ hr
    · have hs : y.status q = x.status q := by
        have h := status_put he e' q
        rw [if_neg hq, status, put] at h
        rw [status, hh]
        exact h
      exact (hi.fine q).frame hs (fun ⟨k, h⟩ => ⟨k, ht h⟩) (hcall q hq) fun h => hclo.subset h
  nodup := hi.nodup.sublist hclo

/-- One endpoint changes, and nobody has it afterwards. -/
theorem Single.free (hi : Single x) {e e' : Endpoint} (he : x.heap[r]? = some e)
    (hh : y.heap = x.heap.set r e')
    (ht : ∀ {k q}, y.eps.lookup k = some q → x.eps.lookup k = some q)
    (hcall : ∀ q, Admits x y q) (hclo : y.closing.Sublist x.closing) (hreg : ¬ y.Registered r)
    (hadm : ¬ y.Admitting r) (hin : r ∉ y.closing)
    (hcom : e'.stage = .committed → e'.done = false) :
    Single y := by
  refine hi.update he hh ht (fun q _ => hcall q) hclo (.of_free hreg hadm hin fun {d} h => ?_)
  have hs : y.status r = some (e'.done, e'.stage) := by
    have h := status_put he e' r
    rw [if_pos rfl, status, put] at h
    rw [status, hh]
    exact h
  obtain ⟨rfl, hst⟩ := Prod.mk.inj (Option.some.inj (hs.symm.trans h))
  exact hcom hst

/-- A new endpoint is registered. -/
theorem Single.register (hi : Single x) {c : Call} :
    Single { x.goto c (.admitting x.heap.length .checking) with
      eps := x.eps.insert (makePeerKey c.remote) x.heap.length
      heap := x.heap ++ [.new c.remote] } := by
  have hstatus (q : Ref) : column (fun e => some (e.done, e.stage)) (x.heap ++ [.new c.remote]) q =
      if q = x.heap.length then some (false, .idle) else x.status q := by
    rw [column_snoc, Function.update_apply]
    rfl
  refine ⟨fun q => ?_, hi.nodup⟩
  by_cases hq : q = x.heap.length
  · subst hq
    have hs := hstatus x.heap.length
    rw [if_pos rfl] at hs
    have hclo : x.heap.length ∉ x.closing := by
      intro h
      obtain ⟨g, hg⟩ := (hi.fine _).isOpen (.inr (.inr h))
      rw [status, column_length] at hg
      cases hg
    refine ⟨fun _ => ⟨_, hs⟩, fun h => absurd h hclo, fun h hg => ?_, fun h hg => ?_, fun h => ?_,
      fun h hp => ?_⟩
    · cases hs.symm.trans h
      cases hg
    · cases hs.symm.trans h
      cases hg rfl
    · cases hs.symm.trans h
    · cases h
      cases hp
  · refine (hi.fine q).frame ((hstatus q).trans (if_neg hq)) ?_ ?_ id
    · rintro ⟨k, hk⟩
      rw [GoMap.lookup_insert_eq] at hk
      split_ifs at hk with hkey
      · exact absurd (Option.some.inj hk).symm hq
      · exact ⟨k, hk⟩
    · intro c' s hc hp
      cases hc
      cases hp
      cases hq rfl

/-- A rejected endpoint is deleted. -/
theorem Single.delete (hi : Single x) (hf : Filed x) {c : Call} (hc : x.call = some c)
    (hp : c.place = .admitting r .rejecting) :
    Single { x.goto c (.admitting r .shutting) with
      eps := x.eps.erase (makePeerKey c.remote) } := by
  have hadm : x.Admitting r := ⟨c, _, hc, hp⟩
  have hi' := hi.fine r
  refine ⟨fun q => ?_, hi.nodup⟩
  by_cases hq : q = r
  · subst hq
    have hreg : ¬ ∃ k, (x.eps.erase (makePeerKey c.remote)).lookup k = some q := by
      rintro ⟨k, hk⟩
      obtain ⟨hne, hk⟩ := GoMap.lookup_erase_some.1 hk
      have hkey : x.keyOf q = some (makePeerKey c.remote) := hf.call hc (by rw [hp]; rfl)
      exact hne (Option.some.inj ((hf.key hk).symm.trans hkey))
    exact ⟨fun _ => hi'.isOpen (.inr (.inl hadm)), fun h => absurd hadm (hi'.closing h).2,
      fun h hg => absurd hadm (hi'.running h hg).1, fun _ _ _ => hreg, hi'.committed,
      fun _ _ => hreg⟩
  · refine (hi.fine q).frame rfl ?_ ?_ id
    · rintro ⟨k, hk⟩
      exact ⟨k, (GoMap.lookup_erase_some.1 hk).2⟩
    · intro c' s h hp'
      cases h
      cases hp'
      cases hq rfl

/-- `Server.Close` takes the table over. -/
theorem Single.close (hi : Single x) (hf : Filed x) (hG : Apart x .close) :
    Single { x with
      closed := true
      eps := ∅
      closing := x.closing ++ x.eps.entries.map Sigma.snd } := by
  have hmem {q : Ref} : q ∈ x.eps.entries.map Sigma.snd ↔ x.Registered q := by
    rw [List.mem_map]
    constructor
    · rintro ⟨⟨k, v⟩, h, rfl⟩
      exact ⟨k, AList.mem_lookup_iff.2 h⟩
    · rintro ⟨k, h⟩
      exact ⟨⟨k, q⟩, AList.mem_lookup_iff.1 h, rfl⟩
  have hfree {q : Ref} {d : Bool} {g : CloseStage} (hq : x.Registered q)
      (hs : x.status q = some (d, g)) : ¬ x.Admitting q ∧ g.running = false := by
    obtain ⟨k, hk⟩ := hq
    obtain ⟨e, he, hst⟩ := column_eq_some.1 hs
    cases hst
    exact hG k q e hk he
  have hempty {q : Ref} : ¬ ∃ k, (∅ : GoMap PeerKey Ref).lookup k = some q := by
    rintro ⟨k, hk⟩
    cases hk
  refine ⟨fun q => ?_, ?_⟩
  · have hq := hi.fine q
    refine ⟨fun h => ?_, fun h => ⟨hempty, ?_⟩, fun h hg => ⟨?_, fun hclo => ?_⟩,
      fun _ _ _ => hempty, hq.committed, fun _ _ => hempty⟩
    · obtain h | h | h := h
      · exact absurd h hempty
      · exact hq.isOpen (.inr (.inl h))
      · obtain h | h := List.mem_append.1 h
        · exact hq.isOpen (.inr (.inr h))
        · exact hq.isOpen (.inl (hmem.1 h))
    · obtain h | h := List.mem_append.1 h
      · exact (hq.closing h).2
      · obtain ⟨g, hs⟩ := hq.isOpen (.inl (hmem.1 h))
        exact (hfree (hmem.1 h) hs).1
    · exact (hq.running h hg).1
    · obtain hclo | hclo := List.mem_append.1 hclo
      · exact (hq.running h hg).2 hclo
      · cases hg.symm.trans (hfree (hmem.1 hclo) h).2
  · refine List.Nodup.append hi.nodup (List.Nodup.map_on ?_ x.eps.nodupKeys.nodup) ?_
    · -- an endpoint is registered under its own key only
      rintro ⟨k, v⟩ h ⟨k', v'⟩ h' rfl
      have hk := hf.key (AList.mem_lookup_iff.2 h)
      have hk' := hf.key (AList.mem_lookup_iff.2 h')
      cases hk.symm.trans hk'
      rfl
    · exact fun q h h' => ((hi.fine q).closing h).1 (hmem.1 h')

/-- An endpoint changes in nothing that `Fine` is about. -/
theorem status_put_of_eq {e e' : Endpoint} (he : x.heap[r]? = some e) (hd : e'.done = e.done)
    (hs : e'.stage = e.stage) (q : Ref) : (x.put r e').status q = x.status q := by
  rw [status_put he]
  split_ifs with hq
  · rw [hq, status_of_heap he, hd, hs]
  · rfl

theorem Step.single (h : Step x l y) (hG : Apart x l) (hf : Filed x) (hi : Single x) :
    Single y := by
  cases h with
  | setOnNewPeer fn => exact hi.congr (fun _ => rfl) rfl (fun _ => admits_of_eq rfl) rfl
  | dispatch _ =>
    refine hi.congr (fun _ => rfl) rfl (fun q c s h hp => ?_) rfl
    cases h
    cases hp
  | known _ _ _ => exact hi.congr (fun _ => rfl) rfl (fun _ => admits_of_offer rfl) rfl
  | register _ _ _ _ => exact hi.register
  | giveUp _ => exact hi.congr (fun _ => rfl) rfl (fun _ => admits_of_none rfl) rfl
  | fetch hc hp =>
    exact hi.congr (fun _ => rfl) rfl (fun _ => admits_of_goto hc hp rfl (by decide)) rfl
  | hand hc hp he =>
    exact hi.congr (status_put_of_eq he rfl rfl) rfl
      (fun _ => admits_of_goto hc hp rfl (by decide)) rfl
  | nobody hc hp =>
    exact hi.congr (fun _ => rfl) rfl (fun _ => admits_of_goto hc hp rfl (by decide)) rfl
  | delete hc hp => exact hi.delete hf hc hp
  | @shut c r e hc hp he _ =>
    have hadm : x.Admitting r := ⟨c, _, hc, hp⟩
    have hr := hi.fine r
    refine hi.free he rfl id (fun _ => admits_of_none rfl) (.refl _) (hr.shutting hc hp) ?_
      (fun h => (hr.closing h).2 hadm) fun hs => ?_
    · rintro ⟨c', s, hc', -⟩
      cases hc'
    · have hrun : e.stage.running = true := by rw [show e.stage = .committed from hs]; rfl
      exact absurd hadm (hr.running (status_of_heap he) hrun).1
  | admitted _ _ => exact hi.congr (fun _ => rfl) rfl (fun _ => admits_of_offer rfl) rfl
  | rejected hc hp =>
    exact hi.congr (fun _ => rfl) rfl (fun _ => admits_of_goto hc hp rfl (by decide)) rfl
  | deliver _ _ he =>
    exact hi.congr (status_put_of_eq he rfl rfl) rfl (fun _ => admits_of_none rfl) rfl
  | discard _ => exact hi.congr (fun _ => rfl) rfl (fun _ => admits_of_none rfl) rfl
  | receive he _ =>
    exact hi.congr (status_put_of_eq he rfl rfl) rfl (fun _ => admits_of_eq rfl) rfl
  | close => exact hi.close hf hG
  | @closeOne r e hin he _ =>
    have hr := hi.fine r
    obtain ⟨hreg, hadm⟩ := hr.closing hin
    refine hi.free he rfl id (fun _ => admits_of_eq rfl) List.erase_sublist hreg hadm
      hi.nodup.not_mem_erase fun hs => ?_
    have hrun : e.stage.running = true := by rw [show e.stage = .committed from hs]; rfl
    exact absurd hin (hr.running (status_of_heap he) hrun).2
  | @mark r e he hs =>
    obtain ⟨hadm, hin⟩ := hG e he hs
    have hst : (x.put r { e with stage := .marked }).status r = some (e.done, .marked) := by
      rw [status_put he, if_pos rfl]
    refine hi.update he rfl id (fun _ _ => admits_of_eq rfl) (.refl _) ⟨fun h => ?_,
      fun h => absurd h hin, fun _ _ => ⟨hadm, hin⟩, fun h _ hm => ?_, fun h => ?_,
      fun hc hp => absurd ⟨_, _, hc, hp⟩ hadm⟩
    · obtain ⟨g, hg⟩ := (hi.fine r).isOpen h
      obtain ⟨hd, -⟩ := Prod.mk.inj (Option.some.inj ((status_of_heap he).symm.trans hg))
      exact ⟨.marked, hd ▸ hst⟩
    · cases hst.symm.trans h
      cases hm rfl
    · cases hst.symm.trans h
  | @unregister r e he hs =>
    have hrun : e.stage.running = true := by rw [hs]; rfl
    obtain ⟨hadm, hin⟩ := (hi.fine r).running (status_of_heap he) hrun
    refine hi.free he rfl (fun h => lookup_eraseIf h) (fun _ => admits_of_eq rfl) (.refl _) ?_ hadm
      hin (fun h => by cases h)
    rintro ⟨k, hk⟩
    -- it could only be under its own key, which was deleted
    have hx := lookup_eraseIf hk
    have hkey : k = makePeerKey e.remote :=
      (Option.some.inj ((keyOf_of_heap he).symm.trans (hf.key hx))).symm
    subst hkey
    rw [GoMap.eraseIf, if_pos hx, AList.lookup_erase] at hk
    cases hk
  | @found r e he hs _ =>
    have hst := status_of_heap he
    obtain ⟨hadm, hin⟩ := (hi.fine r).running hst (by rw [hs]; rfl)
    exact hi.free he rfl id (fun _ => admits_of_eq rfl) (.refl _)
      ((hi.fine r).left hst (by simp [hs]) (by simp [hs])) hadm hin
      (fun h => by cases h)
  | @commit r e he hs hd =>
    have hst := status_of_heap he
    obtain ⟨hadm, hin⟩ := (hi.fine r).running hst (by rw [hs]; rfl)
    exact hi.free he rfl id (fun _ => admits_of_eq rfl) (.refl _)
      ((hi.fine r).left hst (by simp [hs]) (by simp [hs])) hadm hin fun _ => hd
  | @finish r e he hs _ =>
    have hst := status_of_heap he
    obtain ⟨hadm, hin⟩ := (hi.fine r).running hst (by rw [hs]; rfl)
    exact hi.free he rfl id (fun _ => admits_of_eq rfl) (.refl _)
      ((hi.fine r).left hst (by simp [hs]) (by simp [hs])) hadm hin
      (fun h => by cases h)

/-- An open channel can be closed. -/
theorem closeDone_ne_panic {f : Server → Server} {g : CloseStage}
    (h : x.status r = some (false, g)) (p : Panic) : (x.closeDone r).map f ≠ .error (some p) := by
  obtain ⟨e, he, hs⟩ := column_eq_some.1 h
  obtain ⟨hd, -⟩ := Prod.mk.inj (Option.some.inj hs)
  rw [closeDone, he]
  dsimp only
  rw [hd]
  intro h
  cases h

/-- Every channel that a step would close is open. -/
theorem Single.ne_panic (hi : Single x) (l : Label) (p : Panic) : x.step l ≠ .error (some p) := by
  intro h
  cases l with
  | setOnNewPeer fn => cases h
  | dispatch remote buf =>
    simp only [step] at h
    split_ifs at h
    cases h
  | proceed =>
    simp only [step] at h
    split at h
    · cases h
    · next c hc =>
      simp only [proceed] at h
      split at h
      · cases h
      · cases h
      · split_ifs at h
        split at h <;> cases h
      · cases h
      · next r hp =>
        obtain ⟨g, hg⟩ := (hi.fine r).isOpen (.inr (.inl ⟨c, _, hc, hp⟩))
        exact closeDone_ne_panic hg p h
      · cases h
      · cases h
  | answer ok =>
    simp only [step] at h
    split at h <;> cases h
  | deliver =>
    simp only [step] at h
    split at h
    · split at h
      · cases h
      · split_ifs at h
        cases h
    · cases h
  | discard =>
    simp only [step] at h
    split at h
    · split_ifs at h
      cases h
    · cases h
  | receive r =>
    simp only [step] at h
    split at h <;> cases h
  | close => cases h
  | closeOne r =>
    simp only [step] at h
    split_ifs at h with hr
    · obtain ⟨g, hg⟩ := (hi.fine r).isOpen (.inr (.inr hr))
      exact closeDone_ne_panic hg p h
    · cases h
  | closeTransport r =>
    simp only [step] at h
    split at h
    · cases h
    · next e he =>
      simp only [closeTransport] at h
      split at h
      · split_ifs at h
        cases h
      · cases h
      · cases h
      · next hs =>
        have hst := status_of_heap he
        rw [hs] at hst
        rw [(hi.fine r).committed hst] at h
        cases h
      · cases h

end Server

/-- **No `done` channel is closed twice**, so that no step panics, in any interleaving of
`dispatch`, `Server.Close` and `endpointTransport.Close` in which the three keep apart. -/
theorem no_double_close {ls : List Label} {x : Server}
    (run : (Server.lts.restrict Server.Apart).Run .start ls x) (l : Label) (p : Panic) :
    x.step l ≠ .error (some p) := by
  have hi : Server.Filed x ∧ Server.Single x := by
    refine run.reachable.invariant (I := fun x => Server.Filed x ∧ Server.Single x)
      ⟨Server.filed_start, Server.single_start⟩ ?_
    rintro s l s' ⟨hf, hi⟩ ⟨hG, hst⟩
    have h := Server.step_cases hst
    exact ⟨h.filed hf, h.single hG hf hi⟩
  exact hi.2.ne_panic l p

namespace Server

/-- The two `Close` begin while `dispatch` does not run, and meet nothing of the other. -/
def calm (x : Server) : Label → Bool
  | .close => x.call.isNone && x.heap.all fun e => !e.stage.running
  | .closeTransport r => x.call.isNone && r ∉ x.closing
  | _ => true

theorem apart_of_calm (x : Server) (l : Label) (h : x.calm l = true) : Apart x l := by
  have hadm (hc : x.call.isNone = true) (r : Ref) : ¬ x.Admitting r := by
    rintro ⟨c, s, hcall, -⟩
    rw [hcall] at hc
    cases hc
  cases l with
  | close =>
    obtain ⟨hc, h⟩ := Bool.and_eq_true_iff.1 h
    intro k r e _ he
    exact ⟨hadm hc r, by simpa using List.all_eq_true.1 h e (List.mem_of_getElem? he)⟩
  | closeTransport r =>
    obtain ⟨hc, h⟩ := Bool.and_eq_true_iff.1 h
    exact fun e _ _ => ⟨hadm hc r, of_decide_eq_true h⟩
  | _ => trivial

/-- The step closes a closed channel. -/
def panics (x : Server) (l : Label) : Bool :=
  match x.step l with
  | .error (some .closeOfClosed) => true
  | _ => false

theorem step_of_panics {x : Server} {l : Label} (h : x.panics l = true) :
    x.step l = .error (some .closeOfClosed) := by
  simp only [panics] at h
  split at h
  · next he => exact he
  · cases h

end Server

/-- One peer leaves, another one stays until the server is closed and leaves then. -/
theorem no_double_close_calm : ∃ ls x, (Server.lts.restrict Server.Apart).Run .start ls x ∧
    x.heap.map Endpoint.done = [true, true] ∧ ∀ l p, x.step l ≠ .error (some p) := by
  obtain ⟨x, run, hx⟩ := LTS.exists_run_restrict_of_any (f := Server.step) Server.calm
    Server.apart_of_calm .start
    (.setOnNewPeer true :: admitted (linkLocal "eth0") [1] ++
      List.replicate 4 (.closeTransport 0) ++
      admitted (linkLocal "eth0") [2] ++ [.close, .closeOne 1] ++
      List.replicate 3 (.closeTransport 1))
    (fun x => x.heap.map Endpoint.done = [true, true]) (by decide +kernel)
  exact ⟨_, x, run, of_decide_eq_true hx, no_double_close run⟩

/-- **A channel is closed twice.**  In the first run `Server.Close` closes the endpoint of a new
peer while the callback decides, and then the callback rejects the peer.  In the second one
`Server.Close` closes the endpoint after `endpointTransport.Close` has found it open. -/
theorem double_close :
    (∃ ls x, Server.lts.Run .start ls x ∧ x.step .proceed = .error (some .closeOfClosed)) ∧
    ∃ ls x, Server.lts.Run .start ls x ∧
      x.step (.closeTransport 0) = .error (some .closeOfClosed) := by
  obtain ⟨x, run, hx⟩ := LTS.exists_run_of_any (f := Server.step) .start
    [.setOnNewPeer true, .dispatch (linkLocal "eth0") [1], .proceed, .proceed, .proceed, .close,
      .closeOne 0, .answer false, .proceed] (fun x => x.panics .proceed) (by decide +kernel)
  obtain ⟨y, run', hy⟩ := LTS.exists_run_of_any (f := Server.step) .start
    (.setOnNewPeer true :: admitted (linkLocal "eth0") [1] ++
      [.closeTransport 0, .close, .closeTransport 0, .closeTransport 0, .closeOne 0])
    (fun x => x.panics (.closeTransport 0)) (by decide +kernel)
  exact ⟨⟨_, x, run, Server.step_of_panics hx⟩, _, y, run', Server.step_of_panics hy⟩

end Udp

end VibeVpn

import VibeVpn.Go.Map
import VibeVpn.LTS.Basic
import VibeVpn.Transport.Carrier

/-!
# The UDP server

`udp.Server` reads datagrams from one socket and queues each on the *endpoint* of its peer.  The
table of endpoints is shared by three parties that run at the same time: `dispatch`, called by the
one read loop; `Server.Close`; and `endpointTransport.Close`, called by the session of a peer.  They
meet in the critical sections of `Server.mu`, in the channel operations on an endpoint's queue and
its `done` channel, and in the callback that admits a new peer.

The model has one label for each such step, so that a run is an interleaving.  Endpoints live in a
heap and are named by their position in it, as the code names them by a pointer.

## Main results

* `Udp.demultiplexed` : **each datagram is queued on at most one endpoint, that of its source**, in
  the order of arrival, and a peer has at most one endpoint, as long as no two sources differ only
  in their zone.
* `Udp.zones_mixed` : sources that differ only in their zone share an endpoint, since `peerKey` does
  not have the zone.
-/

namespace VibeVpn

namespace Udp

/-- `peerKey`. -/
structure PeerKey where
  /-- `ip`. -/
  ip : Bytes
  /-- `port`. -/
  port : UInt16
  /-- `is4`. -/
  is4 : Bool
  deriving DecidableEq, Repr

/-- `makePeerKey(remote)`. -/
def makePeerKey (remote : AddrPort) : PeerKey where
  ip := remote.addr.as16
  port := remote.port
  is4 := remote.addr.is4

/-- A pointer to an endpoint: its position in the heap. -/
abbrev Ref := ℕ

/-- How far the call of `endpointTransport.Close` that finds `closed` unset has come. -/
inductive CloseStage where
  /-- There was none yet. -/
  | idle
  /-- It has set `closed`. -/
  | marked
  /-- It has left the critical section of the server. -/
  | unregistered
  /-- Its `select` has found `done` open. -/
  | committed
  /-- It has returned. -/
  | returned
  deriving DecidableEq, Repr

/-- `endpoint`, together with its `endpointTransport`. -/
structure Endpoint where
  /-- `remote`. -/
  remote : AddrPort
  /-- The datagrams in `ch`, the oldest first. -/
  ch : List Bytes
  /-- `done` is closed. -/
  done : Bool
  /-- The transport was handed to the callback. -/
  handed : Bool
  /-- `endpointTransport.Close`. -/
  stage : CloseStage
  /-- History: the datagrams that `Receive` has returned. -/
  taken : List Bytes
  deriving DecidableEq, Repr

/-- The capacity of `ch`. -/
def chCap : ℕ := 512

/-- A new endpoint. -/
def Endpoint.new (remote : AddrPort) : Endpoint where
  remote := remote
  ch := []
  done := false
  handed := false
  stage := .idle
  taken := []

/-- How far a call of `dispatch` has come with a new endpoint, after it has registered it. -/
inductive Stage where
  /-- It will look at `closed`. -/
  | checking
  /-- Before the critical section that reads `onNewPeer`. -/
  | fetching
  /-- In the callback. -/
  | calling
  /-- Before the critical section that deletes the endpoint. -/
  | rejecting
  /-- It will close `done`. -/
  | shutting
  deriving DecidableEq, Repr

/-- Where a call of `dispatch` is. -/
inductive Place where
  /-- Before its first critical section. -/
  | enter
  /-- It admits a new endpoint. -/
  | admitting (r : Ref) (s : Stage)
  /-- In the last `select`. -/
  | offering (r : Ref)
  deriving DecidableEq, Repr

/-- The endpoint of a call. -/
def Place.ref : Place → Option Ref
  | .enter => none
  | .admitting r _ => some r
  | .offering r => some r

/-- A call `dispatch(remote, buf)`. -/
structure Call where
  /-- `remote`. -/
  remote : AddrPort
  /-- `buf`. -/
  buf : Bytes
  /-- Where it is. -/
  place : Place
  deriving DecidableEq, Repr

/-- A datagram that was queued. -/
structure Delivery where
  /-- Its number among the datagrams that have arrived. -/
  num : ℕ
  /-- The address it came from. -/
  source : AddrPort
  /-- Its contents. -/
  buf : Bytes
  /-- The endpoint. -/
  ep : Ref
  deriving DecidableEq, Repr

/-- `Server`, with the calls that are running. -/
structure Server where
  /-- `eps`. -/
  eps : GoMap PeerKey Ref
  /-- `closed`. -/
  closed : Bool
  /-- `onNewPeer != nil`. -/
  onNewPeer : Bool
  /-- The endpoints that were ever made. -/
  heap : List Endpoint
  /-- The call of the read loop. -/
  call : Option Call
  /-- The endpoints that calls of `Close` have still to close. -/
  closing : List Ref
  /-- History: the datagrams that have arrived. -/
  arrived : List (AddrPort × Bytes)
  /-- History: the datagrams that were queued. -/
  queued : List Delivery

/-- A server that has just been made. -/
def Server.start : Server where
  eps := ∅
  closed := false
  onNewPeer := false
  heap := []
  call := none
  closing := []
  arrived := []
  queued := []

/-- The steps of the parties. -/
inductive Label where
  /-- `SetOnNewPeer`, with a callback or with `nil`. -/
  | setOnNewPeer (fn : Bool)
  /-- The read loop calls `dispatch`. -/
  | dispatch (remote : AddrPort) (buf : Bytes)
  /-- The call of `dispatch` takes its next step, up to the callback or the last `select`. -/
  | proceed
  /-- The callback returns. -/
  | answer (ok : Bool)
  /-- The last `select` queues the datagram. -/
  | deliver
  /-- The last `select` finds `done` closed. -/
  | discard
  /-- `endpointTransport.Receive` takes a datagram. -/
  | receive (r : Ref)
  /-- The critical section of `Server.Close`. -/
  | close
  /-- `Server.Close` closes an endpoint's `done`. -/
  | closeOne (r : Ref)
  /-- The call of `endpointTransport.Close` takes its next step. -/
  | closeTransport (r : Ref)
  deriving DecidableEq, Repr

namespace Server

/-- Overwrite an endpoint. -/
def put (x : Server) (r : Ref) (e : Endpoint) : Server := { x with heap := x.heap.set r e }

/-- The call of `dispatch` goes on. -/
def goto (x : Server) (c : Call) (p : Place) : Server :=
  { x with call := some { c with place := p } }

/-- The first critical section of `dispatch`.  Where the server is closed and the peer unknown, the
call returns after it: `closed` is never reset. -/
def enter (x : Server) (c : Call) : Server :=
  match x.eps.lookup (makePeerKey c.remote) with
  | some r => x.goto c (.offering r)
  | none =>
    if x.closed then { x with call := none }
    else
      { x.goto c (.admitting x.heap.length .checking) with
        eps := x.eps.insert (makePeerKey c.remote) x.heap.length
        heap := x.heap ++ [.new c.remote] }

/-- `close(ep.done)`. -/
def closeDone (x : Server) (r : Ref) : Except (Option Panic) Server :=
  match x.heap[r]? with
  | none => .error none
  | some e => if e.done then .error (some .closeOfClosed) else .ok (x.put r { e with done := true })

/-- The next step of `dispatch`. -/
def proceed (x : Server) (c : Call) : Except (Option Panic) Server :=
  match c.place with
  | .enter => .ok (x.enter c)
  | .admitting r .checking =>
    .ok (if x.closed then { x with call := none } else x.goto c (.admitting r .fetching))
  | .admitting r .fetching =>
    if x.onNewPeer then
      match x.heap[r]? with
      | none => .error none
      | some e => .ok ((x.put r { e with handed := true }).goto c (.admitting r .calling))
    else .ok (x.goto c (.admitting r .rejecting))
  | .admitting r .rejecting =>
    .ok { x.goto c (.admitting r .shutting) with eps := x.eps.erase (makePeerKey c.remote) }
  | .admitting r .shutting => (x.closeDone r).map fun y => { y with call := none }
  | .admitting _ .calling => .error none
  | .offering _ => .error none

/-- The next step of `endpointTransport.Close`.  A call that finds `closed` set does nothing. -/
def closeTransport (x : Server) (r : Ref) (e : Endpoint) : Except (Option Panic) Server :=
  match e.stage with
  | .idle => if e.handed then .ok (x.put r { e with stage := .marked }) else .error none
  | .marked =>
    .ok { x.put r { e with stage := .unregistered } with
      eps := GoMap.eraseIf x.eps (some (makePeerKey e.remote)) r }
  | .unregistered =>
    .ok (x.put r { e with stage := if e.done then .returned else .committed })
  | .committed =>
    if e.done then .error (some .closeOfClosed)
    else .ok (x.put r { e with done := true, stage := .returned })
  | .returned => .error none

/-- One step; `.error none` stands for a step that cannot be taken now. -/
def step (x : Server) : Label → Except (Option Panic) Server
  | .setOnNewPeer fn => .ok { x with onNewPeer := fn }
  | .dispatch remote buf =>
    if x.call.isSome then .error none
    else .ok
      { x with call := some ⟨remote, buf, .enter⟩, arrived := x.arrived ++ [(remote, buf)] }
  | .proceed =>
    match x.call with
    | none => .error none
    | some c => x.proceed c
  | .answer ok =>
    match x.call with
    | some ⟨remote, buf, .admitting r .calling⟩ =>
      .ok (x.goto ⟨remote, buf, .admitting r .calling⟩
        (if ok then .offering r else .admitting r .rejecting))
    | _ => .error none
  | .deliver =>
    match x.call with
    | some ⟨remote, buf, .offering r⟩ =>
      match x.heap[r]? with
      | none => .error none
      | some e =>
        if e.ch.length < chCap then .ok
          { x.put r { e with ch := e.ch ++ [buf] } with
            call := none
            queued := x.queued ++ [⟨x.arrived.length - 1, remote, buf, r⟩] }
        else .error none
    | _ => .error none
  | .discard =>
    match x.call with
    | some ⟨_, _, .offering r⟩ =>
      if x.heap[r]?.any Endpoint.done then .ok { x with call := none } else .error none
    | _ => .error none
  | .receive r =>
    match x.heap[r]? with
    | some ⟨remote, b :: ch, done, handed, stage, taken⟩ =>
      .ok (x.put r ⟨remote, ch, done, handed, stage, taken ++ [b]⟩)
    | _ => .error none
  | .close =>
    .ok { x with closed := true, eps := ∅, closing := x.closing ++ x.eps.entries.map Sigma.snd }
  | .closeOne r =>
    if r ∈ x.closing then (x.closeDone r).map fun y => { y with closing := x.closing.erase r }
    else .error none
  | .closeTransport r =>
    match x.heap[r]? with
    | none => .error none
    | some e => x.closeTransport r e

/-- The steps in every order. -/
def lts : LTS Server Label := LTS.ofExcept step

/-! ### What a step does -/

/-- A step, case by case. -/
inductive Step (x : Server) : Label → Server → Prop where
  | setOnNewPeer (fn : Bool) : Step x (.setOnNewPeer fn) { x with onNewPeer := fn }
  | dispatch {remote : AddrPort} {buf : Bytes} : x.call = none →
      Step x (.dispatch remote buf)
        { x with call := some ⟨remote, buf, .enter⟩, arrived := x.arrived ++ [(remote, buf)] }
  | known {c : Call} {r : Ref} : x.call = some c → c.place = .enter →
      x.eps.lookup (makePeerKey c.remote) = some r → Step x .proceed (x.goto c (.offering r))
  | register {c : Call} : x.call = some c → c.place = .enter →
      x.eps.lookup (makePeerKey c.remote) = none → x.closed = false →
      Step x .proceed
        { x.goto c (.admitting x.heap.length .checking) with
          eps := x.eps.insert (makePeerKey c.remote) x.heap.length
          heap := x.heap ++ [.new c.remote] }
  | giveUp {c : Call} : x.call = some c → Step x .proceed { x with call := none }
  | fetch {c : Call} {r : Ref} : x.call = some c → c.place = .admitting r .checking →
      Step x .proceed (x.goto c (.admitting r .fetching))
  | hand {c : Call} {r : Ref} {e : Endpoint} : x.call = some c → c.place = .admitting r .fetching →
      x.heap[r]? = some e →
      Step x .proceed ((x.put r { e with handed := true }).goto c (.admitting r .calling))
  | nobody {c : Call} {r : Ref} : x.call = some c → c.place = .admitting r .fetching →
      Step x .proceed (x.goto c (.admitting r .rejecting))
  | delete {c : Call} {r : Ref} : x.call = some c → c.place = .admitting r .rejecting →
      Step x .proceed
        { x.goto c (.admitting r .shutting) with eps := x.eps.erase (makePeerKey c.remote) }
  | shut {c : Call} {r : Ref} {e : Endpoint} : x.call = some c → c.place = .admitting r .shutting →
      x.heap[r]? = some e → e.done = false →
      Step x .proceed { x.put r { e with done := true } with call := none }
  | admitted {c : Call} {r : Ref} : x.call = some c → c.place = .admitting r .calling →
      Step x (.answer true) (x.goto c (.offering r))
  | rejected {c : Call} {r : Ref} : x.call = some c → c.place = .admitting r .calling →
      Step x (.answer false) (x.goto c (.admitting r .rejecting))
  | deliver {c : Call} {r : Ref} {e : Endpoint} : x.call = some c → c.place = .offering r →
      x.heap[r]? = some e →
      Step x .deliver
        { x.put r { e with ch := e.ch ++ [c.buf] } with
          call := none
          queued := x.queued ++ [⟨x.arrived.length - 1, c.remote, c.buf, r⟩] }
  | discard {c : Call} : x.call = some c → Step x .discard { x with call := none }
  | receive {r : Ref} {e : Endpoint} {b : Bytes} {ch : List Bytes} : x.heap[r]? = some e →
      e.ch = b :: ch → Step x (.receive r) (x.put r { e with ch := ch, taken := e.taken ++ [b] })
  | close :
      Step x .close
        { x with closed := true, eps := ∅, closing := x.closing ++ x.eps.entries.map Sigma.snd }
  | closeOne {r : Ref} {e : Endpoint} : r ∈ x.closing → x.heap[r]? = some e → e.done = false →
      Step x (.closeOne r)
        { x.put r { e with done := true } with closing := x.closing.erase r }
  | mark {r : Ref} {e : Endpoint} : x.heap[r]? = some e → e.stage = .idle →
      Step x (.closeTransport r) (x.put r { e with stage := .marked })
  | unregister {r : Ref} {e : Endpoint} : x.heap[r]? = some e → e.stage = .marked →
      Step x (.closeTransport r)
        { x.put r { e with stage := .unregistered } with
          eps := GoMap.eraseIf x.eps (some (makePeerKey e.remote)) r }
  | found {r : Ref} {e : Endpoint} : x.heap[r]? = some e → e.stage = .unregistered →
      e.done = true → Step x (.closeTransport r) (x.put r { e with stage := .returned })
  | commit {r : Ref} {e : Endpoint} : x.heap[r]? = some e → e.stage = .unregistered →
      e.done = false → Step x (.closeTransport r) (x.put r { e with stage := .committed })
  | finish {r : Ref} {e : Endpoint} : x.heap[r]? = some e → e.stage = .committed →
      e.done = false →
      Step x (.closeTransport r) (x.put r { e with done := true, stage := .returned })

variable {x y : Server} {l : Label}

theorem closeDone_eq_ok {r : Ref} {f : Server → Server} (h : (x.closeDone r).map f = .ok y) :
    ∃ e, x.heap[r]? = some e ∧ e.done = false ∧ y = f (x.put r { e with done := true }) := by
  simp only [closeDone] at h
  split at h
  · cases h
  · next e he =>
    split_ifs at h with hd
    · cases h
    · cases h
      exact ⟨e, he, by simpa using hd, rfl⟩

theorem proceed_cases {c : Call} (hc : x.call = some c) (h : x.proceed c = .ok y) :
    Step x .proceed y := by
  simp only [proceed] at h
  split at h
  · next hp =>
    cases h
    simp only [enter]
    split
    · next hl => exact .known hc hp hl
    · next hl =>
      split_ifs with hcl
      · exact .giveUp hc
      · exact .register hc hp hl (by simpa using hcl)
  · next r hp =>
    cases h
    split_ifs
    · exact .giveUp hc
    · exact .fetch hc hp
  · next r hp =>
    split_ifs at h
    · split at h
      · cases h
      · next e he =>
        cases h
        exact .hand hc hp he
    · cases h
      exact .nobody hc hp
  · next r hp =>
    cases h
    exact .delete hc hp
  · next r hp =>
    obtain ⟨e, he, hd, rfl⟩ := closeDone_eq_ok h
    exact .shut hc hp he hd
  · cases h
  · cases h

theorem closeTransport_cases {r : Ref} {e : Endpoint} (he : x.heap[r]? = some e)
    (h : x.closeTransport r e = .ok y) : Step x (.closeTransport r) y := by
  simp only [closeTransport] at h
  split at h
  · next hs =>
    split_ifs at h
    cases h
    exact .mark he hs
  · next hs =>
    cases h
    exact .unregister he hs
  · next hs =>
    cases h
    split_ifs with hd
    · exact .found he hs hd
    · exact .commit he hs (by simpa using hd)
  · next hs =>
    split_ifs at h with hd
    cases h
    exact .finish he hs (by simpa using hd)
  · cases h

theorem step_cases (h : x.step l = .ok y) : Step x l y := by
  cases l with
  | setOnNewPeer fn =>
    cases h
    exact .setOnNewPeer fn
  | dispatch remote buf =>
    simp only [step] at h
    split_ifs at h with hc
    cases h
    exact .dispatch (by simpa using hc)
  | proceed =>
    simp only [step] at h
    split at h
    · cases h
    · next hc => exact proceed_cases hc h
  | answer ok =>
    simp only [step] at h
    split at h
    · next hc =>
      cases h
      cases ok with
      | false => exact .rejected hc rfl
      | true => exact .admitted hc rfl
    · cases h
  | deliver =>
    simp only [step] at h
    split at h
    · next hc =>
      split at h
      · cases h
      · next he =>
        split_ifs at h
        cases h
        exact .deliver hc rfl he
    · cases h
  | discard =>
    simp only [step] at h
    split at h
    · next hc =>
      split_ifs at h
      cases h
      exact .discard hc
    · cases h
  | receive r =>
    simp only [step] at h
    split at h
    · next he =>
      cases h
      exact .receive he rfl
    · cases h
  | close =>
    cases h
    exact .close
  | closeOne r =>
    simp only [step] at h
    split_ifs at h with hr
    obtain ⟨e, he, hd, rfl⟩ := closeDone_eq_ok h
    exact .closeOne hr he hd
  | closeTransport r =>
    simp only [step] at h
    split at h
    · cases h
    · next he => exact closeTransport_cases he h

/-! ### The table of endpoints -/

/-- The key of an endpoint. -/
def keyOf (x : Server) : Ref → Option PeerKey :=
  column (fun e => some (makePeerKey e.remote)) x.heap

theorem keyOf_of_heap {r : Ref} {e : Endpoint} (he : x.heap[r]? = some e) :
    x.keyOf r = some (makePeerKey e.remote) :=
  column_of_getElem? he

/-- An endpoint keeps its address. -/
theorem keyOf_put {r : Ref} {e e' : Endpoint} (he : x.heap[r]? = some e)
    (hr : e'.remote = e.remote) : (x.put r e').keyOf = x.keyOf :=
  column_set_of_eq he (by rw [hr])

/-- What holds of the table of endpoints. -/
structure Filed (x : Server) : Prop where
  /-- An endpoint is registered under its own key. -/
  key : ∀ {k : PeerKey} {r : Ref}, x.eps.lookup k = some r → x.keyOf r = some k
  /-- The call of `dispatch` works on an endpoint of its key. -/
  call : ∀ {c : Call} {r : Ref}, x.call = some c → c.place.ref = some r →
    x.keyOf r = some (makePeerKey c.remote)
  /-- While it admits an endpoint, no other one is registered under the key. -/
  own : ∀ {c : Call} {r r' : Ref} {s : Stage}, x.call = some c → c.place = .admitting r s →
    x.eps.lookup (makePeerKey c.remote) = some r' → r' = r
  /-- A closed server has no endpoints. -/
  closed : x.closed = true → x.eps = ∅

theorem filed_start : Filed start where
  key h := by cases h
  call h := by cases h
  own h := by cases h
  closed _ := rfl

namespace Filed

/-- What the call of `dispatch` may go on with: an endpoint of its key and, if it admits it, the one
it has admitted before. -/
def Continues (x : Server) (c' : Call) : Prop :=
  (∀ r, c'.place.ref = some r → x.keyOf r = some (makePeerKey c'.remote)) ∧
    ∀ r s, c'.place = .admitting r s →
      ∃ c s, x.call = some c ∧ c.remote = c'.remote ∧ c.place = .admitting r s

theorem continues (hi : Filed x) {c : Call} (hc : x.call = some c) : Continues x c :=
  ⟨fun _ hr => hi.call hc hr, fun _ s hp => ⟨c, s, hc, rfl, hp⟩⟩

theorem continues_offer {c : Call} {r : Ref} (hk : x.keyOf r = some (makePeerKey c.remote)) :
    Continues x { c with place := .offering r } := by
  refine ⟨fun r' hr => ?_, fun r' s hp => ?_⟩
  · cases hr
    exact hk
  · cases hp

theorem continues_admits (hi : Filed x) {c : Call} {r : Ref} {s : Stage} (hc : x.call = some c)
    (hp : c.place = .admitting r s) (s' : Stage) :
    Continues x { c with place := .admitting r s' } := by
  refine ⟨fun r' hr => ?_, fun r' s'' hp' => ?_⟩
  · cases hr
    have hr : c.place.ref = some r := by rw [hp]; rfl
    exact hi.call (c := c) hc hr
  · cases hp'
    exact ⟨c, s, hc, rfl, hp⟩

/-- No endpoint is new. -/
theorem mono (hi : Filed x) (hk : y.keyOf = x.keyOf)
    (ht : ∀ {k r}, y.eps.lookup k = some r → x.eps.lookup k = some r)
    (hcl : y.closed = true → y.eps = ∅) (hc : ∀ c, y.call = some c → Continues x c) : Filed y where
  key h := hk ▸ hi.key (ht h)
  call h hr := hk ▸ (hc _ h).1 _ hr
  own h hp hl := by
    obtain ⟨c, s, hc, hrem, hp⟩ := (hc _ h).2 _ _ hp
    rw [← hrem] at hl
    exact hi.own hc hp (ht hl)
  closed := hcl

/-- Neither the table nor the call changes, or the call returns. -/
theorem congr (hi : Filed x) (hk : y.keyOf = x.keyOf) (ht : y.eps = x.eps)
    (hcl : y.closed = x.closed) (hc : y.call = x.call ∨ y.call = none) : Filed y := by
  refine hi.mono hk (fun h => ht ▸ h) (fun h => ht.trans (hi.closed (hcl ▸ h))) fun c h => ?_
  obtain hc | hc := hc
  · exact hi.continues (hc ▸ h)
  · rw [hc] at h
    cases h

/-- The call of `dispatch` goes on. -/
theorem goto (hi : Filed x) {c' : Call} (hk : y.keyOf = x.keyOf) (ht : y.eps = x.eps)
    (hcl : y.closed = x.closed) (hc : y.call = some c') (h' : Continues x c') : Filed y := by
  refine hi.mono hk (fun h => ht ▸ h) (fun h => ht.trans (hi.closed (hcl ▸ h))) fun c h => ?_
  cases hc.symm.trans h
  exact h'

/-- A new endpoint is registered. -/
theorem register (hi : Filed x) {c : Call} (hcl : x.closed = false) :
    Filed { x.goto c (.admitting x.heap.length .checking) with
      eps := x.eps.insert (makePeerKey c.remote) x.heap.length
      heap := x.heap ++ [.new c.remote] } := by
  have hnew : column (fun e => some (makePeerKey e.remote)) (x.heap ++ [.new c.remote])
      x.heap.length = some (makePeerKey c.remote) := by
    rw [column_snoc, Function.update_self]
    rfl
  refine ⟨fun {k r} h => ?_, fun {c' r} h hr => ?_, fun {c' r r' s} h hp hl => ?_, fun h => ?_⟩
  · rw [GoMap.lookup_insert_eq] at h
    split_ifs at h with hk
    · cases h
      exact hk ▸ hnew
    · have hr := hi.key h
      have hne : r ≠ x.heap.length := by
        rintro rfl
        rw [keyOf, column_length] at hr
        cases hr
      change column _ (x.heap ++ [.new c.remote]) r = _
      rw [column_snoc, Function.update_of_ne hne]
      exact hr
  · cases h
    cases hr
    exact hnew
  · cases h
    cases hp
    rw [GoMap.lookup_insert_eq, if_pos rfl] at hl
    exact (Option.some.inj hl).symm
  · cases hcl.symm.trans h

end Filed

/-- The deletions of a table. -/
theorem lookup_eraseIf {k k' : PeerKey} {r r' : Ref}
    (h : (GoMap.eraseIf x.eps (some k) r).lookup k' = some r') : x.eps.lookup k' = some r' := by
  simp only [GoMap.eraseIf] at h
  split_ifs at h
  · exact (GoMap.lookup_erase_some.1 h).2
  · exact h

theorem Step.filed (h : Step x l y) (hi : Filed x) : Filed y := by
  cases h with
  | setOnNewPeer fn => exact hi.congr rfl rfl rfl (.inl rfl)
  | dispatch _ =>
    refine hi.goto rfl rfl rfl rfl ⟨fun r hr => ?_, fun r s hp => ?_⟩
    · cases hr
    · cases hp
  | known _ _ hl => exact hi.goto rfl rfl rfl rfl (Filed.continues_offer (hi.key hl))
  | register _ _ _ hcl => exact hi.register hcl
  | giveUp _ => exact hi.congr rfl rfl rfl (.inr rfl)
  | fetch hc hp => exact hi.goto rfl rfl rfl rfl (hi.continues_admits hc hp _)
  | hand hc hp he => exact hi.goto (keyOf_put he rfl) rfl rfl rfl (hi.continues_admits hc hp _)
  | nobody hc hp => exact hi.goto rfl rfl rfl rfl (hi.continues_admits hc hp _)
  | delete hc hp =>
    refine hi.mono rfl (fun h => (GoMap.lookup_erase_some.1 h).2) (fun h => ?_) fun c h => ?_
    · change x.eps.erase _ = ∅
      rw [hi.closed h]
      rfl
    · cases h
      exact hi.continues_admits hc hp _
  | shut _ _ he _ => exact hi.congr (keyOf_put he rfl) rfl rfl (.inr rfl)
  | @admitted c r hc hp =>
    have hr : c.place.ref = some r := by rw [hp]; rfl
    exact hi.goto rfl rfl rfl rfl (Filed.continues_offer (hi.call hc hr))
  | rejected hc hp => exact hi.goto rfl rfl rfl rfl (hi.continues_admits hc hp _)
  | deliver _ _ he => exact hi.congr (keyOf_put he rfl) rfl rfl (.inr rfl)
  | discard _ => exact hi.congr rfl rfl rfl (.inr rfl)
  | receive he _ => exact hi.congr (keyOf_put he rfl) rfl rfl (.inl rfl)
  | close => exact hi.mono rfl (fun h => by cases h) (fun _ => rfl) fun c h => hi.continues h
  | closeOne _ he _ => exact hi.congr (keyOf_put he rfl) rfl rfl (.inl rfl)
  | mark he _ => exact hi.congr (keyOf_put he rfl) rfl rfl (.inl rfl)
  | @unregister r e he _ =>
    refine hi.mono (keyOf_put he rfl) (fun h => lookup_eraseIf h) (fun h => ?_)
      fun c h => hi.continues h
    change GoMap.eraseIf x.eps (some (makePeerKey e.remote)) r = ∅
    rw [hi.closed h]
    rfl
  | found he _ _ => exact hi.congr (keyOf_put he rfl) rfl rfl (.inl rfl)
  | commit he _ _ => exact hi.congr (keyOf_put he rfl) rfl rfl (.inl rfl)
  | finish he _ _ => exact hi.congr (keyOf_put he rfl) rfl rfl (.inl rfl)

/-! ### The queues -/

/-- What holds of the datagrams. -/
structure Logged (x : Server) : Prop where
  /-- An endpoint has the address of some datagram. -/
  source : ∀ {r : Ref} {e : Endpoint}, x.heap[r]? = some e → e.remote ∈ x.arrived.map Prod.fst
  /-- The call of `dispatch` is about the last datagram, which is not queued. -/
  last : ∀ {c : Call}, x.call = some c → x.arrived.getLast? = some (c.remote, c.buf) ∧
    ∀ d ∈ x.queued, d.num + 1 < x.arrived.length
  /-- A queued datagram has arrived. -/
  arrived : ∀ d ∈ x.queued, x.arrived[d.num]? = some (d.source, d.buf)
  /-- It is queued on an endpoint of its key. -/
  key : ∀ d ∈ x.queued, x.keyOf d.ep = some (makePeerKey d.source)
  /-- The datagrams are queued in the order of their arrival. -/
  order : x.queued.Pairwise fun d d' => d.num < d'.num
  /-- An endpoint has or had in its queue what was queued on it. -/
  fifo : ∀ {r : Ref} {e : Endpoint}, x.heap[r]? = some e →
    e.taken ++ e.ch = (x.queued.filter fun d => d.ep = r).map Delivery.buf

theorem logged_start : Logged start where
  source h := by cases h
  last h := by cases h
  arrived _ h := by cases h
  key _ h := by cases h
  order := .nil
  fifo h := by cases h

namespace Logged

/-- The call of `dispatch` goes on with its datagram, if it goes on. -/
def SameDatagram (x y : Server) : Prop :=
  ∀ c', y.call = some c' → ∃ c, x.call = some c ∧ c.remote = c'.remote ∧ c.buf = c'.buf

theorem sameDatagram_of_eq (h : y.call = x.call) : SameDatagram x y :=
  fun c' hc => ⟨c', h ▸ hc, rfl, rfl⟩

theorem sameDatagram_of_none (h : y.call = none) : SameDatagram x y := by
  intro c' hc
  cases h.symm.trans hc

theorem sameDatagram_of_goto {c : Call} {p : Place} (hx : x.call = some c)
    (hy : y.call = some { c with place := p }) : SameDatagram x y := by
  intro c' hc
  cases hy.symm.trans hc
  exact ⟨c, hx, rfl, rfl⟩

/-- No datagram arrives or is queued. -/
theorem congr (hi : Logged x) (ha : y.arrived = x.arrived) (hq : y.queued = x.queued)
    (hk : y.keyOf = x.keyOf)
    (he : ∀ {r : Ref} {e' : Endpoint}, y.heap[r]? = some e' → ∃ e, x.heap[r]? = some e ∧
      e'.remote = e.remote ∧ e'.taken ++ e'.ch = e.taken ++ e.ch) (hc : SameDatagram x y) :
    Logged y where
  source h := by
    obtain ⟨e, h, hr, -⟩ := he h
    rw [ha, hr]
    exact hi.source h
  last h := by
    obtain ⟨c, h, hr, hb⟩ := hc _ h
    rw [ha, hq, ← hr, ← hb]
    exact hi.last h
  arrived d hd := by
    rw [ha]
    exact hi.arrived d (hq ▸ hd)
  key d hd := by
    rw [hk]
    exact hi.key d (hq ▸ hd)
  order := hq ▸ hi.order
  fifo h := by
    obtain ⟨e, h, -, hf⟩ := he h
    rw [hq, hf]
    exact hi.fifo h

/-- The call of `dispatch` goes on, or returns. -/
theorem goto (hi : Logged x) (ha : y.arrived = x.arrived) (hq : y.queued = x.queued)
    (hh : y.heap = x.heap) (hc : SameDatagram x y) : Logged y :=
  hi.congr ha hq (by rw [keyOf, keyOf, hh]) (fun h => ⟨_, hh ▸ h, rfl, rfl⟩) hc

/-- An endpoint changes, but for what was queued on it. -/
theorem put (hi : Logged x) {r : Ref} {e e' : Endpoint} (he : x.heap[r]? = some e)
    (ha : y.arrived = x.arrived) (hq : y.queued = x.queued) (hh : y.heap = x.heap.set r e')
    (hr : e'.remote = e.remote) (hf : e'.taken ++ e'.ch = e.taken ++ e.ch)
    (hc : SameDatagram x y) : Logged y := by
  refine hi.congr ha hq ?_ (fun {q f} h => ?_) hc
  · rw [keyOf, hh]
    exact keyOf_put he hr
  · rw [hh] at h
    obtain ⟨rfl, rfl⟩ | ⟨-, h⟩ := getElem?_set_cases h
    · exact ⟨e, he, hr, hf⟩
    · exact ⟨f, h, rfl, rfl⟩

/-- A datagram arrives. -/
theorem dispatch (hi : Logged x) (remote : AddrPort) (buf : Bytes) :
    Logged { x with call := some ⟨remote, buf, .enter⟩
                    arrived := x.arrived ++ [(remote, buf)] } where
  source h := by
    rw [List.map_append]
    exact List.mem_append_left _ (hi.source h)
  last h := by
    cases h
    refine ⟨List.getLast?_concat, fun d hd => ?_⟩
    obtain ⟨hlt, -⟩ := List.getElem?_eq_some_iff.1 (hi.arrived d hd)
    simpa using hlt
  arrived d hd := by
    have h := hi.arrived d hd
    obtain ⟨hlt, -⟩ := List.getElem?_eq_some_iff.1 h
    rw [List.getElem?_append_left hlt]
    exact h
  key := hi.key
  order := hi.order
  fifo := hi.fifo

/-- A new endpoint is registered. -/
theorem register (hi : Logged x) {c : Call} (hc : x.call = some c) :
    Logged { x.goto c (.admitting x.heap.length .checking) with
      eps := x.eps.insert (makePeerKey c.remote) x.heap.length
      heap := x.heap ++ [.new c.remote] } := by
  have hlt {d : Delivery} (hd : d ∈ x.queued) : d.ep < x.heap.length := by
    obtain ⟨e, he, -⟩ := column_eq_some.1 (hi.key d hd)
    exact (List.getElem?_eq_some_iff.1 he).1
  refine ⟨fun {r e} h => ?_, fun {c'} h => ?_, hi.arrived, fun d hd => ?_, hi.order,
    fun {r e} h => ?_⟩
  · obtain h | ⟨-, rfl⟩ := getElem?_snoc_cases h
    · exact hi.source h
    · exact List.mem_map_of_mem (List.mem_of_getLast? (hi.last hc).1)
  · cases h
    exact hi.last (c := c) hc
  · change column _ (x.heap ++ [.new c.remote]) d.ep = _
    rw [column_snoc, Function.update_of_ne (Nat.ne_of_lt (hlt hd))]
    exact hi.key d hd
  · obtain h | ⟨rfl, rfl⟩ := getElem?_snoc_cases h
    · exact hi.fifo h
    · -- nothing was ever queued on it
      have hnil : x.queued.filter (fun d => d.ep = x.heap.length) = [] := by
        refine List.filter_eq_nil_iff.2 fun d hd => ?_
        simpa using Nat.ne_of_lt (hlt hd)
      change [] = (x.queued.filter fun d => d.ep = x.heap.length).map Delivery.buf
      rw [hnil]
      rfl

/-- A datagram is queued. -/
theorem deliver (hi : Logged x) {c : Call} {r : Ref} {e : Endpoint} (hc : x.call = some c)
    (he : x.heap[r]? = some e) (hk : x.keyOf r = some (makePeerKey c.remote))
    (ha : y.arrived = x.arrived) (hh : y.heap = x.heap.set r { e with ch := e.ch ++ [c.buf] })
    (hy : y.call = none)
    (hq : y.queued = x.queued ++ [⟨x.arrived.length - 1, c.remote, c.buf, r⟩]) : Logged y := by
  obtain ⟨hlast, hnum⟩ := hi.last hc
  have hkey : y.keyOf = x.keyOf := by
    rw [keyOf, hh]
    exact keyOf_put he rfl
  have hmem {d : Delivery} (hd : d ∈ y.queued) :
      d ∈ x.queued ∨ d = ⟨x.arrived.length - 1, c.remote, c.buf, r⟩ := by
    rw [hq, List.mem_append, List.mem_singleton] at hd
    exact hd
  refine ⟨fun {q f} h => ?_, fun {c'} h => ?_, fun d hd => ?_, fun d hd => ?_, ?_,
    fun {q f} h => ?_⟩
  · rw [hh] at h
    rw [ha]
    obtain ⟨-, rfl⟩ | ⟨-, h⟩ := getElem?_set_cases h
    · exact hi.source (e := e) he
    · exact hi.source h
  · cases hy.symm.trans h
  · rw [ha]
    obtain hd | rfl := hmem hd
    · exact hi.arrived d hd
    · rw [← List.getLast?_eq_getElem?]
      exact hlast
  · rw [hkey]
    obtain hd | rfl := hmem hd
    · exact hi.key d hd
    · exact hk
  · rw [hq]
    refine List.pairwise_append.2 ⟨hi.order, List.pairwise_singleton _ _, fun d hd d' hd' => ?_⟩
    cases List.mem_singleton.1 hd'
    exact Nat.lt_sub_of_add_lt (hnum d hd)
  · rw [hh] at h
    rw [hq, List.filter_append, List.map_append]
    obtain ⟨rfl, rfl⟩ | ⟨hne, h⟩ := getElem?_set_cases h
    · rw [← hi.fifo he]
      simp
    · rw [← hi.fifo h]
      simp [Ne.symm hne]

end Logged

open Logged in
theorem Step.logged (h : Step x l y) (hf : Filed x) (hi : Logged x) : Logged y := by
  cases h with
  | setOnNewPeer fn => exact hi.goto rfl rfl rfl (sameDatagram_of_eq rfl)
  | dispatch _ => exact hi.dispatch _ _
  | known hc _ _ => exact hi.goto rfl rfl rfl (sameDatagram_of_goto hc rfl)
  | register hc _ _ _ => exact hi.register hc
  | giveUp _ => exact hi.goto rfl rfl rfl (sameDatagram_of_none rfl)
  | fetch hc _ => exact hi.goto rfl rfl rfl (sameDatagram_of_goto hc rfl)
  | hand hc _ he => exact hi.put he rfl rfl rfl rfl rfl (sameDatagram_of_goto hc rfl)
  | nobody hc _ => exact hi.goto rfl rfl rfl (sameDatagram_of_goto hc rfl)
  | delete hc _ => exact hi.goto rfl rfl rfl (sameDatagram_of_goto hc rfl)
  | shut _ _ he _ => exact hi.put he rfl rfl rfl rfl rfl (sameDatagram_of_none rfl)
  | admitted hc _ => exact hi.goto rfl rfl rfl (sameDatagram_of_goto hc rfl)
  | rejected hc _ => exact hi.goto rfl rfl rfl (sameDatagram_of_goto hc rfl)
  | @deliver c r e hc hp he =>
    have hr : c.place.ref = some r := by rw [hp]; rfl
    exact hi.deliver hc he (hf.call hc hr) rfl rfl rfl rfl
  | discard _ => exact hi.goto rfl rfl rfl (sameDatagram_of_none rfl)
  | receive he hch =>
    exact hi.put he rfl rfl rfl rfl (by rw [hch]; simp) (sameDatagram_of_eq rfl)
  | close => exact hi.goto rfl rfl rfl (sameDatagram_of_eq rfl)
  | closeOne _ he _ => exact hi.put he rfl rfl rfl rfl rfl (sameDatagram_of_eq rfl)
  | mark he _ => exact hi.put he rfl rfl rfl rfl rfl (sameDatagram_of_eq rfl)
  | unregister he _ => exact hi.put he rfl rfl rfl rfl rfl (sameDatagram_of_eq rfl)
  | found he _ _ => exact hi.put he rfl rfl rfl rfl rfl (sameDatagram_of_eq rfl)
  | commit he _ _ => exact hi.put he rfl rfl rfl rfl rfl (sameDatagram_of_eq rfl)
  | finish he _ _ => exact hi.put he rfl rfl rfl rfl rfl (sameDatagram_of_eq rfl)

/-! ### Runs -/

/-- An endpoint leaves the table by `Server.Close`, by the `Close` of its own transport, or when it
is rejected. -/
theorem Step.keeps (h : Step x l y) (hf : Filed x) {k : PeerKey} {r : Ref}
    (hr : x.eps.lookup k = some r) :
    y.eps.lookup k = some r ∨ l = .close ∨ l = .closeTransport r ∨
      ∃ c, x.call = some c ∧ c.place = .admitting r .rejecting := by
  cases h with
  | @register c _ _ hl _ =>
    have hne : k ≠ makePeerKey c.remote := by
      rintro rfl
      cases hl.symm.trans hr
    exact .inl ((AList.lookup_insert_ne hne).trans hr)
  | @delete c q hc hp =>
    by_cases hk : k = makePeerKey c.remote
    · -- what stands under the key is the endpoint that is rejected
      subst hk
      cases hf.own hc hp hr
      exact .inr (.inr (.inr ⟨c, hc, hp⟩))
    · exact .inl ((AList.lookup_erase_ne hk).trans hr)
  | close => exact .inr (.inl rfl)
  | @unregister q e he _ =>
    by_cases hq : q = r
    · exact .inr (.inr (.inl (by rw [hq])))
    · left
      change (GoMap.eraseIf x.eps (some (makePeerKey e.remote)) q).lookup k = some r
      simp only [GoMap.eraseIf]
      split_ifs with hl
      · have hk : k ≠ makePeerKey e.remote := by
          rintro rfl
          exact hq (Option.some.inj (hl.symm.trans hr))
        exact (AList.lookup_erase_ne hk).trans hr
      · exact hr
  | _ => exact .inl hr

end Server

/-- The source of the datagram that a step takes from the socket. -/
def Label.source : Label → Option AddrPort
  | .dispatch remote _ => some remote
  | _ => none

namespace Server

variable {x : Server} {ls : List Label}

theorem Run.inv (run : lts.Run start ls x) : Filed x ∧ Logged x := by
  refine run.reachable.invariant (I := fun x => Filed x ∧ Logged x) ⟨filed_start, logged_start⟩ ?_
  rintro s l s' ⟨hf, hi⟩ hst
  have h := step_cases hst
  exact ⟨h.filed hf, h.logged hf hi⟩

theorem Run.arrived (run : lts.Run start ls x) :
    x.arrived.map Prod.fst = ls.filterMap Label.source := by
  induction run with
  | nil => rfl
  | snoc _ hst ih =>
    rw [List.filterMap_append, ← ih]
    cases step_cases hst with
    | dispatch => simp [Label.source]
    | _ => exact (List.append_nil _).symm

end Server

/-- The address without its zone. -/
def withoutZone (a : AddrPort) : AddrPort := { a with addr := { a.addr with zone := "" } }

/-- A key tells everything but the zone. -/
theorem withoutZone_eq {a b : AddrPort} (h : makePeerKey a = makePeerKey b) :
    withoutZone a = withoutZone b := by
  obtain ⟨hip, hport, his4⟩ := PeerKey.mk.injEq .. ▸ h
  simp [withoutZone, hip, hport, his4]

/-- **The UDP server demultiplexes.**  In every interleaving of `dispatch`, the admission and the
rejection of peers, `Server.Close` and `endpointTransport.Close`, where no two sources differ only
in their zone:

* a datagram is queued at most once, on an endpoint with the address it came from;
* an endpoint gets its datagrams in the order of their arrival;
* a source has at most one registered endpoint, and an endpoint leaves the table only by its own
  `Close`, by its own rejection, or by `Server.Close`;
* a closed server has no registered endpoint. -/
theorem demultiplexed {ls : List Label} {x : Server} (run : Server.lts.Run .start ls x)
    (hz : ∀ a ∈ ls.filterMap Label.source, ∀ b ∈ ls.filterMap Label.source,
      withoutZone a = withoutZone b → a = b) :
    (∀ d ∈ x.queued, x.arrived[d.num]? = some (d.source, d.buf) ∧
      ∃ e, x.heap[d.ep]? = some e ∧ e.remote = d.source) ∧
    (x.queued.Pairwise fun d d' => d.num < d'.num) ∧
    (∀ r e, x.heap[r]? = some e →
      e.taken ++ e.ch = (x.queued.filter fun d => d.ep = r).map Delivery.buf) ∧
    (∀ k k' r r' e e', x.eps.lookup k = some r → x.eps.lookup k' = some r' →
      x.heap[r]? = some e → x.heap[r']? = some e' → e.remote = e'.remote → r = r') ∧
    (∀ l y k r, x.step l = .ok y → x.eps.lookup k = some r →
      y.eps.lookup k = some r ∨ l = .close ∨ l = .closeTransport r ∨
        ∃ c, x.call = some c ∧ c.place = .admitting r .rejecting) ∧
    (x.closed = true → x.eps = ∅) := by
  obtain ⟨hf, hi⟩ := Server.Run.inv run
  have harr := Server.Run.arrived run
  refine ⟨fun d hd => ⟨hi.arrived d hd, ?_⟩, hi.order, fun r e he => hi.fifo he, ?_,
    fun l y k r h hr => (Server.step_cases h).keeps hf hr, hf.closed⟩
  · obtain ⟨e, he, hk⟩ := column_eq_some.1 (hi.key d hd)
    refine ⟨e, he, hz _ (harr ▸ hi.source he) _ (harr ▸ ?_) (withoutZone_eq (Option.some.inj hk))⟩
    exact List.mem_map_of_mem (List.mem_of_getElem? (hi.arrived d hd))
  · intro k k' r r' e e' hr hr' he he' hrem
    have hk := (Server.keyOf_of_heap he).symm.trans (hf.key hr)
    have hk' := (Server.keyOf_of_heap he').symm.trans (hf.key hr')
    rw [hrem, hk'] at hk
    cases hk
    exact Option.some.inj (hr.symm.trans hr')

/-- A new peer is admitted and its first datagram queued. -/
def admitted (remote : AddrPort) (buf : Bytes) : List Label :=
  [.dispatch remote buf, .proceed, .proceed, .proceed, .answer true, .deliver]

/-- The address [fe80::1]:443, in a zone. -/
def linkLocal (zone : String) : AddrPort where
  addr := { as16 := [0xfe, 0x80, 0, 0, 0, 0, 0, 0, 0, 0, 0, 0, 0, 0, 0, 1], is4 := false, zone }
  port := 443

/-- Two peers with different ports send a datagram each. -/
theorem demultiplexed_ports : ∃ ls x, Server.lts.Run .start ls x ∧ x.queued.length = 2 ∧
    ∀ d ∈ x.queued, ∃ e, x.heap[d.ep]? = some e ∧ e.remote = d.source := by
  obtain ⟨x, run, hx⟩ := LTS.exists_run_of_any (f := Server.step) .start
    (.setOnNewPeer true :: admitted (linkLocal "eth0") [1] ++
      admitted { linkLocal "eth0" with port := 80 } [2])
    (fun x => x.queued.length = 2) (by decide +kernel)
  have h := demultiplexed run (by decide +kernel)
  exact ⟨_, x, run, by simpa using hx, fun d hd => (h.1 d hd).2⟩

/-- **Sources that differ only in their zone share an endpoint**: the datagram from the second one
is queued on the endpoint of the first. -/
theorem zones_mixed : ∃ ls x d e, Server.lts.Run .start ls x ∧ d ∈ x.queued ∧
    x.heap[d.ep]? = some e ∧ e.remote = linkLocal "eth0" ∧ d.source = linkLocal "eth1" := by
  obtain ⟨x, run, hx⟩ := LTS.exists_run_of_any (f := Server.step) .start
    (.setOnNewPeer true :: admitted (linkLocal "eth0") [1] ++
      [.dispatch (linkLocal "eth1") [2], .proceed, .deliver])
    (fun x => x.queued.any fun d => d.source = linkLocal "eth1" ∧
      x.heap[d.ep]?.any fun e => e.remote = linkLocal "eth0") (by decide +kernel)
  obtain ⟨d, hd, hx⟩ := List.any_eq_true.1 hx
  obtain ⟨hsource, hx⟩ := of_decide_eq_true hx
  obtain ⟨e, he, hrem⟩ := (Option.any_eq_true _ _).1 hx
  exact ⟨_, x, d, e, run, hd, he, of_decide_eq_true hrem, hsource⟩

end Udp

end VibeVpn

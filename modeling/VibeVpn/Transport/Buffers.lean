import VibeVpn.Go.FreeList
import VibeVpn.LTS.Feed
import VibeVpn.Transport.Udp

/-!
# The datagram buffers of the UDP transports

`bufPool` of `internal/transport/udp` is a free list of buffers that the read loops take and that
come back from many places.  A buffer is known by a name here.  The names are byte strings, so that
the model of the server serves as it is: `Udp.Server` never looks into a datagram, and what it
passes around are the buffers.  What a buffer contains is up to those who read it.

`put` ignores a slice of another capacity.  Every slice that reaches it is `buf[:n]` of a buffer of
the pool, which has the capacity of the buffer.

* `Udp.Listener.Step` : the server with its read loop;
* `Udp.Dialed.Step` : `udp.Client` with its read loop;
* `Udp.Listener.Step.uses`, `Udp.Dialed.Step.uses` : **the transports use the pool properly**.
-/

namespace VibeVpn

namespace Udp

/-- The name of a datagram buffer. -/
abbrev Buf := Bytes

/-- `bufPool`. -/
abbrev Pool := FreeList Buf

/-! ### The server -/

/-- The buffers that the server holds: the one that `dispatch` works on, and those in the queues. -/
def Server.held (x : Server) : List Buf :=
  (x.call.map Call.buf).toList ++ x.heap.flatMap Endpoint.ch

section Held

variable {x y : Server} {l : Label}

theorem Server.held_goto {c : Call} (hc : x.call = some c) (p : Place) :
    (x.goto c p).held = x.held := by
  rw [held, held, hc]
  rfl

/-- An endpoint whose queue stays as it is may change otherwise. -/
theorem Server.flatMap_put {r : Ref} {e e' : Endpoint} (he : x.heap[r]? = some e)
    (hch : e'.ch = e.ch) :
    ((x.put r e').heap.flatMap Endpoint.ch).Perm (x.heap.flatMap Endpoint.ch) := by
  obtain ⟨rest, hbefore, hafter⟩ := exists_frame Endpoint.ch he
  exact ((hafter e').trans (hch ▸ .refl _)).trans hbefore.symm

theorem Server.held_put {r : Ref} {e e' : Endpoint} (he : x.heap[r]? = some e)
    (hch : e'.ch = e.ch) : (x.put r e').held.Perm x.held :=
  (flatMap_put he hch).append_left _

/-- Without its call, the server holds the queued buffers only. -/
theorem Server.held_of_call {c : Call} (hc : x.call = some c) :
    x.held = c.buf :: x.heap.flatMap Endpoint.ch := by
  rw [held, hc]
  rfl

/-- What a step of the server does with the buffers it holds. -/
theorem Server.Step.held (h : Step x l y) : match l with
    | .dispatch _ b => y.held = b :: x.held
    | .receive r => ∀ {e b ch}, x.heap[r]? = some e → e.ch = b :: ch → x.held.Perm (b :: y.held)
    | .proceed | .answer _ | .discard =>
      ∀ {c}, x.call = some c → if y.call = none then x.held.Perm (c.buf :: y.held)
        else y.held.Perm x.held
    | _ => y.held.Perm x.held := by
  cases h with
  | setOnNewPeer | close => exact .refl _
  | dispatch hc =>
    change _ = _ :: ((x.call.map Call.buf).toList ++ _)
    rw [hc]
    rfl
  | known hc | fetch hc | nobody hc | delete hc | admitted hc | rejected hc =>
    intro c' _
    rw [if_neg (by simp [Server.goto])]
    exact .of_eq (Server.held_goto hc _)
  | @register c hc =>
    intro c' _
    rw [if_neg (by simp [Server.goto])]
    refine .of_eq ?_
    rw [Server.held_of_call hc, Server.held_of_call (c := { c with place := _ }) rfl,
      List.flatMap_append]
    simp [Endpoint.new]
  | giveUp hc | discard hc =>
    intro c' hc'
    rw [if_pos rfl, Server.held_of_call hc']
    rfl
  | @hand c r e hc _ he =>
    intro c' _
    rw [if_neg (by simp [Server.goto])]
    refine .trans (.of_eq (Server.held_goto (x := x.put r { e with handed := true }) hc _)) ?_
    exact Server.held_put he rfl
  | @shut c r e hc _ he _ =>
    intro c' hc'
    have hqueues : ((x.put r { e with done := true }).heap.flatMap Endpoint.ch).Perm
        (x.heap.flatMap Endpoint.ch) := Server.flatMap_put he rfl
    rw [if_pos rfl, Server.held_of_call hc']
    exact hqueues.symm.cons c'.buf
  | @deliver c r e hc _ he =>
    obtain ⟨rest, hbefore, hafter⟩ := exists_frame Endpoint.ch he
    rw [Server.held_of_call hc]
    change ((x.put r { e with ch := e.ch ++ [c.buf] }).heap.flatMap Endpoint.ch).Perm _
    refine (hafter _).trans (.trans ?_ (hbefore.symm.cons c.buf))
    change (e.ch ++ [c.buf] ++ rest).Perm _
    rw [List.append_assoc]
    exact List.perm_middle
  | @receive r e b ch he hch =>
    intro e' b' ch' he' hch'
    obtain rfl := Option.some.inj (he.symm.trans he')
    obtain ⟨rfl, rfl⟩ := List.cons.inj (hch.symm.trans hch')
    obtain ⟨rest, hbefore, hafter⟩ := exists_frame Endpoint.ch he
    have hqueues : (x.heap.flatMap Endpoint.ch).Perm
        (b :: (x.put r { e with ch := ch, taken := e.taken ++ [b] }).heap.flatMap Endpoint.ch) := by
      refine hbefore.trans (.trans ?_ ((hafter _).symm.cons b))
      rw [hch]
      rfl
    exact (hqueues.append_left _).trans List.perm_middle
  | closeOne _ he | mark he | unregister he | found he | commit he | finish he =>
    exact Server.held_put he rfl

end Held

/-- Where a read loop of the server is. -/
inductive ServerLoop where
  /-- Before `bufPool.get()`. -/
  | top
  /-- In the read of the socket. -/
  | reading (b : Buf)
  /-- In `dispatch`. -/
  | dispatching
  /-- It has returned. -/
  | exited
  deriving DecidableEq, Repr

/-- `Server`, with its read loop. -/
structure Listener where
  /-- The read loop. -/
  loop : ServerLoop
  /-- The server. -/
  srv : Server

namespace Listener

/-- A server that has just been made. -/
def start : Listener := ⟨.top, .start⟩

/-- The buffers it holds. -/
def held (x : Listener) : List Buf :=
  (match x.loop with
    | .reading b => [b]
    | _ => []) ++ x.srv.held

/-- The steps of the server and of its read loop. -/
inductive Step (p : Pool) (x : Listener) : Pool → Listener → Prop where
  | get {fresh b : Buf} {p' : Pool} : x.loop = .top → p.get fresh = some (b, p') →
      Step p x p' { x with loop := .reading b }
  /-- The socket is closed; the buffer is not put back. -/
  | readErr {b : Buf} : x.loop = .reading b → Step p x p { x with loop := .exited }
  | readEmpty {b : Buf} : x.loop = .reading b → Step p x (p.put b) { x with loop := .top }
  | dispatch {b : Buf} {remote : AddrPort} {srv : Server} : x.loop = .reading b →
      x.srv.step (.dispatch remote b) = .ok srv → Step p x p ⟨.dispatching, srv⟩
  /-- `dispatch` goes on. -/
  | work {l : Label} {c : Call} {srv : Server} : l ∈ [.proceed, .answer true, .answer false] →
      x.srv.call = some c → x.srv.step l = .ok srv → srv.call ≠ none →
      Step p x p { x with srv := srv }
  /-- `dispatch` puts the buffer back: the server is closed, the peer was rejected, or its endpoint
  is closed. -/
  | putBack {l : Label} {c : Call} {srv : Server} : l ∈ [.proceed, .discard] →
      x.srv.call = some c → x.srv.step l = .ok srv → srv.call = none →
      Step p x (p.put c.buf) ⟨.top, srv⟩
  | deliver {srv : Server} : x.srv.step .deliver = .ok srv → Step p x p ⟨.top, srv⟩
  | setOnNewPeer {fn : Bool} {srv : Server} : x.srv.step (.setOnNewPeer fn) = .ok srv →
      Step p x p { x with srv := srv }
  | close {srv : Server} : x.srv.step .close = .ok srv → Step p x p { x with srv := srv }
  | closeOne {r : Ref} {srv : Server} : x.srv.step (.closeOne r) = .ok srv →
      Step p x p { x with srv := srv }
  | closeTransport {r : Ref} {srv : Server} : x.srv.step (.closeTransport r) = .ok srv →
      Step p x p { x with srv := srv }

variable {p p' : Pool} {x y : Listener}

theorem held_srv_perm {srv : Server} (h : srv.held.Perm x.srv.held) :
    ({ x with srv := srv } : Listener).held.Subperm x.held :=
  (h.append_left _).subperm

theorem held_le (x : Listener) (loop : ServerLoop) (h : ∀ b, loop ≠ .reading b) :
    (⟨loop, x.srv⟩ : Listener).held.Subperm x.held := by
  have hnil : (⟨loop, x.srv⟩ : Listener).held = x.srv.held := by
    cases loop with
    | reading b => exact absurd rfl (h b)
    | top | dispatching | exited => rfl
  rw [hnil]
  exact (List.sublist_append_right _ _).subperm

/-- **The server uses the pool properly.** -/
theorem Step.uses (h : Step p x p' y) : FreeList.Uses p x.held y.held p' := by
  obtain ⟨loop, srv⟩ := x
  cases h with
  | get hloop hget =>
    cases hloop
    exact .get hget (.refl _)
  | readErr hloop => exact .keep (held_le _ _ fun _ h => nomatch h)
  | readEmpty hloop =>
    cases hloop
    exact .put (.refl _)
  | dispatch hloop hst =>
    cases hloop
    have hheld := (Server.step_cases hst).held
    exact .keep (List.Perm.of_eq hheld).subperm
  | work hl hc hst hgoes =>
    have hheld := (Server.step_cases hst).held
    simp only [List.mem_cons, List.not_mem_nil, or_false] at hl
    obtain rfl | rfl | rfl := hl
    all_goals
      have hperm := hheld hc
      rw [if_neg hgoes] at hperm
      exact .keep (held_srv_perm hperm)
  | @putBack l c srv' hl hc hst hends =>
    have hheld := (Server.step_cases hst).held
    simp only [List.mem_cons, List.not_mem_nil, or_false] at hl
    obtain rfl | rfl := hl
    all_goals
      have hperm := hheld hc
      rw [if_pos hends] at hperm
      exact .put (hperm.symm.subperm.trans (List.sublist_append_right _ _).subperm)
  | deliver hst =>
    have hheld := (Server.step_cases hst).held
    exact .keep (hheld.subperm.trans (List.sublist_append_right _ _).subperm)
  | setOnNewPeer hst | close hst | closeOne hst | closeTransport hst =>
    have hheld := (Server.step_cases hst).held
    exact .keep (held_srv_perm hheld)

end Listener

/-! ### The client -/

/-- Where a read loop of the client is. -/
inductive ClientLoop where
  /-- Before `bufPool.get()`. -/
  | top
  /-- In the read of the socket. -/
  | reading (b : Buf)
  /-- In the `select` that offers the datagram to `recvCh`. -/
  | offering (b : Buf)
  /-- It has returned. -/
  | exited
  deriving DecidableEq, Repr

/-- `udp.Client`, with its read loop. -/
structure Dialed where
  /-- The read loop. -/
  loop : ClientLoop
  /-- The buffers in `recvCh`, the oldest first. -/
  recvCh : List Buf
  /-- `recvCh` is closed. -/
  shut : Bool
  /-- `done` is closed. -/
  done : Bool
  deriving DecidableEq, Repr

namespace Dialed

/-- `Dial`. -/
def start : Dialed := ⟨.top, [], false, false⟩

/-- The buffers it holds. -/
def held (x : Dialed) : List Buf :=
  (match x.loop with
    | .reading b | .offering b => [b]
    | _ => []) ++ x.recvCh

/-- The steps of the read loop, and `Close`. -/
inductive Step (p : Pool) (x : Dialed) : Pool → Dialed → Prop where
  | get {fresh b : Buf} {p' : Pool} : x.loop = .top → p.get fresh = some (b, p') →
      Step p x p' { x with loop := .reading b }
  | readErr {b : Buf} : x.loop = .reading b →
      Step p x (p.put b) { x with loop := .exited, shut := true }
  | readEmpty {b : Buf} : x.loop = .reading b → Step p x (p.put b) { x with loop := .top }
  | readData {b : Buf} : x.loop = .reading b → Step p x p { x with loop := .offering b }
  | send {b : Buf} : x.loop = .offering b → x.recvCh.length < chCap →
      Step p x p { x with loop := .top, recvCh := x.recvCh ++ [b] }
  | quit {b : Buf} : x.loop = .offering b → x.done = true →
      Step p x (p.put b) { x with loop := .exited }
  | close : Step p x p { x with done := true }

/-- **The client uses the pool properly.** -/
theorem Step.uses {p p' : Pool} {x y : Dialed} (h : Step p x p' y) :
    FreeList.Uses p x.held y.held p' := by
  obtain ⟨loop, recvCh, shut, done⟩ := x
  cases h with
  | get hloop hget =>
    cases hloop
    exact .get hget (.refl _)
  | readErr hloop | readEmpty hloop | quit hloop =>
    cases hloop
    exact .put (.refl _)
  | readData hloop =>
    cases hloop
    exact .keep (.refl _)
  | send hloop =>
    cases hloop
    exact .keep (List.perm_append_singleton _ _).subperm
  | close => exact .keep (.refl _)

end Dialed

end Udp

end VibeVpn

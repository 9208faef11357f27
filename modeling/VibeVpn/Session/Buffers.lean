import VibeVpn.Session.Reader
import VibeVpn.Session.ServerRun
import VibeVpn.Transport.Buffers
import Mathlib.Data.List.ReduceOption

/-!
# Who holds a datagram buffer

A buffer that a UDP read loop takes from `bufPool` passes through a queue of the transport, the
session's `transportReader`, its `recvCh` and its run loop, and the run loop releases it after it
has handled the datagram, on most of its ways out but not on all of them.  Buffers that are still in
a queue or with a reader when a session ends are lost to the pool.

`BufWorld.lts` has any number of clients and servers over one pool, in every interleaving.  The
transports are those of `Transport.Buffers`, and the run loops are `Client.step` and
`ServerSession.step`; what a datagram contains when it is handled is arbitrary.  A client keeps its
earlier connections, whose goroutines go on.

* `Client.release`, `ServerSession.release` : what a run loop does with the buffer of a datagram,
  way out by way out;
* `BufWorld.single_owner` : **every buffer has one owner**: it is in the free list at most once, and
  not while anyone holds it, and between two times that it is put back it is taken.
-/

namespace VibeVpn

open Udp (Buf Pool Dialed Listener)

variable {S : Suite}

/-! ### Releasing a buffer -/

/-- `releaseBuf(t, b)`.  The flag says whether `t` is a `transport.BufferReleaser`, as the UDP
transports are and `jitterTransport` is not; the buffer of a failure is nil. -/
def releaseBuf (p : Pool) (pooled : Bool) : Option Buf → Pool
  | none => p
  | some b => if pooled then p.put b else p

/-- The client's run loop on a datagram with the contents `data` in the buffer `b`: the pool when it
is done with the buffer. -/
def Client.release (cfg : ClientConfig) (env : ClientEnv S) (c : Client S) (p : Pool)
    (pooled : Bool) (b : Buf) (data : Bytes) : Go Pool :=
  match c.phase with
  | .waitReply hs _ cookie _ _ _ =>
    match S.read hs data with
    | some _ => pure (releaseBuf p pooled (some b))
    | none =>
      -- The cookie is copied before its buffer is released.
      if data.length = cookieLen ∧ !cookie then pure (releaseBuf p pooled (some b))
      else pure (releaseBuf p pooled (some b))
  -- The frame was decrypted into a buffer of its own.
  | .waitAssign .. => pure (releaseBuf p pooled (some b))
  | .running => do
    let (_, _, err) ← { c with lastRecv := env.now }.handleFrame cfg env data
    -- The way out to `reconnect` does not release the buffer.
    if err = some .peerClosed then pure p else pure (releaseBuf p pooled (some b))
  | .backoff => pure p
  | .stopped => pure p

/-- The server's `drainRecv` on a datagram with the contents `data` in the buffer `b`. -/
def ServerSession.release (cfg : ServerConfig) (env : ServerEnv S) (s : ServerSession S) (p : Pool)
    (pooled : Bool) (b : Buf) (data : Bytes) : Go Pool := do
  let (_, _, err) ← { s with lastRecv := env.now }.handle cfg env data
  if err = some .fatal then pure (releaseBuf p pooled (some b))
  else pure (releaseBuf p pooled (some b))

section Release

variable {p p' : Pool} {pooled : Bool} {b : Buf} {data : Bytes}

theorem releaseBuf_cases (p : Pool) (pooled : Bool) (b : Buf) :
    releaseBuf p pooled (some b) = p ∨ releaseBuf p pooled (some b) = p.put b := by
  cases pooled with
  | false => exact .inl rfl
  | true => exact .inr rfl

/-- The client releases a buffer once or not at all. -/
theorem Client.release_cases {cfg : ClientConfig} {env : ClientEnv S} {c : Client S}
    (h : c.release cfg env p pooled b data = .ok p') : p' = p ∨ p' = p.put b := by
  have hone := releaseBuf_cases p pooled b
  unfold Client.release at h
  split at h
  · split at h
    · cases h
      exact hone
    · split_ifs at h <;> cases h <;> exact hone
  · cases h
    exact hone
  · obtain ⟨⟨_, _, err⟩, -, h⟩ := Go.bind_eq_ok.1 h
    dsimp only at h
    split_ifs at h
    · cases h
      exact .inl rfl
    · cases h
      exact hone
  · cases h
    exact .inl rfl
  · cases h
    exact .inl rfl

/-- So does the server. -/
theorem ServerSession.release_cases {cfg : ServerConfig} {env : ServerEnv S} {s : ServerSession S}
    (h : s.release cfg env p pooled b data = .ok p') : p' = p ∨ p' = p.put b := by
  obtain ⟨⟨_, _, err⟩, -, h⟩ := Go.bind_eq_ok.1 h
  dsimp only at h
  split_ifs at h <;> cases h <;> exact releaseBuf_cases p pooled b

/-- A handler gives up the buffer it has handled. -/
theorem uses_release {held : List Buf} (h : p' = p ∨ p' = p.put b) :
    FreeList.Uses p (b :: held) held p' := by
  obtain rfl | rfl := h
  · exact .keep (List.sublist_cons_self b held).subperm
  · exact .put (.refl _)

end Release

/-! ### Readers and channels -/

/-- A `transportReader` and its `recvCh`. -/
structure Line where
  /-- The reader. -/
  reader : Reader Buf
  /-- `recvCh`, the oldest result first; `none` is an error. -/
  recvCh : List (Option Buf)

namespace Line

/-- A reader that has just been started. -/
def start : Line := ⟨.receiving, []⟩

/-- The buffers they hold. -/
def held (x : Line) : List Buf :=
  (match x.reader with
    | .offering b => [b]
    | _ => []) ++ x.recvCh.reduceOption

/-- The steps of a reader, except that it receives.  The flags say whether `Receive` may fail,
whether the reader may give up, and whether it reports the failure. -/
inductive Step (mayFail mayQuit reports : Bool) (x : Line) : Line → Prop where
  | fail : x.reader = .receiving → mayFail = true →
      Step mayFail mayQuit reports x
        { reader := .exited
          recvCh := if reports ∧ x.recvCh.length < recvCap then x.recvCh ++ [none] else x.recvCh }
  | offer {b : Buf} : x.reader = .offering b → x.recvCh.length < recvCap →
      Step mayFail mayQuit reports x ⟨.receiving, x.recvCh ++ [some b]⟩
  | quit {b : Buf} : x.reader = .offering b → mayQuit = true →
      Step mayFail mayQuit reports x { x with reader := .exited }

theorem Step.held_subperm {mayFail mayQuit reports : Bool} {x y : Line}
    (h : Step mayFail mayQuit reports x y) : y.held.Subperm x.held := by
  obtain ⟨reader, recvCh⟩ := x
  cases h with
  | fail hr =>
    cases hr
    simp only [held]
    split_ifs
    · rw [List.reduceOption_append]
      exact (List.append_nil _).symm ▸ .refl _
    · exact .refl _
  | offer hr =>
    cases hr
    simp only [held, List.reduceOption_append, List.nil_append]
    exact List.perm_append_comm.subperm
  | quit hr =>
    cases hr
    exact (List.sublist_cons_self _ _).subperm

variable {x : Line} {b : Buf} {ch : List (Option Buf)}

/-- The reader receives a buffer. -/
theorem held_receive (b : Buf) (h : x.reader = .receiving) :
    ({ x with reader := .offering b } : Line).held = b :: x.held := by
  obtain ⟨reader, recvCh⟩ := x
  cases h
  rfl

/-- The run loop takes a buffer from `recvCh`. -/
theorem held_take (h : x.recvCh = some b :: ch) :
    x.held.Perm (b :: ({ x with recvCh := ch } : Line).held) := by
  obtain ⟨reader, recvCh⟩ := x
  cases h
  exact List.perm_middle

/-- It takes an error. -/
theorem held_error (h : x.recvCh = none :: ch) :
    ({ x with recvCh := ch } : Line).held = x.held := by
  obtain ⟨reader, recvCh⟩ := x
  cases h
  rfl

end Line

/-! ### Clients -/

/-- A connection of a client, over UDP. -/
structure BufConn where
  /-- The transport. -/
  dialed : Dialed
  /-- The reader and its channel. -/
  line : Line
  /-- The transport is not wrapped by `framing.Jitter`. -/
  pooled : Bool

/-- The buffers of a connection. -/
def BufConn.held (x : BufConn) : List Buf := x.dialed.held ++ x.line.held

/-- A client with all connections it has ever made, the newest first. -/
structure BufClient (S : Suite) where
  /-- The configuration. -/
  cfg : ClientConfig
  /-- The session. -/
  session : Client S
  /-- The buffer of the datagram that `Run` handles. -/
  handling : Option Buf
  /-- The connections. -/
  conns : List BufConn

namespace BufClient

/-- A client before its first connection. -/
def start (S : Suite) (cfg : ClientConfig) : BufClient S := ⟨cfg, .new S, none, []⟩

/-- The buffers it holds. -/
def held (x : BufClient S) : List Buf := x.handling.toList ++ x.conns.flatMap BufConn.held

/-- `Run` has returned, which closes `c.done`. -/
def stopped (x : BufClient S) : Bool := (Client.consumer S x.cfg).closed x.session

/-- The steps of a client and its connections. -/
inductive Step (p : Pool) (x : BufClient S) : Pool → BufClient S → Prop where
  | transport {i : ℕ} {k : BufConn} {d : Dialed} {p' : Pool} : x.conns[i]? = some k →
      Dialed.Step p k.dialed p' d →
      Step p x p' { x with conns := x.conns.set i { k with dialed := d } }
  | receive {i : ℕ} {k : BufConn} {b : Buf} {ch : List Buf} : x.conns[i]? = some k →
      k.line.reader = .receiving → k.dialed.recvCh = b :: ch →
      Step p x p
        { x with
          conns := x.conns.set i
            { k with
              dialed := { k.dialed with recvCh := ch }
              line := { k.line with reader := .offering b } } }
  | reader {i : ℕ} {k : BufConn} {line : Line} : x.conns[i]? = some k →
      Line.Step (k.dialed.shut && k.dialed.recvCh.isEmpty) x.stopped true k.line line →
      Step p x p { x with conns := x.conns.set i { k with line := line } }
  /-- The run loop takes a datagram from the newest connection. -/
  | take {k : BufConn} {b : Buf} {ch : List (Option Buf)} : x.handling = none →
      x.session.phase.live = true → x.conns[0]? = some k → k.line.recvCh = some b :: ch →
      Step p x p
        { x with
          handling := some b
          conns := x.conns.set 0 { k with line := { k.line with recvCh := ch } } }
  /-- It has handled the datagram. -/
  | finish {k : BufConn} {b : Buf} {env : ClientEnv S} {data : Bytes} {c : Client S} {o : Out S}
      {p' : Pool} : x.handling = some b → x.conns[0]? = some k →
      x.session.step x.cfg env (.recv (some data)) = .ok (c, o) →
      x.session.release x.cfg env p k.pooled b data = .ok p' →
      Step p x p' { x with session := c, handling := none }
  /-- It takes an error; `releaseBuf` is given nil. -/
  | error {k : BufConn} {env : ClientEnv S} {ch : List (Option Buf)} {c : Client S} {o : Out S} :
      x.handling = none → x.session.phase.live = true → x.conns[0]? = some k →
      k.line.recvCh = none :: ch → x.session.step x.cfg env (.recv none) = .ok (c, o) →
      Step p x (releaseBuf p k.pooled none)
        { x with
          session := c
          conns := x.conns.set 0 { k with line := { k.line with recvCh := ch } } }
  /-- Any other event, which may be the one that dials. -/
  | event {env : ClientEnv S} {e : Client.Event} {c : Client S} {o : Out S} {pooled : Bool} :
      x.handling = none → (∀ r, e ≠ .recv r) → x.session.step x.cfg env e = .ok (c, o) →
      Step p x p
        { x with
          session := c
          conns := if (Client.consumer S x.cfg).renews x.session (env, e)
            then ⟨.start, .start, pooled⟩ :: x.conns else x.conns }

variable {p p' : Pool} {x y : BufClient S}

/-- One of the connections takes a step. -/
theorem uses_conn {i : ℕ} {k k' : BufConn} (hk : x.conns[i]? = some k)
    (h : FreeList.Uses p k.held k'.held p') :
    FreeList.Uses p x.held ({ x with conns := x.conns.set i k' } : BufClient S).held p' :=
  (h.frame_set hk).frame_left _

/-- **A client uses the pool properly.** -/
theorem Step.uses (h : Step p x p' y) : FreeList.Uses p x.held y.held p' := by
  cases h with
  | transport hk hst => exact uses_conn hk (hst.uses.frame_right _)
  | @receive i k b ch hk hr hch =>
    refine uses_conn hk (.keep (List.Perm.subperm ?_))
    have hqueue : k.dialed.held.Perm (b :: ({ k.dialed with recvCh := ch } : Dialed).held) := by
      obtain ⟨⟨loop, recvCh, shut, done⟩, line, pooled⟩ := k
      cases hch
      exact List.perm_middle
    change (_ ++ ({ k.line with reader := .offering b } : Line).held).Perm _
    rw [Line.held_receive b hr]
    exact List.perm_middle.trans (hqueue.symm.append_right _)
  | reader hk hst =>
    exact uses_conn hk (.keep ((List.subperm_append_left _).2 hst.held_subperm))
  | @take k b ch hn _ hk hch =>
    obtain ⟨rest, hbefore, hafter⟩ := exists_frame BufConn.held hk
    have hconn : (b :: ({ k with line := { k.line with recvCh := ch } } : BufConn).held).Perm
        k.held :=
      List.perm_middle.symm.trans ((Line.held_take hch).symm.append_left _)
    have hx : x.held = x.conns.flatMap BufConn.held := by
      rw [held, hn]
      rfl
    rw [hx]
    refine .keep (List.Perm.subperm ?_)
    exact ((hafter _).cons b).trans ((hconn.append_right rest).trans hbefore.symm)
  | finish hh _ _ hrel =>
    rw [held, hh]
    exact uses_release (Client.release_cases hrel)
  | @error k _ ch _ _ _ _ hk hch _ =>
    have hconn : ({ k with line := { k.line with recvCh := ch } } : BufConn).held = k.held :=
      congrArg (k.dialed.held ++ ·) (Line.held_error hch)
    have hkeep : FreeList.Uses p k.held
        ({ k with line := { k.line with recvCh := ch } } : BufConn).held p :=
      .keep (List.Perm.of_eq hconn).subperm
    exact uses_conn hk hkeep
  | event =>
    refine .keep (List.Perm.subperm ?_)
    simp only [held]
    split_ifs
    · exact .refl _
    · exact .refl _

end BufClient

/-! ### Servers -/

/-- A session of the server, over UDP. -/
structure BufSession (S : Suite) where
  /-- The endpoint of its transport. -/
  ep : Udp.Ref
  /-- The session, and whether its run loop is running. -/
  session : ServerSession S × Bool
  /-- The reader and its channel. -/
  line : Line
  /-- The buffer of the datagram that the run loop handles. -/
  handling : Option Buf
  /-- The transport is not wrapped by `framing.Jitter`. -/
  pooled : Bool

/-- The buffers of a session. -/
def BufSession.held (x : BufSession S) : List Buf := x.line.held ++ x.handling.toList

/-- A server with all sessions it has ever started. -/
structure BufServer (S : Suite) where
  /-- The configuration. -/
  cfg : ServerConfig
  /-- The transport. -/
  listener : Listener
  /-- The sessions. -/
  sessions : List (BufSession S)

namespace BufServer

/-- A server that has just been started. -/
def start (S : Suite) (cfg : ServerConfig) : BufServer S := ⟨cfg, .start, []⟩

/-- The buffers it holds. -/
def held (x : BufServer S) : List Buf := x.listener.held ++ x.sessions.flatMap BufSession.held

/-- The endpoint's `done` is closed. -/
def closed (x : BufServer S) (r : Udp.Ref) : Bool := x.listener.srv.heap[r]?.any Udp.Endpoint.done

/-- The steps of a server and its sessions. -/
inductive Step (p : Pool) (x : BufServer S) : Pool → BufServer S → Prop where
  | transport {l : Listener} {p' : Pool} : Listener.Step p x.listener p' l →
      Step p x p' { x with listener := l }
  /-- The callback of the transport starts a session. -/
  | begin {r : Udp.Ref} {e : Udp.Endpoint} {sid : ℕ} {peerIP : Option Bytes} {now : ℤ}
      {pooled : Bool} : x.listener.srv.heap[r]? = some e → e.handed = true →
      Step p x p
        { x with
          sessions := x.sessions ++ [⟨r, (.new S sid peerIP now, true), .start, none, pooled⟩] }
  | receive {i : ℕ} {k : BufSession S} {e : Udp.Endpoint} {b : Buf} {ch : List Buf}
      {srv : Udp.Server} : x.sessions[i]? = some k → k.line.reader = .receiving →
      x.listener.srv.heap[k.ep]? = some e → e.ch = b :: ch →
      x.listener.srv.step (.receive k.ep) = .ok srv →
      Step p x p
        { x with
          listener := { x.listener with srv := srv }
          sessions := x.sessions.set i { k with line := { k.line with reader := .offering b } } }
  /-- The context of a session may be cancelled at any time. -/
  | reader {i : ℕ} {k : BufSession S} {line : Line} : x.sessions[i]? = some k →
      Line.Step (x.closed k.ep) true false k.line line →
      Step p x p { x with sessions := x.sessions.set i { k with line := line } }
  | take {i : ℕ} {k : BufSession S} {b : Buf} {ch : List (Option Buf)} :
      x.sessions[i]? = some k → k.handling = none → k.session.2 = true →
      k.line.recvCh = some b :: ch →
      Step p x p
        { x with
          sessions := x.sessions.set i
            { k with line := { k.line with recvCh := ch }, handling := some b } }
  | finish {i : ℕ} {k : BufSession S} {b : Buf} {env : ServerEnv S} {data : Bytes}
      {s : ServerSession S × Bool} {p' : Pool} : x.sessions[i]? = some k → k.handling = some b →
      (ServerSession.lts S x.cfg).step k.session (env, .recv (some data)) s →
      k.session.1.release x.cfg env p k.pooled b data = .ok p' →
      Step p x p' { x with sessions := x.sessions.set i { k with session := s, handling := none } }
  | event {i : ℕ} {k : BufSession S} {env : ServerEnv S} {e : ServerSession.Event}
      {s : ServerSession S × Bool} : x.sessions[i]? = some k → k.handling = none →
      (∀ r, e ≠ .recv r) → (ServerSession.lts S x.cfg).step k.session (env, e) s →
      Step p x p { x with sessions := x.sessions.set i { k with session := s } }

variable {p p' : Pool} {x y : BufServer S}

/-- One of the sessions takes a step. -/
theorem uses_session {i : ℕ} {k k' : BufSession S} (hk : x.sessions[i]? = some k)
    (h : FreeList.Uses p k.held k'.held p') :
    FreeList.Uses p x.held ({ x with sessions := x.sessions.set i k' } : BufServer S).held p' :=
  (h.frame_set hk).frame_left _

/-- **A server uses the pool properly.** -/
theorem Step.uses (h : Step p x p' y) : FreeList.Uses p x.held y.held p' := by
  cases h with
  | transport hst => exact hst.uses.frame_right _
  | begin =>
    refine .keep (List.Perm.subperm (.of_eq ?_))
    simp only [held, List.flatMap_append]
    simp [BufSession.held, Line.held, Line.start]
  | @receive i k e b ch srv hk hr he hch hst =>
    obtain ⟨rest, hbefore, hafter⟩ := exists_frame BufSession.held hk
    have hqueue : x.listener.held.Perm (b :: ({ x.listener with srv := srv } : Listener).held) :=
      (((Udp.Server.step_cases hst).held he hch).append_left _).trans List.perm_middle
    have hsession : ({ k with line := { k.line with reader := .offering b } } : BufSession S).held =
        b :: k.held := by
      rw [BufSession.held, Line.held_receive b hr]
      rfl
    -- The buffer leaves the queue of the endpoint for the reader.
    refine .keep (List.Perm.subperm ?_)
    refine ((hafter _).append_left _).trans ?_
    rw [hsession]
    refine List.perm_middle.trans (.trans ?_ ((hqueue.append_right _).symm))
    exact (hbefore.symm.append_left _).cons b
  | reader hk hst =>
    exact uses_session hk (.keep ((List.subperm_append_right _).2 hst.held_subperm))
  | @take i k b ch hk hn _ hch =>
    refine uses_session hk (.keep (List.Perm.subperm ?_))
    have hx : k.held = k.line.held := by
      rw [BufSession.held, hn]
      exact List.append_nil _
    rw [hx]
    exact (List.perm_append_singleton _ _).trans (Line.held_take hch).symm
  | @finish i k b env data s _ hk hh _ hrel =>
    have huses : FreeList.Uses p [b] [] p' := uses_release (ServerSession.release_cases hrel)
    have hx : k.held = k.line.held ++ [b] := by
      rw [BufSession.held, hh]
      rfl
    exact uses_session hk (hx ▸ huses.frame_left k.line.held)
  | event hk => exact uses_session hk (.keep (.refl _))

end BufServer

/-! ### All together -/

/-- Clients and servers over one pool. -/
structure BufWorld (S : Suite) where
  /-- `bufPool`. -/
  pool : Pool
  /-- The clients. -/
  clients : List (BufClient S)
  /-- The servers. -/
  servers : List (BufServer S)

namespace BufWorld

/-- Nothing has happened yet. -/
def start (S : Suite) (clients : List ClientConfig) (servers : List ServerConfig) : BufWorld S where
  pool := .empty
  clients := clients.map (BufClient.start S)
  servers := servers.map (BufServer.start S)

/-- The buffers that anyone holds: a read loop, the queue of a transport, a `transportReader`, a
`recvCh` or a run loop. -/
def held (w : BufWorld S) : List Buf :=
  w.clients.flatMap BufClient.held ++ w.servers.flatMap BufServer.held

/-- Whose step it is. -/
inductive Label where
  /-- A goroutine of a client. -/
  | client (i : ℕ)
  /-- A goroutine of a server. -/
  | server (i : ℕ)

/-- The steps of everyone. -/
inductive Step (w : BufWorld S) : Label → BufWorld S → Prop where
  | client {i : ℕ} {x y : BufClient S} {p : Pool} : w.clients[i]? = some x →
      BufClient.Step w.pool x p y →
      Step w (.client i) { w with pool := p, clients := w.clients.set i y }
  | server {i : ℕ} {x y : BufServer S} {p : Pool} : w.servers[i]? = some x →
      BufServer.Step w.pool x p y →
      Step w (.server i) { w with pool := p, servers := w.servers.set i y }

/-- Everyone in every interleaving. -/
def lts (S : Suite) : LTS (BufWorld S) Label where
  step := Step

variable {w w' : BufWorld S} {l : Label}

/-- A step of anyone uses the pool properly. -/
theorem Step.uses (h : Step w l w') : FreeList.Uses w.pool w.held w'.held w'.pool := by
  cases h with
  | client hx hst => exact (hst.uses.frame_set hx).frame_right _
  | server hx hst => exact (hst.uses.frame_set hx).frame_left _

theorem held_start (clients : List ClientConfig) (servers : List ServerConfig) :
    (start S clients servers).held = [] := by
  simp only [held, start, List.append_eq_nil_iff, List.flatMap_eq_nil_iff, List.mem_map]
  constructor
  · rintro _ ⟨cfg, -, rfl⟩
    rfl
  · rintro _ ⟨cfg, -, rfl⟩
    rfl

/-- **Every buffer has one owner.**  In every run of any number of clients and servers, no buffer is
in the free list twice, or in the free list while a read loop, a queue, a reader, a `recvCh` or a
run loop holds it, and none is with two of them; and each time that a buffer is put back it has been
taken since it was put back before. -/
theorem single_owner {clients : List ClientConfig} {servers : List ServerConfig} {ls : List Label}
    (hrun : (lts S).Run (start S clients servers) ls w) :
    w.pool.free.Nodup ∧ w.held.Nodup ∧ (∀ b ∈ w.pool.free, b ∉ w.held) ∧
      FreeList.Once w.pool.log := by
  have hsole : FreeList.Sole w.pool w.held := by
    refine hrun.reachable.invariant (I := fun w => FreeList.Sole w.pool w.held) ?_
      fun _ _ _ hi hst => (Step.uses hst).sole hi
    rw [held_start]
    exact .empty
  obtain ⟨hfree, hheld, hdisjoint⟩ := List.nodup_append.1 hsole.nodup
  exact ⟨hfree, hheld, fun b hb hmem => hdisjoint b hb b hmem rfl, hsole.once⟩

/-- A client dials, and the buffer of a datagram that it does not understand comes back to the pool
and is taken again. -/
theorem single_owner_reuse : ∃ ls w,
    (lts plain).Run (start plain [Client.plainConfig] []) ls w ∧ w.pool.made = [[7]] ∧
      w.held = [[7]] ∧ ∀ b ∈ w.pool.free, b ∉ w.held := by
  obtain ⟨c, o, hdial, hlive, hother, hrel⟩ : ∃ c o,
      (Client.new plain).step Client.plainConfig (Client.plainEnv 0 7) .retry = .ok (c, o) ∧
      c.phase.live = true ∧
      c.step Client.plainConfig (Client.plainEnv 1 0) (.recv (some [])) = .ok (c, {}) ∧
      ∀ p, c.release Client.plainConfig (Client.plainEnv 1 0) p true [7] [] =
        .ok (releaseBuf p true (some [7])) := ⟨_, _, rfl, rfl, rfl, fun _ => rfl⟩
  let x (pool : Pool) (handling : Option Buf) (k : BufConn) : BufWorld plain :=
    ⟨pool, [⟨Client.plainConfig, c, handling, [k]⟩], []⟩
  let p₁ : Pool := ⟨[], [[7]], [.get [7]]⟩
  have dial : (lts plain).step (start plain [Client.plainConfig] []) (.client 0)
      (x .empty none ⟨.start, .start, true⟩) :=
    .client rfl (@BufClient.Step.event plain .empty (.start plain Client.plainConfig)
      (Client.plainEnv 0 7) .retry c o true rfl (fun _ h => nomatch h) hdial)
  have transport {p p' : Pool} {k : BufConn} {d : Dialed} (h : Dialed.Step p k.dialed p' d) :
      (lts plain).step (x p none k) (.client 0) (x p' none ⟨d, k.line, k.pooled⟩) :=
    .client rfl (.transport (i := 0) rfl h)
  have get : Dialed.Step .empty .start p₁ ⟨.reading [7], [], false, false⟩ :=
    @Dialed.Step.get .empty .start [7] [7] p₁ rfl rfl
  have data : Dialed.Step p₁ ⟨.reading [7], [], false, false⟩ p₁
      ⟨.offering [7], [], false, false⟩ := .readData rfl
  have send : Dialed.Step p₁ ⟨.offering [7], [], false, false⟩ p₁ ⟨.top, [[7]], false, false⟩ :=
    .send rfl (by decide)
  let queued : BufConn := ⟨⟨.top, [[7]], false, false⟩, .start, true⟩
  let received : BufConn := ⟨.start, ⟨.offering [7], []⟩, true⟩
  let offered : BufConn := ⟨.start, ⟨.receiving, [some [7]]⟩, true⟩
  have receive : (lts plain).step (x p₁ none queued) (.client 0) (x p₁ none received) :=
    .client rfl (@BufClient.Step.receive plain p₁ ⟨_, _, _, [queued]⟩ 0 queued [7] [] rfl rfl rfl)
  have offer : (lts plain).step (x p₁ none received) (.client 0) (x p₁ none offered) :=
    .client rfl (@BufClient.Step.reader plain p₁ ⟨_, _, _, [received]⟩ 0 received offered.line rfl
      (.offer rfl (by decide)))
  have take : (lts plain).step (x p₁ none offered) (.client 0)
      (x p₁ (some [7]) ⟨.start, .start, true⟩) :=
    .client rfl (@BufClient.Step.take plain p₁ ⟨_, _, _, [offered]⟩ offered [7] [] rfl hlive rfl
      rfl)
  have finish : (lts plain).step (x p₁ (some [7]) ⟨.start, .start, true⟩) (.client 0)
      (x (p₁.put [7]) none ⟨.start, .start, true⟩) :=
    .client rfl (@BufClient.Step.finish plain p₁ ⟨Client.plainConfig, c, some [7], _⟩
      ⟨.start, .start, true⟩ [7] (Client.plainEnv 1 0) [] c {} (p₁.put [7]) rfl rfl hother
      (hrel p₁))
  let p₂ : Pool := ⟨[], [[7]], [.get [7], .put [7], .get [7]]⟩
  have again : Dialed.Step (p₁.put [7]) .start p₂ ⟨.reading [7], [], false, false⟩ :=
    @Dialed.Step.get (p₁.put [7]) .start [8] [7] p₂ rfl rfl
  have run := ((((((((LTS.Run.nil.snoc dial).snoc (transport get)).snoc (transport data)).snoc
    (transport send)).snoc receive).snoc offer).snoc take).snoc finish).snoc (transport again)
  exact ⟨_, _, run, rfl, rfl, (single_owner run).2.2.1⟩

end BufWorld

end VibeVpn

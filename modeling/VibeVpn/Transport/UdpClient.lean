import VibeVpn.Transport.Buffers

/-!
# Closing the UDP client

`udp.Client` runs a read loop that fills `recvCh`, and any number of `Receive` and `Close` calls run
beside it.  `Close` closes `done` and then the socket; the loop has two exits.  A failed read closes
`recvCh`, which wakes every `Receive`.  But while the loop offers a datagram to `recvCh`, it leaves
as soon as `done` is closed, and **this exit does not close `recvCh`**: when the queue is empty,
`Receive` waits for a datagram that nobody will send.

* `UdpClient.close_unblocks_receive` : `Receive` never waits in vain if `Close` does not find the
  loop with a datagram in its hands (`Calm`), and after `Close` all calls return within a bounded
  number of steps.  A step that is not calm lets the loop leave the channel open.
* `UdpClient.receive_waits_forever` : with a full queue, `Close` leaves a `Receive` waiting for
  ever.

The states add the socket and the callers to `Udp.Dialed`, and the steps are those of
`Udp.Dialed.Step` (`UdpClient.Step.dialed`).
-/

namespace VibeVpn

open Udp

/-- `udp.Client` with its socket and the calls that are running. -/
structure UdpClient extends Dialed where
  /-- The socket is closed. -/
  connClosed : Bool
  /-- Calls of `Close` that have passed `closeOnce` and not yet closed the socket. -/
  closing : ℕ
  /-- Calls of `Receive` that wait for `recvCh`. -/
  receivers : ℕ
  deriving DecidableEq, Repr

namespace UdpClient

/-- `Dial`. -/
def start : UdpClient := ⟨.start, false, 0, 0⟩

/-- The steps of the loop and of the calls. -/
inductive Label where
  /-- The loop takes a buffer. -/
  | get (b : Buf)
  /-- `Read` fails, and the loop closes `recvCh` and returns. -/
  | readErr
  /-- `Read` returns an empty datagram. -/
  | readEmpty
  /-- `Read` returns a datagram. -/
  | readData
  /-- The `select` of the loop queues the datagram. -/
  | send
  /-- The `select` of the loop finds `done` closed, and the loop returns. -/
  | quit
  /-- A call of `Receive` begins. -/
  | receive
  /-- A call of `Receive` returns the first datagram of the queue. -/
  | take
  /-- A call of `Receive` finds `recvCh` closed and returns `errClosed`. -/
  | fail
  /-- A call of `Close` passes `closeOnce`; the first one closes `done`. -/
  | closeDone
  /-- A call of `Close` closes the socket and returns. -/
  | closeConn
  deriving DecidableEq, Repr

/-- One step; `.error none` stands for a step that cannot be taken now.  A closed socket has no more
datagrams, and what a `Read` returned before stays in the hands of the loop. -/
def step (x : UdpClient) : Label → Except (Option Panic) UdpClient
  | .get b =>
    match x.loop with
    | .top => .ok { x with loop := .reading b }
    | _ => .error none
  | .readErr =>
    match x.loop with
    | .reading _ =>
      -- the error branch closes `recvCh` on its way out
      if x.shut then .error (some .closeOfClosed)
      else .ok { x with loop := .exited, shut := true }
    | _ => .error none
  | .readEmpty =>
    match x.loop with
    | .reading _ => if x.connClosed then .error none else .ok { x with loop := .top }
    | _ => .error none
  | .readData =>
    match x.loop with
    | .reading b => if x.connClosed then .error none else .ok { x with loop := .offering b }
    | _ => .error none
  | .send =>
    match x.loop with
    | .offering b =>
      if x.recvCh.length < chCap then .ok { x with loop := .top, recvCh := x.recvCh ++ [b] }
      else .error none
    | _ => .error none
  | .quit =>
    match x.loop with
    -- the `done` branch leaves without closing `recvCh`
    | .offering _ => if x.done then .ok { x with loop := .exited } else .error none
    | _ => .error none
  | .receive => .ok { x with receivers := x.receivers + 1 }
  | .take =>
    match x.receivers, x.recvCh with
    | n + 1, _ :: ch => .ok { x with receivers := n, recvCh := ch }
    | _, _ => .error none
  | .fail =>
    match x.receivers, x.recvCh with
    | n + 1, [] => if x.shut then .ok { x with receivers := n } else .error none
    | _, _ => .error none
  | .closeDone => .ok { x with done := true, closing := x.closing + 1 }
  | .closeConn =>
    match x.closing with
    | n + 1 => .ok { x with connClosed := true, closing := n }
    | 0 => .error none

/-- The steps in every order. -/
def lts : LTS UdpClient Label := LTS.ofExcept step

/-! ### What a step does -/

/-- A step, case by case. -/
inductive Step (x : UdpClient) : Label → UdpClient → Prop where
  | get {b : Buf} : x.loop = .top → Step x (.get b) { x with loop := .reading b }
  | readErr {b : Buf} : x.loop = .reading b → x.shut = false →
      Step x .readErr { x with loop := .exited, shut := true }
  | readEmpty {b : Buf} : x.loop = .reading b → x.connClosed = false →
      Step x .readEmpty { x with loop := .top }
  | readData {b : Buf} : x.loop = .reading b → x.connClosed = false →
      Step x .readData { x with loop := .offering b }
  | send {b : Buf} : x.loop = .offering b → x.recvCh.length < chCap →
      Step x .send { x with loop := .top, recvCh := x.recvCh ++ [b] }
  | quit {b : Buf} : x.loop = .offering b → x.done = true →
      Step x .quit { x with loop := .exited }
  | receive : Step x .receive { x with receivers := x.receivers + 1 }
  | take {n : ℕ} {b : Buf} {ch : List Buf} : x.receivers = n + 1 → x.recvCh = b :: ch →
      Step x .take { x with receivers := n, recvCh := ch }
  | fail {n : ℕ} : x.receivers = n + 1 → x.recvCh = [] → x.shut = true →
      Step x .fail { x with receivers := n }
  | closeDone : Step x .closeDone { x with done := true, closing := x.closing + 1 }
  | closeConn {n : ℕ} : x.closing = n + 1 →
      Step x .closeConn { x with connClosed := true, closing := n }

variable {x y : UdpClient} {l : Label}

theorem step_cases (h : x.step l = .ok y) : Step x l y := by
  cases l with
  | receive | closeDone => cases h; constructor
  | get b =>
    simp only [step] at h
    split at h
    next hl => cases h; exact .get hl
    next => cases h
  | readErr =>
    simp only [step] at h
    split at h
    next b hl =>
      split_ifs at h with hshut
      cases h
      exact .readErr hl (Bool.eq_false_iff.2 hshut)
    next => cases h
  | readEmpty | readData =>
    simp only [step] at h
    split at h
    next b hl =>
      split_ifs at h with hconn
      cases h
      constructor
      · exact hl
      · exact Bool.eq_false_iff.2 hconn
    next => cases h
  | send | quit =>
    simp only [step] at h
    split at h
    next b hl =>
      split_ifs at h with hcond
      cases h
      constructor
      · exact hl
      · exact hcond
    next => cases h
  | take =>
    simp only [step] at h
    split at h
    next n b ch hn hch => cases h; exact .take hn hch
    next => cases h
  | fail =>
    simp only [step] at h
    split at h
    next n hn hch =>
      split_ifs at h with hshut
      cases h
      exact .fail hn hch hshut
    next => cases h
  | closeConn =>
    simp only [step] at h
    split at h
    next n hn => cases h; exact .closeConn hn
    next => cases h

/-- The steps that can be taken. -/
theorem Step.lts_step (h : Step x l y) : lts.step x l y := by
  change x.step l = .ok y
  cases h with
  | receive | closeDone => rfl
  | get hl => simp only [step, hl]
  | readErr hl hshut => simp only [step, hl, hshut, Bool.false_eq_true, if_false]
  | readEmpty hl hconn | readData hl hconn =>
    simp only [step, hl, hconn, Bool.false_eq_true, if_false]
  | send hl hroom => simp only [step, hl, hroom, if_true]
  | quit hl hdone => simp only [step, hl, hdone, if_true]
  | take hn hch => simp only [step, hn, hch]
  | fail hn hch hshut => simp only [step, hn, hch, hshut, if_true]
  | closeConn hn => simp only [step, hn]

/-- The steps are those of the read loop and of `Close`, and else only `Receive` touches the
queue. -/
theorem Step.dialed (h : Step x l y) : (∃ p p', Dialed.Step p x.toDialed p' y.toDialed) ∨
    x.toDialed = y.toDialed ∨ ∃ b, x.toDialed = { y.toDialed with recvCh := b :: y.recvCh } := by
  cases h with
  | @get b hl =>
    have hget : FreeList.empty.get b = some (b, ⟨[], [b], [.get b]⟩) := rfl
    exact .inl ⟨.empty, _, .get hl hget⟩
  | readErr hl => exact .inl ⟨.empty, _, .readErr hl⟩
  | readEmpty hl => exact .inl ⟨.empty, _, .readEmpty hl⟩
  | readData hl => exact .inl ⟨.empty, _, .readData hl⟩
  | send hl hroom => exact .inl ⟨.empty, _, .send hl hroom⟩
  | quit hl hdone => exact .inl ⟨.empty, _, .quit hl hdone⟩
  | closeDone => exact .inl ⟨.empty, _, .close⟩
  | receive | fail | closeConn => exact .inr (.inl rfl)
  | @take n b ch hn hch => exact .inr (.inr ⟨b, by rw [← hch]⟩)

/-! ### The loop and the channel -/

/-- In every run the channel is closed by the loop on its way out, and `done` before the socket. -/
structure Sound (x : UdpClient) : Prop where
  shut : x.shut = true → x.loop = .exited
  conn : x.connClosed = true ∨ 0 < x.closing → x.done = true

theorem Step.sound (h : Step x l y) (hs : Sound x) : Sound y := by
  cases h with
  | get hl | readEmpty hl | readData hl | send hl | quit hl =>
    refine ⟨fun hshut => ?_, hs.conn⟩
    cases hl.symm.trans (hs.shut hshut)
  | readErr => exact ⟨fun _ => rfl, hs.conn⟩
  | receive | take | fail => exact ⟨hs.shut, hs.conn⟩
  | closeDone => exact ⟨hs.shut, fun _ => rfl⟩
  | closeConn hn => exact ⟨hs.shut, fun _ => hs.conn (.inr (by omega))⟩

theorem sound_start : Sound start where
  shut h := by cases h
  conn h := by
    obtain h | h := h
    · cases h
    · exact absurd h (Nat.lt_irrefl 0)

/-- **`Close` and the datagrams keep apart**: no call closes `done` while the loop has a datagram in
its hands, and none arrives between the two steps of `Close`. -/
def Calm (x : UdpClient) : Label → Prop
  | .closeDone => ∀ b, x.loop ≠ .offering b
  | .readData => x.done = false
  | _ => True

/-- The loop has not left the channel open, and will not. -/
structure Tidy (x : UdpClient) : Prop extends Sound x where
  exited : x.loop = .exited → x.shut = true
  offering : ∀ b, x.loop = .offering b → x.done = false

theorem tidy_start : Tidy start where
  toSound := sound_start
  exited h := by cases h
  offering b h := by cases h

theorem Step.tidy (h : Step x l y) (hcalm : Calm x l) (ht : Tidy x) : Tidy y := by
  have hs := h.sound ht.toSound
  cases h with
  | get | readEmpty | send => exact ⟨hs, fun h => (nomatch h), fun _ h => (nomatch h)⟩
  | readErr => exact ⟨hs, fun _ => rfl, fun _ h => (nomatch h)⟩
  | readData => exact ⟨hs, fun h => (nomatch h), fun _ _ => hcalm⟩
  | quit hl hdone => cases (ht.offering _ hl).symm.trans hdone
  | receive | take | fail | closeConn => exact ⟨hs, ht.exited, ht.offering⟩
  | closeDone => exact ⟨hs, ht.exited, fun b hb => absurd hb (hcalm b)⟩

theorem tidy_of_run {ls : List Label} (h : (lts.restrict Calm).Run start ls x) : Tidy x :=
  h.reachable.invariant tidy_start fun _ _ _ ht hst => (step_cases hst.2).tidy hst.1 ht

/-! ### After `Close` -/

/-- The step is one of the loop, or ends a call of `Receive`. -/
def Label.internal : Label → Bool
  | .receive | .closeDone | .closeConn => false
  | _ => true

/-- How many steps the loop takes once the socket is closed. -/
def loopLeft (x : UdpClient) : ℕ :=
  match x.loop with
  | .top => 2
  | .reading _ => 1
  | _ => 0

/-- The socket is closed, and the loop will find out in its next read or has already. -/
structure Closed (x : UdpClient) : Prop where
  conn : x.connClosed = true
  exited : x.loop = .exited ↔ x.shut = true
  free : ∀ b, x.loop ≠ .offering b

theorem Tidy.closed (ht : Tidy x) (h : x.connClosed = true) : Closed x where
  conn := h
  exited := ⟨ht.exited, ht.shut⟩
  free b hb := by
    have hdone := ht.conn (.inl h)
    cases (ht.offering b hb).symm.trans hdone

/-- Every internal step brings the loop closer to its exit, or is the return of a call. -/
theorem Step.closed (h : Step x l y) (hl : l.internal = true) (hc : Closed x) :
    Closed y ∧ y.loopLeft + y.receivers + 1 = x.loopLeft + x.receivers := by
  have hopen : x.loop ≠ .exited → ¬ x.shut = true := fun hl hshut => hl (hc.exited.2 hshut)
  cases h with
  | get hloop =>
    have hshut := hopen (by rw [hloop]; exact nofun)
    refine ⟨⟨hc.conn, iff_of_false (fun h => (nomatch h)) hshut, fun _ h => (nomatch h)⟩, ?_⟩
    simp only [loopLeft, hloop]
    omega
  | readErr hloop =>
    refine ⟨⟨hc.conn, iff_of_true rfl rfl, fun _ h => (nomatch h)⟩, ?_⟩
    simp only [loopLeft, hloop]
    omega
  | readEmpty _ hconn | readData _ hconn => cases hc.conn.symm.trans hconn
  | send hloop | quit hloop => exact absurd hloop (hc.free _)
  | take hn | fail hn =>
    refine ⟨⟨hc.conn, hc.exited, hc.free⟩, ?_⟩
    simp only [loopLeft, hn]
    omega
  | receive | closeDone | closeConn => cases hl

/-- A call that waits can go on, or the loop can. -/
theorem Closed.exists_step (hc : Closed x) (h : 0 < x.receivers) :
    ∃ l y, l.internal = true ∧ Step x l y := by
  obtain ⟨n, hn⟩ : ∃ n, x.receivers = n + 1 := ⟨x.receivers - 1, by omega⟩
  cases hch : x.recvCh with
  | cons b ch => exact ⟨.take, _, rfl, .take hn hch⟩
  | nil =>
    cases hshut : x.shut with
    | true => exact ⟨.fail, _, rfl, .fail hn hch hshut⟩
    | false =>
      cases hloop : x.loop with
      | top => exact ⟨.get [], _, rfl, .get hloop⟩
      | reading b => exact ⟨.readErr, _, rfl, .readErr hloop hshut⟩
      | offering b => exact absurd hloop (hc.free b)
      | exited => cases (hc.exited.1 hloop).symm.trans hshut

/-- The steps without new calls. -/
def internalLts : LTS UdpClient Label := lts.restrict fun _ l => l.internal = true

/-- A run without new calls is as long as the loop and the waiting calls have steps left. -/
theorem Closed.run (hc : Closed x) {ls : List Label} (h : internalLts.Run x ls y) :
    Closed y ∧ ls.length + (y.loopLeft + y.receivers) = x.loopLeft + x.receivers := by
  induction h with
  | nil => exact ⟨hc, by simp⟩
  | snoc _ hst ih =>
    obtain ⟨hc', hlen⟩ := ih
    obtain ⟨hc'', hlen'⟩ := (step_cases hst.2).closed hst.1 hc'
    refine ⟨hc'', ?_⟩
    rw [List.length_append, List.length_singleton]
    omega

/-! ### The result -/

/-- The loop is gone, nothing is in the channel or will be, and a call of `Receive` waits. -/
def Stuck (x : UdpClient) : Prop :=
  x.loop = .exited ∧ x.recvCh = [] ∧ x.shut = false ∧ 0 < x.receivers

theorem not_stuck_of_shut (h : x.loop = .exited → x.shut = true) : ¬ x.Stuck := by
  rintro ⟨hloop, -, hshut, -⟩
  cases (h hloop).symm.trans hshut

/-- A stuck call stays stuck. -/
theorem Step.stuck (h : Step x l y) (hx : x.Stuck) : y.Stuck := by
  obtain ⟨hloop, hch, hshut, hwait⟩ := hx
  cases h with
  | get hl | readErr hl | readEmpty hl | readData hl | send hl | quit hl =>
    cases hloop.symm.trans hl
  | receive => exact ⟨hloop, hch, hshut, Nat.succ_pos _⟩
  | take _ hch' => cases hch.symm.trans hch'
  | fail _ _ hshut' => cases hshut.symm.trans hshut'
  | closeDone | closeConn => exact ⟨hloop, hch, hshut, hwait⟩

/-- After a step that is not calm, the loop may return without closing the channel. -/
theorem Step.quit_of_not_calm (h : Step x l y) (hs : Sound x) (hcalm : ¬ Calm x l) :
    ∃ z, Step y .quit z ∧ z.loop = .exited ∧ z.shut = false := by
  have hopen : x.loop ≠ .exited → x.shut = false := fun hl =>
    Bool.eq_false_iff.2 fun hshut => hl (hs.shut hshut)
  cases h with
  | closeDone =>
    obtain ⟨b, hb⟩ : ∃ b, x.loop = .offering b := by
      simpa [Calm] using hcalm
    exact ⟨_, .quit hb rfl, rfl, hopen (by rw [hb]; exact nofun)⟩
  | readData hl =>
    have hdone : x.done = true := by
      simpa [Calm] using hcalm
    exact ⟨_, .quit rfl hdone, rfl, hopen (by rw [hl]; exact nofun)⟩
  | get | readErr | readEmpty | send | quit | receive | take | fail | closeConn =>
    exact absurd trivial hcalm

/-- **Closing unblocks `Receive`** in every run in which `Close` and the datagrams keep apart: a
loop that has returned has closed the channel, and no call of `Receive` is stuck.  From a state with
the socket closed, whatever is scheduled, the loop takes at most two steps more, and when nothing
can go on without a new call, every `Receive` has returned a queued datagram or `errClosed`.  The
condition cannot be weaker: after a first step that does not meet it, the loop may return and leave
the channel open. -/
theorem close_unblocks_receive {ls : List Label} (hrun : (lts.restrict Calm).Run start ls x) :
    (x.loop = .exited → x.shut = true) ∧ ¬ x.Stuck ∧
    (x.connClosed = true → ∀ ms y, internalLts.Run x ms y →
      ms.length ≤ 2 + x.receivers ∧ ¬ y.Stuck ∧
      ((∀ l z, ¬ internalLts.step y l z) → y.receivers = 0)) ∧
    ∀ l y, lts.step x l y → ¬ Calm x l →
      ∃ z, lts.step y .quit z ∧ z.loop = .exited ∧ z.shut = false := by
  have ht := tidy_of_run hrun
  refine ⟨ht.exited, not_stuck_of_shut ht.exited, fun hconn ms y hms => ?_, fun l y hst hcalm => ?_⟩
  · obtain ⟨hc, hlen⟩ := (ht.closed hconn).run hms
    have hleft : x.loopLeft ≤ 2 := by
      unfold loopLeft
      split <;> omega
    refine ⟨by omega, not_stuck_of_shut hc.exited.1, fun hend => ?_⟩
    by_contra hwait
    obtain ⟨l, z, hl, hst⟩ := hc.exists_step (Nat.pos_of_ne_zero hwait)
    exact hend l z ⟨hl, hst.lts_step⟩
  · obtain ⟨z, hquit, hz⟩ := (step_cases hst).quit_of_not_calm ht.toSound hcalm
    exact ⟨z, hquit.lts_step, hz⟩

/-- A test for the condition. -/
def isCalm (x : UdpClient) : Label → Bool
  | .closeDone => match x.loop with
    | .offering _ => false
    | _ => true
  | .readData => !x.done
  | _ => true

theorem calm_of_test (h : x.isCalm l = true) : Calm x l := by
  cases l with
  | closeDone =>
    intro b hb
    simp [isCalm, hb] at h
  | readData => simpa [isCalm, Calm] using h
  | get | readErr | readEmpty | send | quit | receive | take | fail | closeConn => trivial

/-- One datagram is queued and two calls wait when the client is closed: one gets the datagram, the
other the error. -/
theorem close_unblocks_receive_two : ∃ x y,
    (lts.restrict Calm).Run start [.get [1], .readData, .send, .get [2], .receive, .receive,
      .closeDone, .closeConn] x ∧
    internalLts.Run x [.take, .readErr, .fail] y ∧ y.shut = true ∧ y.receivers = 0 ∧ ¬ y.Stuck := by
  obtain ⟨x, hrun, hx⟩ := LTS.exists_run_restrict_of_any (f := step) isCalm
    (fun _ _ => calm_of_test) start [.get [1], .readData, .send, .get [2], .receive, .receive,
      .closeDone, .closeConn] (fun x => x == ⟨⟨.reading [2], [[1]], false, true⟩, true, 0, 2⟩)
    (by decide)
  obtain ⟨y, hms, hy⟩ := LTS.exists_run_restrict_of_any (f := step)
    (G := fun _ l => l.internal = true) (fun _ l => l.internal) (fun _ _ h => h)
    x [.take, .readErr, .fail] (fun y => y.shut && y.receivers == 0)
    (by rw [beq_iff_eq.1 hx]; decide)
  rw [Bool.and_eq_true, beq_iff_eq] at hy
  have hconn : x.connClosed = true := by rw [beq_iff_eq.1 hx]
  exact ⟨x, y, hrun, hms, hy.1, hy.2,
    ((close_unblocks_receive hrun).2.2.1 hconn _ y hms).2.1⟩

/-! ### A full queue -/

/-- A client whose queue holds `n` datagrams, before the next read. -/
def filled (n : ℕ) : UdpClient := { start with recvCh := List.replicate n [0] }

/-- A client that was closed with `n` datagrams in its queue and one in the hands of the loop. -/
def abandoned (n : ℕ) : UdpClient :=
  ⟨⟨.exited, List.replicate n [0], false, true⟩, true, 0, 0⟩

theorem filled_succ (n : ℕ) :
    filled (n + 1) = { filled n with recvCh := (filled n).recvCh ++ [[0]] } := by
  rw [filled, List.replicate_succ']
  rfl

theorem run_filled {n : ℕ} (hn : n ≤ chCap) : ∃ ls, lts.Run start ls (filled n) := by
  induction n with
  | zero => exact ⟨[], .nil⟩
  | succ n ih =>
    obtain ⟨ls, hrun⟩ := ih (by omega)
    have hread : Step { filled n with loop := .reading [0] } .readData
        { filled n with loop := .offering [0] } := .readData rfl rfl
    have hsend : Step { filled n with loop := .offering [0] } .send (filled (n + 1)) := by
      have hroom : (filled n).recvCh.length < chCap := by
        rw [filled, List.length_replicate]
        exact hn
      rw [filled_succ]
      exact .send rfl hroom
    exact ⟨_, ((hrun.snoc (Step.get rfl).lts_step).snoc hread.lts_step).snoc hsend.lts_step⟩

/-- `Close` comes while the loop offers one more datagram, and the loop leaves. -/
theorem run_abandoned (n : ℕ) : ∃ ls, lts.Run (filled n) ls (abandoned n) := by
  have hget : Step (filled n) (.get [0]) { filled n with loop := .reading [0] } := .get rfl
  have hread : Step { filled n with loop := .reading [0] } .readData
      { filled n with loop := .offering [0] } := .readData rfl rfl
  have hclose : Step { filled n with loop := .offering [0] } .closeDone
      { filled n with loop := .offering [0], done := true, closing := 1 } := .closeDone
  have hquit : Step { filled n with loop := .offering [0], done := true, closing := 1 } .quit
      { filled n with loop := .exited, done := true, closing := 1 } := .quit rfl rfl
  have hconn : Step { filled n with loop := .exited, done := true, closing := 1 } .closeConn
      (abandoned n) := .closeConn rfl
  exact ⟨_, ((((LTS.Run.nil.snoc hget.lts_step).snoc hread.lts_step).snoc hclose.lts_step).snoc
    hquit.lts_step).snoc hconn.lts_step⟩

/-- The queued datagrams are received. -/
theorem run_drained (n : ℕ) : ∃ ls, lts.Run (abandoned n) ls (abandoned 0) := by
  induction n with
  | zero => exact ⟨[], .nil⟩
  | succ n ih =>
    obtain ⟨ls, hrun⟩ := ih
    have htake : Step { abandoned (n + 1) with receivers := 1 } .take (abandoned n) := .take rfl rfl
    exact ⟨_, ((LTS.Run.nil.snoc Step.receive.lts_step).snoc htake.lts_step).append hrun⟩

/-- **A `Receive` that waits for ever**: the queue is full, the loop waits with one more datagram
when the client is closed, and returns without closing the channel.  Once the queue is drained, the
next call of `Receive` waits in every continuation. -/
theorem receive_waits_forever : ∃ ls x ms y,
    lts.Run start ls x ∧ x.recvCh.length = chCap ∧ x.connClosed = true ∧ x.loop = .exited ∧
    x.shut = false ∧ lts.Run x ms y ∧ y.Stuck ∧ ∀ ns z, lts.Run y ns z → z.Stuck := by
  obtain ⟨ls₁, hfill⟩ := run_filled (le_refl chCap)
  obtain ⟨ls₂, hclose⟩ := run_abandoned chCap
  obtain ⟨ms, hdrain⟩ := run_drained chCap
  have hwait : Step (abandoned 0) .receive { abandoned 0 with receivers := 1 } := .receive
  have hstuck : Stuck { abandoned 0 with receivers := 1 } := ⟨rfl, rfl, rfl, Nat.one_pos⟩
  refine ⟨_, _, _, _, hfill.append hclose, List.length_replicate, rfl, rfl, rfl,
    hdrain.snoc hwait.lts_step, hstuck, fun ns z hrun => ?_⟩
  exact hrun.reachable.invariant hstuck fun _ _ _ h hst => (step_cases hst).stuck h

end UdpClient

end VibeVpn

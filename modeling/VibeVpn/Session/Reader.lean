import VibeVpn.LTS.Feed
import VibeVpn.Session.Idle
import VibeVpn.Session.SeqNumbers

/-!
# The transport readers

A session receives in a goroutine of its own: `transportReader` calls the transport's `Receive` and
passes on what it returns through `recvCh`, to the run loop.  When `Receive` fails the reader ends.
The client's reader first offers the error to `recvCh`, without waiting; the server's reader does
not, although the server's `drainRecv` has a branch for it.

The two pairs of goroutines are instances of `Feed`, with the run loops as they are modelled.

* `transport_failure_heard` : **a failure of the transport is not lost** if it comes while the
  client's `recvCh` has room, or after the loop has ended or left the connection.
* `ServerSession.failure_lost` : on the server every other failure is lost, once `recvCh` is empty:
  the run loop is told of none.
* `transport_failure_lost` : a failure that the server loses, and one that finds the client's
  `recvCh` full.
-/

namespace VibeVpn

variable {S : Suite}

/-- The capacity of `recvCh`. -/
def recvCap : ℕ := 512

/-- The run loop of a server session.  The manager may cancel its context at any time. -/
def ServerSession.consumer (S : Suite) (cfg : ServerConfig) :
    Consumer (ServerSession S × Bool) (ServerEnv S × ServerSession.Event) Bytes where
  sys := ServerSession.lts S cfg
  takes l := match l.2 with
    | .recv r => some r
    | _ => none
  waits x := x.2
  renews _ _ := false
  gone x := !x.2
  closed _ := true

/-- The run loop of the client: `connect` makes a new `recvCh` after `Dial`, and `c.done` is closed
when `Run` returns. -/
def Client.consumer (S : Suite) (cfg : ClientConfig) :
    Consumer (Client S) (ClientEnv S × Client.Event) Bytes where
  sys := Client.lts S cfg
  takes l := match l.2 with
    | .recv r => some r
    | _ => none
  waits c := c.phase.live
  renews c l := match c.phase, l.2 with
    | .backoff, .retry => l.1.dialOk
    | _, _ => false
  gone c := !c.phase.live
  closed c := match c.phase with
    | .stopped => true
    | _ => false

/-- A server session with its reader, which reports no failure. -/
def ServerSession.fed (S : Suite) (cfg : ServerConfig) := Feed.lts (consumer S cfg) recvCap false

/-- The client with its reader, which reports a failure if there is room. -/
def Client.fed (S : Suite) (cfg : ClientConfig) := Feed.lts (consumer S cfg) recvCap true

/-- A session that has just been started, with its reader. -/
def ServerSession.fedStart (S : Suite) (cfg : ServerConfig) (sid : ℕ) (peerIP : Option Bytes)
    (now : ℤ) : Feed (ServerSession S × Bool) Bytes :=
  .start (consumer S cfg) (.new S sid peerIP now, true)

/-- **A failure of the transport is not lost**, in any schedule of a reader and its run loop, as
long as `Receive` fails only after the loop has ended or left the connection or, on the client,
while `recvCh` has room. -/
theorem transport_failure_heard (S : Suite) :
    (∀ (cfg : ServerConfig) (sid : ℕ) (peerIP : Option Bytes) (now : ℤ) (ls) (x),
      ((ServerSession.fed S cfg).restrict (Feed.Heard recvCap false)).Run
        (ServerSession.fedStart S cfg sid peerIP now) ls x → ¬ x.Lost) ∧
    ∀ (cfg : ClientConfig) (ls) (x),
      ((Client.fed S cfg).restrict (Feed.Heard recvCap true)).Run (.idle (.new S)) ls x →
        ¬ x.Lost :=
  ⟨fun _ _ _ _ _ _ run => Feed.not_lost rfl run, fun _ _ _ run => Feed.not_lost rfl run⟩

/-- A client that has dialed hears that its transport has failed. -/
theorem transport_failure_heard_dialed : ∃ ls x,
    ((Client.fed plain Client.plainConfig).restrict (Feed.Heard recvCap true)).Run
      (.idle (.new plain)) ls x ∧ x.failed = true ∧ x.told = true ∧ ¬ x.Lost := by
  obtain ⟨c₁, o₁, c₂, o₂, h₁, hlive, h₂⟩ : ∃ c₁ o₁ c₂ o₂,
      (Client.new plain).step Client.plainConfig (Client.plainEnv 0 7) .retry = .ok (c₁, o₁) ∧
      c₁.phase.live = true ∧
      c₁.step Client.plainConfig (Client.plainEnv 1 0) (.recv none) = .ok (c₂, o₂) :=
    ⟨_, _, _, _, rfl, rfl, rfl⟩
  let C := Client.consumer plain Client.plainConfig
  let A := (Client.fed plain Client.plainConfig).restrict (Feed.Heard recvCap true)
  have dial : A.step (.idle (.new plain)) (.event (Client.plainEnv 0 7, .retry)) (.start C c₁) :=
    ⟨trivial, .renew rfl rfl ⟨o₁, h₁⟩⟩
  have fails : A.step (.start C c₁) (.receive none) ⟨c₁, .exited, [none], true, false, C.gone c₁⟩ :=
    ⟨.inl ⟨rfl, Nat.zero_lt_succ 511⟩, .fail rfl⟩
  have hst : C.sys.step c₁ (Client.plainEnv 1 0, .recv none) c₂ := ⟨o₂, h₂⟩
  have takes : A.step ⟨c₁, .exited, [none], true, false, C.gone c₁⟩
      (.event (Client.plainEnv 1 0, .recv none))
      ⟨c₂, .exited, [], true, false || (none : Option Bytes).isNone, C.gone c₁ || C.gone c₂⟩ :=
    ⟨trivial, .take rfl hlive rfl hst⟩
  have run := ((LTS.Run.nil.snoc dial).snoc fails).snoc takes
  exact ⟨_, _, run, rfl, rfl, (transport_failure_heard plain).2 _ _ _ run⟩

/-! ### Where a failure is lost -/

/-- **The server loses every failure while the session runs**: no schedule tells the run loop of
one, and once `recvCh` is empty the loop waits for a reader that is gone.  The branch of `drainRecv`
for an error is dead. -/
theorem ServerSession.failure_lost {cfg : ServerConfig} {sid : ℕ} {peerIP : Option Bytes} {now : ℤ}
    {ls : List (Feed.Act (ServerEnv S × ServerSession.Event) Bytes)}
    {x : Feed (ServerSession S × Bool) Bytes}
    (run : (fed S cfg).Run (fedStart S cfg sid peerIP now) ls x) :
    x.told = false ∧ (x.failed = true → x.left = false → x.chan = [] → x.Lost) :=
  Feed.lost_of_silent (Feed.untold_start _ _) run

namespace Client

variable {cfg : ClientConfig}

/-- The client handles a datagram. -/
theorem run_recv {c c' : Client S} {env : ClientEnv S} {data : Bytes} {o : Out S}
    (hl : c.phase.live = true) (h : c.step cfg env (.recv (some data)) = .ok (c', o)) :
    (fed S cfg).Run (.start (consumer S cfg) c)
      [.receive (some data), .offer, .event (env, .recv (some data))]
      (.start (consumer S cfg) c') := by
  have run : (fed S cfg).Run (.start (consumer S cfg) c)
      [.receive (some data), .offer, .event (env, .recv (some data))]
      { Feed.start (consumer S cfg) c with
        loop := c', left := !c.phase.live || !c'.phase.live } :=
    Feed.run_take rfl rfl (by decide) rfl hl ⟨o, h⟩
  rw [hl, Bool.not_true, Bool.false_or] at run
  exact run

/-- The client of the plain suite connects, and its reader waits for the transport. -/
theorem exists_fed_connected (hkp : cfg.keypair = ⟨[41], [42]⟩) : ∃ ls c,
    (fed plain cfg).Run (.idle (.new plain)) ls (.start (consumer plain cfg) c) ∧
      c.phase = .running ∧ c.keys.isSome = true := by
  obtain ⟨c₁, o₁, c₂, o₂, c₃, h₁, h₂, h₃, ⟨live₁, -, -⟩, ⟨live₂, -, -⟩, hp, -, -, hk⟩ :=
    exists_plain_steps cfg hkp
  have dial : (fed plain cfg).Run (.idle (.new plain)) [.event (plainEnv 0 7, .retry)]
      (.start (consumer plain cfg) c₁) := LTS.Run.nil.snoc (.renew rfl rfl ⟨o₁, h₁⟩)
  refine ⟨_, c₃, (dial.append (run_recv live₁ h₂)).append (run_recv live₂ h₃), hp, ?_⟩
  rw [← Option.isSome_map, hk]
  rfl

/-- An empty datagram is dropped in the main loop. -/
theorem exists_step_empty (cfg : ClientConfig) {c : Client plain} (hp : c.phase = .running)
    (hk : c.keys.isSome = true) :
    ∃ c' o, c.step cfg (plainEnv 3 0) (.recv (some [])) = .ok (c', o) ∧ c'.phase = .running ∧
      c'.keys.isSome = true := by
  obtain ⟨k, hk⟩ := Option.isSome_iff_exists.1 hk
  have hopen : k.open [] = .ok (k, .error .short) := by
    rw [Keys.open_eq]
    rfl
  have hstep : c.step cfg (plainEnv 3 0) (.recv (some [])) =
      c.drainRecv cfg (plainEnv 3 0) (some []) := by
    unfold step
    rw [hp]
  rw [hstep, drainRecv, handleFrame, hk]
  dsimp only
  rw [hopen]
  exact ⟨_, _, rfl, hp, rfl⟩

/-- In the main loop the client waits for datagrams and keeps its connection. -/
theorem waits_of_running (S : Suite) (cfg : ClientConfig) {c : Client S} (hp : c.phase = .running) :
    (consumer S cfg).waits c = true ∧ (consumer S cfg).gone c = false := by
  change c.phase.live = true ∧ (!c.phase.live) = false
  rw [hp]
  exact ⟨rfl, rfl⟩

/-- A failure that finds `recvCh` full is lost: the main loop can drop 512 empty datagrams. -/
theorem exists_lost (hkp : cfg.keypair = ⟨[41], [42]⟩) : ∃ ls x,
    (fed plain cfg).Run (.idle (.new plain)) ls x ∧ x.loop.phase = .running ∧ x.Lost := by
  obtain ⟨ls, c, connect, hp, hk⟩ := exists_fed_connected hkp
  have hdrop : ∀ c : Client plain, c.phase = .running ∧ c.keys.isSome = true → ∃ l c',
      (consumer plain cfg).takes l = some (some []) ∧ (consumer plain cfg).waits c = true ∧
      (consumer plain cfg).sys.step c l c' ∧ (consumer plain cfg).gone c' = false ∧
      c'.phase = .running ∧ c'.keys.isSome = true := by
    rintro c ⟨hp, hk⟩
    obtain ⟨c', o, h, hp', hk'⟩ := exists_step_empty cfg hp hk
    exact ⟨(plainEnv 3 0, .recv (some [])), c', rfl, (waits_of_running plain cfg hp).1, ⟨o, h⟩,
      (waits_of_running plain cfg hp').2, hp', hk'⟩
  obtain ⟨ls', x, run, ⟨hx, -⟩, hlost⟩ := Feed.exists_lost [] hdrop ⟨hp, hk⟩
    (waits_of_running plain cfg hp).2
  exact ⟨_, x, connect.append run, hx, hlost⟩

end Client

/-- **A failure of the transport may be lost.**  On the server the first call of `Receive` fails,
which ends the reader and tells the run loop nothing.  On the client, 512 datagrams fill `recvCh`
while the loop is busy, then `Receive` fails; the loop handles the 512 datagrams and waits. -/
theorem transport_failure_lost :
    (∃ ls x, (ServerSession.fed plain ServerSession.plainConfig).Run
      (ServerSession.fedStart plain ServerSession.plainConfig 1 none 0) ls x ∧
      x.loop.2 = true ∧ x.Lost) ∧
    ∃ ls x, (Client.fed plain Client.plainConfig).Run (.idle (.new plain)) ls x ∧
      x.loop.phase = .running ∧ x.Lost :=
  ⟨⟨_, _, LTS.Run.nil.snoc (.fail rfl), rfl, rfl, rfl, rfl, rfl, rfl⟩, Client.exists_lost rfl⟩

end VibeVpn

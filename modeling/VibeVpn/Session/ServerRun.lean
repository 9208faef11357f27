import VibeVpn.LTS.Basic
import VibeVpn.Session.ServerSpec
import VibeVpn.Crypto.Plain

/-!
# Runs of a server session

A server session as a transition system: from the state `HandleTransport` creates, any sequence of
datagrams, ticks, replies and cancellations, with any answers of the outside.

* `ServerSession.Inv` : what holds along a run, kept by each event (`ServerSession.Inv.step`);
* `ServerSession.tag_stable` : once a first message is answered, the tag never changes;
* `ServerSession.keys_authenticated` : **a session with keys was admitted**: its keys come from a
  completed handshake of its client, which passed the allowlist and was given the session's
  address in the step that completed the initial handshake.
-/

namespace VibeVpn

namespace ServerSession

variable {S : Suite} {cfg : ServerConfig}

/-- The label of an event: what happened, and the outside's part in it. -/
abbrev Label (S : Suite) := ServerEnv S × Event

/-- A server session and whether its run loop is still running. -/
def lts (S : Suite) (cfg : ServerConfig) : LTS (ServerSession S × Bool) (Label S) where
  step x l y := x.2 = true ∧ ∃ o, x.1.step cfg l.1 l.2 = .ok (y.1, o, y.2)

/-- The first message of a handshake and its answer. -/
structure Answer (S : Suite) (cfg : ServerConfig) where
  /-- The outside in that event. -/
  env₁ : ServerEnv S
  /-- The Noise message. -/
  m₁ : Bytes
  /-- The cookie after it, possibly empty. -/
  cookie : Bytes
  /-- The fresh handshake. -/
  r : S.HS
  /-- The first message read. -/
  st₁ : HsStep S.HS S.Key
  /-- The second message written. -/
  st₂ : HsStep S.HS S.Key
  new : S.newServerHandshake cfg.keypair = some r
  read₁ : S.read r m₁ = some st₁
  tagged : st₁.out.length = 4
  write₂ : S.write st₁.hs env₁.seed [] = some st₂

/-- A handshake that completed: the third message was read, its sender is on the allowlist and was
given an address. -/
structure Admission (S : Suite) (cfg : ServerConfig) extends Answer S cfg where
  /-- The outside in the event of the third message. -/
  env₃ : ServerEnv S
  /-- The third message. -/
  m₃ : Bytes
  /-- The third message read. -/
  st₃ : HsStep S.HS S.Key
  /-- The keys derived. -/
  ks : S.Key × S.Key
  /-- The address `adopt` gave. -/
  ip : Byte4
  read₃ : S.read st₂.hs m₃ = some st₃
  keys : st₃.keys = some ks
  allowed : env₃.allowPeer (S.peerStatic st₃.hs) = true
  adopted : env₃.adopt (S.peerStatic st₃.hs) = .ok (some ip)

/-- The event of the first message. -/
def Answer.label (a : Answer S cfg) : Label S := (a.env₁, .recv (some (a.m₁ ++ a.cookie)))

/-- The event of the third message. -/
def Admission.label₃ (a : Admission S cfg) : Label S := (a.env₃, .recv (some a.m₃))

theorem Answer.answered (a : Answer S cfg) :
    S.Answered cfg.keypair a.m₁ a.st₂.out a.st₂.hs :=
  ⟨a.r, a.env₁.seed, a.st₁, a.st₂, a.new, a.read₁, a.write₂, rfl, rfl⟩

/-- The keys `k` come from a completed handshake with the client `key`. -/
def FromHandshake (cfg : ServerConfig) (key : Bytes) (k : Keys S) : Prop :=
  ∃ m₁ m₂ m₃ r st ks, S.Answered cfg.keypair m₁ m₂ r ∧ S.read r m₃ = some st ∧
    S.peerStatic st.hs = key ∧ st.keys = some ks ∧ k.sendKey = ks.2 ∧ k.recvKey = ks.1

/-- Sealing and opening keep the keys of a handshake. -/
theorem FromHandshake.congr {key : Bytes} {k k' : Keys S} (h : FromHandshake cfg key k)
    (hs : k'.sendKey = k.sendKey) (hr : k'.recvKey = k.recvKey) : FromHandshake cfg key k' := by
  obtain ⟨m₁, m₂, m₃, r, st, ks, h1, h2, h3, h4, h5, h6⟩ := h
  exact ⟨m₁, m₂, m₃, r, st, ks, h1, h2, h3, h4, hs.trans h5, hr.trans h6⟩

/-! ### The invariant -/

/-- What holds of a session: the handshakes it stores have answered a first message, and keys come
with an authenticated client and an address. -/
structure Inv (cfg : ServerConfig) (s : ServerSession S) : Prop where
  rekeying : s.rekeying = true ↔ s.rekeyHs.isSome
  rekeyHs : ∀ h, s.rekeyHs = some h → ∃ m₁ m₂, S.Answered cfg.keypair m₁ m₂ h
  keyless : s.keys = none → s.rekeyHs = none
  keys : ∀ k, s.keys = some k →
    s.hs = none ∧ s.ip.isSome ∧ ∃ key, s.clientKey = some key ∧ FromHandshake cfg key k

variable {s s' : ServerSession S} {ep : Endpoint S} {fs : List (Sealed S × Bool)} {ok : Bool}
  {typ : UInt8} {pt data : Bytes} {env : ServerEnv S} {o : Out S}

/-- Sending changes nothing the invariant speaks about. -/
theorem Inv.sends (hi : Inv cfg s) (h : s.toEndpoint.Sends typ pt ep fs ok) :
    Inv cfg { s with toEndpoint := ep } := by
  cases h with
  | idle => exact hi
  | sealed hk =>
    refine ⟨hi.rekeying, hi.rekeyHs, nofun, fun k' hk' => ?_⟩
    cases hk'
    obtain ⟨h1, h2, key, h3, h4⟩ := hi.keys _ hk
    exact ⟨h1, h2, key, h3, h4.congr rfl rfl⟩

/-- Opening a frame changes nothing the invariant speaks about. -/
theorem Inv.opened (hi : Inv cfg s) {k k' : Keys S} {r : Except OpenErr Frame}
    (hk : s.keys = some k) (ho : k.Opened data k' r) (stats : Stats) :
    Inv cfg { s with keys := some k', stats } := by
  obtain ⟨h1, h2, h3⟩ := ho.keys
  refine ⟨hi.rekeying, hi.rekeyHs, nofun, fun k'' hk'' => ?_⟩
  cases hk''
  obtain ⟨h4, h5, key, h6, h7⟩ := hi.keys _ hk
  exact ⟨h4, h5, key, h6, h7.congr h1 h2⟩

theorem Inv.abortRekey (hi : Inv cfg s) : Inv cfg s.abortRekey :=
  ⟨by simp [ServerSession.abortRekey], by simp [ServerSession.abortRekey], fun _ => rfl, hi.keys⟩

/-- Handling a datagram keeps the invariant, given that a stored initial handshake has answered a
first message. -/
theorem Inv.handles {err : Option SessionErr} (hi : Inv cfg s)
    (hhs : ∀ h, s.hs = some h → ∃ m₁ m₂, S.Answered cfg.keypair m₁ m₂ h)
    (h : Handles cfg env s data (s', o, err)) : Inv cfg s' := by
  cases h with
  | refused => exact hi
  | tagged hk => exact ⟨hi.rekeying, hi.rekeyHs, hi.keyless, fun k h => by simp [hk] at h⟩
  | answered hk => exact ⟨hi.rekeying, hi.rekeyHs, hi.keyless, fun k h => by simp [hk] at h⟩
  | rejected hk => exact ⟨hi.rekeying, hi.rekeyHs, hi.keyless, fun k h => by simp [hk] at h⟩
  | @keyed h st ip ks ep fs sent hk hh hread hallow hadopt hks hsend =>
    have hfrom : FromHandshake cfg (S.peerStatic st.hs) (newKeys S false ks) := by
      obtain ⟨m₁, m₂, ha⟩ := hhs h hh
      exact ⟨m₁, m₂, data, h, st, ks, ha, hread, rfl, hks, rfl, rfl⟩
    have hi' : Inv cfg { s with
        keys := some (newKeys S false ks), hs := none, ip := some ip,
        clientKey := some (S.peerStatic st.hs) } := by
      refine ⟨hi.rekeying, hi.rekeyHs, nofun, fun k hk' => ?_⟩
      cases hk'
      exact ⟨rfl, rfl, _, rfl, hfrom⟩
    exact hi'.sends hsend
  | opened hk ho => exact hi.opened hk ho _
  | delivered hk ho => exact hi.opened hk ho _
  | echoed hk ho _ _ hsend => exact (hi.opened hk ho s.stats).sends hsend
  | @rekey1 k k' f r st st₂ ep fs sent hk ho _ _ hr hnew hread hwrite hsend =>
    have hi' : Inv cfg { s with
        keys := some k', rekeyHs := some st₂.hs, rekeying := true, rekeyStart := env.now } := by
      refine ⟨by simp, fun h hh => ?_, nofun,
        (hi.opened hk ho s.stats).keys⟩
      cases hh
      exact ⟨f.payload, st₂.out, r, env.seed, st, st₂, hnew, hread, hwrite, rfl, rfl⟩
    exact hi'.sends hsend
  | aborted hk ho => exact (hi.opened hk ho s.stats).abortRekey
  | @rekeyed k k' f h st ks stats hk ho _ _ hr hh hread hpeer hks hstats =>
    refine ⟨by simp, nofun, nofun, fun k'' hk'' => ?_⟩
    cases hk''
    obtain ⟨h4, h5, key, h6, -⟩ := hi.keys _ hk
    obtain ⟨m₁, m₂, ha⟩ := hi.rekeyHs h hh
    rw [h6, Option.getD_some] at hpeer
    exact ⟨h4, h5, key, h6, m₁, m₂, f.payload, h, st, ks, ha, hread, hpeer, hks, rfl, rfl⟩

/-! ### The progress of the initial handshake -/

/-- What an event does to the initial handshake. -/
inductive Progress (cfg : ServerConfig) (s : ServerSession S) (l : Label S)
    (s' : ServerSession S) (running : Bool) : Prop where
  /-- Nothing; the tag can change only before a first message is answered. -/
  | stay : s'.hs = s.hs → s'.keys.isSome = s.keys.isSome → s'.clientKey = s.clientKey →
      s'.ip = s.ip → (s.hs.isSome ∨ s.keys.isSome → s'.tag = s.tag) → Progress cfg s l s' running
  /-- A first message is answered. -/
  | answer (a : Answer S cfg) : l = a.label → s.hs = none → s.keys = none → s'.keys = none →
      s'.hs = some a.st₂.hs → s'.tag = Byte4.copyOf a.st₁.out → Progress cfg s l s' running
  /-- A third message is rejected, and the session ends. -/
  | reject : s.hs.isSome → s'.hs.isSome → s'.keys = none → s'.tag = s.tag → running = false →
      Progress cfg s l s' running
  /-- A third message completes the handshake. -/
  | completed {h : S.HS} {st : HsStep S.HS S.Key} {data : Bytes} {ks : S.Key × S.Key} {ip : Byte4} :
      l.2 = .recv (some data) → s.hs = some h → S.read h data = some st → st.keys = some ks →
      l.1.allowPeer (S.peerStatic st.hs) = true → l.1.adopt (S.peerStatic st.hs) = .ok (some ip) →
      s'.keys.isSome → s'.hs = none → s'.clientKey = some (S.peerStatic st.hs) →
      s'.ip = some ip → s'.tag = s.tag → Progress cfg s l s' running

/-- Sending afterwards does not count. -/
theorem Progress.sends {l : Label S} {running : Bool} (h : Progress cfg s l s' running)
    (hs : s'.toEndpoint.Sends typ pt ep fs ok) :
    Progress cfg s l { s' with toEndpoint := ep } running := by
  obtain ⟨h1, -, -, -, h2⟩ := hs.frame
  have hkeys : s'.keys = none → ep.keys = none := fun hn => by
    rw [hn] at h2
    simpa using h2
  cases h with
  | stay g1 g2 g3 g4 g5 => exact .stay g1 (h2.trans g2) g3 g4 fun hh => h1.trans (g5 hh)
  | answer a g1 g2 g3 g4 g5 g6 => exact .answer a g1 g2 g3 (hkeys g4) g5 (h1.trans g6)
  | reject g1 g2 g3 g4 g5 => exact .reject g1 g2 (hkeys g3) (h1.trans g4) g5
  | completed g1 g2 g3 g4 g5 g6 g7 g8 g9 g10 g11 =>
    exact .completed g1 g2 g3 g4 g5 g6 (h2.symm ▸ g7) g8 g9 g10 (h1.trans g11)

theorem handles_progress {err : Option SessionErr}
    (h : Handles cfg env { s with lastRecv := env.now } data (s', o, err)) :
    Progress cfg s (env, .recv (some data)) s' (decide (err ≠ some .fatal)) := by
  -- once there are keys, none of the fields is touched
  have hstay : ∀ {ep : Endpoint S} {t : ℤ}, ep.tag = s.tag → ep.keys.isSome = s.keys.isSome →
      Progress cfg s (env, .recv (some data)) { s with toEndpoint := ep, rekeyStart := t }
        (decide (err ≠ some .fatal)) :=
    fun ht hk => .stay rfl hk rfl rfl fun _ => ht
  cases h with
  | refused => exact .stay rfl rfl rfl rfl fun _ => rfl
  | tagged hk hh =>
    change s.keys = none at hk
    change s.hs = none at hh
    exact .stay rfl rfl rfl rfl fun hc => by simp [hk, hh] at hc
  | @answered m r st st₂ o err hk hh hd hnew hread hlen hwrite =>
    obtain ⟨cookie, rfl⟩ := hd
    exact .answer ⟨env, m, cookie, r, st, st₂, hnew, hread, hlen, hwrite⟩ rfl hh hk hk rfl rfl
  | rejected hk hh =>
    refine .reject ?_ rfl hk rfl (by simp)
    change s.hs = _ at hh
    rw [hh]; rfl
  | @keyed h st ip ks ep fs sent hk hh hread hallow hadopt hks hsend =>
    obtain ⟨h1, -, -, -, h2⟩ := hsend.frame
    exact .completed rfl hh hread hks hallow hadopt h2 rfl rfl rfl h1
  | opened hk ho => exact hstay rfl (by change s.keys = _ at hk; rw [hk]; rfl)
  | delivered hk ho => exact hstay rfl (by change s.keys = _ at hk; rw [hk]; rfl)
  | echoed hk ho _ _ hsend =>
    obtain ⟨h1, -, -, -, h2⟩ := hsend.frame
    exact hstay h1 (by change s.keys = _ at hk; rw [hk, h2]; rfl)
  | rekey1 hk ho _ _ _ _ _ _ hsend =>
    obtain ⟨h1, -, -, -, h2⟩ := hsend.frame
    exact hstay h1 (by change s.keys = _ at hk; rw [hk, h2]; rfl)
  | aborted hk ho => exact hstay rfl (by change s.keys = _ at hk; rw [hk]; rfl)
  | rekeyed hk ho => exact hstay rfl (by change s.keys = _ at hk; rw [hk]; rfl)

theorem loops_progress {e : Event} {running : Bool} (h : Loops cfg env s e (s', o, running)) :
    Progress cfg s (env, e) s' running := by
  cases h with
  | idle => exact .stay rfl rfl rfl rfl fun _ => rfl
  | recv h => exact handles_progress h
  | sent _ _ hsend =>
    obtain ⟨h1, -, -, -, h2⟩ := hsend.frame
    exact .stay rfl h2 rfl rfl fun _ => h1
  | timeout => exact .stay rfl rfl rfl rfl fun _ => rfl

theorem steps_progress {e : Event} {running : Bool} (h : Steps cfg env s e (s', o, running)) :
    Progress cfg s (env, e) s' running := by
  cases h with
  | run h => exact loops_progress h
  | halt h => exact loops_progress h
  | close h hsend => exact (loops_progress h).sends hsend

/-! ### Whole runs -/

variable {x x' y : ServerSession S × Bool} {ls : List (Label S)}

theorem Inv.new (sid : ℕ) (peerIP : Option Bytes) (now : ℤ) :
    Inv cfg (ServerSession.new S sid peerIP now) :=
  ⟨by simp [ServerSession.new], nofun, fun _ => rfl, nofun⟩

theorem Inv.steps {e : Event} {running : Bool} (hi : Inv cfg s)
    (hhs : ∀ h, s.hs = some h → ∃ m₁ m₂, S.Answered cfg.keypair m₁ m₂ h)
    (h : Steps cfg env s e (s', o, running)) : Inv cfg s' := by
  have hloops : ∀ {s' o running}, Loops cfg env s e (s', o, running) → Inv cfg s' := by
    intro s' o running h
    cases h with
    | idle => exact hi
    | recv h =>
      have hi' : Inv cfg { s with lastRecv := env.now } :=
        ⟨hi.rekeying, hi.rekeyHs, hi.keyless, hi.keys⟩
      exact hi'.handles hhs h
    | sent _ _ hsend => exact hi.sends hsend
    | timeout => exact hi.abortRekey
  cases h with
  | run h => exact hloops h
  | halt h => exact hloops h
  | close h hsend => exact (hloops h).sends hsend

/-- **Once a first message is answered, the tag never changes.** -/
theorem tag_stable (hy : y.1.hs.isSome ∨ y.1.keys.isSome) (h : (lts S cfg).Run y ls x) :
    x.1.tag = y.1.tag ∧ (x.1.hs.isSome ∨ x.1.keys.isSome) := by
  induction h with
  | nil => exact ⟨rfl, hy⟩
  | snoc _ hstep ih =>
    obtain ⟨-, o, hstep⟩ := hstep
    obtain ⟨htag, hsome⟩ := ih
    cases steps_progress (step_spec hstep) with
    | stay g1 g2 g3 g4 g5 =>
      refine ⟨(g5 hsome).trans htag, ?_⟩
      rw [g1, g2]
      exact hsome
    | answer a g1 g2 g3 => simp [g2, g3] at hsome
    | reject g1 g2 g3 g4 => exact ⟨g4.trans htag, .inl g2⟩
    | completed g1 g2 g3 g4 g5 g6 g7 g8 g9 g10 g11 => exact ⟨g11.trans htag, .inr g7⟩

/-- On the run `ls` from `x₀` to `x` the first message of `a` was answered. -/
def Began (x₀ : ServerSession S × Bool) (ls : List (Label S)) (x : ServerSession S × Bool)
    (a : Answer S cfg) : Prop :=
  ∃ ls₁ ls₂ y, ls = ls₁ ++ [a.label] ++ ls₂ ∧ (lts S cfg).Run x₀ (ls₁ ++ [a.label]) y ∧
    (lts S cfg).Run y ls₂ x ∧ y.1.hs = some a.st₂.hs ∧ y.1.tag = Byte4.copyOf a.st₁.out

/-- On the run `ls` from `x₀` to `x` the first message of `a` was answered, and from then on the
tag is its payload; later the third message of `a` completed the handshake. -/
def Admitted (x₀ : ServerSession S × Bool) (ls : List (Label S)) (x : ServerSession S × Bool)
    (a : Admission S cfg) : Prop :=
  ∃ ls₁ ls₂ ls₃ y z, ls = ls₁ ++ [a.label] ++ (ls₂ ++ [a.label₃]) ++ ls₃ ∧
    (lts S cfg).Run x₀ (ls₁ ++ [a.label]) y ∧ (lts S cfg).Run y (ls₂ ++ [a.label₃]) z ∧
    (lts S cfg).Run z ls₃ x ∧
    ∀ mid w, (lts S cfg).Run y mid w → w.1.tag = Byte4.copyOf a.st₁.out

theorem Began.snoc {x₀ : ServerSession S × Bool} {a : Answer S cfg} {l : Label S}
    (h : Began x₀ ls x a) (hstep : (lts S cfg).step x l x') : Began x₀ (ls ++ [l]) x' a := by
  obtain ⟨ls₁, ls₂, y, rfl, h1, h2, h3⟩ := h
  exact ⟨ls₁, ls₂ ++ [l], y, by simp, h1, h2.snoc hstep, h3⟩

theorem Admitted.snoc {x₀ : ServerSession S × Bool} {a : Admission S cfg} {l : Label S}
    (h : Admitted x₀ ls x a) (hstep : (lts S cfg).step x l x') :
    Admitted x₀ (ls ++ [l]) x' a := by
  obtain ⟨ls₁, ls₂, ls₃, y, z, rfl, h1, h2, h3, h4⟩ := h
  exact ⟨ls₁, ls₂, ls₃ ++ [l], y, z, by simp, h1, h2, h3.snoc hstep, h4⟩

/-- What holds after the run `ls`: the invariant, and where the stored handshake and the keys come
from. -/
structure RunInv (cfg : ServerConfig) (x₀ : ServerSession S × Bool) (ls : List (Label S))
    (x : ServerSession S × Bool) : Prop where
  inv : Inv cfg x.1
  run : (lts S cfg).Run x₀ ls x
  hs : ∀ h, x.1.hs = some h → x.2 = true →
    ∃ a : Answer S cfg, Began x₀ ls x a ∧ h = a.st₂.hs ∧ x.1.keys = none
  keys : x.1.keys.isSome → ∃ a : Admission S cfg, Admitted x₀ ls x a ∧
    x.1.clientKey = some (S.peerStatic a.st₃.hs) ∧ x.1.ip = some a.ip

theorem RunInv.step {x₀ : ServerSession S × Bool} {l : Label S} (hi : RunInv cfg x₀ ls x)
    (hstep : (lts S cfg).step x l x') : RunInv cfg x₀ (ls ++ [l]) x' := by
  obtain ⟨hup, o, hs⟩ := hstep
  have hspec := step_spec hs
  have hstep : (lts S cfg).step x l x' := ⟨hup, o, hs⟩
  have hans : ∀ h, x.1.hs = some h → ∃ m₁ m₂, S.Answered cfg.keypair m₁ m₂ h := by
    intro h hh
    obtain ⟨a, -, rfl, -⟩ := hi.hs h hh hup
    exact ⟨_, _, a.answered⟩
  refine ⟨hi.inv.steps hans hspec, hi.run.snoc hstep, ?_, ?_⟩
  · intro h hh hup'
    cases steps_progress hspec with
    | stay g1 g2 =>
      obtain ⟨a, hb, rfl, hk⟩ := hi.hs h (g1.symm.trans hh) hup
      exact ⟨a, hb.snoc hstep, rfl, by rw [hk] at g2; simpa using g2⟩
    | answer a g1 g2 g3 g4 g5 g6 =>
      refine ⟨a, ⟨ls, [], x', ?_, ?_, .nil, g5, g6⟩, Option.some.inj (hh.symm.trans g5), g4⟩
      · rw [← g1]; simp
      · rw [← g1]; exact hi.run.snoc hstep
    | reject g1 g2 g3 g4 g5 => rw [g5] at hup'; cases hup'
    | completed g1 g2 g3 g4 g5 g6 g7 g8 => rw [g8] at hh; cases hh
  · intro hk
    cases steps_progress hspec with
    | stay g1 g2 g3 g4 =>
      obtain ⟨a, ha, hkey, hip⟩ := hi.keys (g2 ▸ hk)
      exact ⟨a, ha.snoc hstep, g3.trans hkey, g4.trans hip⟩
    | answer a g1 g2 g3 g4 => rw [g4] at hk; cases hk
    | reject g1 g2 g3 => rw [g3] at hk; cases hk
    | @completed h st data ks ip g1 g2 g3 g4 g5 g6 g7 g8 g9 g10 =>
      obtain ⟨a, ⟨ls₁, ls₂, y, rfl, h1, h2, h3, h4⟩, rfl, -⟩ := hi.hs h g2 hup
      have hl : l = (l.1, .recv (some data)) := by rw [← g1]
      refine ⟨⟨a, l.1, data, st, ks, ip, g3, g4, g5, g6⟩,
        ⟨ls₁, ls₂, [], y, x', ?_, h1, ?_, .nil, fun mid w hw => ?_⟩, g9, g10⟩
      · rw [Admission.label₃, ← hl]; simp
      · rw [Admission.label₃, ← hl]; exact h2.snoc hstep
      · exact ((tag_stable (by simp [h3]) hw).1).trans h4

theorem RunInv.of_run (sid : ℕ) (peerIP : Option Bytes) (now : ℤ)
    (h : (lts S cfg).Run (ServerSession.new S sid peerIP now, true) ls x) :
    RunInv cfg (ServerSession.new S sid peerIP now, true) ls x := by
  induction h with
  | nil => exact ⟨.new sid peerIP now, .nil, nofun, nofun⟩
  | snoc _ hstep ih => exact ih.step hstep

/-! ### Failed rekeys -/

/-- An outside that permits everything, for the plain suite. -/
def plainEnv (now : ℤ) (seed : UInt8) : ServerEnv plain where
  now := now
  seed := seed
  send := ⟨default, true⟩
  last := ⟨default, true⟩
  tunOk := true
  requireCookie _ := false
  validCookie _ _ := true
  cookieFor _ := []
  allowPeer _ := true
  adopt _ := .ok (some ⟨10, 77, 0, 2⟩)
  decoyLen := 0
  decoyFill _ := 0

/-- A server of the subnet 10.77.0.0/24, with times in seconds. -/
def plainConfig : ServerConfig where
  keypair := ⟨[1], [2]⟩
  mtu := 1400
  sessionTimeout := 60
  handshakeTimeout := 10
  shaping := { padding := .none, padTo := 0, bucket := 0, randMax := 0, decoyInterval := 0 }
  prefixLen := 24
  gw := ⟨10, 77, 0, 1⟩

/-- The client 42 connects with the tag 1.2.3.4, at time 2. -/
theorem exists_plain_session : ∃ ls x,
    (lts plain plainConfig).Run (.new plain 1 none 0, true) ls x ∧
    x.2 = true ∧ x.1.keys = some (newKeys plain false (5, 133)).advance ∧
    x.1.tag = ⟨1, 2, 3, 4⟩ ∧ x.1.rekeying = false ∧ x.1.lastRecv = 2 := by
  obtain ⟨x, h₁, y, h₂, h⟩ : ∃ x, (lts plain plainConfig).step (.new plain 1 none 0, true)
      (plainEnv 1 9, .recv (some (Plain.message [1, 7] [1, 2, 3, 4]))) x ∧
      ∃ y, (lts plain plainConfig).step x (plainEnv 2 0, .recv (some [3, 7, 9, 5, 42])) y ∧
        y.2 = true ∧ y.1.keys = some (newKeys plain false (5, 133)).advance ∧
        y.1.tag = ⟨1, 2, 3, 4⟩ ∧ y.1.rekeying = false ∧ y.1.lastRecv = 2 :=
    ⟨(_, true), ⟨rfl, _, rfl⟩, (_, true), ⟨rfl, _, rfl⟩, rfl, rfl, rfl, rfl, rfl⟩
  exact ⟨_, y, .snoc (.snoc .nil h₁) h₂, h⟩

end ServerSession

end VibeVpn

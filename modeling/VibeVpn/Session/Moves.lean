import VibeVpn.Go.Lists
import VibeVpn.Session.ServerRun
import VibeVpn.Session.SeqNumbers

/-!
# What a step does to the keys of its end

Between two ends that talk over a network only a few facts about a step matter: which keys its end
has afterwards, which keys, numbers and types the frames it seals have, and what the end knows of
the handshake the keys come from.

* `Keys.Uses` : what an event does with the keys of its end: it opens at most one datagram, and the
  frames it seals are numbered from the counter on;
* `ServerSession.Moves` : a session waits for its keys, completes its handshake, uses its keys or
  swaps them for those of a rekey (`ServerSession.Steps.moves`); only a completed handshake seals an
  address;
* `ServerSession.step_hears` : where a pending handshake and its tag come from;
* `Client.Moves` : a client keeps its keys, drops them or installs new ones, and never seals an
  address (`Client.step_moves`);
* `Client.step_offers`, `Client.step_derives`, `Client.step_awaits` : how a client comes to wait
  for the reply, to wait for its address, and to run.
-/

namespace VibeVpn

variable {S : Suite}

/-- The frames `fs` were sealed with the send key of `keys`, and none of them assigns an
address. -/
def Ordinary (keys : Option (Keys S)) (fs : List (Sealed S × Bool)) : Prop :=
  ∀ g ∈ fs, g.1.typ ≠ msgAssign ∧ ∃ r, keys.map Keys.pair = some (g.1.key, r)

theorem Ordinary.nil {keys : Option (Keys S)} : Ordinary keys [] := nofun

theorem Ordinary.append {keys : Option (Keys S)} {fs fs' : List (Sealed S × Bool)}
    (h : Ordinary keys fs) (h' : Ordinary keys fs') : Ordinary keys (fs ++ fs') := by
  intro g hg
  rcases List.mem_append.1 hg with hg | hg
  · exact h g hg
  · exact h' g hg

theorem Endpoint.Sends.ordinary {s s' : Endpoint S} {typ : UInt8} {pt : Bytes}
    {fs : List (Sealed S × Bool)} {ok : Bool} (h : s.Sends typ pt s' fs ok)
    (hty : typ ≠ msgAssign) {keys : Option (Keys S)}
    (hp : s.keys.map Keys.pair = keys.map Keys.pair) : Ordinary keys fs := by
  rintro ⟨g, sent⟩ hg
  obtain ⟨rfl, hr⟩ := h.key hg
  exact ⟨hty, hp ▸ hr⟩

/-! ### The keys in use -/

/-- `k'` is `k` after an event that handed its end the datagram `data`, if any: the end has sealed
`fs`, with its tag, and opened the datagram or left it. -/
structure Keys.Uses (k : Keys S) (data : Option Bytes) (tag : Byte4)
    (fs : List (Sealed S × Bool)) (k' : Keys S) : Prop where
  pair : k'.pair = k.pair
  window : k'.replay = k.replay ∨
    ∃ d k₁ r, data = some d ∧ k.Opened d k₁ r ∧ k'.replay = k₁.replay
  sendSeq : k'.sendSeq = k.sendSeq + fs.length
  sealed : ∀ f ∈ fs, f.1.key = k.sendKey ∧ f.1.tag = tag ∧ k.sendSeq ≤ f.1.ctr ∧
    f.1.ctr < k'.sendSeq
  order : fs.Pairwise fun f g => f.1.ctr < g.1.ctr

namespace Keys

variable {k k' k'' : Keys S} {data : Option Bytes} {tag : Byte4} {fs fs' : List (Sealed S × Bool)}

theorem Uses.none (k : Keys S) (data : Option Bytes) (tag : Byte4) : k.Uses data tag [] k :=
  ⟨rfl, .inl rfl, rfl, nofun, .nil⟩

theorem Uses.of_opened {d : Bytes} {r : Except OpenErr Frame} (h : k.Opened d k' r) (tag : Byte4) :
    k.Uses (some d) tag [] k' :=
  ⟨h.pair, .inr ⟨d, k', r, rfl, h, rfl⟩, h.keys.2.2, nofun, .nil⟩

/-- Without a datagram the window stays as it is. -/
theorem Uses.replay_eq (h : k.Uses .none tag fs k') : k'.replay = k.replay := by
  rcases h.window with hw | ⟨_, _, _, hd, -⟩
  · exact hw
  · cases hd

theorem Uses.lift (h : k.Uses .none tag fs k') : k.Uses data tag fs k' :=
  ⟨h.pair, .inl h.replay_eq, h.sendSeq, h.sealed, h.order⟩

/-- Sealing more afterwards. -/
theorem Uses.trans (h : k.Uses data tag fs k') (h' : k'.Uses .none tag fs' k'') :
    k.Uses data tag (fs ++ fs') k'' := by
  have hkey : k'.sendKey = k.sendKey := congrArg Prod.fst h.pair
  have hw : k''.replay = k'.replay := h'.replay_eq
  refine ⟨h'.pair.trans h.pair, hw ▸ h.window, ?_, ?_, ?_⟩
  · rw [h'.sendSeq, h.sendSeq, List.length_append, Nat.add_assoc]
  · intro f hf
    rcases List.mem_append.1 hf with hf | hf
    · obtain ⟨h1, h2, h3, h4⟩ := h.sealed f hf
      exact ⟨h1, h2, h3, Nat.lt_of_lt_of_le h4 (h'.sendSeq ▸ Nat.le_add_right _ _)⟩
    · obtain ⟨h1, h2, h3, h4⟩ := h'.sealed f hf
      exact ⟨h1.trans hkey, h2, Nat.le_trans (h.sendSeq ▸ Nat.le_add_right _ _) h3, h4⟩
  · refine List.pairwise_append.2 ⟨h.order, h'.order, fun f hf g hg => ?_⟩
    exact Nat.lt_of_lt_of_le (h.sealed f hf).2.2.2 (h'.sealed g hg).2.2.1

end Keys

namespace Endpoint

variable {s s' : Endpoint S} {typ : UInt8} {pt : Bytes} {fs : List (Sealed S × Bool)} {ok : Bool}
  {k : Keys S}

theorem Sends.uses (h : s.Sends typ pt s' fs ok) (hk : s.keys = some k) :
    ∃ k', s'.keys = some k' ∧ k.Uses none s.tag fs k' ∧ fs.length ≤ 1 := by
  cases h with
  | idle => exact ⟨k, hk, .none .., Nat.zero_le _⟩
  | @sealed k₁ f ok stats last hk₁ _ hby =>
    cases hk.symm.trans hk₁
    refine ⟨_, rfl, ⟨rfl, .inl rfl, rfl, fun g hg => ?_, List.pairwise_singleton ..⟩, Nat.le_refl _⟩
    obtain rfl := List.mem_singleton.1 hg
    exact ⟨hby.key, hby.tag, Nat.le_of_eq hby.ctr.symm, hby.ctr ▸ Nat.lt_succ_self _⟩

theorem Sends.typ_eq (h : s.Sends typ pt s' fs ok) {f : Sealed S × Bool} (hf : f ∈ fs) :
    f.1.typ = typ := by
  obtain ⟨f, sent⟩ := f
  exact (h.key hf).1

/-- During a rekey only rekey messages are sealed. -/
theorem Sends.rekeying (h : s.Sends typ pt s' fs ok) (hty : isRekey typ = false)
    {f : Sealed S × Bool} (hf : f ∈ fs) : s.rekeying = false := by
  cases h with
  | idle => cases hf
  | sealed _ hr =>
    cases hrk : s.rekeying with
    | false => rfl
    | true => rw [hr hrk] at hty; cases hty

end Endpoint

/-- The datagram an event hands to the client. -/
def Client.Event.datagram : Client.Event → Option Bytes
  | .recv d => d
  | _ => none

/-- The datagram an event hands to the session. -/
def ServerSession.Event.datagram : ServerSession.Event → Option Bytes
  | .recv d => d
  | _ => none

/-! ### The server -/

namespace ServerSession

variable {cfg : ServerConfig} {env : ServerEnv S} {s s' : ServerSession S} {o : Out S}
  {e : Event} {data : Bytes} {err : Option SessionErr} {running : Bool} {k k' : Keys S} {n : ℕ}

/-- The session is handed a frame of the type `typ` and opens it. -/
def Opens (k : Keys S) (e : Event) (typ : UInt8) : Prop :=
  ∃ data k' f, e = .recv (some data) ∧ k.Opened data k' (.ok f) ∧ f.typ = typ

/-- When a session that keeps its keys starts and stops rekeying. -/
inductive Turn (cfg : ServerConfig) (env : ServerEnv S) (s : ServerSession S) (k : Keys S)
    (e : Event) (s' : ServerSession S) : Prop where
  | same : s'.rekeying = s.rekeying → Turn cfg env s k e s'
  | starts : s.rekeying = false → s'.rekeying = true → Opens k e msgRekey1 → Turn cfg env s k e s'
  | stops : s.rekeying = true → s'.rekeying = false →
      (e = .tick ∧ cfg.handshakeTimeout < env.now - s.rekeyStart ∨ Opens k e msgRekey3) →
      Turn cfg env s k e s'

/-- The session stays with its client. -/
structure Same (s s' : ServerSession S) : Prop where
  tag : s'.tag = s.tag
  client : s'.clientKey = s.clientKey
  ip : s'.ip = s.ip

/-- A session with the keys `k` keeps its pair, and seals at most `n` frames. -/
structure Keeps (cfg : ServerConfig) (env : ServerEnv S) (s : ServerSession S) (k : Keys S)
    (e : Event) (s' : ServerSession S) (o : Out S) (running : Bool) (n : ℕ) (k' : Keys S) : Prop
    extends Same s s' where
  keys : s'.keys = some k'
  uses : k.Uses e.datagram s.tag o.frames k'
  installed : o.installed = []
  length : o.frames.length ≤ n
  typ : ∀ f ∈ o.frames, f.1.typ ≠ msgAssign
  /-- Nothing is sealed during a rekey. -/
  idle : ∀ f ∈ o.frames, s.rekeying = false
  /-- The second message of a rekey is the last frame. -/
  last : o.frames.Pairwise fun f _ => f.1.typ ≠ msgRekey2
  begins : ∀ f ∈ o.frames, f.1.typ = msgRekey2 → s'.rekeying = true
  turn : Turn cfg env s k e s'
  ended : running = false → s'.rekeying = s.rekeying

/-- A session with the keys `k` completes a rekey: it opens the third message, and the handshake
authenticates its client once more and derives the pair `ks`. -/
structure Swaps (s : ServerSession S) (k : Keys S) (e : Event) (s' : ServerSession S) (o : Out S)
    (running : Bool) (data : Bytes) (k' : Keys S) (f : Frame) (h : S.HS)
    (st : HsStep S.HS S.Key) (ks : S.Key × S.Key) : Prop extends Same s s' where
  event : e = .recv (some data)
  running : running = true
  opened : k.Opened data k' (.ok f)
  typ : f.typ = msgRekey3
  rekeyHs : s.rekeyHs = some h
  read : S.read h f.payload = some st
  derived : st.keys = some ks
  peer : S.peerStatic st.hs = s.clientKey.getD []
  keys : s'.keys = some (newKeys S false ks)
  idle : s'.rekeying = false
  out : o = { installed := [ks] }

/-- What an event does to a session with the keys `k`. -/
inductive Keyed (cfg : ServerConfig) (env : ServerEnv S) (s : ServerSession S) (k : Keys S)
    (e : Event) (s' : ServerSession S) (o : Out S) (running : Bool) (n : ℕ) : Prop where
  | keeps {k' : Keys S} : Keeps cfg env s k e s' o running n k' →
      Keyed cfg env s k e s' o running n
  | swaps {data : Bytes} {k' : Keys S} {f : Frame} {h : S.HS} {st : HsStep S.HS S.Key}
      {ks : S.Key × S.Key} : Swaps s k e s' o running data k' f h st ks →
      Keyed cfg env s k e s' o running n

/-- A third message completes the handshake of a session, and the address is sealed. -/
structure Completes (cfg : ServerConfig) (s : ServerSession S) (e : Event) (s' : ServerSession S)
    (o : Out S) (running : Bool) (data : Bytes) (h : S.HS) (st : HsStep S.HS S.Key)
    (ks : S.Key × S.Key) (ip : Byte4) : Prop where
  event : e = .recv (some data)
  running : running = true
  hs : s.hs = some h
  read : S.read h data = some st
  derived : st.keys = some ks
  pair : s'.keys.map Keys.pair = some ks.swap
  tag : s'.tag = s.tag
  client : s'.clientKey = some (S.peerStatic st.hs)
  address : s'.ip = some ip
  installed : o.installed = [ks]
  frames : ∀ g ∈ o.frames, g.1.key = ks.2 ∧
    g.1.payload = assignPayload cfg.prefixLen ip cfg.gw

/-- What an event does to the keys of a session. -/
inductive Moves (cfg : ServerConfig) (env : ServerEnv S) (s : ServerSession S) (e : Event)
    (s' : ServerSession S) (o : Out S) (running : Bool) (n : ℕ) : Prop where
  /-- There are none yet. -/
  | waits : s.keys = none → s'.keys = none → o.frames = [] → o.installed = [] →
      Moves cfg env s e s' o running n
  | completes {data : Bytes} {h : S.HS} {st : HsStep S.HS S.Key} {ks : S.Key × S.Key}
      {ip : Byte4} : s.keys = none → Completes cfg s e s' o running data h st ks ip →
      Moves cfg env s e s' o running n
  | keyed {k : Keys S} : s.keys = some k → Keyed cfg env s k e s' o running n →
      Moves cfg env s e s' o running n

theorem Moves.of_keys (h : Moves cfg env s e s' o running n) (hk : s.keys = some k) :
    Keyed cfg env s k e s' o running n := by
  cases h with
  | waits hno => rw [hk] at hno; cases hno
  | completes hno => rw [hk] at hno; cases hno
  | keyed hk' h =>
    cases hk.symm.trans hk'
    exact h

/-- Nothing is sealed, and the keys are at most used to open a frame. -/
theorem Keeps.silent (hsame : Same s s') (hk' : s'.keys = some k')
    (hu : k.Uses e.datagram s.tag [] k') (hf : o.frames = []) (hin : o.installed = [])
    (ht : Turn cfg env s k e s') (hend : running = false → s'.rekeying = s.rekeying) :
    Keeps cfg env s k e s' o running n k' where
  toSame := hsame
  keys := hk'
  uses := hf ▸ hu
  installed := hin
  length := hf ▸ Nat.zero_le _
  typ f h := by rw [hf] at h; cases h
  idle f h := by rw [hf] at h; cases h
  last := hf ▸ .nil
  begins f h := by rw [hf] at h; cases h
  turn := ht
  ended := hend

/-- A frame that is no rekey message and no address is sealed in the end. -/
theorem Keeps.sends {s₁ : ServerSession S} {k₁ : Keys S} {o₁ : Out S} {up : Bool}
    (h : Keeps cfg env s k e s₁ o₁ up n k₁) (hr : s₁.rekeying = s.rekeying) {typ : UInt8}
    {pt : Bytes} {ep : Endpoint S} {fs : List (Sealed S × Bool)} {ok : Bool}
    (hs : s₁.toEndpoint.Sends typ pt ep fs ok) (hty : isRekey typ = false ∧ typ ≠ msgAssign)
    (hf : o.frames = o₁.frames ++ fs) (hin : o.installed = o₁.installed) :
    ∃ k', Keeps cfg env s k e { s₁ with toEndpoint := ep } o running (n + 1) k' := by
  obtain ⟨k', hk', hu, hl⟩ := hs.uses h.keys
  have hr' : ep.rekeying = s.rekeying := hs.frame.2.1.trans hr
  -- a second message would have begun a rekey
  have hno₁ : ∀ f ∈ o₁.frames, f.1.typ ≠ msgRekey2 := fun f hf h2 => by
    have hidle := h.idle f hf
    rw [← hr, h.begins f hf h2] at hidle
    cases hidle
  have hno : ∀ f ∈ fs, f.1.typ ≠ msgRekey2 := fun f hf h2 => by
    rw [← hs.typ_eq hf, h2] at hty
    cases hty.1
  refine ⟨k', ⟨hs.frame.1.trans h.tag, h.client, h.ip⟩, hk', hf ▸ h.uses.trans (h.tag ▸ hu),
    hin.trans h.installed, ?_, fun f hf' => ?_, fun f hf' => ?_, ?_, fun f hf' h2 => ?_,
    .same hr', fun _ => hr'⟩
  · rw [hf, List.length_append]
    exact Nat.add_le_add h.length hl
  · rcases List.mem_append.1 (hf ▸ hf') with hf' | hf'
    · exact h.typ f hf'
    · exact hs.typ_eq hf' ▸ hty.2
  · rcases List.mem_append.1 (hf ▸ hf') with hf' | hf'
    · exact h.idle f hf'
    · exact hr ▸ hs.rekeying hty.1 hf'
  · rw [hf]
    exact List.pairwise_append.2
      ⟨h.last, pairwise_of_length_le_one hl, fun f hf' _ _ => hno₁ f hf'⟩
  · rcases List.mem_append.1 (hf ▸ hf') with hf' | hf'
    · exact absurd h2 (hno₁ f hf')
    · exact absurd h2 (hno f hf')

theorem Handles.moves (h : Handles cfg env s data (s', o, err)) :
    Moves cfg env s (.recv (some data)) s' o (decide (err ≠ some .fatal)) 1 := by
  -- a frame was opened, and nothing is sealed
  have hopen : ∀ {k k' : Keys S} {r : Except OpenErr Frame} {s' : ServerSession S} {o : Out S}
      {running : Bool} {n : ℕ}, k.Opened data k' r → Same s s' → s'.keys = some k' →
      o.frames = [] → o.installed = [] → s'.rekeying = s.rekeying →
      Keeps cfg env s k (.recv (some data)) s' o running n k' :=
    fun ho hsame hk' hf hin hr =>
      .silent hsame hk' (.of_opened ho _) hf hin (.same hr) fun _ => hr
  cases h with
  | refused hk hf _ hin => exact .waits hk hk hf hin
  | tagged hk => exact .waits hk hk rfl rfl
  | answered hk _ _ _ _ _ _ hf _ hin => exact .waits hk hk hf hin
  | rejected hk => exact .waits hk hk rfl rfl
  | @keyed h st ip ks ep fs sent hk hh hread _ _ hks hsend =>
    refine .completes hk ⟨rfl, by simp, hh, hread, hks, hsend.pair, hsend.frame.1, rfl, rfl, rfl,
      ?_⟩
    rintro ⟨g, ok⟩ hg
    obtain ⟨-, k, hk', hby⟩ := hsend.sealedBy hg
    cases hk'
    exact ⟨hby.key, hby.payload⟩
  | opened hk ho => exact .keyed hk (.keeps (hopen ho ⟨rfl, rfl, rfl⟩ rfl rfl rfl rfl))
  | delivered hk ho => exact .keyed hk (.keeps (hopen ho ⟨rfl, rfl, rfl⟩ rfl rfl rfl rfl))
  | @echoed k k' f ep fs sent hk ho _ _ hsend =>
    have hkeep : Keeps cfg env s k (.recv (some data)) { s with keys := some k' } {} true 0 k' :=
      hopen ho ⟨rfl, rfl, rfl⟩ rfl rfl rfl rfl
    obtain ⟨_, h⟩ := hkeep.sends rfl hsend ⟨rfl, by decide⟩ (o := { frames := fs }) rfl rfl
    exact .keyed hk (.keeps h)
  | @rekey1 k k' f r st st₂ ep fs sent hk ho _ hty hr _ _ _ hsend =>
    obtain ⟨k'', hk'', hu, hl⟩ := hsend.uses rfl
    have hr' : ep.rekeying = true := hsend.frame.2.1
    exact .keyed hk (.keeps ⟨⟨hsend.frame.1, rfl, rfl⟩, hk'', (Keys.Uses.of_opened ho _).trans hu,
      rfl, hl, fun g hg => hsend.typ_eq hg ▸ by decide, fun _ _ => hr,
      pairwise_of_length_le_one hl, fun _ _ _ => hr',
      .starts hr hr' ⟨_, _, _, rfl, ho, hty⟩, fun h => by simp at h⟩)
  | @aborted k k' f h hk ho _ hty hr =>
    exact .keyed hk (.keeps (.silent ⟨rfl, rfl, rfl⟩ rfl (.of_opened ho _) rfl rfl
      (.stops hr rfl (.inr ⟨_, _, _, rfl, ho, hty⟩)) fun h => by simp at h))
  | rekeyed hk ho _ hty _ hh hread hpeer hks =>
    exact .keyed hk (.swaps ⟨⟨rfl, rfl, rfl⟩, rfl, by simp, ho, hty, hh, hread, hks, hpeer, rfl,
      rfl, rfl⟩)

/-- The time of the last datagram has nothing to do with the keys. -/
theorem Moves.of_lastRecv {t : ℤ} (h : Moves cfg env { s with lastRecv := t } e s' o running n) :
    Moves cfg env s e s' o running n := by
  cases h with
  | waits hk hk' hf hin => exact .waits hk hk' hf hin
  | completes hk h =>
    exact .completes hk ⟨h.event, h.running, h.hs, h.read, h.derived, h.pair, h.tag, h.client,
      h.address, h.installed, h.frames⟩
  | keyed hk h =>
    cases h with
    | keeps h =>
      refine .keyed hk (.keeps ⟨⟨h.tag, h.client, h.ip⟩, h.keys, h.uses, h.installed, h.length,
        h.typ, h.idle, h.last, h.begins, ?_, h.ended⟩)
      cases h.turn with
      | same hr => exact .same hr
      | starts hr hr' ho => exact .starts hr hr' ho
      | stops hr hr' ho => exact .stops hr hr' ho
    | swaps h =>
      exact .keyed hk (.swaps ⟨⟨h.tag, h.client, h.ip⟩, h.event, h.running, h.opened, h.typ,
        h.rekeyHs, h.read, h.derived, h.peer, h.keys, h.idle, h.out⟩)

/-- An event that does not touch a session. -/
theorem Moves.refl (s : ServerSession S) (e : Event) (running : Bool) :
    Moves cfg env s e s {} running n := by
  cases hk : s.keys with
  | none => exact .waits hk hk rfl rfl
  | some k =>
    exact .keyed hk (.keeps (.silent ⟨rfl, rfl, rfl⟩ hk (.none ..) rfl rfl (.same rfl)
      fun _ => rfl))

/-- A run loop that has ended seals a frame that is no rekey message and no address. -/
theorem Moves.sends {s₁ : ServerSession S} {o₁ : Out S} (h : Moves cfg env s e s₁ o₁ false n)
    {typ : UInt8} {pt : Bytes} {ep : Endpoint S} {fs : List (Sealed S × Bool)} {ok : Bool}
    (hs : s₁.toEndpoint.Sends typ pt ep fs ok) (hty : isRekey typ = false ∧ typ ≠ msgAssign)
    (hf : o.frames = o₁.frames ++ fs) (hin : o.installed = o₁.installed) :
    Moves cfg env s e { s₁ with toEndpoint := ep } o running (n + 1) := by
  cases h with
  | waits hk hk' hf₁ hin₁ =>
    cases hs with
    | idle => exact .waits hk hk' (by rw [hf, hf₁, List.append_nil]) (hin.trans hin₁)
    | sealed hk₁ => rw [hk'] at hk₁; cases hk₁
  | completes _ h => cases h.running
  | keyed hk h =>
    cases h with
    | keeps h =>
      obtain ⟨_, h'⟩ := h.sends (h.ended rfl) hs hty hf hin
      exact .keyed hk (.keeps h')
    | swaps h => cases h.running

theorem isRekey_of_mem {typ : UInt8} (h : typ ∈ [msgData, msgClose, msgDecoy]) :
    isRekey typ = false ∧ typ ≠ msgAssign := by
  simp only [List.mem_cons, List.not_mem_nil, or_false] at h
  rcases h with rfl | rfl | rfl <;> exact ⟨rfl, by decide⟩

theorem Loops.moves (h : Loops cfg env s e (s', o, running)) :
    Moves cfg env s e s' o running 1 := by
  cases h with
  | idle => exact .refl s e running
  | recv h => exact h.moves.of_lastRecv
  | sent _ hty hsend =>
    exact (Moves.refl (n := 0) s e false).sends hsend (isRekey_of_mem hty) rfl rfl
  | timeout hr hlate =>
    cases hk : s.keys with
    | none => exact .waits hk hk rfl rfl
    | some k =>
      exact .keyed hk (.keeps (.silent ⟨rfl, rfl, rfl⟩ hk (.none ..) rfl rfl
        (.stops hr rfl (.inl ⟨rfl, hlate⟩)) nofun))

theorem Moves.mono {m : ℕ} (h : Moves cfg env s e s' o running n) (hn : n ≤ m) :
    Moves cfg env s e s' o running m := by
  cases h with
  | waits hk hk' hf hin => exact .waits hk hk' hf hin
  | completes hk h => exact .completes hk h
  | keyed hk h =>
    cases h with
    | keeps h => exact .keyed hk (.keeps { h with length := h.length.trans hn })
    | swaps h => exact .keyed hk (.swaps h)

/-- **What an event does to the keys of a session.** -/
theorem Steps.moves (h : Steps cfg env s e (s', o, running)) :
    Moves cfg env s e s' o running 2 := by
  cases h with
  | run hl => exact hl.moves.mono (by decide)
  | halt hl =>
    rw [Out.append_empty]
    exact hl.moves.mono (by decide)
  | close hl hs => exact hl.moves.sends hs ⟨rfl, by decide⟩ rfl (List.append_nil _)

/-! ### Where a pending handshake comes from -/

theorem splitCookie_take {m : Bytes} {c : Option Bytes} (h : splitCookie data = .ok (some (m, c))) :
    m = data.take hs1Len := by
  unfold splitCookie at h
  split_ifs at h with h1 h2
  · rw [slice_ok (by omega) (Nat.le_refl _), Go.ok_bind, slice_ok (by omega) (by omega),
      Go.ok_bind] at h
    cases h
    rw [List.drop_zero, h1, Nat.add_sub_cancel]
  · cases h
    rw [← h2, List.take_length]
  · cases h

/-- Responding to a first message, a session stores the handshake that read it. -/
theorem respond_hears {m : Bytes} {h : S.HS} (hh : s.hs = none)
    (hs' : (s.respond cfg env m).1.hs = some h) :
    ∃ a : Answer S cfg, a.m₁ = m ∧ h = a.st₂.hs ∧
      (s.respond cfg env m).1.tag = Byte4.copyOf a.st₁.out := by
  unfold respond at hs' ⊢
  split at hs'
  · rw [hh] at hs'; cases hs'
  · next r hr =>
    split at hs'
    · rw [hh] at hs'; cases hs'
    · next st hst =>
      split_ifs at hs' with hl
      · rw [hh] at hs'; cases hs'
      · dsimp only at hs'
        split at hs'
        · rw [hh] at hs'; cases hs'
        · next st₂ hst₂ =>
          cases hs'
          refine ⟨⟨env, m, [], r, st, st₂, hr, hst, not_not.1 hl, hst₂⟩, rfl, rfl, ?_⟩
          rw [if_neg hl]

theorem handshake1_hears {h : S.HS} (hhand : s.handshake1 cfg env data = .ok (s', o, err))
    (hk : s.keys = none) (hh : s.hs = none) (hs' : s'.hs = some h) :
    ∃ a : Answer S cfg, a.m₁ = data.take hs1Len ∧ h = a.st₂.hs ∧
      s'.tag = Byte4.copyOf a.st₁.out := by
  unfold handshake1 at hhand
  rw [if_neg (by simp [hk, hh])] at hhand
  obtain ⟨r, hr, hhand⟩ := Go.bind_eq_ok.1 hhand
  rcases r with _ | ⟨m, cookie⟩
  · cases hhand
    rw [hh] at hs'
    cases hs'
  · dsimp only at hhand
    split at hhand
    · obtain rfl : s = s' := congrArg Prod.fst (Except.ok.inj hhand)
      rw [hh] at hs'
      cases hs'
    · obtain rfl : (s.respond cfg env m).1 = s' := congrArg Prod.fst (Except.ok.inj hhand)
      obtain ⟨a, hm, hst, htag⟩ := respond_hears hh hs'
      exact ⟨a, hm.trans (splitCookie_take hr), hst, htag⟩

/-- **A handshake that a session has just stored** read the Noise part of the datagram. -/
theorem step_hears {h : S.HS} (hk : s.keys = none) (hh : s.hs = none)
    (hstep : s.step cfg env e = .ok (s', o, true)) (hs' : s'.hs = some h) :
    ∃ (data : Bytes) (a : Answer S cfg), e = .recv (some data) ∧ a.m₁ = data.take hs1Len ∧
      h = a.st₂.hs ∧ s'.tag = Byte4.copyOf a.st₁.out := by
  have hloop : s.loop cfg env e = .ok (s', o, true) := by
    obtain ⟨⟨s₁, o₁, r⟩, hl, hstep⟩ := Go.bind_eq_ok.1 hstep
    cases r with
    | true => cases hstep; exact hl
    | false =>
      obtain ⟨_, -, hstep⟩ := Go.bind_eq_ok.1 hstep
      cases hstep
  cases steps_progress (.run (loop_spec hloop)) with
  | stay h1 => rw [h1, hh] at hs'; cases hs'
  | reject _ _ _ _ hr => cases hr
  | completed _ h2 => rw [hh] at h2; cases h2
  | answer a hl =>
    -- the label names the datagram; `handshake1` on it says which part was read
    obtain rfl : e = .recv (some (a.m₁ ++ a.cookie)) := congrArg Prod.snd hl
    obtain ⟨⟨s₁, o₁, err⟩, hhand, heq⟩ := Go.bind_eq_ok.1 hloop
    obtain rfl : s₁ = s' := congrArg Prod.fst (Except.ok.inj heq)
    have hfresh : handle cfg env { s with lastRecv := env.now } (a.m₁ ++ a.cookie) =
        handshake1 cfg env { s with lastRecv := env.now } (a.m₁ ++ a.cookie) :=
      handle_of_fresh hk hh
    obtain ⟨a', hm, hst, htag⟩ := handshake1_hears (hfresh.symm.trans hhand) hk hh hs'
    exact ⟨_, a', rfl, hm, hst, htag⟩

end ServerSession

/-! ### The client -/

namespace Client

variable {cfg : ClientConfig} {env : ClientEnv S} {c c' : Client S} {o : Out S} {e : Event}
  {data : Bytes}

/-- What a wake-up does to the keys of a client. -/
structure Moves (c c' : Client S) (o : Out S) : Prop where
  keyless : c'.phase.keyed = false → c'.keys = none
  pair : ∀ k', c'.keys = some k' → c.keys.map Keys.pair = some k'.pair ∨ k'.pair ∈ o.installed
  frames : Ordinary c.keys o.frames

theorem MaybeRekeys.pair (h : MaybeRekeys cfg env c c' o) :
    c'.keys.map Keys.pair = c.keys.map Keys.pair ∧ c'.phase = c.phase ∧
      Ordinary c.keys o.frames := by
  cases h with
  | no => exact ⟨rfl, rfl, .nil⟩
  | unsent _ _ hsend => exact ⟨hsend.pair, rfl, hsend.ordinary (by decide) rfl⟩
  | started _ _ hsend => exact ⟨hsend.pair, rfl, hsend.ordinary (by decide) rfl⟩

theorem Steps.moves (h : Steps cfg env c e c' o) (hk : c.phase.keyed = false → c.keys = none) :
    Moves c c' o := by
  -- with the pair of keys and the phase unchanged there is only the output to look at
  have hkeep : ∀ {c₁ : Client S} {o₁ : Out S}, c₁.phase.keyed = c.phase.keyed →
      c₁.keys.map Keys.pair = c.keys.map Keys.pair → Ordinary c.keys o₁.frames →
      Moves c c₁ o₁ := by
    intro c₁ o₁ hp hpair hf
    refine ⟨fun hn => ?_, fun k' hk' => .inl ?_, hf⟩
    · rw [hk (hp ▸ hn)] at hpair
      simpa using hpair
    · rw [← hpair, hk']
      rfl
  have hcont : ∀ {data : Bytes} {k' : Keys S} {f : Frame} {hs : S.HS}, c.Continues data k' f hs →
      (some k').map Keys.pair = c.keys.map Keys.pair := by
    intro data k' f hs hc
    obtain ⟨k, hk, ho⟩ := hc.opened
    rw [hk, Option.map_some, Option.map_some, ho.pair]
  cases h with
  | idle => exact hkeep rfl rfl .nil
  | keyless => exact hkeep rfl rfl .nil
  | hangup hn _ _ _ _ _ hf =>
    refine ⟨fun _ => hn, fun k' hk' => ?_, ?_⟩
    · rw [hn] at hk'
      cases hk'
    · rcases hf with hf | ⟨ep, ok, hsend⟩
      · rw [hf]; exact .nil
      · exact hsend.ordinary (by decide) rfl
  | cookie hp => exact hkeep (by rw [hp]; rfl) rfl .nil
  | keyed =>
    refine ⟨nofun, fun k' hk' => .inr ?_, .nil⟩
    cases hk'
    simp
  | @opened k k' r c' o data stats last hkeyed hk' ho hep _ hkeyed' _ hf =>
    refine hkeep (hkeyed'.trans hkeyed.symm) ?_ (by rw [hf]; exact .nil)
    rw [hep, hk', Option.map_some, Option.map_some, ho.pair]
  | sent _ _ hty hsend =>
    refine hkeep rfl hsend.pair (hsend.ordinary ?_ rfl)
    rintro rfl
    revert hty
    decide
  | keepalive _ _ _ hsend hm =>
    obtain ⟨hpair, hphase, hf⟩ := hm.pair
    refine hkeep (by rw [hphase]) (hpair.trans hsend.pair)
      ((hsend.ordinary (by decide) rfl).append fun g hg => ?_)
    obtain ⟨hty, r, hr⟩ := hf g hg
    exact ⟨hty, r, hsend.pair ▸ hr⟩
  | rekeyUnread hc => exact hkeep rfl (hcont hc) .nil
  | rekeyUnwritten hc => exact hkeep rfl (hcont hc) .nil
  | rekeyIncomplete hc => exact hkeep rfl (hcont hc) .nil
  | rekeyUnsent hc _ _ _ hsend =>
    exact hkeep rfl (hsend.pair.trans (hcont hc)) (hsend.ordinary (by decide) (hcont hc))
  | @rekeyed k' f hs st st₃ ks ep fs data hc _ _ _ hsend =>
    refine ⟨fun hn => ?_, fun k₁ hk₁ => .inr ?_, hsend.ordinary (by decide) (hcont hc)⟩
    · change c.phase.keyed = false at hn
      rw [hc.running] at hn
      cases hn
    · cases hk₁
      simp

/-- **What a wake-up does to the keys of a client.** -/
theorem step_moves (hk : c.phase.keyed = false → c.keys = none)
    (h : c.step cfg env e = .ok (c', o)) : Moves c c' o := by
  cases hlive : c.phase.live with
  | true => exact (step_spec hlive hk h).moves hk
  | false =>
    have hn : c.keys = none := hk (by
      cases hkeyed : c.phase.keyed with
      | false => rfl
      | true => rw [Phase.live_of_keyed hkeyed] at hlive; cases hlive)
    obtain ⟨hn', -, hf, -⟩ := step_of_not_live hlive hn h
    refine ⟨fun _ => hn', fun k' hk' => ?_, by rw [hf]; exact .nil⟩
    rw [hn'] at hk'
    cases hk'

/-! ### The phases of a handshake -/

/-- The client has sent the first message `m`, perhaps with a cookie (`ck`), of a handshake in the
state `hs` that it began with the tag. -/
def Offers (cfg : ClientConfig) (hs : S.HS) (m : Bytes) (ck : Bool) (tag : Byte4) : Prop :=
  ∃ i₀ seed st cookie, S.newClientHandshake cfg.keypair cfg.serverPublic = some i₀ ∧
    S.write i₀ seed tag.toBytes = some st ∧ st.hs = hs ∧ m = st.out ++ cookie ∧
    cookie.length = if ck then cookieLen else 0

/-- A message without its cookie. -/
def withoutCookie (m : Bytes) (ck : Bool) : Bytes :=
  m.take (m.length - if ck then cookieLen else 0)

/-- The Noise part of what a client has sent is the first message of its handshake. -/
theorem Offers.sent1 {hs : S.HS} {m : Bytes} {ck : Bool} {tag : Byte4}
    (h : Offers cfg hs m ck tag) : ∃ i₀ seed st,
      S.newClientHandshake cfg.keypair cfg.serverPublic = some i₀ ∧
      S.write i₀ seed tag.toBytes = some st ∧ st.hs = hs ∧ st.out = withoutCookie m ck := by
  obtain ⟨i₀, seed, st, cookie, h0, h1, h2, rfl, hlen⟩ := h
  refine ⟨i₀, seed, st, h0, h1, h2, ?_⟩
  rw [withoutCookie, ← hlen, List.length_append, Nat.add_sub_cancel, List.take_left]

/-- A dialled client has just sent a first message, without a cookie. -/
theorem connect_offers {hs : S.HS} {m : Bytes} {ck : Bool} {tag : Byte4} {a b : ℤ}
    (h : c.connect cfg env = .ok (c', o)) (hp : c'.phase = .waitReply hs m ck tag a b) :
    Offers cfg hs m ck tag := by
  obtain ⟨i₀, st, h0, h1, rfl, rfl⟩ | ⟨⟨t, rfl⟩, -⟩ := connect_spec h
  · cases hp
    exact ⟨i₀, env.seed, st, [], h0, h1, rfl, by simp, rfl⟩
  · cases hp

/-- A client that is not connected waits at most for the reply to a message it has just sent. -/
theorem phase_of_not_live (hlive : c.phase.live = false) (h : c.step cfg env e = .ok (c', o)) :
    (∀ a b, c'.phase ≠ .waitAssign a b) ∧
      ∀ hs m ck tag a b, c'.phase = .waitReply hs m ck tag a b → Offers cfg hs m ck tag := by
  have hother : ∀ {c₁ : Client S}, c₁.phase.live = false ∨ c₁.phase = .running →
      (∀ a b, c₁.phase ≠ .waitAssign a b) ∧
        ∀ hs m ck tag a b, c₁.phase = .waitReply hs m ck tag a b → Offers cfg hs m ck tag := by
    rintro c₁ (hl | hr)
    · refine ⟨fun a b hw => ?_, fun hs m ck tag a b hw => ?_⟩
      · rw [hw] at hl; cases hl
      · rw [hw] at hl; cases hl
    · rw [hr]
      exact ⟨nofun, nofun⟩
  cases hp : c.phase with
  | backoff =>
    unfold step at h
    rw [hp] at h
    cases e with
    | cancel =>
      cases h
      refine hother ?_
      dsimp only
      split_ifs
      · exact .inr rfl
      · exact .inl rfl
    | retry =>
      refine ⟨fun a b hw => ?_, fun hs m ck tag a b hw => connect_offers h hw⟩
      obtain ⟨i₀, st, -, -, rfl, rfl⟩ | ⟨⟨t, rfl⟩, -⟩ := connect_spec h
      · cases hw
      · cases hw
    | _ => cases h; exact hother (.inl hlive)
  | stopped =>
    unfold step at h
    rw [hp] at h
    cases h
    exact hother (.inl hlive)
  | _ => rw [hp] at hlive; cases hlive

/-- **How a client comes to wait for the reply**: it has sent the first message of a handshake. -/
theorem step_offers (hk : c.phase.keyed = false → c.keys = none)
    (hi : ∀ hs m ck tag a b, c.phase = .waitReply hs m ck tag a b → Offers cfg hs m ck tag)
    (h : c.step cfg env e = .ok (c', o)) {hs : S.HS} {m : Bytes} {ck : Bool} {tag : Byte4}
    {a b : ℤ} (hp : c'.phase = .waitReply hs m ck tag a b) : Offers cfg hs m ck tag := by
  cases hlive : c.phase.live with
  | false => exact (phase_of_not_live hlive h).2 _ _ _ _ _ _ hp
  | true =>
    cases step_spec hlive hk h with
    | idle => exact hi _ _ _ _ _ _ hp
    | keyless => exact hi _ _ _ _ _ _ hp
    | hangup _ hl => rw [hp] at hl; cases hl
    | @cookie hs₀ m₁ data tag₀ start since hp₀ hlen =>
      cases hp
      obtain ⟨i₀, seed, st, cookie, h0, h1, h2, rfl, hc⟩ := hi _ _ _ _ _ _ hp₀
      obtain rfl := List.length_eq_zero_iff.1 hc
      exact ⟨i₀, seed, st, data, h0, h1, h2, by rw [List.append_nil], hlen⟩
    | keyed => cases hp
    | opened _ _ _ _ _ hkeyed => rw [hp] at hkeyed; cases hkeyed
    | sent => exact hi _ _ _ _ _ _ hp
    | keepalive _ _ _ _ hm => exact hi _ _ _ _ _ _ (hm.pair.2.1.symm.trans hp)
    | rekeyUnread => exact hi _ _ _ _ _ _ hp
    | rekeyUnwritten => exact hi _ _ _ _ _ _ hp
    | rekeyIncomplete => exact hi _ _ _ _ _ _ hp
    | rekeyUnsent => exact hi _ _ _ _ _ _ hp
    | rekeyed => exact hi _ _ _ _ _ _ hp

/-- The client, which waited for the reply, has read it and sent the third message `m₃`: it has
derived the keys `ks`. -/
structure Derives (c : Client S) (c' : Client S) (o : Out S) (hs : S.HS) (tag : Byte4) (m₃ : Bytes)
    (ks : S.Key × S.Key) : Prop where
  third : ∃ data st seed st₃, S.read hs data = some st ∧ S.write st.hs seed [] = some st₃ ∧
    st₃.out = m₃ ∧ st₃.keys = some ks
  tag : c'.tag = tag
  keys : c'.keys.map Keys.pair = some ks
  frames : o.frames = []
  raw : o.raw = [(m₃, true)]
  installed : o.installed = [ks]

/-- What a client that waits for the reply does: it derives keys, or installs none and does not
come to wait for the address. -/
theorem step_derives (hk : c.phase.keyed = false → c.keys = none) {hs : S.HS} {m : Bytes}
    {ck : Bool} {tag : Byte4} {a b : ℤ} (hp : c.phase = .waitReply hs m ck tag a b)
    (h : c.step cfg env e = .ok (c', o)) :
    (∃ m₃ ks, Derives c c' o hs tag m₃ ks) ∨
      o.installed = [] ∧ ∀ a b, c'.phase ≠ .waitAssign a b := by
  have hlive : c.phase.live = true := by rw [hp]; rfl
  have hstay : ∀ a' b', c.phase ≠ .waitAssign a' b' := by rw [hp]; nofun
  have hnot : c.phase ≠ .running := by rw [hp]; nofun
  cases step_spec hlive hk h with
  | idle => exact .inr ⟨rfl, hstay⟩
  | keyless => exact .inr ⟨rfl, hstay⟩
  | hangup _ hl _ _ hin => exact .inr ⟨hin, fun a b hw => by rw [hw] at hl; cases hl⟩
  | cookie => exact .inr ⟨rfl, nofun⟩
  | @keyed hs₀ m₁ data ck₀ tag₀ start since st st₃ ks hp₀ hread hwrite hks =>
    cases hp.symm.trans hp₀
    exact .inl ⟨st₃.out, ks, ⟨data, st, env.seed, st₃, hread, hwrite, rfl, hks⟩, rfl, rfl, rfl, rfl,
      rfl⟩
  | opened hkeyed => rw [hp] at hkeyed; cases hkeyed
  | sent hrun => exact absurd hrun hnot
  | keepalive hrun => exact absurd hrun hnot
  | rekeyUnread hc => exact absurd hc.running hnot
  | rekeyUnwritten hc => exact absurd hc.running hnot
  | rekeyIncomplete hc => exact absurd hc.running hnot
  | rekeyUnsent hc => exact absurd hc.running hnot
  | rekeyed hc => exact absurd hc.running hnot

/-- What a client that waits for its address can do. -/
inductive Awaits (c : Client S) (e : Event) (c' : Client S) : Prop where
  /-- Give up. -/
  | fails : c'.phase.keyed = false → Awaits c e c'
  /-- Go on, after a frame or an event that does not matter. -/
  | stays : c'.phase = c.phase → c'.tag = c.tag →
      c'.keys.map Keys.pair = c.keys.map Keys.pair → Awaits c e c'
  /-- Run, with what a frame under its keys assigns. -/
  | assigned {data : Bytes} {k : Keys S} {f : Frame} {n : ℕ} {ip gw : Byte4} :
      e = .recv (some data) → c.keys = some k → authenticate S k.recvKey data = some f →
      f.typ = msgAssign → parseAssign f.payload = .ok (some (n, ip, gw)) →
      c'.keys.map Keys.pair = c.keys.map Keys.pair → c'.tag = c.tag → c'.phase = .running →
      c'.ip = some ip → c'.gw = some gw → c'.prefixLen = n → Awaits c e c'

/-- **What a client that waits for its address does.**  It sends nothing. -/
theorem step_awaits {a b : ℤ} (hp : c.phase = .waitAssign a b)
    (h : c.step cfg env e = .ok (c', o)) : o = {} ∧ Awaits c e c' := by
  have hstay : ({} : Out S) = {} ∧ Awaits c e c := ⟨rfl, .stays rfl rfl rfl⟩
  unfold step at h
  rw [hp] at h
  cases e with
  | recv d =>
    cases d with
    | none => cases h; exact ⟨rfl, .fails rfl⟩
    | some data =>
      dsimp only at h
      unfold recvAssign at h
      split at h
      · cases h
      · next k hk =>
        obtain ⟨⟨k', r⟩, ho, h⟩ := Go.bind_eq_ok.1 h
        have ho' := Keys.open_spec ho
        have hpair : (some k').map Keys.pair = c.keys.map Keys.pair := by
          rw [hk, Option.map_some, Option.map_some, ho'.pair]
        cases r with
        | error err => cases h; exact ⟨rfl, .stays rfl rfl hpair⟩
        | ok f =>
          dsimp only at h
          split_ifs at h with ht hty
          · cases h; exact ⟨rfl, .stays rfl rfl hpair⟩
          · cases h; exact ⟨rfl, .stays rfl rfl hpair⟩
          · obtain ⟨q, hq, h⟩ := Go.bind_eq_ok.1 h
            rcases q with _ | ⟨n, ip, gw⟩
            · cases h; exact ⟨rfl, .fails rfl⟩
            · cases h
              exact ⟨rfl, .assigned rfl hk ho'.authenticate (not_not.1 hty) hq hpair rfl rfl rfl
                rfl rfl⟩
  | timeout =>
    dsimp only at h
    split_ifs at h
    · cases h; exact ⟨rfl, .fails rfl⟩
    · cases h; exact hstay
  | cancel => cases h; exact ⟨rfl, .fails rfl⟩
  | _ => cases h; exact hstay

/-- A client comes to wait for its address only from waiting for the reply. -/
theorem phase_of_waitAssign (hk : c.phase.keyed = false → c.keys = none)
    (h : c.step cfg env e = .ok (c', o)) {a b : ℤ} (hp : c'.phase = .waitAssign a b) :
    (∃ a' b', c.phase = .waitAssign a' b') ∨
      ∃ hs m ck tag a' b', c.phase = .waitReply hs m ck tag a' b' := by
  cases hc : c.phase with
  | waitReply hs m ck tag a' b' => exact .inr ⟨_, _, _, _, _, _, rfl⟩
  | waitAssign a' b' => exact .inl ⟨_, _, rfl⟩
  | backoff => exact absurd hp ((phase_of_not_live (by rw [hc]; rfl) h).1 a b)
  | stopped => exact absurd hp ((phase_of_not_live (by rw [hc]; rfl) h).1 a b)
  | running =>
    have hno : c.phase ≠ .waitAssign a b := by rw [hc]; nofun
    cases step_spec (by rw [hc]; rfl) hk h with
    | idle => exact absurd hp hno
    | keyless => exact absurd hp hno
    | hangup _ hl => rw [hp] at hl; cases hl
    | cookie hp₀ => rw [hc] at hp₀; cases hp₀
    | keyed hp₀ => rw [hc] at hp₀; cases hp₀
    | opened _ _ _ _ _ _ _ _ _ _ _ hph =>
      rcases hph with ⟨hph, -⟩ | ⟨hph, -⟩
      · exact absurd (hph.symm.trans hp) hno
      · rw [hph] at hp; cases hp
    | sent => exact absurd hp hno
    | keepalive _ _ _ _ hm => exact absurd (hm.pair.2.1.symm.trans hp) hno
    | rekeyUnread => exact absurd hp hno
    | rekeyUnwritten => exact absurd hp hno
    | rekeyIncomplete => exact absurd hp hno
    | rekeyUnsent => exact absurd hp hno
    | rekeyed => exact absurd hp hno

end Client

end VibeVpn

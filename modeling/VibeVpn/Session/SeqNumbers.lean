import VibeVpn.Config.Client
import VibeVpn.LTS.Numbering
import VibeVpn.Session.ClientSpec
import VibeVpn.Session.ServerRun

/-!
# Wire sequence numbers

`Keys.seal` puts the low 32 bits of the send counter on the wire.  The only guard against a repeated
number is `maybeRekey` on the client's keepalive ticker: it starts a rekey once the client's own
counter has reached a threshold.  The server has no guard at all.

`Metered` adds to the states of an end what it has sealed so far and how many events it has handled.
Each end refines a `Numbering` of the library (`Client.Steps.numbering`,
`ServerSession.Steps.numbering`).

* `seq_numbers_unique` : as long as the events between two ticks, and the events of the server under
  one key, are few enough and a due rekey can be started, **no number repeats under one key**;
* `seq_number_repeats` : a run of a client with the default configuration in which one does.
-/

namespace VibeVpn

variable {S : Suite}

/-! ### Endpoints as numberings -/

/-- The send direction of the keys: the key and the counter. -/
def Keys.send (k : Keys S) : S.Key × ℕ := (k.sendKey, k.sendSeq)

theorem Keys.Opened.send {k k' : Keys S} {data : Bytes} {r : Except OpenErr Frame}
    (h : k.Opened data k' r) : k'.send = k.send := by
  obtain ⟨h1, -, h3⟩ := h.keys
  rw [Keys.send, Keys.send, h1, h3]

/-- An end with the given keys, which has installed and sealed what is listed. -/
def numbering (keys : Option (Keys S)) (installed : List S.Key) (log : List (Sealed S)) :
    Numbering S.Key where
  current := keys.map Keys.send
  installed := installed
  issued := log.map fun f => (f.key, f.ctr)

section

variable {keys keys' : Option (Keys S)} {ins : List S.Key} {log : List (Sealed S)} {o : Out S}
  {key : S.Key × S.Key → S.Key}

/-- An event that seals and installs nothing. -/
theorem numbering_quiet (hin : o.installed = []) (hf : o.frames = [])
    (h : keys'.map Keys.send = keys.map Keys.send) :
    (numbering keys ins log).Steps
      (numbering keys' (ins ++ o.installed.map key) (log ++ o.frames.map Prod.fst)) := by
  have he : numbering keys' (ins ++ o.installed.map key) (log ++ o.frames.map Prod.fst) =
      numbering keys ins log := by
    simp [numbering, hin, hf, h]
  rw [he]

/-- Dropping the keys. -/
theorem numbering_drop : (numbering keys ins log).Steps (numbering none ins log) :=
  .single (.drop _)

/-- Installing new keys. -/
theorem numbering_install (isClient : Bool) (ks : S.Key × S.Key) :
    (numbering keys ins log).Steps
      (numbering (some (newKeys S isClient ks)) (ins ++ [(newKeys S isClient ks).sendKey]) log) :=
  .single (.install _ _)

end

namespace Endpoint

variable {s s' : Endpoint S} {typ : UInt8} {pt : Bytes} {fs : List (Sealed S × Bool)} {ok : Bool}

theorem Sends.numbering (h : s.Sends typ pt s' fs ok) (ins : List S.Key) (log : List (Sealed S)) :
    (numbering s.keys ins log).Steps (numbering s'.keys ins (log ++ fs.map Prod.fst)) := by
  cases h with
  | idle => rw [List.map_nil, List.append_nil]
  | @sealed k f ok stats last hk _ hby =>
    have hissue : (VibeVpn.numbering s.keys ins log).Step _ :=
      .issue (k := k.sendKey) (n := k.sendSeq) (by rw [hk]; rfl)
    simpa [VibeVpn.numbering, Keys.send, Keys.advance, hby.key, hby.ctr] using .single hissue

/-- The send counter is at most `b`. -/
def Within (s : Endpoint S) (b : ℕ) : Prop := ∀ k, s.keys = some k → k.sendSeq ≤ b

theorem Within.mono {b b' : ℕ} (h : s.Within b) (hb : b ≤ b') : s.Within b' :=
  fun k hk => Nat.le_trans (h k hk) hb

theorem Within.opened {b : ℕ} {k k' : Keys S} {data : Bytes} {r : Except OpenErr Frame}
    (h : s.Within b) (hk : s.keys = some k) (ho : k.Opened data k' r) (hk' : s'.keys = some k') :
    s'.Within b := by
  intro k₁ h₁
  rw [hk'] at h₁
  cases h₁
  rw [ho.keys.2.2]
  exact h k hk

theorem Within.sends {b : ℕ} (h : s.Within b) (hs : s.Sends typ pt s' fs ok) :
    s'.Within (b + 1) ∧ ∀ f ∈ fs, f.1.ctr ≤ b := by
  cases hs with
  | idle => exact ⟨h.mono (Nat.le_succ b), nofun⟩
  | sealed hk _ hby =>
    refine ⟨fun k' hk' => ?_, fun f hf => ?_⟩
    · cases hk'
      exact Nat.succ_le_succ (h _ hk)
    · cases List.mem_singleton.1 hf
      rw [hby.ctr]
      exact h _ hk

end Endpoint

/-! ### Counting events and frames -/

/-- An end, with what it has done so far. -/
structure Metered (α : Type) (S : Suite) where
  /-- The end. -/
  st : α
  /-- The events it has handled since its counter was last known to be low. -/
  events : ℕ
  /-- The send keys it has installed. -/
  installed : List S.Key
  /-- The frames it has sealed. -/
  log : List (Sealed S)

namespace Metered

variable {α L : Type} {step : α → L → α → Out S → Prop} {count : ℕ → L → Out S → ℕ}
  {key : S.Key × S.Key → S.Key}

/-- An end that has done nothing. -/
def start (a : α) : Metered α S := ⟨a, 0, [], []⟩

/-- The transition system of an end: `count` counts its events, and `key` selects its send key from
a pair. -/
def lts (step : α → L → α → Out S → Prop) (count : ℕ → L → Out S → ℕ)
    (key : S.Key × S.Key → S.Key) : LTS (Metered α S) L where
  step m l m' := ∃ o, step m.st l m'.st o ∧ m'.events = count m.events l o ∧
    m'.installed = m.installed ++ o.installed.map key ∧ m'.log = m.log ++ o.frames.map Prod.fst

/-- What one event has to keep: an invariant `I` of the end and its count of events, counters below
`2 ^ 32`, and the numbering of the frames. -/
def Keeps (I : α → ℕ → Prop) (ep : α → Endpoint S) (key : S.Key × S.Key → S.Key) (a a' : α)
    (o : Out S) (n' : ℕ) : Prop :=
  I a' n' ∧ (∀ f ∈ o.frames, f.1.ctr < 2 ^ 32) ∧
    ∀ ins log, (numbering (ep a).keys ins log).Steps
      (numbering (ep a').keys (ins ++ o.installed.map key) (log ++ o.frames.map Prod.fst))

/-- **The rule for runs**: if every event that meets `G` keeps the invariant, no wire number
repeats under one key. -/
theorem run_unique {G : Metered α S → L → Prop} (I : α → ℕ → Prop) (ep : α → Endpoint S)
    (hstep : ∀ m l a' o, G m l → I m.st m.events → step m.st l a' o →
      Keeps I ep key m.st a' o (count m.events l o))
    {a₀ : α} (h₀ : I a₀ 0) (hk : (ep a₀).keys = none) {m : Metered α S} {ls : List L}
    (run : ((lts step count key).restrict G).Run (start a₀) ls m) (hf : m.installed.Nodup) :
    (∀ f ∈ m.log, f.ctr < 2 ^ 32) ∧ (m.log.map fun f => (f.key, f.seq)).Nodup := by
  have hinv : I m.st m.events ∧ (∀ f ∈ m.log, f.ctr < 2 ^ 32) ∧
      Numbering.Steps ⟨none, [], []⟩ (numbering (ep m.st).keys m.installed m.log) := by
    clear hf
    have hnone : numbering (ep a₀).keys [] [] = ⟨none, [], []⟩ := by rw [hk]; rfl
    induction run with
    | nil => exact ⟨h₀, nofun, hnone ▸ .refl⟩
    | @snoc ls m m' l _ hst ih =>
      obtain ⟨hG, o, hs, hev, hins, hlog⟩ := hst
      obtain ⟨hI, hlt, hnum⟩ := ih
      obtain ⟨hI', hlt', hnum'⟩ := hstep m l m'.st o hG hI hs
      rw [hev, hins, hlog]
      refine ⟨hI', fun f hf => ?_, hnum.trans (hnum' _ _)⟩
      rcases List.mem_append.1 hf with hf | hf
      · exact hlt f hf
      · obtain ⟨g, hg, rfl⟩ := List.mem_map.1 hf
        exact hlt' g hg
  obtain ⟨-, hlt, hnum⟩ := hinv
  have hv := Numbering.Valid.start.steps hnum hf
  refine ⟨hlt, ?_⟩
  have hmod := hv.nodup_mod (N := 2 ^ 32) fun p hp => by
    obtain ⟨f, hf, rfl⟩ := List.mem_map.1 hp
    exact hlt f hf
  simpa [numbering, Function.comp_def, Sealed.seq] using hmod

end Metered

/-! ### The client -/

namespace Client

variable {cfg : ClientConfig} {env : ClientEnv S} {c c' : Client S} {o : Out S} {e : Event} {n : ℕ}

theorem MaybeRekeys.numbering (h : MaybeRekeys cfg env c c' o) (ins : List S.Key)
    (log : List (Sealed S)) : o.installed = [] ∧
      (numbering c.keys ins log).Steps (numbering c'.keys ins (log ++ o.frames.map Prod.fst)) := by
  cases h with
  | no => exact ⟨rfl, by rw [List.map_nil, List.append_nil]⟩
  | unsent _ _ hsend => exact ⟨rfl, hsend.numbering ins log⟩
  | started _ _ hsend => exact ⟨rfl, hsend.numbering ins log⟩

/-- **The client numbers its frames.** -/
theorem Steps.numbering (h : Steps cfg env c e c' o) (ins : List S.Key) (log : List (Sealed S)) :
    (numbering c.keys ins log).Steps (numbering c'.keys (ins ++ o.installed.map Prod.fst)
      (log ++ o.frames.map Prod.fst)) := by
  -- the second message of a rekey has been opened
  have hcont : ∀ {data : Bytes} {k' : Keys S} {f : Frame} {hs : S.HS}, c.Continues data k' f hs →
      (some k').map Keys.send = c.keys.map Keys.send := by
    intro data k' f hs hc
    obtain ⟨k, hk, ho⟩ := hc.opened
    rw [hk, Option.map_some, Option.map_some, ho.send]
  have hsame : ∀ {k' : Keys S}, (some k').map Keys.send = c.keys.map Keys.send →
      VibeVpn.numbering (some k') ins log = VibeVpn.numbering c.keys ins log := by
    intro k' hk'
    rw [VibeVpn.numbering, hk']
    rfl
  cases h with
  | idle => exact numbering_quiet rfl rfl rfl
  | keyless => exact numbering_quiet rfl rfl rfl
  | hangup hk _ _ _ hin _ hf =>
    rw [hin, List.map_nil, List.append_nil, hk]
    rcases hf with hf | ⟨ep, ok, hsend⟩
    · rw [hf, List.map_nil, List.append_nil]
      exact numbering_drop
    · exact (hsend.numbering ins log).trans numbering_drop
  | cookie => exact numbering_quiet rfl rfl rfl
  | keyed => simpa [newKeys] using numbering_install true _
  | @opened k k' r c' o data stats last _ hk ho hep _ _ _ hf _ hin =>
    refine numbering_quiet hin hf ?_
    rw [show c'.keys = some k' from congrArg Endpoint.keys hep, hk, Option.map_some,
      Option.map_some, ho.send]
  | sent _ _ _ hsend => simpa using hsend.numbering ins log
  | @keepalive pt ep fs ok c' o _ _ _ hsend hm =>
    obtain ⟨hin, hmaybe⟩ := hm.numbering ins (log ++ fs.map Prod.fst)
    simpa [Out.append, hin] using (hsend.numbering ins log).trans hmaybe
  | rekeyUnread hc => exact numbering_quiet rfl rfl (hcont hc)
  | rekeyUnwritten hc => exact numbering_quiet rfl rfl (hcont hc)
  | rekeyIncomplete hc => exact numbering_quiet rfl rfl (hcont hc)
  | rekeyUnsent hc _ _ _ hsend =>
    rw [← hsame (hcont hc)]
    simpa using hsend.numbering ins log
  | @rekeyed k' f hs st st₃ ks ep fs data hc _ _ _ hsend =>
    rw [← hsame (hcont hc)]
    simpa [Client.rekeyed, newKeys] using
      (hsend.numbering ins log).trans (numbering_install true ks)

theorem isRekey_of_mem {typ : UInt8} (h : typ ∈ [msgData, msgDecoy]) : isRekey typ = false := by
  rcases List.mem_pair.1 h with rfl | rfl <;> rfl

/-- The invariant of the client's counter, `n` events after the last keepalive tick. -/
structure Counted (cfg : ClientConfig) (c : Client S) (n : ℕ) : Prop where
  /-- There are no keys before the handshake. -/
  keyless : c.phase.keyed = false → c.keys = none
  /-- Nothing is sealed before the address is assigned. -/
  waiting : c.phase.live = true → c.phase ≠ .running →
    c.rekeying = false ∧ ∀ k, c.keys = some k → k.sendSeq = 0
  /-- In the main loop, keys belong to a connection. -/
  connected : c.phase = .running → c.keys.isSome → c.connected = true
  /-- Outside a rekey the counter passes the threshold by at most one per event. -/
  free : ∀ k, c.keys = some k → c.rekeying = false → k.sendSeq ≤ cfg.rekeyThreshold + n
  /-- During a rekey there is room for the third message, or it has been sealed. -/
  busy : ∀ k, c.keys = some k → c.rekeying = true →
    k.sendSeq < 2 ^ 32 ∨ ∃ hs, c.rekeyHs = some hs ∧ ∀ m, S.read hs m = none

theorem Counted.of_keyless (hk : c.keys = none)
    (hw : c.phase.live = true → c.phase ≠ .running → c.rekeying = false) : Counted cfg c n := by
  refine ⟨fun _ => hk, fun hl hr => ⟨hw hl hr, ?_⟩, ?_, ?_, ?_⟩
  · intro k hk'
    rw [hk] at hk'
    cases hk'
  · intro _ hk'
    rw [hk] at hk'
    cases hk'
  · intro k hk'
    rw [hk] at hk'
    cases hk'
  · intro k hk'
    rw [hk] at hk'
    cases hk'

/-- An event in the main loop outside a rekey. -/
theorem Counted.of_free (hp : c.phase = .running) (hconn : c.connected = true)
    (hr : c.rekeying = false) (h : c.Within (cfg.rekeyThreshold + n)) : Counted cfg c n := by
  refine ⟨fun hk => ?_, fun _ hn => absurd hp hn, fun _ _ => hconn, fun k hk _ => h k hk,
    fun k _ hr' => ?_⟩
  · rw [hp] at hk
    cases hk
  · rw [hr] at hr'
    cases hr'

/-- An event in the main loop during a rekey. -/
theorem Counted.of_busy (hp : c.phase = .running) (hconn : c.connected = true)
    (hr : c.rekeying = true) (h : c.Within (2 ^ 32 - 1) ∨ ∃ hs, c.rekeyHs = some hs ∧
      ∀ m, S.read hs m = none) : Counted cfg c n := by
  refine ⟨fun hk => ?_, fun _ hn => absurd hp hn, fun _ _ => hconn, fun k _ hr' => ?_,
    fun k hk _ => h.imp_left fun h => ?_⟩
  · rw [hp] at hk
    cases hk
  · rw [hr] at hr'
    cases hr'
  · have := h k hk
    omega

/-- An event that leaves the send counter alone. -/
theorem Counted.keeps {n' : ℕ} (hi : Counted cfg c n) (hn : n ≤ n') (hp : c'.phase = c.phase)
    (hconn : c'.connected = c.connected) (hr : c'.rekeying = c.rekeying)
    (hhs : c'.rekeyHs = c.rekeyHs) (hk : c'.keys.map Keys.send = c.keys.map Keys.send) :
    Counted cfg c' n' := by
  have hseq : ∀ k', c'.keys = some k' → ∃ k, c.keys = some k ∧ k'.sendSeq = k.sendSeq := by
    intro k' hk'
    rw [hk', Option.map_some] at hk
    obtain ⟨k, hk₀, hs⟩ := Option.map_eq_some_iff.1 hk.symm
    exact ⟨k, hk₀, (Prod.mk.inj hs).2.symm⟩
  refine ⟨fun hph => ?_, fun hl hrun => ?_, fun hrun hs => ?_, fun k' hk' hr' => ?_,
    fun k' hk' hr' => ?_⟩
  · have hnone := hi.keyless (hp ▸ hph)
    rw [hnone] at hk
    exact Option.map_eq_none_iff.1 hk
  · obtain ⟨h1, h2⟩ := hi.waiting (hp ▸ hl) (hp ▸ hrun)
    refine ⟨hr.trans h1, fun k' hk' => ?_⟩
    obtain ⟨k, hk₀, hs⟩ := hseq k' hk'
    exact hs.trans (h2 k hk₀)
  · obtain ⟨k', hk'⟩ := Option.isSome_iff_exists.1 hs
    obtain ⟨k, hk₀, -⟩ := hseq k' hk'
    exact hconn.trans (hi.connected (hp ▸ hrun) (by rw [hk₀]; rfl))
  · obtain ⟨k, hk₀, hs⟩ := hseq k' hk'
    have := hi.free k hk₀ (hr ▸ hr')
    omega
  · obtain ⟨k, hk₀, hs⟩ := hseq k' hk'
    rw [hs, hhs]
    exact hi.busy k hk₀ (hr ▸ hr')

theorem Counted.within (hi : Counted cfg c n) (hr : c.rekeying = false) :
    c.Within (cfg.rekeyThreshold + n) := fun k hk => hi.free k hk hr

/-- A tick that finds nothing to do starts a new count. -/
theorem Counted.reset (hi : Counted cfg c n)
    (h : c.phase = .running → c.connected = true → c.rekeying = true) : Counted cfg c 0 := by
  refine ⟨hi.keyless, hi.waiting, hi.connected, fun k hk hr => ?_, hi.busy⟩
  by_cases hrun : c.phase = .running
  · rw [h hrun (hi.connected hrun (by rw [hk]; rfl))] at hr
    cases hr
  · have hkeyed : c.phase.keyed = true := by
      by_contra hn
      rw [hi.keyless (Bool.eq_false_iff.2 hn)] at hk
      cases hk
    rw [(hi.waiting (Phase.live_of_keyed hkeyed) hrun).2 k hk]
    exact Nat.zero_le _

/-- A rekey that can be continued has room for its third message. -/
theorem Counted.room (hi : Counted cfg c n) {data : Bytes} {k' : Keys S} {f : Frame} {hs : S.HS}
    {st : HsStep S.HS S.Key} (hc : c.Continues data k' f hs)
    (hst : S.read hs f.payload = some st) : k'.sendSeq < 2 ^ 32 := by
  obtain ⟨k, hk, ho⟩ := hc.opened
  rw [ho.keys.2.2]
  rcases hi.busy k hk hc.rekeying with h | ⟨hs', hhs', hnone⟩
  · exact h
  · cases hc.rekeyHs.symm.trans hhs'
    rw [hnone] at hst
    cases hst

theorem Counted.connected_of_continues (hi : Counted cfg c n) {data : Bytes} {k' : Keys S}
    {f : Frame} {hs : S.HS} (hc : c.Continues data k' f hs) : c.connected = true := by
  obtain ⟨k, hk, -⟩ := hc.opened
  exact hi.connected hc.running (by rw [hk]; rfl)

/-- The keepalive tick: a counter at the threshold starts a rekey. -/
theorem Counted.tick (hi : Counted cfg c n) (hn : cfg.rekeyThreshold + n + 3 ≤ 2 ^ 32)
    (hcan : ∀ k, c.keys = some k → c.rekeying = false → cfg.rekeyThreshold ≤ k.sendSeq + 1 →
      CanRekey cfg env) (hp : c.phase = .running) (hconn : c.connected = true)
    (hr : c.rekeying = false) {pt : Bytes} {ep : Endpoint S} {fs : List (Sealed S × Bool)}
    {ok : Bool} (hsend : c.toEndpoint.Sends msgKeepalive pt ep fs ok)
    (hm : MaybeRekeys cfg env { c with toEndpoint := ep } c' o) : Counted cfg c' 0 := by
  have hrep : ep.rekeying = false := hsend.frame.2.1.trans hr
  obtain ⟨hwithin, -⟩ := (hi.within hr).sends hsend
  -- what the keepalive frame leaves of the counter when no rekey can start
  have hlow : ∀ k, ep.keys = some k → ¬ CanRekey cfg env → k.sendSeq < cfg.rekeyThreshold := by
    intro k₁ hk₁ hno
    by_contra hge
    cases hsend with
    | idle hb =>
      rcases hb with hb | ⟨hb, -⟩
      · rw [hb] at hk₁; cases hk₁
      · rw [hr] at hb; cases hb
    | sealed hk =>
      cases hk₁
      exact hno (hcan _ hk hr (Nat.not_lt.1 hge))
  cases hm with
  | no hno =>
    refine .of_free hp hconn hrep fun k hk => ?_
    by_contra hgt
    have hdue : cfg.rekeyThreshold ≤ k.sendSeq := by omega
    have := hlow k hk (hno k hk hdue)
    omega
  | unsent _ _ hsend₂ hno =>
    refine .of_free hp hconn (hsend₂.frame.2.1.trans hrep) fun k₂ hk₂ => ?_
    cases hsend₂ with
    | idle hb =>
      rcases hb with hb | ⟨hb, -⟩
      · rw [show ep.keys = none from hb] at hk₂; cases hk₂
      · rw [show ep.rekeying = true from hb] at hrep; cases hrep
    | @sealed k₁ _ _ _ _ hk₁ =>
      cases hk₂
      exact hlow k₁ hk₁ (hno (by rw [show ep.keys = some k₁ from hk₁]; rfl))
  | started _ _ hsend₂ =>
    obtain ⟨hwithin₂, -⟩ := hwithin.sends hsend₂
    exact .of_busy hp hconn rfl (.inl (hwithin₂.mono (by omega)))

/-- **Every event of a client with a connection keeps the invariant.** -/
theorem Counted.steps (hX : S.XKLaws) (hi : Counted cfg c n)
    (hn : cfg.rekeyThreshold + n + 3 ≤ 2 ^ 32)
    (hcan : e = .keepalive → ∀ k, c.keys = some k → c.rekeying = false →
      cfg.rekeyThreshold ≤ k.sendSeq + 1 → CanRekey cfg env)
    (h : Steps cfg env c e c' o) : Counted cfg c' (if e = .keepalive then 0 else n + 1) := by
  have hle : n ≤ n + 1 := Nat.le_succ n
  cases h with
  | idle _ _ htick =>
    split_ifs with he
    · exact (hi.reset (htick he)).keeps (Nat.le_refl 0) rfl rfl rfl rfl rfl
    · exact hi.keeps hle rfl rfl rfl rfl rfl
  | keyless => exact hi.keeps hle rfl rfl rfl rfl rfl
  | hangup hk hdead => exact .of_keyless hk fun hl => absurd hl (by simp [hdead])
  | cookie hp =>
    have hk := hi.keyless (by rw [hp]; rfl)
    exact .of_keyless hk fun _ _ => (hi.waiting (by rw [hp]; rfl) (by rw [hp]; nofun)).1
  | keyed hp =>
    have hr := (hi.waiting (by rw [hp]; rfl) (by rw [hp]; nofun)).1
    refine ⟨nofun, fun _ _ => ⟨hr, fun k hk => ?_⟩, nofun, fun k hk _ => ?_, fun _ _ hr' => ?_⟩
    · cases hk; rfl
    · cases hk; exact Nat.zero_le _
    · rw [show c.rekeying = true from hr'] at hr; cases hr
  | @opened k k' r c' o data stats last hkeyed hk ho hep _ _ _ _ _ _ _ hphase =>
    have hk' : c'.keys = some k' := congrArg Endpoint.keys hep
    have hr : c'.rekeying = c.rekeying := (congrArg Endpoint.rekeying hep :)
    have hhs : c'.rekeyHs = c.rekeyHs := (congrArg Endpoint.rekeyHs hep :)
    rcases hphase with ⟨hp, hconn⟩ | ⟨hp, hconn⟩
    · exact hi.keeps hle hp hconn hr hhs (by
        rw [hk', hk, Option.map_some, Option.map_some, ho.send])
    · cases hrk : c.rekeying with
      | false =>
        exact .of_free hp hconn (hr.trans hrk)
          (((hi.within hrk).opened hk ho hk').mono (by simp))
      | true =>
        refine .of_busy hp hconn (hr.trans hrk) ?_
        rw [hhs]
        refine (hi.busy k hk hrk).imp_left fun hlt k₁ h₁ => ?_
        rw [hk'] at h₁
        cases h₁
        have := ho.keys.2.2
        omega
  | sent hp _ hty hsend _ hno =>
    rw [if_neg hno]
    cases hsend with
    | idle => exact hi.keeps hle rfl rfl rfl rfl rfl
    | sealed hk hrk =>
      have hr : c.rekeying = false := by
        cases hr : c.rekeying with
        | false => rfl
        | true => rw [isRekey_of_mem hty] at hrk; cases hrk hr
      refine .of_free hp (hi.connected hp (by rw [hk]; rfl)) hr fun k₁ h₁ => ?_
      cases h₁
      have := hi.within hr _ hk
      exact Nat.succ_le_succ this
  | keepalive hp hconn hr hsend hm => exact hi.tick hn (hcan rfl) hp hconn hr hsend hm
  | rekeyUnread hc =>
    obtain ⟨k, hk, ho⟩ := hc.opened
    exact hi.keeps hle rfl rfl rfl rfl (by rw [hk, Option.map_some, Option.map_some, ho.send])
  | rekeyUnwritten hc hst =>
    exact .of_busy hc.running (hi.connected_of_continues hc) hc.rekeying
      (.inr ⟨_, rfl, fun m => hX.read_turn hst⟩)
  | rekeyIncomplete hc hst =>
    refine .of_busy hc.running (hi.connected_of_continues hc) hc.rekeying (.inl fun k hk => ?_)
    cases hk
    exact Nat.le_pred_of_lt (hi.room hc hst)
  | rekeyUnsent hc _ hst₃ hks hsend =>
    refine .of_busy hc.running (hi.connected_of_continues hc)
      (hsend.frame.2.1.trans hc.rekeying) (.inr ⟨_, hsend.frame.2.2.1, fun m => ?_⟩)
    exact hX.read_done hst₃ (by rw [hks]; rfl)
  | rekeyed hc =>
    refine .of_free hc.running (hi.connected_of_continues hc) rfl fun k hk => ?_
    cases hk
    exact Nat.zero_le _

/-- Every frame that the client seals has a counter below `2 ^ 32`. -/
theorem Counted.frames (hi : Counted cfg c n) (hn : cfg.rekeyThreshold + n + 3 ≤ 2 ^ 32)
    (h : Steps cfg env c e c' o) : ∀ f ∈ o.frames, f.1.ctr < 2 ^ 32 := by
  -- outside a rekey only
  have hfree : ∀ {typ : UInt8} {pt : Bytes} {ep : Endpoint S} {fs : List (Sealed S × Bool)}
      {ok : Bool}, isRekey typ = false → c.toEndpoint.Sends typ pt ep fs ok →
      ∀ f ∈ fs, f.1.ctr < 2 ^ 32 := by
    intro typ pt ep fs ok hty hsend f hf
    cases hr : c.rekeying with
    | false =>
      have := ((hi.within hr).sends hsend).2 f hf
      omega
    | true =>
      cases hsend with
      | idle => cases hf
      | sealed _ hrk => rw [hrk hr] at hty; cases hty
  have hthird : ∀ {data : Bytes} {k' : Keys S} {g : Frame} {hs hs' : S.HS}
      {st : HsStep S.HS S.Key} {typ : UInt8} {pt : Bytes} {ep : Endpoint S} {now : ℤ}
      {fs : List (Sealed S × Bool)} {ok : Bool}, c.Continues data k' g hs →
      S.read hs g.payload = some st →
      { c.toEndpoint with keys := some k', lastRecv := now, rekeyHs := some hs' }.Sends typ pt
        ep fs ok → ∀ f ∈ fs, f.1.ctr < 2 ^ 32 := by
    intro data k' g hs hs' st typ pt ep now fs ok hc hst hsend f hf
    obtain ⟨-, k, hk, hby⟩ := hsend.sealedBy hf
    cases hk
    rw [hby.ctr]
    exact hi.room hc hst
  cases h with
  | idle => nofun
  | keyless => nofun
  | hangup _ _ _ _ _ _ hf =>
    rcases hf with hf | ⟨ep, ok, hsend⟩
    · rw [hf]; nofun
    · exact hfree (by decide) hsend
  | cookie => nofun
  | keyed => nofun
  | opened _ _ _ _ _ _ _ hf => rw [hf]; nofun
  | sent _ _ hty hsend => exact hfree (isRekey_of_mem hty) hsend
  | @keepalive pt ep fs ok c' o hp hconn hr hsend hm =>
    obtain ⟨hwithin, hlt⟩ := (hi.within hr).sends hsend
    have hmaybe : ∀ f ∈ o.frames, f.1.ctr ≤ cfg.rekeyThreshold + n + 1 := by
      cases hm with
      | no => nofun
      | unsent _ _ hsend₂ => exact (hwithin.sends hsend₂).2
      | started _ _ hsend₂ => exact (hwithin.sends hsend₂).2
    intro f hf
    rcases List.mem_append.1 hf with hf | hf
    · have := hlt f hf
      omega
    · have := hmaybe f hf
      omega
  | rekeyUnread => nofun
  | rekeyUnwritten => nofun
  | rekeyIncomplete => nofun
  | rekeyUnsent hc hst _ _ hsend => exact hthird hc hst hsend
  | rekeyed hc hst _ _ hsend => exact hthird hc hst hsend

/-- A client without a connection seals nothing. -/
theorem step_of_not_live (hlive : c.phase.live = false) (hk : c.keys = none)
    (h : c.step cfg env e = .ok (c', o)) :
    c'.keys = none ∧ (c'.phase.live = true → c'.phase ≠ .running → c'.rekeying = false) ∧
      o.frames = [] ∧ o.installed = [] := by
  have hconnect : ∀ {c₁ : Client S}, (c₁.phase = .backoff ∨ c₁.rekeying = false) →
      c₁.phase.live = true → c₁.phase ≠ .running → c₁.rekeying = false := by
    rintro c₁ (hb | hr) hl -
    · rw [hb] at hl; cases hl
    · exact hr
  cases hp : c.phase with
  | backoff =>
    unfold step at h
    rw [hp] at h
    cases e with
    | cancel =>
      cases h
      refine ⟨hk, fun hl hr => ?_, rfl, rfl⟩
      dsimp only at hl hr
      split_ifs at hl hr
      · exact absurd rfl hr
      · cases hl
    | retry =>
      obtain ⟨i₀, st, -, -, rfl, rfl⟩ | ⟨⟨t, rfl⟩, hf, hin, -⟩ := connect_spec h
      · exact ⟨rfl, hconnect (.inr rfl), rfl, rfl⟩
      · exact ⟨rfl, hconnect (.inl rfl), hf, hin⟩
    | _ => cases h; exact ⟨hk, by rw [hp]; nofun, rfl, rfl⟩
  | stopped =>
    unfold step at h
    rw [hp] at h
    cases h
    exact ⟨hk, by rw [hp]; nofun, rfl, rfl⟩
  | _ => rw [hp] at hlive; cases hlive

/-- The client, metered: the events since the last keepalive tick are counted. -/
def metered (S : Suite) (cfg : ClientConfig) : LTS (Metered (Client S) S) (ClientEnv S × Event) :=
  Metered.lts (fun c l c' o => c.step cfg l.1 l.2 = .ok (c', o))
    (fun n l _ => if l.2 = .keepalive then 0 else n + 1) Prod.fst

/-- The condition on the client's events: between two keepalive ticks they are too few to take the
counter from the threshold to the end of the number space, and a rekey that is due on a tick can be
started. -/
def Paced (cfg : ClientConfig) (m : Metered (Client S) S) (l : ClientEnv S × Event) : Prop :=
  cfg.rekeyThreshold + m.events + 3 ≤ 2 ^ 32 ∧
    (l.2 = .keepalive → ∀ k, m.st.keys = some k → m.st.rekeying = false →
      cfg.rekeyThreshold ≤ k.sendSeq + 1 → CanRekey cfg l.1)

theorem Counted.step (hX : S.XKLaws) {m : Metered (Client S) S} {l : ClientEnv S × Event}
    (hG : Paced cfg m l) (hi : Counted cfg m.st m.events)
    (h : m.st.step cfg l.1 l.2 = .ok (c', o)) :
    Metered.Keeps (Counted cfg) Client.toEndpoint Prod.fst m.st c' o
      (if l.2 = .keepalive then 0 else m.events + 1) := by
  cases hlive : m.st.phase.live with
  | true =>
    have hs := step_spec hlive hi.keyless h
    exact ⟨hi.steps hX hG.1 hG.2 hs, hi.frames hG.1 hs, hs.numbering⟩
  | false =>
    have hkeyed : m.st.phase.keyed = false := by
      cases hk : m.st.phase.keyed with
      | false => rfl
      | true => rw [Phase.live_of_keyed hk] at hlive; cases hlive
    have hk := hi.keyless hkeyed
    obtain ⟨hk', hr, hf, hin⟩ := step_of_not_live hlive hk h
    exact ⟨.of_keyless hk' hr, by rw [hf]; nofun,
      fun ins log => numbering_quiet hin hf (by rw [hk, hk'])⟩

end Client

/-! ### Clients that send -/

namespace Client

variable {cfg : ClientConfig} {c : Client S} {k : Keys S}

/-- A client outside a rekey sends the packet `[0x45]`. -/
theorem exists_tun_step (cfg : ClientConfig)
    (hlen : ∀ k n p, (S.aeadSeal k n p).length = p.length + 16) (hmtu : 1 ≤ cfg.mtu)
    (hpad : cfg.shaping.padding = .none) (env : ClientEnv S)
    (hp : c.phase = .running) (ht : c.t = true) (hr : c.rekeying = false)
    (hk : c.keys = some k) : ∃ c' o f, c.step cfg env (.tun [0x45]) = .ok (c', o) ∧
      c'.phase = .running ∧ c'.t = true ∧ c'.rekeying = false ∧ c'.keys = some k.advance ∧
      o.installed = [] ∧ o.frames.map Prod.fst = [f] ∧ f.key = k.sendKey ∧ f.ctr = k.sendSeq := by
  obtain ⟨⟨ep, fs, sent⟩, hsend⟩ := (Endpoint.encryptSend_ok_iff hlen cfg.shaping env.now env.send
    c.toEndpoint msgData [0x45]).2 (.inr (by rw [Shaping.paddingOf_none hpad]; decide))
  rw [← ht] at hsend
  have hpkt : ¬ (cfg.mtu < ([0x45] : Bytes).length ∨ !isIPv4 [0x45]) := by
    rintro (h | h)
    · exact Int.not_lt.2 hmtu h
    · cases h
  have hstep : c.step cfg env (.tun [0x45]) = .ok
      (if sent then { c with toEndpoint := ep } else { c with toEndpoint := ep }.drop,
        { frames := fs }) := by
    have hloop : c.step cfg env (.tun [0x45]) = c.sendPacket cfg env [0x45] := by
      unfold step
      rw [hp]
    rw [hloop, sendPacket, if_neg hpkt, encryptSend, hsend]
    cases sent <;> rfl
  have hspec := Endpoint.encryptSend_spec hsend
  cases hspec with
  | idle hb =>
    rcases hb with hb | ⟨hb, -⟩
    · rw [hk] at hb; cases hb
    · rw [hr] at hb; cases hb
  | @sealed k' f ok stats last hk' _ hby =>
    cases hk.symm.trans hk'
    refine ⟨_, _, f, hstep, ?_, ?_, ?_, ?_, rfl, rfl, hby.key, hby.ctr⟩
    · cases sent <;> exact hp
    · cases sent <;> exact ht
    · cases sent <;> exact hr
    · cases sent <;> rfl

/-- It can send any number of packets before the next keepalive tick. -/
theorem exists_tun_run (cfg : ClientConfig)
    (hlen : ∀ k n p, (S.aeadSeal k n p).length = p.length + 16) (hmtu : 1 ≤ cfg.mtu)
    (hpad : cfg.shaping.padding = .none) (env : ClientEnv S)
    {m : Metered (Client S) S} (hp : m.st.phase = .running) (ht : m.st.t = true)
    (hr : m.st.rekeying = false) (hk : m.st.keys = some k) (n : ℕ) :
    ∃ ls m', (metered S cfg).Run m ls m' ∧ m'.installed = m.installed ∧
      m'.log.map (fun f => (f.key, f.ctr)) = m.log.map (fun f => (f.key, f.ctr)) ++
        (List.range n).map (fun i => (k.sendKey, k.sendSeq + i)) ∧
      m'.st.phase = .running ∧ m'.st.t = true ∧ m'.st.rekeying = false ∧
      ∃ k', m'.st.keys = some k' ∧ k'.sendKey = k.sendKey ∧ k'.sendSeq = k.sendSeq + n := by
  induction n with
  | zero => exact ⟨[], m, .nil, rfl, by simp, hp, ht, hr, k, hk, rfl, rfl⟩
  | succ n ih =>
    obtain ⟨ls, m', run, hin, hlog, hp', ht', hr', k', hk', hkey, hseq⟩ := ih
    obtain ⟨c, o, f, hs, hp₁, ht₁, hr₁, hk₁, hin₁, hf, hfkey, hfctr⟩ :=
      exists_tun_step cfg hlen hmtu hpad env hp' ht' hr' hk'
    refine ⟨_, ⟨c, m'.events + 1, m'.installed, m'.log ++ [f]⟩,
      run.snoc (l := (env, .tun [0x45])) ⟨o, hs, rfl, by rw [hin₁]; simp, by rw [hf]⟩, hin, ?_, hp₁,
      ht₁, hr₁, k'.advance, hk₁, hkey, ?_⟩
    · rw [List.map_append, hlog, List.range_succ, List.map_append, List.append_assoc]
      simp [hfkey, hfctr, hkey, hseq]
    · rw [Keys.sendSeq_advance, hseq, Nat.add_assoc]

theorem rekeyThreshold_le (cfg : ClientConfig) : cfg.rekeyThreshold ≤ maxWireSeq := by
  unfold ClientConfig.rekeyThreshold
  split_ifs
  · exact Nat.min_le_right ..
  · exact Nat.le_refl _

/-- The first events after a tick are within the condition. -/
theorem paced_of_events_le {m : Metered (Client S) S} {l : ClientEnv S × Event}
    (hm : m.events ≤ 1000) (hl : l.2 ≠ .keepalive) : Paced cfg m l := by
  have := rekeyThreshold_le cfg
  unfold maxWireSeq at this
  exact ⟨by omega, fun h => absurd h hl⟩

/-- The frame that assigns the address 10.0.0.2 of a /24 network. -/
def plainAssign : Bytes :=
  List.replicate 12 0 ++ (innerOf ⟨1, 2, 3, 4⟩ msgAssign 0
    (assignPayload 24 ⟨10, 0, 0, 2⟩ ⟨10, 0, 0, 1⟩) [] ++ Plain.trailer 133)

theorem open_plainAssign : ∃ w, (newKeys plain true (5, 133)).open plainAssign =
    .ok ({ newKeys plain true (5, 133) with replay := w },
      .ok ⟨⟨1, 2, 3, 4⟩, msgAssign, 0, assignPayload 24 ⟨10, 0, 0, 2⟩ ⟨10, 0, 0, 1⟩⟩) := by
  obtain ⟨k', r, h, ho⟩ := (newKeys plain true (5, 133)).open_ok plainAssign
  have ha : authenticate plain 133 plainAssign =
      some ⟨⟨1, 2, 3, 4⟩, msgAssign, 0, assignPayload 24 ⟨10, 0, 0, 2⟩ ⟨10, 0, 0, 1⟩⟩ := rfl
  obtain rfl := ho.of_below ha (.inl rfl)
  cases ho with
  | accepted f w => exact ⟨w, h⟩

/-- A client of the plain suite that waits for its address takes it. -/
theorem step_plainAssign {cfg : ClientConfig} {c : Client plain} (hp : c.phase = .waitAssign 0 1)
    (hk : c.keys = some (newKeys plain true (5, 133))) (htag : c.tag = ⟨1, 2, 3, 4⟩) :
    ∃ w, c.step cfg (plainEnv 2 0) (.recv (some plainAssign)) =
      .ok (assigned (plainEnv 2 0) { c with keys := some { newKeys plain true (5, 133) with
        replay := w } } 0 24 ⟨10, 0, 0, 2⟩ ⟨10, 0, 0, 1⟩, {}) := by
  obtain ⟨w, hopen⟩ := open_plainAssign
  have hloop : c.step cfg (plainEnv 2 0) (.recv (some plainAssign)) =
      c.recvAssign (plainEnv 2 0) 0 plainAssign := by
    unfold step
    rw [hp]
  have hparse : parseAssign (assignPayload 24 ⟨10, 0, 0, 2⟩ ⟨10, 0, 0, 1⟩) =
      .ok (some (24, ⟨10, 0, 0, 2⟩, ⟨10, 0, 0, 1⟩)) := rfl
  refine ⟨w, ?_⟩
  rw [hloop, recvAssign, hk]
  dsimp only
  rw [hopen, Go.ok_bind]
  dsimp only
  rw [if_neg (not_not.2 htag.symm), if_neg (not_not.2 rfl), hparse]
  rfl

/-- The client 42 of the plain suite connects, whatever its configuration. -/
theorem exists_plain_steps (cfg : ClientConfig) (hkp : cfg.keypair = ⟨[41], [42]⟩) :
    ∃ c₁ o₁ c₂ o₂ c₃, (new plain).step cfg (plainEnv 0 7) .retry = .ok (c₁, o₁) ∧
      c₁.step cfg (plainEnv 1 5) (.recv (some (Plain.message [2, 7, 9] []))) = .ok (c₂, o₂) ∧
      c₂.step cfg (plainEnv 2 0) (.recv (some plainAssign)) = .ok (c₃, {}) ∧
      (c₁.phase.live = true ∧ o₁.frames = [] ∧ o₁.installed = []) ∧
      (c₂.phase.live = true ∧ o₂.frames = [] ∧ o₂.installed = [(5, 133)]) ∧
      c₃.phase = .running ∧ c₃.t = true ∧ c₃.rekeying = false ∧
      c₃.keys.map Keys.send = some (5, 0) := by
  have hrun : ∃ c₁ o₁, (new plain).step cfg (plainEnv 0 7) .retry = .ok (c₁, o₁) ∧
        (c₁.phase.live = true ∧ o₁.frames = [] ∧ o₁.installed = []) ∧
      ∃ c₂ o₂, c₁.step cfg (plainEnv 1 5) (.recv (some (Plain.message [2, 7, 9] []))) =
        .ok (c₂, o₂) ∧ (c₂.phase.live = true ∧ o₂.frames = [] ∧ o₂.installed = [(5, 133)]) ∧
        c₂.phase = .waitAssign 0 1 ∧
        c₂.keys = some (newKeys plain true (5, 133)) ∧ c₂.tag = ⟨1, 2, 3, 4⟩ ∧ c₂.t = true ∧
        c₂.rekeying = false := by
    obtain ⟨kp, pub, mtu, timeout, hsTimeout, packets, time, shaping⟩ := cfg
    cases hkp
    exact ⟨_, _, rfl, ⟨rfl, rfl, rfl⟩, _, _, rfl, ⟨rfl, rfl, rfl⟩, rfl, rfl, rfl, rfl, rfl⟩
  obtain ⟨c₁, o₁, h₁, ho₁, c₂, o₂, h₂, ho₂, hp, hk, htag, ht, hr⟩ := hrun
  obtain ⟨w, h₃⟩ := step_plainAssign hp hk htag
  exact ⟨c₁, o₁, c₂, o₂, _, h₁, h₂, h₃, ho₁, ho₂, rfl, ht, hr, rfl⟩

/-- The client 42 of the plain suite has just connected, whatever its configuration. -/
theorem exists_plain_connected (cfg : ClientConfig) (hkp : cfg.keypair = ⟨[41], [42]⟩) : ∃ ls m,
    ((metered plain cfg).restrict (Paced cfg)).Run (.start (.new plain)) ls m ∧ m.events = 3 ∧
    m.installed = [5] ∧ m.log = [] ∧ m.st.phase = .running ∧ m.st.t = true ∧
    m.st.rekeying = false ∧ m.st.keys.map Keys.send = some (5, 0) := by
  obtain ⟨c₁, o₁, c₂, o₂, c₃, h₁, h₂, h₃, ⟨-, f₁, i₁⟩, ⟨-, f₂, i₂⟩, hp, ht, hr, hk⟩ :=
    exists_plain_steps cfg hkp
  have s₁ : (metered plain cfg).step (.start (.new plain)) (plainEnv 0 7, .retry)
      ⟨c₁, 1, [], []⟩ := ⟨o₁, h₁, rfl, by rw [i₁]; rfl, by rw [f₁]; rfl⟩
  have s₂ : (metered plain cfg).step ⟨c₁, 1, [], []⟩
      (plainEnv 1 5, .recv (some (Plain.message [2, 7, 9] []))) ⟨c₂, 2, [5], []⟩ :=
    ⟨o₂, h₂, rfl, by rw [i₂]; rfl, by rw [f₂]; rfl⟩
  have s₃ : (metered plain cfg).step ⟨c₂, 2, [5], []⟩ (plainEnv 2 0, .recv (some plainAssign))
      ⟨c₃, 3, [5], []⟩ := ⟨{}, h₃, rfl, rfl, rfl⟩
  have hpaced : ∀ (c : Client plain) (n : ℕ) (ins : List UInt8) (env : ClientEnv plain) (e : Event),
      n ≤ 2 → e ≠ .keepalive → Paced cfg ⟨c, n, ins, []⟩ (env, e) :=
    fun c n ins env e hn he => paced_of_events_le (Nat.le_trans hn (by decide)) he
  exact ⟨_, ⟨c₃, 3, [5], []⟩, .snoc (.snoc (.snoc .nil
    ⟨hpaced _ 0 _ _ _ (by decide) (by simp), s₁⟩) ⟨hpaced _ 1 _ _ _ (by decide) (by simp), s₂⟩)
    ⟨hpaced _ 2 _ _ _ (by decide) (by simp), s₃⟩, rfl, rfl, rfl, hp, ht, hr, hk⟩

end Client

/-! ### The server -/

namespace ServerSession

variable {cfg : ServerConfig} {env : ServerEnv S} {s s' : ServerSession S} {o : Out S} {e : Event}
  {data : Bytes} {err : Option SessionErr} {running : Bool} {b : ℕ}

theorem Handles.numbering (h : Handles cfg env s data (s', o, err)) (ins : List S.Key)
    (log : List (Sealed S)) :
    (numbering s.keys ins log).Steps (numbering s'.keys (ins ++ o.installed.map Prod.snd)
      (log ++ o.frames.map Prod.fst)) := by
  have hsend : ∀ {k k' : Keys S} {r : Except OpenErr Frame}, s.keys = some k →
      k.Opened data k' r → (some k').map Keys.send = s.keys.map Keys.send := by
    intro k k' r hk ho
    rw [hk, Option.map_some, Option.map_some, ho.send]
  have hsame : ∀ {k' : Keys S}, (some k').map Keys.send = s.keys.map Keys.send →
      VibeVpn.numbering (some k') ins log = VibeVpn.numbering s.keys ins log := by
    intro k' hk'
    rw [VibeVpn.numbering, hk']
    rfl
  cases h with
  | refused _ hf _ hin => exact numbering_quiet hin hf rfl
  | tagged => exact numbering_quiet rfl rfl rfl
  | answered _ _ _ _ _ _ _ hf _ hin => exact numbering_quiet hin hf rfl
  | rejected => exact numbering_quiet rfl rfl rfl
  | @keyed h st ip ks ep fs sent _ _ _ _ _ _ hs =>
    simpa [newKeys] using (numbering_install false ks).trans (hs.numbering _ log)
  | opened hk ho => exact numbering_quiet rfl rfl (hsend hk ho)
  | delivered hk ho => exact numbering_quiet rfl rfl (hsend hk ho)
  | echoed hk ho _ _ hs =>
    rw [← hsame (hsend hk ho)]
    simpa using hs.numbering ins log
  | rekey1 hk ho _ _ _ _ _ _ hs =>
    rw [← hsame (hsend hk ho)]
    simpa using hs.numbering ins log
  | aborted hk ho => exact numbering_quiet rfl rfl (hsend hk ho)
  | @rekeyed k k' f h st ks stats => simpa [newKeys] using numbering_install false ks

/-- A datagram takes at most one number. -/
theorem Handles.within (hb : s.Within b) (h : Handles cfg env s data (s', o, err)) :
    s'.Within (if o.installed = [] then b + 1 else 1) ∧ ∀ f ∈ o.frames, f.1.ctr ≤ b := by
  have hnew : ∀ ks : S.Key × S.Key,
      ({ s.toEndpoint with keys := some (newKeys S false ks) } : Endpoint S).Within 0 := by
    intro ks k hk
    cases hk
    exact Nat.le_refl 0
  cases h with
  | refused _ hf _ hin => rw [if_pos hin, hf]; exact ⟨hb.mono (Nat.le_succ b), nofun⟩
  | tagged => exact ⟨hb.mono (Nat.le_succ b), nofun⟩
  | answered _ _ _ _ _ _ _ hf _ hin => rw [if_pos hin, hf]; exact ⟨hb.mono (Nat.le_succ b), nofun⟩
  | rejected => exact ⟨hb.mono (Nat.le_succ b), nofun⟩
  | @keyed h st ip ks ep fs sent _ _ _ _ _ _ hs =>
    obtain ⟨hw, hf⟩ := (hnew ks).sends hs
    exact ⟨hw, fun f hm => Nat.le_trans (hf f hm) (Nat.zero_le b)⟩
  | opened hk ho => exact ⟨(hb.opened hk ho rfl).mono (Nat.le_succ b), nofun⟩
  | delivered hk ho => exact ⟨(hb.opened hk ho rfl).mono (Nat.le_succ b), nofun⟩
  | echoed hk ho _ _ hs => exact (hb.opened hk ho rfl).sends hs
  | rekey1 hk ho _ _ _ _ _ _ hs => exact (hb.opened hk ho rfl).sends hs
  | aborted hk ho => exact ⟨(hb.opened hk ho rfl).mono (Nat.le_succ b), nofun⟩
  | @rekeyed k k' f h st ks stats =>
    exact ⟨Endpoint.Within.mono (fun k hk => by cases hk; exact Nat.le_refl 0) (Nat.zero_le 1),
      nofun⟩

theorem Loops.numbering (h : Loops cfg env s e (s', o, running)) (ins : List S.Key)
    (log : List (Sealed S)) :
    (numbering s.keys ins log).Steps (numbering s'.keys (ins ++ o.installed.map Prod.snd)
      (log ++ o.frames.map Prod.fst)) := by
  cases h with
  | idle => exact numbering_quiet rfl rfl rfl
  | recv hh => exact hh.numbering ins log
  | sent _ _ hs => simpa using hs.numbering ins log
  | timeout => exact numbering_quiet rfl rfl rfl

theorem Loops.within (hb : s.Within b) (h : Loops cfg env s e (s', o, running)) :
    s'.Within (if o.installed = [] then b + 1 else 1) ∧ ∀ f ∈ o.frames, f.1.ctr ≤ b := by
  cases h with
  | idle => exact ⟨hb.mono (Nat.le_succ b), nofun⟩
  | recv hh => exact Handles.within (s := { s with lastRecv := env.now }) hb hh
  | sent _ _ hs => exact hb.sends hs
  | timeout => exact ⟨hb.mono (Nat.le_succ b), nofun⟩

/-- **The server numbers its frames.** -/
theorem Steps.numbering (h : Steps cfg env s e (s', o, running)) (ins : List S.Key)
    (log : List (Sealed S)) :
    (numbering s.keys ins log).Steps (numbering s'.keys (ins ++ o.installed.map Prod.snd)
      (log ++ o.frames.map Prod.fst)) := by
  cases h with
  | run hl => exact hl.numbering ins log
  | halt hl => rw [Out.append_empty]; exact hl.numbering ins log
  | @close s₁ o₁ ep fs ok hl hs =>
    have hclose := hs.numbering (ins ++ o₁.installed.map Prod.snd) (log ++ o₁.frames.map Prod.fst)
    simpa [Out.append] using (hl.numbering ins log).trans hclose

/-- An event takes at most two numbers. -/
theorem Steps.within (hb : s.Within b) (h : Steps cfg env s e (s', o, running)) :
    s'.Within (if o.installed = [] then b + 2 else 2) ∧ ∀ f ∈ o.frames, f.1.ctr ≤ b + 1 := by
  have hloop : ∀ {s₁ : ServerSession S} {o₁ : Out S} {r : Bool}, Loops cfg env s e (s₁, o₁, r) →
      s₁.Within (if o₁.installed = [] then b + 2 else 2) ∧ ∀ f ∈ o₁.frames, f.1.ctr ≤ b + 1 := by
    intro s₁ o₁ r hl
    obtain ⟨hw, hf⟩ := hl.within hb
    exact ⟨hw.mono (by split_ifs <;> omega), fun f hm => Nat.le_succ_of_le (hf f hm)⟩
  cases h with
  | run hl => exact hloop hl
  | halt hl => rw [Out.append_empty]; exact hloop hl
  | @close s₁ o₁ ep fs ok hl hs =>
    obtain ⟨hw, hf⟩ := hl.within hb
    obtain ⟨hw', hf'⟩ := hw.sends hs
    have hin : (o₁.append { frames := fs }).installed = o₁.installed := by simp [Out.append]
    rw [hin]
    refine ⟨hw'.mono (by split_ifs <;> omega), fun f hm => ?_⟩
    rcases List.mem_append.1 hm with hm | hm
    · exact Nat.le_succ_of_le (hf f hm)
    · have := hf' f hm
      split_ifs at this <;> omega

/-- The server session, metered: the events since it last installed keys are counted. -/
def metered (S : Suite) (cfg : ServerConfig) :
    LTS (Metered (ServerSession S × Bool) S) (Label S) :=
  Metered.lts (fun x l x' o => x.2 = true ∧ x.1.step cfg l.1 l.2 = .ok (x'.1, o, x'.2))
    (fun n _ o => if o.installed = [] then n + 1 else 1) Prod.snd

/-- The condition on the server's events: under one key there are fewer than `2 ^ 31`. -/
def Paced (m : Metered (ServerSession S × Bool) S) (_ : Label S) : Prop := m.events < 2 ^ 31

theorem counted_step {m : Metered (ServerSession S × Bool) S} {l : Label S}
    {x' : ServerSession S × Bool} (hG : Paced m l) (hi : m.st.1.Within (2 * m.events))
    (h : m.st.1.step cfg l.1 l.2 = .ok (x'.1, o, x'.2)) :
    Metered.Keeps (fun x n => x.1.Within (2 * n)) (fun x => x.1.toEndpoint) Prod.snd m.st x' o
      (if o.installed = [] then m.events + 1 else 1) := by
  have hs := step_spec h
  obtain ⟨hw, hf⟩ := hs.within hi
  refine ⟨?_, fun f hm => ?_, hs.numbering⟩
  · split_ifs at hw ⊢
    · exact hw
    · exact hw
  · have := hf f hm
    unfold Paced at hG
    omega

end ServerSession

/-! ### Both ends -/

/-- **No wire number repeats under one key.**  If the client's events between two keepalive ticks
are few enough, a rekey that is due on a tick can be started, and the server handles fewer than
`2 ^ 31` events under one key, then each end seals every frame with a counter below `2 ^ 32`, and no
two frames under the same key have the same wire number. -/
theorem seq_numbers_unique (hX : S.XKLaws) :
    (∀ (cfg : ClientConfig) (m : Metered (Client S) S) (ls : List (ClientEnv S × Client.Event)),
      ((Client.metered S cfg).restrict (Client.Paced cfg)).Run (.start (.new S)) ls m →
      m.installed.Nodup →
      (∀ f ∈ m.log, f.ctr < 2 ^ 32) ∧ (m.log.map fun f => (f.key, f.seq)).Nodup) ∧
    (∀ (cfg : ServerConfig) (sid : ℕ) (peerIP : Option Bytes) (now : ℤ)
      (m : Metered (ServerSession S × Bool) S) (ls : List (ServerSession.Label S)),
      ((ServerSession.metered S cfg).restrict ServerSession.Paced).Run
        (.start (.new S sid peerIP now, true)) ls m →
      m.installed.Nodup →
      (∀ f ∈ m.log, f.ctr < 2 ^ 32) ∧ (m.log.map fun f => (f.key, f.seq)).Nodup) := by
  constructor
  · intro cfg m ls run hf
    exact Metered.run_unique (Client.Counted cfg) Client.toEndpoint
      (fun m l a' o hG hi h => hi.step hX hG h) (.of_keyless rfl fun _ _ => rfl) rfl run hf
  · intro cfg sid peerIP now m ls run hf
    exact Metered.run_unique (fun x n => x.1.Within (2 * n)) (fun x => x.1.toEndpoint)
      (fun m l a' o hG hi h => ServerSession.counted_step hG hi h.2) nofun rfl run hf

/-- A client that has sent two packets, and a server session that has assigned an address. -/
theorem seq_numbers_unique_plain :
    (∃ ls m, ((Client.metered plain Client.plainConfig).restrict
        (Client.Paced Client.plainConfig)).Run (.start (.new plain)) ls m ∧
      m.log.length = 2 ∧ (m.log.map fun f => (f.key, f.seq)).Nodup) ∧
    ∃ ls m, ((ServerSession.metered plain ServerSession.plainConfig).restrict
        ServerSession.Paced).Run (.start (.new plain 1 none 0, true)) ls m ∧
      m.log.length = 1 ∧ (m.log.map fun f => (f.key, f.seq)).Nodup := by
  constructor
  · obtain ⟨ls, m, run, hev, hin, hlog, hp, ht, hr, hkeys⟩ :=
      Client.exists_plain_connected Client.plainConfig rfl
    obtain ⟨k, hk, -⟩ := Option.map_eq_some_iff.1 hkeys
    obtain ⟨c₁, o₁, f₁, h₁, hp₁, ht₁, hr₁, hk₁, hi₁, hf₁, -⟩ := Client.exists_tun_step
      Client.plainConfig Plain.aeadLaws.seal_length (by decide) rfl (Client.plainEnv 3 0) hp ht hr
      hk
    obtain ⟨c₂, o₂, f₂, h₂, -, -, -, -, hi₂, hf₂, -⟩ := Client.exists_tun_step
      Client.plainConfig Plain.aeadLaws.seal_length (by decide) rfl
      (Client.plainEnv 4 0) hp₁ ht₁ hr₁ hk₁
    have hstep₁ : (Client.metered plain Client.plainConfig).step m
        (Client.plainEnv 3 0, .tun [0x45]) ⟨c₁, 4, [5], [f₁]⟩ :=
      ⟨o₁, h₁, by rw [hev]; rfl, by rw [hin, hi₁]; rfl, by rw [hlog, hf₁]; rfl⟩
    have hstep₂ : (Client.metered plain Client.plainConfig).step ⟨c₁, 4, [5], [f₁]⟩
        (Client.plainEnv 4 0, .tun [0x45]) ⟨c₂, 5, [5], [f₁, f₂]⟩ :=
      ⟨o₂, h₂, rfl, by rw [hi₂]; rfl, by rw [hf₂]; rfl⟩
    have hpaced₁ : Client.Paced Client.plainConfig m (Client.plainEnv 3 0, .tun [0x45]) :=
      Client.paced_of_events_le (by rw [hev]; decide) nofun
    have hpaced₂ : Client.Paced Client.plainConfig ⟨c₁, 4, [5], [f₁]⟩
        (Client.plainEnv 4 0, .tun [0x45]) :=
      Client.paced_of_events_le (Nat.le_of_ble_eq_true rfl) nofun
    have run₂ := (run.snoc ⟨hpaced₁, hstep₁⟩).snoc ⟨hpaced₂, hstep₂⟩
    exact ⟨_, _, run₂, rfl,
      ((seq_numbers_unique Plain.xkLaws).1 _ _ _ run₂ (List.nodup_singleton _)).2⟩
  · obtain ⟨m₁, h₁, g₁, m, h₂, hin, hlen⟩ :
        ∃ m₁, (ServerSession.metered plain ServerSession.plainConfig).step
          (.start (.new plain 1 none 0, true)) (ServerSession.plainEnv 1 9,
            .recv (some (Plain.message [1, 7] [1, 2, 3, 4]))) m₁ ∧ m₁.events = 1 ∧
        ∃ m, (ServerSession.metered plain ServerSession.plainConfig).step m₁
          (ServerSession.plainEnv 2 0, .recv (some [3, 7, 9, 5, 42])) m ∧
          m.installed = [133] ∧ m.log.length = 1 :=
      ⟨⟨(_, true), _, _, _⟩, ⟨_, ⟨rfl, rfl⟩, rfl, rfl, rfl⟩, rfl,
        ⟨(_, true), _, _, _⟩, ⟨_, ⟨rfl, rfl⟩, rfl, rfl, rfl⟩, rfl, rfl⟩
    have run : ((ServerSession.metered plain ServerSession.plainConfig).restrict
        ServerSession.Paced).Run (.start (.new plain 1 none 0, true)) _ m :=
      .snoc (.snoc .nil ⟨by unfold ServerSession.Paced; decide, h₁⟩)
        ⟨by unfold ServerSession.Paced; rw [g₁]; decide, h₂⟩
    exact ⟨_, m, run, hlen, ((seq_numbers_unique Plain.xkLaws).2 _ 1 none 0 m _ run
      (by rw [hin]; decide)).2⟩

/-- The smallest configuration file. -/
def plainFile : Config.Client :=
  { server := "vpn.example:4433", privateKey := "a", serverPublicKey := "b" }

/-- **A repeated number.**  The default configuration is accepted, and a client that has it sends
`2 ^ 32 + 1` packets between two keepalive ticks: the last frame has the number of the first. -/
theorem seq_number_repeats : ∃ (h : Config.Host) (ls : List (ClientEnv plain × Client.Event))
    (m : Metered (Client plain) plain),
    plainFile.applyDefaults.validate h = .ok () ∧
    (Client.metered plain (plainFile.applyDefaults.session ⟨[41], [42]⟩ [2])).Run
      (.start (.new plain)) ls m ∧
    m.installed.Nodup ∧ ¬ (m.log.map fun f => (f.key, f.seq)).Nodup := by
  obtain ⟨ls, m₀, run₀, -, hin, hlog, hp, ht, hr, hkeys⟩ :=
    Client.exists_plain_connected (plainFile.applyDefaults.session ⟨[41], [42]⟩ [2]) rfl
  obtain ⟨k, hk, hs⟩ := Option.map_eq_some_iff.1 hkeys
  obtain ⟨hkey, hseq⟩ := Prod.mk.inj hs
  obtain ⟨ls', m, run, hin', hlog', -⟩ := Client.exists_tun_run
    (plainFile.applyDefaults.session ⟨[41], [42]⟩ [2]) Plain.aeadLaws.seal_length (by decide) rfl
    (Client.plainEnv 3 0) hp ht hr hk (2 ^ 32 + 1)
  refine ⟨⟨fun _ => .ok ("vpn.example", "4433"), fun _ => true, fun _ => .ok false, id⟩, _, m,
    Config.Client.validate_applyDefaults _ (by decide) rfl (by decide) (by decide),
    run₀.of_restrict.append run, by rw [hin', hin]; decide, fun hnd => ?_⟩
  -- the frames 0 and 2 ^ 32 have the same number
  have hissued : m.log.map (fun f => (f.key, f.ctr)) =
      (List.range (2 ^ 32 + 1)).map fun i => ((5 : UInt8), i) := by
    rw [hlog', hlog, hkey, hseq, List.map_nil, List.nil_append]
    simp only [Nat.zero_add]
  refine Numbering.not_nodup_mod (N := 2 ^ 32) (by decide) (5 : UInt8) ?_
  rw [← hissued, List.map_map]
  exact hnd

end VibeVpn

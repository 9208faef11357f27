import VibeVpn.Session.KeyLag

/-!
# When both ends agree on their keys after a rekey

The client swaps its keys when it has sent the third message of a rekey, and the server when it has
read it.  If that message is lost, or the server has given up on the rekey by then, the ends are
left with different keys.

`Conn.Heeds` is a condition on the network and on the timing of the server's rekey timeout under
which this does not happen; `Conn.Sync` is the invariant of the runs that meet it.

* `Conn.Sync.step` : every step that meets the condition keeps the invariant;
* `Conn.keys_agree` : in these runs, **whenever neither end is rekeying, both have the same keys**;
* `Conn.keys_differ` : a run that does not meet it, after which they differ for good.
-/

namespace VibeVpn

namespace Conn

variable {S : Suite} {cc : ClientConfig} {cs : ServerConfig} {n : ℕ} {x : Conn S}

/-- A connection whose handshake has just completed with the keys `ks`. -/
structure Established (cc : ClientConfig) (ks : S.Key × S.Key) (x : Conn S) : Prop where
  /-- The client has the keys, and waits for its address or already has it. -/
  client : x.client.phase.keyed = true ∧ x.client.keys = some (newKeys S true ks)
  /-- The server has the keys and has received nothing. -/
  server : ∃ k, x.server.keys = some k ∧ k.pair = ks.swap ∧ k.replay.high = noHigh
  /-- Nobody is rekeying. -/
  idle : x.client.rekeying = false ∧ x.client.rekeyHs = none ∧ x.server.rekeying = false ∧
    x.server.rekeyHs = none ∧ x.server.stats.rekeys = 0
  /-- The server has learnt the client's tag and static key. -/
  peer : x.server.hs = none ∧ x.client.tag = x.server.tag ∧
    x.server.clientKey = some cc.keypair.pub
  /-- No other keys have been installed. -/
  keys : x.clientKeys = [ks] ∧ x.serverKeys = [ks]
  /-- What is in flight to the server belongs to the handshake. -/
  c2s : ∀ p ∈ x.c2s, ∃ b, p = .raw b ∧
    ((∃ m₁ cookie i, S.Sent1 cc.keypair cc.serverPublic m₁ i ∧ b = m₁ ++ cookie) ∨ Third cc b ks)
  /-- What is in flight to the client is no rekey message. -/
  s2c : ∀ f, .frame f ∈ x.s2c → f.key = ks.2 ∧ f.typ ≠ msgRekey2

/-- The condition on a step.  The network does not lose the last copy of a third message that the
server can still open.  The server's rekey timeout does not strike while a second message that the
client can open, or a third message that the server can open, is in flight.  The client has sealed
fewer than `2 ^ 32` frames when it continues a rekey. -/
def Heeds (cs : ServerConfig) (x : Conn S) : Label S → Prop
  | .faultC2S (.lose i) => ∀ f k, x.c2s[i]? = some (.frame f) → f.typ = msgRekey3 →
      x.server.keys = some k → f.key = k.recvKey →
      ∃ g, .frame g ∈ x.c2s.eraseIdx i ∧ g.typ = msgRekey3 ∧ g.key = k.recvKey
  | .server env .tick => x.server.rekeying = true →
      cs.handshakeTimeout < env.now - x.server.rekeyStart →
      (∀ f k, .frame f ∈ x.s2c → f.typ = msgRekey2 → x.client.keys = some k →
        f.key ≠ k.recvKey) ∧
      ∀ f k, .frame f ∈ x.c2s → f.typ = msgRekey3 → x.server.keys = some k → f.key ≠ k.recvKey
  | .toClient _ _ => x.client.rekeying = true → ∀ k, x.client.keys = some k → k.sendSeq < 2 ^ 32
  | _ => True

/-- The client's attempt to rekey its current keys, if any, began with `m₁`. -/
structure Attempt (cc : ClientConfig) (x : Conn S) (m₁ : Bytes) : Prop where
  hs : x.client.phase.live = true → ∀ hs, x.client.rekeyHs = some hs →
    S.Sent1 cc.keypair cc.serverPublic m₁ hs ∨ ∀ m, S.read hs m = none
  frames : ∀ k f, x.client.keys = some k → .frame f ∈ x.c2s → f.typ = msgRekey1 →
    f.key = k.sendKey → x.client.rekeying = true ∧ f.payload = m₁

/-- Both ends have the same keys; the server is rekeying only in answer to `m₁`. -/
structure Aligned (cs : ServerConfig) (x : Conn S) (m₁ : Bytes) : Prop where
  length : x.clientKeys.length = x.serverKeys.length
  window : ∀ kc k, x.client.keys = some kc → x.server.keys = some k → k.Below kc.sendSeq
  busy : x.client.phase.live = true → x.server.rekeying = true → x.client.rekeying = true ∧
    ∃ r m₂, x.server.rekeyHs = some r ∧ S.Answered cs.keypair m₁ m₂ r ∧
      ∀ f k, .frame f ∈ x.s2c → f.typ = msgRekey2 → x.server.keys = some k →
        f.key = k.sendKey → f.payload = m₂
  free : x.client.phase.live = true → x.server.rekeying = false →
    ∀ f k, .frame f ∈ x.s2c → f.typ = msgRekey2 → x.server.keys = some k → f.key ≠ k.sendKey

/-- The client has swapped its keys and the server has not yet: the third message `f` of the rekey
is in flight, and the server will accept and read it. -/
structure Behind (cc : ClientConfig) (cs : ServerConfig) (x : Conn S) (f : Sealed S) (k : Keys S) :
    Prop where
  length : x.clientKeys.length = x.serverKeys.length + 1
  keys : x.server.keys = some k
  rekeying : x.server.rekeying = true
  third : ∃ r m₁ m₂ ks, x.server.rekeyHs = some r ∧ S.Answered cs.keypair m₁ m₂ r ∧
    S.Sent3 cc.keypair cs.keypair.pub m₁ m₂ f.payload ks ∧ x.clientKeys.getLast? = some ks
  mem : .frame f ∈ x.c2s
  typ : f.typ = msgRekey3
  key : f.key = k.recvKey
  tag : f.tag = x.server.tag
  ctr : f.ctr < 2 ^ 32
  window : k.Below f.ctr
  last : ∀ g, .frame g ∈ x.c2s → g.key = k.recvKey → g = f ∨ g.ctr < f.ctr ∧ g.typ ≠ msgRekey3

/-- The invariant of the runs that meet the condition. -/
structure Sync (cc : ClientConfig) (cs : ServerConfig) (x : Conn S) : Prop where
  keyed : x.client.phase.live = true → x.client.phase.keyed = true
  server : x.server.keys.isSome
  hs : x.server.hs = none
  clientKey : x.server.clientKey = some cc.keypair.pub
  rekeyHs : ∀ h, x.server.rekeyHs = some h → Answered cs h
  tag : x.client.phase.live = true → x.client.tag = x.server.tag
  counter : ∀ k f, x.client.keys = some k → .frame f ∈ x.c2s → f.key = k.sendKey →
    f.ctr < k.sendSeq
  turn : ∃ m₁, Attempt cc x m₁ ∧ (Aligned cs x m₁ ∨ ∃ f k, Behind cc cs x f k)

theorem Lag.live_of_keys (hlag : Lag cc n x) {k : Keys S} (hk : x.client.keys = some k) :
    x.client.phase.live = true := by
  cases h : x.client.phase.live with
  | true => rfl
  | false => rw [hlag.dead h] at hk; cases hk

/-! ### The client -/

/-- The client seals nothing with the key that a server behind it still has. -/
theorem Behind.key_ne (hlag : Lag cc n x) (hfresh : x.Fresh) {f : Sealed S} {k : Keys S}
    (hb : Behind cc cs x f k) (hlive : x.client.phase.live = true) {ks : S.Key × S.Key}
    (hk : x.client.keys.map Keys.pair = some ks) : ks.1 ≠ k.recvKey := by
  intro he
  have hlast := hlag.serverKeys_last hb.keys
  have hpos := (List.getElem?_eq_some_iff.1 hlast).1
  have hidx := index_eq_of_map hfresh.c2s (hlag.clientKeys_last hlive hk)
    (getElem?_mono hlag.behind hlast) he
  have := hb.length
  omega

/-- An event of the client that installs no keys. -/
theorem Sync.client_keeps (hi : Sync cc cs x) (hlag : Lag cc n x) (hfresh : x.Fresh) {now : ℤ}
    {c' : Client S} {o : Out S} (hlive : x.client.phase.live = true) (ho : Harmless cc x o)
    (hkeyed : c'.phase.live = true → c'.phase.keyed = true)
    (htag : c'.phase.live = true → c'.tag = x.client.tag)
    (hadv : x.client.toEndpoint.Advances c'.toEndpoint o.frames)
    (hatt : ∀ m₁, Attempt cc x m₁ → ∃ m₁', Attempt cc (x.clientMove now c' o) m₁' ∧
      (c'.phase.live = true →
        m₁' = m₁ ∧ c'.rekeying = x.client.rekeying ∨ x.client.rekeying = false)) :
    Sync cc cs (x.clientMove now c' o) := by
  have hkeys : (x.clientMove now c' o).clientKeys = x.clientKeys := by
    simp [clientMove, ho.installed]
  refine ⟨hkeyed, hi.server, hi.hs, hi.clientKey, hi.rekeyHs,
    fun h => (htag h).trans (hi.tag hlive), ?_, ?_⟩
  · intro k' f hk' hf hkey
    obtain ⟨k, hk, hpair, hle, hnew⟩ := hadv k' hk'
    rcases List.mem_append.1 hf with hf | hf
    · exact Nat.lt_of_lt_of_le (hi.counter k f hk hf (hkey.trans (congrArg Prod.fst hpair))) hle
    · exact hnew _ (frame_mem_sent.1 hf)
  · obtain ⟨m₁, ha, hturn⟩ := hi.turn
    obtain ⟨m₁', ha', hm⟩ := hatt m₁ ha
    refine ⟨m₁', ha', ?_⟩
    rcases hturn with hal | ⟨f, k, hb⟩
    · refine .inl ⟨hkeys.symm ▸ hal.length, ?_, ?_, fun _ => hal.free hlive⟩
      · intro kc k hkc hk
        obtain ⟨kc₀, hkc₀, -, hle, -⟩ := hadv kc hkc
        exact (hal.window kc₀ k hkc₀ hk).mono hle
      · intro hlive' hrk
        obtain ⟨hbusy, h⟩ := hal.busy hlive hrk
        rcases hm hlive' with ⟨rfl, hrk'⟩ | hidle
        · exact ⟨hrk'.trans hbusy, h⟩
        · rw [hidle] at hbusy
          cases hbusy
    · refine .inr ⟨f, k, hkeys.symm ▸ hb.length, hb.keys, hb.rekeying, hkeys.symm ▸ hb.third,
        List.mem_append_left _ hb.mem, hb.typ, hb.key, hb.tag, hb.ctr, hb.window, ?_⟩
      intro g hg hkey
      rcases List.mem_append.1 hg with hg | hg
      · exact hb.last g hg hkey
      · obtain ⟨-, r, hr⟩ := ho.frames g (frame_mem_sent.1 hg)
        exact absurd hkey (hb.key_ne hlag hfresh hlive hr)

/-- An event of the client that neither starts a rekey nor completes one. -/
theorem Sync.client_quiet (hi : Sync cc cs x) (hlag : Lag cc n x) (hfresh : x.Fresh) {now : ℤ}
    {c' : Client S} {o : Out S} (hlive : x.client.phase.live = true) (ho : Harmless cc x o)
    (hno : ∀ f, (f, true) ∈ o.frames → f.typ ≠ msgRekey1)
    (hadv : x.client.toEndpoint.Advances c'.toEndpoint o.frames)
    (hlive' : c'.keys.isSome → c'.phase.live = true)
    (hkeyed : c'.phase.live = true → c'.phase.keyed = true)
    (htag : c'.phase.live = true → c'.tag = x.client.tag)
    (hrk : c'.phase.live = true → c'.rekeying = x.client.rekeying)
    (hhs : c'.phase.live = true → ∀ hs, c'.rekeyHs = some hs →
      x.client.rekeyHs = some hs ∨ ∀ m, S.read hs m = none) :
    Sync cc cs (x.clientMove now c' o) := by
  refine hi.client_keeps hlag hfresh hlive ho hkeyed htag hadv fun m₁ ha => ⟨m₁, ⟨?_, ?_⟩, ?_⟩
  · intro h hs hh
    exact (hhs h hs hh).elim (ha.hs hlive hs) .inr
  · intro k' f hk' hf hty hkey
    obtain ⟨k, hk, hpair, -⟩ := hadv k' hk'
    rcases List.mem_append.1 hf with hf | hf
    · obtain ⟨h1, h2⟩ := ha.frames k f hk hf hty (hkey.trans (congrArg Prod.fst hpair))
      have hl : c'.phase.live = true := hlive' (by rw [show c'.keys = some k' from hk']; rfl)
      exact ⟨(hrk hl).trans h1, h2⟩
    · exact absurd hty (hno f (frame_mem_sent.1 hf))
  · exact fun h => .inl ⟨rfl, hrk h⟩

/-- The client starts a rekey, after a keepalive. -/
theorem Sync.client_started (hi : Sync cc cs x) (hlag : Lag cc n x) (hfresh : x.Fresh) {now : ℤ}
    {ep ep' : Endpoint S} {fs fs' : List (Sealed S × Bool)} {pt m₁ : Bytes} {hs : S.HS} {ok : Bool}
    (hlive : x.client.phase.live = true) (hidle : x.client.rekeying = false)
    (hsend : x.client.toEndpoint.Sends msgKeepalive pt ep fs ok)
    (hsend' : ep.Sends msgRekey1 m₁ ep' fs' true)
    (hsent : S.Sent1 cc.keypair cc.serverPublic m₁ hs)
    (ho : Harmless cc x (({ frames := fs } : Out S).append { frames := fs' })) :
    Sync cc cs (x.clientMove now
      { x.client with toEndpoint := { ep' with rekeyHs := some hs, rekeying := true } }
      (({ frames := fs } : Out S).append { frames := fs' })) := by
  have hadv := hsend.advances.trans hsend'.advances
  refine hi.client_keeps hlag hfresh hlive ho hi.keyed (fun _ => ?_) hadv fun m ha =>
    ⟨m₁, ⟨?_, ?_⟩, fun _ => .inr hidle⟩
  · exact hsend'.frame.1.trans hsend.frame.1
  · intro _ hs' hh
    cases hh
    exact .inl hsent
  · intro k' f hk' hf hty hkey
    refine ⟨rfl, ?_⟩
    rcases List.mem_append.1 hf with hf | hf
    · obtain ⟨k, hk, hpair, -⟩ := hadv k' hk'
      have := (ha.frames k f hk hf hty (hkey.trans (congrArg Prod.fst hpair))).1
      rw [hidle] at this
      cases this
    · rcases List.mem_append.1 (frame_mem_sent.1 hf) with hf | hf
      · rw [(hsend.key hf).1] at hty
        cases hty
      · obtain ⟨-, k, hk, hby⟩ := hsend'.sealedBy hf
        exact hby.payload

/-- A pair that is only about to be installed differs from those before it. -/
theorem fst_ne_next {kss : List (S.Key × S.Key)} {ks ks' : S.Key × S.Key} {j : ℕ}
    (hnew : ((kss ++ [ks]).map Prod.fst).Nodup) (hj : kss[j]? = some ks') : ks'.1 ≠ ks.1 := by
  intro he
  have hlast : (kss ++ [ks])[kss.length]? = some ks := List.getElem?_concat_length
  have hidx := index_eq_of_map hnew (getElem?_mono (List.prefix_append ..) hj) hlast he
  have := (List.getElem?_eq_some_iff.1 hj).1
  omega

/-- No frame in flight is sealed with a key the client is only about to install. -/
theorem Lag.key_ne_next (hlag : Lag cc n x) {ks : S.Key × S.Key}
    (hnew : ((x.clientKeys ++ [ks]).map Prod.fst).Nodup) {f : Sealed S} (hf : .frame f ∈ x.c2s) :
    f.key ≠ ks.1 := by
  obtain ⟨j, ks', hj, hkey, -⟩ := hlag.frameC2S f hf
  exact hkey ▸ fst_ne_next hnew hj

/-- Aligned ends have the same pair. -/
theorem Aligned.pair_eq {m₁ : Bytes} (hal : Aligned cs x m₁) (hlag : Lag cc n x)
    (hlive : x.client.phase.live = true) {kc k : Keys S} (hkc : x.client.keys = some kc)
    (hk : x.server.keys = some k) : kc.pair = k.pair.swap := by
  have h := hlag.clientKeys_last hlive (by rw [hkc]; rfl : _ = some kc.pair)
  have h' := hlag.serverKeys_last hk
  rw [← hlag.behind.eq_of_length hal.length.symm, h'] at h
  exact (Option.some.inj h).symm

/-- While the ends are aligned, no third message under their key is in flight. -/
theorem Aligned.no_rekey3 {m₁ : Bytes} (hal : Aligned cs x m₁) (hlag : Lag cc n x)
    (hfresh : x.Fresh) {k : Keys S} (hk : x.server.keys = some k) {f : Sealed S}
    (hf : .frame f ∈ x.c2s) (hkey : f.key = k.recvKey) : f.typ ≠ msgRekey3 := by
  intro hty
  obtain ⟨j, ks, hj, hjkey, h3⟩ := hlag.frameC2S f hf
  obtain ⟨ks', hj', -⟩ := h3 hty
  have hlast := hlag.serverKeys_last hk
  have hidx := index_eq_of_map hfresh.c2s hj (getElem?_mono hlag.behind hlast)
    (hjkey.symm.trans hkey)
  have hpos := (List.getElem?_eq_some_iff.1 hlast).1
  have hlt := (List.getElem?_eq_some_iff.1 hj').1
  have := hal.length
  omega

/-- The second message that a client of aligned ends reads is the server's answer to its first. -/
theorem Aligned.answers (hA : S.AeadLaws) {m₁ : Bytes} (hal : Aligned cs x m₁)
    (ha : Attempt cc x m₁) (hlag : Lag cc n x) (hid : x.Ideal) {p : Packet S} {k₀ k' : Keys S}
    {f : Frame} {hs : S.HS} {st : HsStep S.HS S.Key} (hk₀ : x.server.keys = some k₀)
    (hp : p ∈ x.s2c) (hc : x.client.Continues p.wire k' f hs)
    (hread : S.read hs f.payload = some st) :
    S.Sent1 cc.keypair cc.serverPublic m₁ hs ∧ x.server.rekeying = true ∧
      ∃ r, x.server.rekeyHs = some r ∧ S.Answered cs.keypair m₁ f.payload r := by
  obtain ⟨k, hk, ho⟩ := hc.opened
  have hlive : x.client.phase.live = true := by rw [hc.running]; rfl
  have hrecvKey : k.recvKey = k₀.sendKey := congrArg Prod.snd (hal.pair_eq hlag hlive hk hk₀)
  have hsent : S.Sent1 cc.keypair cc.serverPublic m₁ hs := by
    rcases ha.hs hlive hs hc.rekeyHs with h | h
    · exact h
    · rw [h] at hread
      cases hread
  obtain ⟨g, rfl, rfl, hgkey⟩ : ∃ g, p = .frame g ∧ f = g.frame ∧ g.key = k.recvKey := by
    cases p with
    | raw b => exact absurd (ho.authenticate.symm.trans (hid.rawS2C b k hp hk)) (by simp)
    | frame g =>
      obtain ⟨h1, h2⟩ := g.key_of_authenticate hA ho.authenticate
      exact ⟨g, rfl, h2, h1.symm⟩
  -- a server that is not rekeying has no second message in flight
  have hrk : x.server.rekeying = true := by
    cases h : x.server.rekeying with
    | true => rfl
    | false => exact absurd (hgkey.trans hrecvKey) (hal.free hlive h g k₀ hp hc.typ hk₀)
  obtain ⟨-, r, m₂, hr, hans, hpay⟩ := hal.busy hlive hrk
  obtain rfl : g.payload = m₂ := hpay g k₀ hp hc.typ hk₀ (hgkey.trans hrecvKey)
  exact ⟨hsent, hrk, r, hr, hans⟩

/-- The client completes a rekey: the third message is in flight to a server that waits for it. -/
theorem Sync.client_rekeyed (hA : S.AeadLaws) (hpub : Paired S cc cs)
    (hi : Sync cc cs x) (hlag : Lag cc n x) (hid : x.Ideal) (hfresh : x.Fresh) {env : ClientEnv S}
    {p : Packet S} {k' : Keys S} {f : Frame} {hs : S.HS} {st st₃ : HsStep S.HS S.Key}
    {ks : S.Key × S.Key} {ep : Endpoint S} {fs : List (Sealed S × Bool)} (hp : p ∈ x.s2c)
    (hc : x.client.Continues p.wire k' f hs) (hread : S.read hs f.payload = some st)
    (hwrite : S.write st.hs env.seed [] = some st₃) (hks : st₃.keys = some ks)
    (hsend : { x.client.toEndpoint with
      keys := some k', lastRecv := env.now, rekeyHs := some st₃.hs }.Sends msgRekey3 st₃.out
        ep fs true)
    (hnew : ((x.clientKeys ++ [ks]).map Prod.fst).Nodup)
    (hctr : ∀ k, x.client.keys = some k → k.sendSeq < 2 ^ 32)
    (hlen : x.clientKeys.length ≤ x.serverKeys.length) :
    Sync cc cs (x.clientMove env.now (Client.rekeyed env { x.client with toEndpoint := ep } ks)
      { frames := fs, installed := [ks] }) := by
  obtain ⟨k, hk, ho⟩ := hc.opened
  obtain ⟨k₀, hk₀⟩ := Option.isSome_iff_exists.1 hi.server
  have hlive : x.client.phase.live = true := by rw [hc.running]; rfl
  obtain ⟨m₁, ha, hal | ⟨g, k₁, hb⟩⟩ := hi.turn
  swap
  · have := hb.length
    omega
  have hsendKey : k.sendKey = k₀.recvKey := congrArg Prod.fst (hal.pair_eq hlag hlive hk hk₀)
  obtain ⟨hsent, hrk, r, hr, hans⟩ := hal.answers hA ha hlag hid hk₀ hp hc hread
  have hthird : S.Sent3 cc.keypair cs.keypair.pub m₁ f.payload st₃.out ks :=
    hpub.pins ▸ ⟨st.hs, env.seed, [], st₃, ⟨hs, st, hsent, hread, rfl⟩, hwrite, rfl, hks⟩
  cases hsend with
  | @sealed _ f₃ _ stats last hk₁ _ hby =>
    cases hk₁
    have hkey₃ : f₃.key = k.sendKey := hby.key.trans ho.keys.1
    have hctr₃ : f₃.ctr = k.sendSeq := hby.ctr.trans ho.keys.2.2
    have hlast : x.clientKeys[x.clientKeys.length - 1]? = some k.pair :=
      hlag.clientKeys_last hlive (by rw [hk]; rfl)
    -- nothing in flight is sealed with the new key
    have hfresh₃ : ∀ g, .frame g ∈ x.c2s ++ ({ frames := [(f₃, true)], installed := [ks] } :
        Out S).sent → g.key ≠ ks.1 := by
      intro g hg
      rcases List.mem_append.1 hg with hg | hg
      · exact hlag.key_ne_next hnew hg
      · obtain rfl : g = f₃ := by simpa using hg
        exact hkey₃ ▸ fst_ne_next hnew hlast
    refine ⟨fun _ => ?_, hi.server, hi.hs, hi.clientKey, hi.rekeyHs, fun _ => hi.tag hlive, ?_,
      [], ⟨fun _ => nofun, ?_⟩, .inr ⟨f₃, k₀, ?_⟩⟩
    · exact congrArg Phase.keyed hc.running
    · intro k₂ g hk₂ hg hkey
      cases hk₂
      exact absurd hkey (hfresh₃ g hg)
    · intro k₂ g hk₂ hg _ hkey
      cases hk₂
      exact absurd hkey (hfresh₃ g hg)
    · refine ⟨?_, hk₀, hrk, ⟨r, m₁, f.payload, ks, hr, hans, hby.payload ▸ hthird,
        List.getLast?_concat⟩, List.mem_append_right _ (by simp), hby.typ, hkey₃.trans hsendKey,
        hby.tag.trans (hi.tag hlive), hctr₃ ▸ hctr k hk, hctr₃ ▸ hal.window k k₀ hk hk₀, ?_⟩
      · change (x.clientKeys ++ [ks]).length = _
        rw [List.length_append, hal.length]
        rfl
      · intro q hq hkey
        rcases List.mem_append.1 hq with hq | hq
        · exact .inr ⟨hctr₃ ▸ hi.counter k q hk hq (hkey.trans hsendKey.symm),
            hal.no_rekey3 hlag hfresh hk₀ hq hkey⟩
        · exact .inl (by simpa using hq)

/-- **What the client does keeps the invariant.** -/
theorem Sync.clientSteps (hA : S.AeadLaws) (hX : S.XKLaws) (hpub : Paired S cc cs)
    (hi : Sync cc cs x) (hlag : Lag cc n x) (hid : x.Ideal) (hfresh : x.Fresh) {env : ClientEnv S}
    {e : Client.Event} {c' : Client S} {o : Out S} (hlive : x.client.phase.live = true)
    (hs : Client.Steps cc env x.client e c' o) (hfresh' : (x.clientMove env.now c' o).Fresh)
    (hrecv : x.FromServer e) (hdata : ∀ data, e = .recv (some data) → ∃ p ∈ x.s2c, data = p.wire)
    (hctr : ∀ data, e = .recv (some data) → x.client.rekeying = true →
      ∀ k, x.client.keys = some k → k.sendSeq < 2 ^ 32) :
    Sync cc cs (x.clientMove env.now c' o) := by
  -- an event that leaves the client as it was, but for its replay window and counters
  have hstill : ∀ {c'' : Client S}, x.client.toEndpoint.Advances c''.toEndpoint [] →
      c''.phase = x.client.phase → c''.tag = x.client.tag → c''.rekeying = x.client.rekeying →
      (∀ hs, c''.rekeyHs = some hs → x.client.rekeyHs = some hs ∨ ∀ m, S.read hs m = none) →
      Sync cc cs (x.clientMove env.now c'' {}) := by
    intro c'' hadv hp htag hrk hhs
    exact hi.client_quiet hlag hfresh hlive .empty (by simp) hadv (fun _ => hp ▸ hlive)
      (fun _ => hp ▸ hi.keyed hlive) (fun _ => htag) (fun _ => hrk) (fun _ => hhs)
  have hkeep : ∀ {s' : Endpoint S}, s'.keys = x.client.keys →
      x.client.toEndpoint.Advances s' [] := fun h =>
    .of_keys fun k hk => ⟨k, h ▸ hk, rfl, rfl⟩
  cases hs with
  | idle => exact hstill (hkeep rfl) rfl rfl rfl fun _ => .inl
  | keyless => exact hstill (hkeep rfl) rfl rfl rfl fun _ => .inl
  | hangup hk hdead hst _ hin hraw hf =>
    have hno : c'.phase.live ≠ true := by simp [hdead]
    refine hi.client_quiet hlag hfresh hlive (.of_hangup hin hraw hf) ?_ ?_ ?_
      (fun h => absurd h hno) (fun h => absurd h hno) (fun h => absurd h hno)
      (fun h => absurd h hno)
    · rcases hf with hf | ⟨ep, ok, hsend⟩
      · rw [hf]; simp
      · intro f hf
        rw [(hsend.key hf).1]
        decide
    · intro k' hk'
      rw [hk] at hk'
      cases hk'
    · rw [hk]; nofun
  | cookie hp => exact absurd (hi.keyed hlive) (by rw [hp]; nofun)
  | keyed hp => exact absurd (hi.keyed hlive) (by rw [hp]; nofun)
  | @opened k k' r c' o data stats last hkeyed hk ho hep ht hph hst hf hr hin =>
    have hk' : c'.keys = some k' := congrArg Endpoint.keys hep
    have htag : c'.tag = x.client.tag := (congrArg Endpoint.tag hep :)
    have hrk : c'.rekeying = x.client.rekeying := (congrArg Endpoint.rekeying hep :)
    have hhs : c'.rekeyHs = x.client.rekeyHs := (congrArg Endpoint.rekeyHs hep :)
    refine hi.client_quiet hlag hfresh hlive ⟨hin, by simp [hr], by simp [hf]⟩ (by simp [hf]) ?_
      (fun _ => Phase.live_of_keyed hph) (fun _ => hph) (fun _ => htag) (fun _ => hrk)
      fun _ hs hh => .inl (hhs ▸ hh)
    rw [hf]
    exact .of_opened hk ho hk'
  | @sent e typ pt ep fs ok stats hp he hty hsend hst =>
    refine hi.client_quiet hlag hfresh hlive (.of_sends hsend (ne_rekey3 hty)) (fun f hf => ?_)
      hsend.advances (fun _ => hlive) (fun _ => hi.keyed hlive) (fun _ => hsend.frame.1)
      (fun _ => hsend.frame.2.1) fun _ hs hh => .inl (hsend.frame.2.2.1 ▸ hh)
    rw [(hsend.key hf).1]
    rintro rfl
    revert hty
    decide
  | @keepalive pt ep fs ok c' o hp hconn hrk hsend hm =>
    cases hm with
    | no =>
      rw [Out.append_empty]
      refine hi.client_quiet hlag hfresh hlive (.of_sends hsend (by decide)) (fun f hf => ?_)
        hsend.advances (fun _ => hlive) (fun _ => hi.keyed hlive) (fun _ => hsend.frame.1)
        (fun _ => hsend.frame.2.1) fun _ hs hh => .inl (hsend.frame.2.2.1 ▸ hh)
      rw [(hsend.key hf).1]
      decide
    | @unsent hs st ep' fs' hnew hwrite hsend' =>
      refine hi.client_quiet hlag hfresh hlive
        (.of_sends_sends hsend hsend' (by decide) (by decide)) (fun f hf => ?_)
        (hsend.advances.trans hsend'.advances) (fun _ => hlive) (fun _ => hi.keyed hlive)
        (fun _ => hsend'.frame.1.trans hsend.frame.1)
        (fun _ => hsend'.frame.2.1.trans hsend.frame.2.1)
        fun _ hs hh => .inl (hsend.frame.2.2.1 ▸ hsend'.frame.2.2.1 ▸ hh)
      -- the first message of the rekey was not sent
      rcases List.mem_append.1 hf with hf | hf
      · rw [(hsend.key hf).1]
        decide
      · exact absurd (hsend'.sealedBy hf).1 (by simp)
    | @started hs st ep' fs' hnew hwrite hsend' =>
      exact hi.client_started hlag hfresh hlive hrk hsend hsend'
        ⟨hs, env.seed, [], st, hnew, hwrite, rfl, rfl⟩
        (.of_sends_sends hsend hsend' (by decide) (by decide))
  | rekeyUnread hc hn =>
    obtain ⟨k, hk, ho⟩ := hc.opened
    exact hstill (.of_opened hk ho rfl) rfl rfl rfl fun _ => .inl
  | rekeyUnwritten hc hread hn =>
    obtain ⟨k, hk, ho⟩ := hc.opened
    refine hstill (.of_opened hk ho rfl) rfl rfl rfl fun hs' hh => ?_
    cases hh
    exact .inr fun m => hX.read_turn hread
  | rekeyIncomplete hc hread hwrite hn =>
    exact absurd hn (complete_of_read hX (hlag.rekeyHs hlive _ hc.rekeyHs) hread hwrite)
  | @rekeyUnsent k' f hs st st₃ ks ep fs data hc hread hwrite hks hsend =>
    obtain ⟨k, hk, ho⟩ := hc.opened
    refine hi.client_quiet hlag hfresh hlive (.of_unsent hsend)
      (fun f hf => absurd (hsend.sealedBy hf).1 (by simp))
      ((Endpoint.Advances.of_opened hk ho rfl).trans hsend.advances) (fun _ => hlive)
      (fun _ => hi.keyed hlive) (fun _ => hsend.frame.1) (fun _ => hsend.frame.2.1) ?_
    intro _ hs' hh
    obtain rfl : st₃.hs = hs' := Option.some.inj (hsend.frame.2.2.1.symm.trans hh)
    exact .inr fun m => hX.read_done hwrite (by rw [hks]; rfl)
  | @rekeyed k' f hs st st₃ ks ep fs data hc hread hwrite hks hsend =>
    obtain ⟨p, hp, rfl⟩ := hdata _ rfl
    exact hi.client_rekeyed hA hpub hlag hid hfresh hp hc hread hwrite hks hsend hfresh'.c2s
      (hctr _ rfl hc.rekeying) (hlag.length_le_of_continues hfresh hc hrecv)

/-! ### The server -/

/-- The datagrams `net` in flight to the server are those of `x`, without the one at hand. -/
structure Handed (x : Conn S) (p : Option (Packet S)) (net : List (Packet S)) : Prop where
  subset : net ⊆ x.c2s
  rest : ∀ q ∈ x.c2s, p = some q ∨ q ∈ net

theorem Handed.none (x : Conn S) : Handed x none x.c2s := ⟨fun _ => id, fun _ => .inr⟩

/-- The server has opened a frame, or sent some that are no second messages.  The datagram it was
handed is not the third message it waits for. -/
theorem Sync.server_quiet (hi : Sync cc cs x) (hlag : Lag cc n x) {p : Option (Packet S)}
    {net : List (Packet S)} (hnet : Handed x p net) {s' : ServerSession S} {up : Bool}
    {o : Out S} {k k' : Keys S} (hk : x.server.keys = some k) (hk' : s'.keys = some k')
    (hpair : k'.pair = k.pair)
    (hpeer : s'.hs = none ∧ s'.clientKey = x.server.clientKey ∧ s'.tag = x.server.tag)
    (hrk : s'.rekeying = x.server.rekeying) (hrh : s'.rekeyHs = x.server.rekeyHs)
    (hwin : ∀ N, k.Below N →
      (∀ g, p = some (.frame g) → .frame g ∈ x.c2s → g.key = k.recvKey → g.ctr < N) → k'.Below N)
    (hpass : ∀ f, Behind cc cs x f k → p ≠ some (.frame f)) (hin : o.installed = [])
    (hno : ∀ f, (f, true) ∈ o.frames → f.typ ≠ msgRekey2) :
    Sync cc cs ({ x with c2s := net }.serverMove s' up o) := by
  have hkeys : ({ x with c2s := net }.serverMove s' up o).serverKeys = x.serverKeys := by
    simp [serverMove, hin]
  have hsend : k'.sendKey = k.sendKey := congrArg Prod.fst hpair
  have hrecv : k'.recvKey = k.recvKey := congrArg Prod.snd hpair
  have hold : ∀ f, .frame f ∈ x.s2c ++ o.sent → f.typ = msgRekey2 → .frame f ∈ x.s2c := by
    intro f hf hty
    rcases List.mem_append.1 hf with hf | hf
    · exact hf
    · exact absurd hty (hno f (frame_mem_sent.1 hf))
  have hsome : s'.keys.isSome := by rw [hk']; rfl
  refine ⟨hi.keyed, hsome, hpeer.1, hpeer.2.1.trans hi.clientKey,
    fun h hh => hi.rekeyHs h (hrh ▸ hh), fun h => (hi.tag h).trans hpeer.2.2.symm,
    fun kc f hkc hf => hi.counter kc f hkc (hnet.subset hf), ?_⟩
  obtain ⟨m₁, ha, hturn⟩ := hi.turn
  refine ⟨m₁, ⟨ha.hs, fun kc f hkc hf => ha.frames kc f hkc (hnet.subset hf)⟩, ?_⟩
  rcases hturn with hal | ⟨f, k₀, hb⟩
  · refine .inl ⟨hkeys.symm ▸ hal.length, ?_, ?_, ?_⟩
    · intro kc k₁ hkc hk₁
      obtain rfl : k' = k₁ := Option.some.inj (hk'.symm.trans hk₁)
      refine hwin _ (hal.window kc k hkc hk) fun g _ hg hkey => hi.counter kc g hkc hg ?_
      have hpair := hal.pair_eq hlag (hlag.live_of_keys hkc) hkc hk
      exact hkey.trans (congrArg Prod.fst hpair).symm
    · intro hlive hr
      obtain ⟨h1, r, m₂, h2, h3, h4⟩ := hal.busy hlive (hrk ▸ hr)
      refine ⟨h1, r, m₂, hrh.trans h2, h3, fun f k₁ hf hty hk₁ hkey => ?_⟩
      obtain rfl : k' = k₁ := Option.some.inj (hk'.symm.trans hk₁)
      exact h4 f k (hold f hf hty) hty hk (hkey.trans hsend)
    · intro hlive hr f k₁ hf hty hk₁
      obtain rfl : k' = k₁ := Option.some.inj (hk'.symm.trans hk₁)
      rw [hsend]
      exact hal.free hlive (hrk ▸ hr) f k (hold f hf hty) hty hk
  · obtain rfl : k = k₀ := Option.some.inj (hk.symm.trans hb.keys)
    have hne := hpass f hb
    have hmem : .frame f ∈ net := (hnet.rest _ hb.mem).resolve_left hne
    refine .inr ⟨f, k', hkeys.symm ▸ hb.length, hk', hrk.trans hb.rekeying, ?_, hmem, hb.typ,
      hb.key.trans hrecv.symm, hb.tag.trans hpeer.2.2.symm, hb.ctr, ?_, ?_⟩
    · obtain ⟨r, m₁, m₂, ks, h1, h2⟩ := hb.third
      exact ⟨r, m₁, m₂, ks, hrh.trans h1, h2⟩
    · refine hwin _ hb.window fun g hg hmem' hkey => ?_
      rcases hb.last g hmem' hkey with rfl | h
      · exact absurd hg hne
      · exact h.1
    · intro g hg hkey
      exact hb.last g (hnet.subset hg) (hkey.trans hrecv)

/-- The server sends frames that are no second messages. -/
theorem Sync.server_sends (hi : Sync cc cs x) (hlag : Lag cc n x) {typ : UInt8} {pt : Bytes}
    {ep : Endpoint S} {fs : List (Sealed S × Bool)} {ok : Bool} (up : Bool)
    (hsend : x.server.toEndpoint.Sends typ pt ep fs ok) (hty : typ ≠ msgRekey2) :
    Sync cc cs (x.serverMove { x.server with toEndpoint := ep } up { frames := fs }) := by
  obtain ⟨k, hk⟩ := Option.isSome_iff_exists.1 hi.server
  have hnet := Handed.none x
  have hno : ∀ f, (f, true) ∈ fs → f.typ ≠ msgRekey2 := by
    intro f hf
    rw [(hsend.key hf).1]
    exact hty
  cases hsend with
  | idle =>
    exact hi.server_quiet hlag hnet hk hk rfl ⟨hi.hs, rfl, rfl⟩ rfl rfl (fun _ h _ => h)
      (fun _ _ => nofun) rfl hno
  | sealed hk₁ =>
    cases hk.symm.trans hk₁
    exact hi.server_quiet hlag hnet hk rfl rfl ⟨hi.hs, rfl, rfl⟩ rfl rfl (fun _ h _ => h)
      (fun _ _ => nofun) rfl hno

/-- What the window of the server has seen after it opened a datagram. -/
theorem Sync.opened_below (hA : S.AeadLaws) (hid : x.Ideal) {p : Packet S} (hp : p ∈ x.c2s)
    {k k' : Keys S} {r : Except OpenErr Frame} (hk : x.server.keys = some k)
    (ho : k.Opened p.wire k' r) {N : ℕ} (hb : k.Below N)
    (hlt : ∀ g, some p = some (.frame g) → .frame g ∈ x.c2s → g.key = k.recvKey → g.ctr < N) :
    k'.Below N := by
  refine ho.below hb fun f hf => ?_
  subst hf
  obtain ⟨g, rfl, hkey, rfl⟩ := frame_of_authenticate hA hid hp hk ho.authenticate
  exact Nat.lt_of_le_of_lt g.seq_le_ctr (hlt g rfl hp hkey)

/-- The third message that the server waits for is accepted. -/
theorem Behind.accepted (hA : S.AeadLaws) {f : Sealed S} {k k' : Keys S} (hb : Behind cc cs x f k)
    {r : Except OpenErr Frame} (ho : k.Opened f.wire k' r) : r = .ok f.frame := by
  have ha : authenticate S k.recvKey f.wire = some f.frame := by
    rw [← hb.key]
    exact f.authenticate_wire hA
  refine ho.of_below ha ?_
  have hseq : f.frame.seq = f.ctr := Nat.mod_eq_of_lt hb.ctr
  rw [hseq]
  exact hb.window

/-- A client with a connection has keys once the server has. -/
theorem Aligned.exists_clientKeys {m₁ : Bytes} (hal : Aligned cs x m₁) (hlag : Lag cc n x)
    (hlive : x.client.phase.live = true) {k : Keys S} (hk : x.server.keys = some k) :
    ∃ kc, x.client.keys = some kc ∧ kc.pair = k.pair.swap := by
  have hpos := (List.getElem?_eq_some_iff.1 (hlag.serverKeys_last hk)).1
  cases hkc : x.client.keys with
  | some kc => exact ⟨kc, rfl, hal.pair_eq hlag hlive hkc hk⟩
  | none =>
    have h := hlag.client hlive
    rw [hkc, Option.map_none] at h
    have hnil := List.getLast?_eq_none_iff.1 h.symm
    have := hal.length
    rw [hnil, List.length_nil] at this
    omega

/-- A third message that the server opens is the one it waits for. -/
theorem Sync.behind_of_rekey3 (hA : S.AeadLaws) (hi : Sync cc cs x) (hlag : Lag cc n x)
    (hid : x.Ideal) (hfresh : x.Fresh) {p : Packet S} (hp : p ∈ x.c2s) {k k' : Keys S} {f : Frame}
    (hk : x.server.keys = some k) (ho : k.Opened p.wire k' (.ok f)) (hty : f.typ = msgRekey3) :
    ∃ g, p = .frame g ∧ f = g.frame ∧ Behind cc cs x g k := by
  obtain ⟨g, rfl, hkey, rfl⟩ := frame_of_authenticate hA hid hp hk ho.authenticate
  obtain ⟨m₁, -, hal | ⟨g', k₀, hb⟩⟩ := hi.turn
  · exact absurd hty (hal.no_rekey3 hlag hfresh hk hp hkey)
  · cases hk.symm.trans hb.keys
    rcases hb.last g hp hkey with rfl | h
    · exact ⟨g, rfl, rfl, hb⟩
    · exact absurd hty h.2

/-- The server answers the first message of a rekey. -/
theorem Sync.server_rekey1 (hA : S.AeadLaws) (hi : Sync cc cs x) (hlag : Lag cc n x)
    (hid : x.Ideal) {env : ServerEnv S} {p : Packet S} {net : List (Packet S)} {k k' : Keys S}
    {f : Frame} {r : S.HS} {st st₂ : HsStep S.HS S.Key} {ep : Endpoint S}
    {fs : List (Sealed S × Bool)} {ok : Bool} (up : Bool) (hp : p ∈ x.c2s)
    (hnet : Handed x (some p) net) (hk : x.server.keys = some k) (ho : k.Opened p.wire k' (.ok f))
    (hty : f.typ = msgRekey1) (hrk : x.server.rekeying = false)
    (hnew : S.newServerHandshake cs.keypair = some r) (hread : S.read r f.payload = some st)
    (hwrite : S.write st.hs env.seed [] = some st₂)
    (hsend : { x.server.toEndpoint with
      lastRecv := env.now, keys := some k', rekeyHs := some st₂.hs, rekeying := true }.Sends
        msgRekey2 st₂.out ep fs ok) :
    Sync cc cs ({ x with c2s := net }.serverMove
      { x.server with toEndpoint := ep, rekeyStart := env.now } up { frames := fs }) := by
  have hans : S.Answered cs.keypair f.payload st₂.out st₂.hs :=
    ⟨r, env.seed, st, st₂, hnew, hread, hwrite, rfl, rfl⟩
  obtain ⟨m₁, ha, hal | ⟨g, k₀, hb⟩⟩ := hi.turn
  swap
  · exact absurd (hrk.symm.trans hb.rekeying) (by simp)
  cases hsend with
  | idle hblock => exact absurd hblock (by simp [Endpoint.Blocked, isRekey, msgRekey2])
  | @sealed _ f₂ _ stats last hk₁ _ hby =>
    cases hk₁
    have hkeys : ({ x with c2s := net }.serverMove { x.server with
        toEndpoint := { x.server.toEndpoint with
          keys := some k'.advance, rekeyHs := some st₂.hs, rekeying := true, stats,
          lastRecv := env.now, lastDataSend := last },
        rekeyStart := env.now } up { frames := [(f₂, ok)] }).serverKeys = x.serverKeys := by
      simp [serverMove]
    refine ⟨hi.keyed, rfl, hi.hs, hi.clientKey, fun h hh => ?_, hi.tag,
      fun kc f hkc hf => hi.counter kc f hkc (hnet.subset hf), m₁,
      ⟨ha.hs, fun kc f hkc hf => ha.frames kc f hkc (hnet.subset hf)⟩,
      .inl ⟨hkeys.symm ▸ hal.length, fun kc k₁ hkc hk₁ => ?_, fun hlive _ => ?_,
        fun _ hrk => by cases hrk⟩⟩
    · cases hh
      exact ⟨_, _, hans⟩
    · cases hk₁
      have hpair := hal.pair_eq hlag (hlag.live_of_keys hkc) hkc hk
      exact opened_below hA hid hp hk ho (hal.window kc k hkc hk) fun g _ hg hkey =>
        hi.counter kc g hkc hg (hkey.trans (congrArg Prod.fst hpair).symm)
    · obtain ⟨kc, hkc, hpair⟩ := hal.exists_clientKeys hlag hlive hk
      obtain ⟨g, rfl, hkey, rfl⟩ := frame_of_authenticate hA hid hp hk ho.authenticate
      obtain ⟨hbusy, rfl⟩ := ha.frames kc g hkc hp hty
        (hkey.trans (congrArg Prod.fst hpair).symm)
      refine ⟨hbusy, st₂.hs, st₂.out, rfl, hans, fun q k₁ hq hq2 hk₁ hqkey => ?_⟩
      cases hk₁
      rcases List.mem_append.1 hq with hq | hq
      · exact absurd (hqkey.trans ho.keys.1) (hal.free hlive hrk q k hq hq2 hk)
      · obtain ⟨rfl, -⟩ : q = f₂ ∧ _ := by simpa using hq
        exact hby.payload

/-- The server completes the rekey it waits for. -/
theorem Sync.server_rekeyed (hA : S.AeadLaws) (hX : S.XKLaws) (hpub : Paired S cc cs)
    (hi : Sync cc cs x) (hlag : Lag cc n x) (hid : x.Ideal) (hfresh : x.Fresh) {env : ServerEnv S}
    {p : Packet S} {net : List (Packet S)} {k k' : Keys S} {f : Frame} {h : S.HS}
    {st : HsStep S.HS S.Key} {ks : S.Key × S.Key} {stats : Stats} (up : Bool) (hp : p ∈ x.c2s)
    (hnet : Handed x (some p) net) (hk : x.server.keys = some k) (ho : k.Opened p.wire k' (.ok f))
    (hty : f.typ = msgRekey3) (hh : x.server.rekeyHs = some h)
    (hread : S.read h f.payload = some st) (hks : st.keys = some ks) :
    Sync cc cs ({ x with c2s := net }.serverMove
      { x.server with
        lastRecv := env.now
        keys := some (newKeys S false ks)
        rekeying := false
        rekeyHs := none
        stats } up { installed := [ks] }) := by
  obtain ⟨g, rfl, rfl, hb⟩ := hi.behind_of_rekey3 hA hlag hid hfresh hp hk ho hty
  obtain ⟨r, m₁, m₂, ks₀, hr, hans, hthird, hlast⟩ := hb.third
  cases hh.symm.trans hr
  obtain ⟨st', hread', hks'⟩ := hX.complete hpub.client hpub.server hthird hans
  cases hread.symm.trans hread'
  cases hks.symm.trans hks'
  obtain ⟨m, ha, -⟩ := hi.turn
  have hlen := hb.length
  refine ⟨hi.keyed, rfl, hi.hs, hi.clientKey, nofun, hi.tag,
    fun kc f hkc hf => hi.counter kc f hkc (hnet.subset hf), m,
    ⟨ha.hs, fun kc f hkc hf => ha.frames kc f hkc (hnet.subset hf)⟩,
    .inl ⟨?_, fun kc k₁ _ hk₁ => ?_, nofun, fun hlive _ q k₁ hq _ hk₁ hkey => ?_⟩⟩
  · change x.clientKeys.length = (x.serverKeys ++ [ks]).length
    rw [List.length_append]
    exact hlen
  · cases hk₁
    exact .inl rfl
  · cases hk₁
    rcases List.mem_append.1 hq with hq | hq
    · obtain ⟨j, ks', hj, hjkey⟩ := hlag.frameS2C q hq
      rw [List.getLast?_eq_getElem?] at hlast
      have := index_eq_of_map hfresh.s2c (getElem?_mono hlag.behind hj) hlast
        (hjkey.symm.trans hkey)
      have := (List.getElem?_eq_some_iff.1 hj).1
      omega
    · simp at hq

/-- **Handling a datagram keeps the invariant.** -/
theorem Sync.handles (hA : S.AeadLaws) (hX : S.XKLaws) (hpub : Paired S cc cs)
    (hi : Sync cc cs x) (hlag : Lag cc n x)
    (hid : x.Ideal) (hfresh : x.Fresh) {env : ServerEnv S} {s' : ServerSession S} {o : Out S}
    {err : Option SessionErr} {p : Packet S} {net : List (Packet S)} (hp : p ∈ x.c2s)
    (hnet : Handed x (some p) net)
    (h : ServerSession.Handles cs env { x.server with lastRecv := env.now } p.wire (s', o, err))
    (up : Bool) : Sync cc cs ({ x with c2s := net }.serverMove s' up o) := by
  obtain ⟨k, hk⟩ := Option.isSome_iff_exists.1 hi.server
  have hkeyed : ∀ {P : Prop}, x.server.keys = none → P := fun h => by rw [hk] at h; cases h
  -- a frame that is not the third message the server waits for
  have hquiet : ∀ {k k' k'' : Keys S} {r : Except OpenErr Frame} {ep : Endpoint S}
      {fs : List (Sealed S × Bool)} {tun : List (Bytes × Bool)}, x.server.keys = some k →
      k.Opened p.wire k' r →
      (∀ f, r = .ok f → f.tag = x.server.tag → f.typ = msgRekey3 →
        x.server.rekeying = false ∨ x.server.rekeyHs = none) →
      ep.keys = some k'' → k''.pair = k'.pair → k''.replay = k'.replay →
      ep.tag = x.server.tag → ep.rekeying = x.server.rekeying → ep.rekeyHs = x.server.rekeyHs →
      (∀ f, (f, true) ∈ fs → f.typ ≠ msgRekey2) →
      Sync cc cs ({ x with c2s := net }.serverMove { x.server with toEndpoint := ep } up
        { frames := fs, tun }) := by
    intro k k' k'' r ep fs tun hk ho h3 hk'' hpair hrep htag hrk hrh hno
    refine hi.server_quiet hlag hnet hk hk'' (hpair.trans ho.pair) ⟨hi.hs, rfl, htag⟩ hrk hrh
      (fun N hN hlt => ?_) (fun f hb hpf => ?_) rfl hno
    · unfold Keys.Below
      rw [hrep]
      exact opened_below hA hid hp hk ho hN hlt
    · cases hpf
      obtain rfl := hb.accepted hA ho
      obtain ⟨r, _, _, _, hr, -⟩ := hb.third
      rcases h3 f.frame rfl hb.tag hb.typ with h | h
      · rw [hb.rekeying] at h; cases h
      · rw [hr] at h; cases h
  have hno3 : ∀ {f : Frame} {typ : UInt8}, f.typ = typ → typ ≠ msgRekey3 →
      ∀ g, (.ok f : Except OpenErr Frame) = .ok g → g.tag = x.server.tag → g.typ = msgRekey3 →
        x.server.rekeying = false ∨ x.server.rekeyHs = none := by
    rintro f typ rfl hne g hg - hty
    cases hg
    exact absurd hty hne
  cases h with
  | refused hk => exact hkeyed hk
  | tagged hk => exact hkeyed hk
  | answered hk => exact hkeyed hk
  | rejected hk => exact hkeyed hk
  | keyed hk => exact hkeyed hk
  | opened hk ho h3 => exact hquiet hk ho h3 rfl rfl rfl rfl rfl rfl (by simp)
  | delivered hk ho _ hty =>
    exact hquiet hk ho (hno3 hty (by decide)) rfl rfl rfl rfl rfl rfl (by simp)
  | @echoed k k' f ep fs sent hk ho _ hty hsend =>
    have hno : ∀ f, (f, true) ∈ fs → f.typ ≠ msgRekey2 := fun f hf => by
      rw [(hsend.key hf).1]
      decide
    cases hsend with
    | idle => exact hquiet hk ho (hno3 hty (by decide)) rfl rfl rfl rfl rfl rfl hno
    | sealed hk₁ =>
      cases hk₁
      exact hquiet hk ho (hno3 hty (by decide)) rfl rfl rfl rfl rfl rfl hno
  | rekey1 hk ho _ hty hrk hnew hread hwrite hsend =>
    exact hi.server_rekey1 hA hlag hid up hp hnet hk ho hty hrk hnew hread hwrite hsend
  | @aborted k k' f h hk ho _ hty _ hh hbad =>
    -- the message the server waits for reads, and authenticates the client
    obtain ⟨g, rfl, rfl, hb⟩ := hi.behind_of_rekey3 hA hlag hid hfresh hp hk ho hty
    obtain ⟨r, m₁, m₂, ks, hr, hans, hthird, -⟩ := hb.third
    cases (show x.server.rekeyHs = some h from hh).symm.trans hr
    obtain ⟨st, hread, hks⟩ := hX.complete hpub.client hpub.server hthird hans
    refine absurd ((hX.agree hthird hans hread hks).2.trans ?_) (hbad st hread)
    change _ = x.server.clientKey.getD []
    rw [hi.clientKey]
    rfl
  | rekeyed hk ho _ hty _ hh hread _ hks =>
    exact hi.server_rekeyed hA hX hpub hlag hid hfresh up hp hnet hk ho hty hh hread hks

/-- The server gives up on a rekey, with no message of it in flight. -/
theorem Sync.server_aborts (hi : Sync cc cs x) (hlag : Lag cc n x) (up : Bool)
    (h2 : ∀ f k, .frame f ∈ x.s2c → f.typ = msgRekey2 → x.client.keys = some k →
      f.key ≠ k.recvKey)
    (h3 : ∀ f k, .frame f ∈ x.c2s → f.typ = msgRekey3 → x.server.keys = some k →
      f.key ≠ k.recvKey) : Sync cc cs (x.serverMove x.server.abortRekey up {}) := by
  obtain ⟨m₁, ha, hal | ⟨f, k, hb⟩⟩ := hi.turn
  · have hkeys : (x.serverMove x.server.abortRekey up {}).serverKeys = x.serverKeys := by
      simp [serverMove]
    refine ⟨hi.keyed, hi.server, hi.hs, hi.clientKey, fun _ hh => ?_, hi.tag, hi.counter,
      m₁, ⟨ha.hs, ha.frames⟩, .inl ⟨hkeys.symm ▸ hal.length, hal.window, fun _ hrk => ?_,
        fun hlive _ f k hf hty hk => ?_⟩⟩
    · cases hh
    · cases hrk
    obtain ⟨kc, hkc, hpair⟩ := hal.exists_clientKeys hlag hlive hk
    have hf' : .frame f ∈ x.s2c := by simpa [serverMove] using hf
    have hne := h2 f kc hf' hty hkc
    rwa [show kc.recvKey = k.sendKey from congrArg Prod.snd hpair] at hne
  · exact absurd hb.key (h3 f k hb.mem hb.typ hb.keys)

/-- An iteration of the server's run loop keeps the invariant. -/
theorem Sync.loops (hA : S.AeadLaws) (hX : S.XKLaws) (hpub : Paired S cc cs)
    (hi : Sync cc cs x) (hlag : Lag cc n x)
    (hid : x.Ideal) (hfresh : x.Fresh) {env : ServerEnv S} {e : ServerSession.Event}
    {s' : ServerSession S} {o : Out S} {up : Bool} {p : Option (Packet S)}
    {net : List (Packet S)} (hnet : Handed x p net)
    (hdata : ∀ data, e = .recv (some data) → ∃ q ∈ x.c2s, p = some q ∧ data = q.wire)
    (hnone : e.isDatagram = false → net = x.c2s) (hheed : x.Heeds cs (.server env e))
    (h : ServerSession.Loops cs env x.server e (s', o, up)) (up' : Bool) :
    Sync cc cs ({ x with c2s := net }.serverMove s' up' o) := by
  cases h with
  | idle he =>
    obtain rfl := hnone (ServerSession.Event.isDatagram_eq_false he)
    obtain ⟨k, hk⟩ := Option.isSome_iff_exists.1 hi.server
    exact hi.server_quiet hlag (Handed.none x) hk hk rfl ⟨hi.hs, rfl, rfl⟩ rfl rfl (fun _ h _ => h)
      (fun _ _ => nofun) rfl (by simp)
  | recv h =>
    obtain ⟨q, hq, rfl, rfl⟩ := hdata _ rfl
    exact hi.handles hA hX hpub hlag hid hfresh hq hnet h up'
  | @sent e typ pt ep fs ok running he hty hsend =>
    obtain rfl := hnone (ServerSession.Event.isDatagram_eq_false he)
    refine hi.server_sends hlag up' hsend ?_
    rintro rfl
    revert hty
    decide
  | timeout hr hlate =>
    obtain rfl := hnone rfl
    obtain ⟨h2, h3⟩ := hheed hr hlate
    exact hi.server_aborts hlag up' h2 h3

/-- **What the server does keeps the invariant.** -/
theorem Sync.serverSteps (hA : S.AeadLaws) (hX : S.XKLaws) (hpub : Paired S cc cs)
    (hi : Sync cc cs x) (hlag : Lag cc n x)
    (hid : x.Ideal) (hfresh : x.Fresh) {env : ServerEnv S} {e : ServerSession.Event}
    {s' : ServerSession S} {o : Out S} {up : Bool} {p : Option (Packet S)}
    {net : List (Packet S)} (hnet : Handed x p net)
    (hdata : ∀ data, e = .recv (some data) → ∃ q ∈ x.c2s, p = some q ∧ data = q.wire)
    (hnone : e.isDatagram = false → net = x.c2s) (hheed : x.Heeds cs (.server env e))
    (h : ServerSession.Steps cs env x.server e (s', o, up)) :
    Sync cc cs ({ x with c2s := net }.serverMove s' up o) := by
  cases h with
  | run h => exact hi.loops hA hX hpub hlag hid hfresh hnet hdata hnone hheed h true
  | halt h =>
    rw [Out.append_empty]
    exact hi.loops hA hX hpub hlag hid hfresh hnet hdata hnone hheed h false
  | @close s₁ o₁ ep fs ok h hsend =>
    rw [serverMove_append _ s₁ _ false]
    have hlag' := hlag.loops hA hX hid hfresh (fun h hh => by rw [hi.hs] at hh; cases hh)
      hi.rekeyHs (fun data hd => by
        obtain ⟨q, hq, -, hw⟩ := hdata data hd
        exact ⟨q, hq, hw⟩) h false
    exact (hi.loops hA hX hpub hlag hid hfresh hnet hdata hnone hheed h false).server_sends
      (hlag'.mono hnet.subset fun _ => id) false hsend (by decide)

/-! ### The network -/

theorem Sync.mono_s2c (hi : Sync cc cs x) {net : List (Packet S)} (hsub : net ⊆ x.s2c) :
    Sync cc cs { x with s2c := net } := by
  obtain ⟨m₁, ha, hturn⟩ := hi.turn
  refine ⟨hi.keyed, hi.server, hi.hs, hi.clientKey, hi.rekeyHs, hi.tag, hi.counter, m₁,
    ⟨ha.hs, ha.frames⟩, hturn.imp (fun hal => ?_) fun ⟨f, k, hb⟩ => ?_⟩
  · refine ⟨hal.length, hal.window, fun hlive hr => ?_, fun hlive hr f k hf =>
      hal.free hlive hr f k (hsub hf)⟩
    obtain ⟨h1, r, m₂, h2, h3, h4⟩ := hal.busy hlive hr
    exact ⟨h1, r, m₂, h2, h3, fun f k hf => h4 f k (hsub hf)⟩
  · exact ⟨f, k, hb.length, hb.keys, hb.rekeying, hb.third, hb.mem, hb.typ, hb.key, hb.tag, hb.ctr,
      hb.window, hb.last⟩

/-- The third message that the server waits for stays in flight. -/
theorem Sync.mono_c2s (hi : Sync cc cs x) {net : List (Packet S)} (hsub : net ⊆ x.c2s)
    (hmem : ∀ f k, Behind cc cs x f k → .frame f ∈ net) : Sync cc cs { x with c2s := net } := by
  obtain ⟨m₁, ha, hturn⟩ := hi.turn
  refine ⟨hi.keyed, hi.server, hi.hs, hi.clientKey, hi.rekeyHs, hi.tag,
    fun k f hk hf => hi.counter k f hk (hsub hf), m₁,
    ⟨ha.hs, fun k f hk hf => ha.frames k f hk (hsub hf)⟩,
    hturn.imp (fun hal => ?_) fun ⟨f, k, hb⟩ => ?_⟩
  · exact ⟨hal.length, hal.window, hal.busy, hal.free⟩
  · exact ⟨f, k, hb.length, hb.keys, hb.rekeying, hb.third, hmem f k hb, hb.typ, hb.key, hb.tag,
      hb.ctr, hb.window, fun g hg => hb.last g (hsub hg)⟩

/-- The network may lose the third message only while another copy is in flight. -/
theorem Behind.mem_fault {f : Sealed S} {k : Keys S} (hb : Behind cc cs x f k)
    {flt : Network.Fault} (hheed : x.Heeds cs (.faultC2S flt)) :
    .frame f ∈ Network.fault x.c2s flt := by
  cases flt with
  | dup i => exact List.mem_append_left _ hb.mem
  | lose i =>
    cases hi : x.c2s[i]? with
    | none =>
      rw [Network.fault, List.eraseIdx_of_length_le (List.getElem?_eq_none_iff.1 hi)]
      exact hb.mem
    | some p =>
      rcases Network.eq_or_mem_eraseIdx hi hb.mem with rfl | h
      · obtain ⟨g, hg, hty, hkey⟩ := hheed f k hi hb.typ hb.keys hb.key
        rcases hb.last g (List.mem_of_mem_eraseIdx hg) hkey with rfl | h
        · exact hg
        · exact absurd hty h.2
      · exact h

/-! ### Whole runs -/

variable {x' : Conn S} {l : Label S}

/-- **Every step that meets the condition keeps the invariant.** -/
theorem Sync.step (hA : S.AeadLaws) (hX : S.XKLaws) (hpub : Paired S cc cs)
    (hi : Sync cc cs x) (hlag : Lag cc n x) (hid : x.Ideal) (hfresh : x.Fresh) (hfresh' : x'.Fresh)
    (hheed : x.Heeds cs l) (h : Step cc cs x l x') : Sync cc cs x' := by
  cases h with
  | @client env e c' o hlive he hs =>
    have hno : ∀ data, e ≠ Client.Event.recv (some data) := by
      rintro data rfl
      cases he
    exact hi.clientSteps hA hX hpub hlag hid hfresh hlive
      (Client.step_spec hlive hlag.keys_of_reply hs) hfresh'
      (fun data _ _ hd => absurd hd (hno data)) (fun data hd => absurd hd (hno data))
      fun data hd => absurd hd (hno data)
  | @toClient env i p c' o hlive hp hs =>
    have hmem := List.mem_of_getElem? hp
    refine (hi.clientSteps hA hX hpub hlag hid hfresh hlive
      (Client.step_spec hlive hlag.keys_of_reply hs) ⟨hfresh'.c2s, hfresh'.s2c⟩
      (hlag.fromServer hA hid hmem) ?_ ?_).mono_s2c fun _ => List.mem_of_mem_eraseIdx
    · intro data hd
      cases hd
      exact ⟨p, hmem, rfl⟩
    · exact fun _ _ => hheed
  | server hup he hs =>
    refine hi.serverSteps hA hX hpub hlag hid hfresh (Handed.none x) ?_ (fun _ => rfl) hheed
      (ServerSession.step_spec hs)
    rintro data rfl
    cases he
  | @toServer env i p s' o up hup hp hs =>
    have hmem := List.mem_of_getElem? hp
    have hnet : Handed x (some p) (x.c2s.eraseIdx i) :=
      ⟨fun _ => List.mem_of_mem_eraseIdx,
        fun q hq => (Network.eq_or_mem_eraseIdx hp hq).imp_left fun h => by rw [h]⟩
    have hdata : ∀ data, ServerSession.Event.recv (some p.wire) = .recv (some data) →
        ∃ q ∈ x.c2s, some p = some q ∧ data = q.wire := by
      intro data hd
      cases hd
      exact ⟨p, hmem, rfl, rfl⟩
    exact hi.serverSteps hA hX hpub hlag hid hfresh hnet hdata (fun he => nomatch he) trivial
      (ServerSession.step_spec hs)
  | faultC2S f =>
    exact hi.mono_c2s (Network.fault_subset _ f) fun g k hb => hb.mem_fault hheed
  | faultS2C f => exact hi.mono_s2c (Network.fault_subset _ f)

theorem Established.lag {ks : S.Key × S.Key} (h : Established cc ks x) :
    Lag cc x.client.stats.rekeys x := by
  obtain ⟨hkeyed, hkeys⟩ := h.client
  obtain ⟨k, hk, hpair, -⟩ := h.server
  obtain ⟨hck, hsk⟩ := h.keys
  have hlive := Phase.live_of_keyed hkeyed
  refine ⟨fun hd => ?_, fun _ => ?_, ?_, ?_, ?_, ?_, ?_, fun b hb => ?_, fun f hf => ?_,
    fun f hf => ?_, ?_, ?_⟩
  · rw [hlive] at hd; cases hd
  · rw [hkeys, hck]; rfl
  · intro hs m ck tag start since hph
    rw [hph] at hkeyed
    cases hkeyed
  · intro _ hs hh
    rw [h.idle.2.1] at hh
    cases hh
  · rw [hk, hsk, Option.map_some, hpair]; rfl
  · simp only [hck, hsk, List.prefix_refl]
  · rw [hck, hsk]; exact Nat.le_succ _
  · obtain ⟨b', hb', hraw⟩ := h.c2s _ hb
    cases hb'
    exact hraw.imp_right fun h3 => ⟨ks, by rw [hck]; rfl, h3⟩
  · obtain ⟨b, hb, -⟩ := h.c2s _ hf
    cases hb
  · exact ⟨0, ks, by rw [hsk]; rfl, (h.s2c f hf).1⟩
  · rw [hck]; rfl
  · rw [hsk]; exact h.idle.2.2.2.2

theorem Established.sync {ks : S.Key × S.Key} (h : Established cc ks x) : Sync cc cs x := by
  obtain ⟨hcr, hch, hsr, hsh, -⟩ := h.idle
  obtain ⟨k, hk, -, hhigh⟩ := h.server
  obtain ⟨hhs, htag, hkey⟩ := h.peer
  have hno : ∀ f, .frame f ∉ x.c2s := by
    intro f hf
    obtain ⟨b, hb, -⟩ := h.c2s _ hf
    cases hb
  refine ⟨fun _ => h.client.1, by rw [hk]; rfl, hhs, hkey, ?_, fun _ => htag,
    fun _ f _ hf => absurd hf (hno f), [], ⟨?_, fun _ f _ hf => absurd hf (hno f)⟩,
    .inl ⟨?_, ?_, ?_, ?_⟩⟩
  · intro r hr
    rw [hsh] at hr
    cases hr
  · intro _ hs hh
    rw [hch] at hh
    cases hh
  · rw [h.keys.1, h.keys.2]
  · intro kc k' _ hk'
    rw [hk] at hk'
    cases hk'
    exact .inl hhigh
  · intro _ hr
    rw [hsr] at hr
    cases hr
  · exact fun _ _ f _ hf hty => absurd hty (h.s2c f hf).2

/-- The runs whose steps all meet the condition. -/
def heedingLts (S : Suite) (cc : ClientConfig) (cs : ServerConfig) : LTS (Conn S) (Label S) :=
  (lts S cc cs).restrict fun x l => x.Ideal ∧ x.Heeds cs l

/-- Both invariants hold along the runs that meet the condition. -/
theorem Sync.run (hA : S.AeadLaws) (hX : S.XKLaws) (hpub : Paired S cc cs)
    {ks : S.Key × S.Key} {x₀ : Conn S} {ls : List (Label S)} (h₀ : Established cc ks x₀)
    (h : (heedingLts S cc cs).Run x₀ ls x) (hf : x.Fresh) :
    Lag cc x₀.client.stats.rekeys x ∧ Sync cc cs x := by
  induction h with
  | nil => exact ⟨h₀.lag, h₀.sync⟩
  | snoc hr hst ih =>
    obtain ⟨⟨hid, hheed⟩, hstep⟩ := hst
    have hfresh := Fresh.of_step hstep hf
    obtain ⟨hlag, hsync⟩ := ih hfresh
    exact ⟨hlag.step hA hX hid hfresh (fun h _ hh => by rw [hsync.hs] at hh; cases hh)
      hsync.rekeyHs hstep, hsync.step hA hX hpub hlag hid hfresh hf hheed hstep⟩

/-- Nobody is rekeying, and no rekey message is in flight. -/
structure Quiescent (x : Conn S) : Prop where
  client : x.client.rekeying = false
  server : x.server.rekeying = false
  flight : ∀ f, .frame f ∈ x.c2s ∨ .frame f ∈ x.s2c → isRekey f.typ = false

/-- **Rekey agreement.**  In a run whose steps all meet the condition, whenever nobody is rekeying
and no rekey message is in flight, each end receives with the key the other one sends with. -/
theorem keys_agree (hA : S.AeadLaws) (hX : S.XKLaws) (hpub : Paired S cc cs)
    {ks : S.Key × S.Key} {x₀ : Conn S} {ls : List (Label S)} (h₀ : Established cc ks x₀)
    (run : (heedingLts S cc cs).Run x₀ ls x) (hf : x.Fresh) (hq : x.Quiescent) {kc k : Keys S}
    (hkc : x.client.keys = some kc) (hk : x.server.keys = some k) :
    kc.sendKey = k.recvKey ∧ kc.recvKey = k.sendKey := by
  obtain ⟨hlag, hi⟩ := Sync.run hA hX hpub h₀ run hf
  obtain ⟨m₁, -, hal | ⟨f, k', hb⟩⟩ := hi.turn
  · have hpair := hal.pair_eq hlag (hlag.live_of_keys hkc) hkc hk
    exact ⟨congrArg Prod.fst hpair, congrArg Prod.snd hpair⟩
  · -- a server that is behind is still rekeying
    exact absurd hb.rekeying (by rw [hq.server]; decide)

/-! ### A rekey of the plain suite -/

theorem established_plainSettled :
    Established (S := plain) Client.plainConfig (5, 133) plainSettled where
  client := ⟨rfl, rfl⟩
  server := ⟨_, rfl, rfl, rfl⟩
  idle := ⟨rfl, rfl, rfl, rfl, rfl⟩
  peer := ⟨rfl, rfl, rfl⟩
  keys := ⟨rfl, rfl⟩
  c2s := nofun
  s2c f hf := by
    obtain rfl := Packet.frame.inj (List.mem_singleton.1 hf)
    exact ⟨rfl, by decide⟩

/-- The client gets its address and rekeys, up to its third message, which is in flight. -/
def plainRekey : List (Label plain) :=
  [.toClient (Client.plainEnv 3 0) 0, .client (Client.plainEnv 30 8) .keepalive,
    .toServer (ServerSession.plainEnv 31 10) 1, .toClient (Client.plainEnv 32 6) 0]

/-- A test for `Heeds`. -/
def isHeeding (x : Conn S) : Label S → Bool
  | .server _ .tick => false
  | .faultC2S (.lose _) => false
  | .toClient _ _ => x.client.keys.all fun k => k.sendSeq < 2 ^ 32
  | _ => true

theorem heeds_of_test {l : Label S} (h : x.isHeeding l = true) : x.Heeds cs l := by
  cases l with
  | toClient env i =>
    intro _ k hk
    simpa [isHeeding, hk] using h
  | server env e =>
    cases e with
    | tick => cases h
    | _ => trivial
  | faultC2S f =>
    cases f with
    | lose => cases h
    | dup => trivial
  | _ => trivial

/-- A test for `Quiescent`. -/
def isQuiescent (x : Conn S) : Bool :=
  !x.client.rekeying && !x.server.rekeying && (x.c2s ++ x.s2c).all fun
    | .frame f => !isRekey f.typ
    | .raw _ => true

theorem quiescent_of_test (h : x.isQuiescent = true) : x.Quiescent := by
  simp only [isQuiescent, Bool.and_eq_true, Bool.not_eq_true', List.all_eq_true,
    List.mem_append] at h
  obtain ⟨⟨hc, hs⟩, hflight⟩ := h
  exact ⟨hc, hs, fun f hf => by simpa using hflight _ hf⟩

/-- A rekey that completes: both ends have swapped the pair 5 for the pair 6. -/
theorem keys_agree_plain : ∃ x₀ ls x kc k,
    (idealLts plain Client.plainConfig ServerSession.plainConfig).Reachable plainStart x₀ ∧
    Established (S := plain) Client.plainConfig (5, 133) x₀ ∧
    (heedingLts plain Client.plainConfig ServerSession.plainConfig).Run x₀ ls x ∧ x.Quiescent ∧
    x.client.keys = some kc ∧ x.server.keys = some k ∧ kc.pair = (6, 134) ∧
    kc.sendKey = k.recvKey ∧ kc.recvKey = k.sendKey := by
  obtain ⟨x, run, hp⟩ := exists_plain_run (fun x l => x.isIdeal && x.isHeeding l)
    (fun _ _ h => ((Bool.and_eq_true _ _).mp h).imp ideal_of_test heeds_of_test) plainSettled
    (plainRekey ++ [.toServer (ServerSession.plainEnv 33 0) 1])
    (fun x => (plainKeys x == [(5, 133), (6, 134)] && plainPair x.client.keys == some (6, 134)) &&
      (x.isQuiescent && x.server.keys.isSome)) (by decide +kernel)
  simp only [Bool.and_eq_true, beq_iff_eq, Option.isSome_iff_exists] at hp
  obtain ⟨⟨hkeys, hpair⟩, hq, k, hk⟩ := hp
  obtain ⟨kc, hkc, hpair⟩ := exists_of_plainPair hpair
  have hq := quiescent_of_test hq
  exact ⟨plainSettled, _, x, kc, k, plainSettled_reachable, established_plainSettled, run, hq, hkc,
    hk, hpair, keys_agree Plain.aeadLaws Plain.xkLaws plain_paired established_plainSettled run
      (fresh_of_plainKeys hkeys (by decide) (by decide)) hq hkc hk⟩

/-- The third message of a rekey is lost, and the server's timeout ends the rekey on its side: the
client has the pair 6, the server the pair 5. -/
theorem keys_differ : ∃ x₀ ls x kc k,
    (idealLts plain Client.plainConfig ServerSession.plainConfig).Reachable plainStart x₀ ∧
    Established (S := plain) Client.plainConfig (5, 133) x₀ ∧
    (idealLts plain Client.plainConfig ServerSession.plainConfig).Run x₀ ls x ∧ x.Fresh ∧
    x.Quiescent ∧ x.client.keys = some kc ∧ x.server.keys = some k ∧ kc.pair = (6, 134) ∧
    k.pair = (133, 5) ∧ kc.sendKey ≠ k.recvKey ∧ kc.recvKey ≠ k.sendKey := by
  obtain ⟨x, run, hp⟩ := exists_plain_run (fun x _ => x.isIdeal) (fun _ _ => ideal_of_test)
    plainSettled (plainRekey ++ [.faultC2S (.lose 1), .server (ServerSession.plainEnv 50 0) .tick])
    (fun x => (plainKeys x == [(5, 133), (6, 134)] && x.isQuiescent) &&
      (plainPair x.client.keys == some (6, 134) && plainPair x.server.keys == some (133, 5)))
    (by decide +kernel)
  simp only [Bool.and_eq_true, beq_iff_eq] at hp
  obtain ⟨⟨hkeys, hq⟩, hpair, hpair'⟩ := hp
  obtain ⟨kc, hkc, hpair⟩ := exists_of_plainPair hpair
  obtain ⟨k, hk, hpair'⟩ := exists_of_plainPair hpair'
  obtain ⟨hc₁, hc₂⟩ := Prod.mk.inj hpair
  obtain ⟨hs₁, hs₂⟩ := Prod.mk.inj hpair'
  refine ⟨plainSettled, _, x, kc, k, plainSettled_reachable, established_plainSettled, run,
    fresh_of_plainKeys hkeys (by decide) (by decide), quiescent_of_test hq, hkc, hk, hpair, hpair',
    ?_, ?_⟩
  · rw [hc₁, hs₂]; decide
  · rw [hc₂, hs₁]; decide

end Conn

end VibeVpn

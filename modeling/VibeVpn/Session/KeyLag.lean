import VibeVpn.Go.Lists
import VibeVpn.Session.Connection

/-!
# The server is at most one rekey behind

The client swaps its keys when it sends the third message of a rekey, the server when it reads it.
Whatever the network does, and whenever the server gives up on a rekey, the keys the server has
installed are those the client has installed, but perhaps for the last pair.

* `Conn.Lag` : the invariant: it ties every frame in flight to the pair it was sealed with, and
  every third message in flight to the pair it leads to;
* `Conn.Lag.step` : every step keeps it;
* `Conn.keys_lag` : **bounded key lag**.
-/

namespace VibeVpn

namespace Conn

variable {S : Suite} {cc : ClientConfig} {cs : ServerConfig} {n : ℕ} {x : Conn S}

/-- The handshake of a rekey of the client: it awaits the second message, or reads nothing more. -/
def RekeyHs (cc : ClientConfig) (hs : S.HS) : Prop :=
  (∃ m₁, S.Sent1 cc.keypair cc.serverPublic m₁ hs) ∨ ∀ m, S.read hs m = none

/-- `m` is a third message of the client that leads to the keys `ks`. -/
def Third (cc : ClientConfig) (m : Bytes) (ks : S.Key × S.Key) : Prop :=
  ∃ m₁ m₂, S.Sent3 cc.keypair cc.serverPublic m₁ m₂ m ks

/-- The invariant of the rekeys.  `n` is the client's count of rekeys when the connection began. -/
structure Lag (cc : ClientConfig) (n : ℕ) (x : Conn S) : Prop where
  /-- A client without a connection has no keys. -/
  dead : x.client.phase.live = false → x.client.keys = none
  /-- The keys of the client are those it installed last. -/
  client : x.client.phase.live = true → x.client.keys.map Keys.pair = x.clientKeys.getLast?
  /-- Before the second message there are no keys. -/
  reply : ∀ hs m ck tag start since, x.client.phase = .waitReply hs m ck tag start since →
    x.clientKeys = [] ∧
      ∃ m₁ cookie, S.Sent1 cc.keypair cc.serverPublic m₁ hs ∧ m = m₁ ++ cookie
  /-- A stored rekey handshake. -/
  rekeyHs : x.client.phase.live = true → ∀ hs, x.client.rekeyHs = some hs → RekeyHs cc hs
  /-- The keys of the server are those it installed last. -/
  server : x.server.keys.map Keys.pair = x.serverKeys.getLast?.map Prod.swap
  /-- The server installs what the client has installed. -/
  behind : x.serverKeys <+: x.clientKeys
  /-- The server is at most one pair behind. -/
  lag : x.clientKeys.length ≤ x.serverKeys.length + 1
  /-- A handshake message to the server is a first message, or the third one. -/
  rawC2S : ∀ b, .raw b ∈ x.c2s →
    (∃ m₁ cookie i, S.Sent1 cc.keypair cc.serverPublic m₁ i ∧ b = m₁ ++ cookie) ∨
      ∃ ks, x.clientKeys[0]? = some ks ∧ Third cc b ks
  /-- A frame to the server is sealed with a key of the client; the third message of a rekey leads
  to the next pair. -/
  frameC2S : ∀ f, .frame f ∈ x.c2s → ∃ (j : ℕ) (ks : S.Key × S.Key),
    x.clientKeys[j]? = some ks ∧ f.key = ks.1 ∧
    (f.typ = msgRekey3 → ∃ ks', x.clientKeys[j + 1]? = some ks' ∧ Third cc f.payload ks')
  /-- A frame to the client is sealed with a key of the server. -/
  frameS2C : ∀ f, .frame f ∈ x.s2c → ∃ (j : ℕ) (ks : S.Key × S.Key),
    x.serverKeys[j]? = some ks ∧ f.key = ks.2
  clientRekeys : x.client.stats.rekeys = n + (x.clientKeys.length - 1)
  serverRekeys : x.server.stats.rekeys = x.serverKeys.length - 1

/-! ### The network -/

/-- Taking datagrams off the network keeps the invariant. -/
theorem Lag.mono (hi : Lag cc n x) {c2s s2c : List (Packet S)} (h₁ : c2s ⊆ x.c2s)
    (h₂ : s2c ⊆ x.s2c) : Lag cc n { x with c2s, s2c } where
  __ := hi
  rawC2S b hb := hi.rawC2S b (h₁ hb)
  frameC2S f hf := hi.frameC2S f (h₁ hf)
  frameS2C f hf := hi.frameS2C f (h₂ hf)

/-! ### The client -/

/-- The keys of the client are the last pair it installed. -/
theorem Lag.clientKeys_last (hi : Lag cc n x) (hlive : x.client.phase.live = true)
    {ks : S.Key × S.Key} (hk : x.client.keys.map Keys.pair = some ks) :
    x.clientKeys[x.clientKeys.length - 1]? = some ks := by
  rw [← List.getLast?_eq_getElem?, ← hi.client hlive, hk]

/-- What an event of the client may send that installs no keys: first messages, and frames of its
keys other than third messages. -/
structure Harmless (cc : ClientConfig) (x : Conn S) (o : Out S) : Prop where
  installed : o.installed = []
  raw : ∀ b, (b, true) ∈ o.raw →
    ∃ m₁ cookie i, S.Sent1 cc.keypair cc.serverPublic m₁ i ∧ b = m₁ ++ cookie
  frames : ∀ f, (f, true) ∈ o.frames → f.typ ≠ msgRekey3 ∧
    ∃ r, x.client.keys.map Keys.pair = some (f.key, r)

theorem Harmless.empty : Harmless cc x {} := ⟨rfl, by simp, by simp⟩

theorem Harmless.of_sends_frames {typ : UInt8} {pt : Bytes} {ep : Endpoint S}
    {fs : List (Sealed S × Bool)} {ok : Bool} (h : x.client.toEndpoint.Sends typ pt ep fs ok)
    (hty : typ ≠ msgRekey3) (f : Sealed S) (hf : (f, true) ∈ fs) :
    f.typ ≠ msgRekey3 ∧ ∃ r, x.client.keys.map Keys.pair = some (f.key, r) := by
  obtain ⟨rfl, hr⟩ := h.key hf
  exact ⟨hty, hr⟩

theorem Harmless.of_sends {typ : UInt8} {pt : Bytes} {ep : Endpoint S}
    {fs : List (Sealed S × Bool)} {ok : Bool} (h : x.client.toEndpoint.Sends typ pt ep fs ok)
    (hty : typ ≠ msgRekey3) : Harmless cc x { frames := fs } :=
  ⟨rfl, by simp, of_sends_frames h hty⟩

/-- A frame that could not be sent. -/
theorem Harmless.of_unsent {s ep : Endpoint S} {typ : UInt8} {pt : Bytes}
    {fs : List (Sealed S × Bool)} (h : s.Sends typ pt ep fs false) :
    Harmless cc x { frames := fs } :=
  ⟨rfl, by simp, fun _ hf => absurd (h.sealedBy hf).1 (by simp)⟩

/-- What is sent when the client gives up. -/
theorem Harmless.of_hangup {o : Out S} (hin : o.installed = []) (hraw : ∀ r ∈ o.raw, r.2 = false)
    (hf : o.frames = [] ∨ ∃ ep ok, x.client.toEndpoint.Sends msgClose [] ep o.frames ok) :
    Harmless cc x o := by
  refine ⟨hin, fun b hb => absurd (hraw _ hb) (by simp), ?_⟩
  rcases hf with hf | ⟨ep, ok, hsend⟩
  · rw [hf]; simp
  · exact of_sends_frames hsend (by decide)

theorem ne_rekey3 {typ : UInt8} (h : typ ∈ [msgData, msgDecoy]) : typ ≠ msgRekey3 := by
  rintro rfl
  revert h
  decide

/-- A frame, and another one with the keys as the first left them. -/
theorem Harmless.of_sends_sends {typ typ' : UInt8} {pt pt' : Bytes} {ep ep' : Endpoint S}
    {fs fs' : List (Sealed S × Bool)} {ok ok' : Bool}
    (h : x.client.toEndpoint.Sends typ pt ep fs ok) (h' : ep.Sends typ' pt' ep' fs' ok')
    (hty : typ ≠ msgRekey3) (hty' : typ' ≠ msgRekey3) :
    Harmless cc x (({ frames := fs } : Out S).append { frames := fs' }) := by
  refine ⟨rfl, by simp [Out.append], fun f hf => ?_⟩
  rcases List.mem_append.1 hf with hf | hf
  · exact (of_sends_frames h hty) f hf
  · obtain ⟨rfl, r, hr⟩ := h'.key hf
    exact ⟨hty', r, h.pair.symm.trans hr⟩

/-- An event of the client that installs no keys. -/
theorem Lag.client_keeps (hi : Lag cc n x) {now : ℤ} {c' : Client S} {o : Out S}
    (hlive : x.client.phase.live = true) (ho : Harmless cc x o)
    (hdead : c'.phase.live = false → c'.keys = none)
    (hk : c'.phase.live = true → c'.keys.map Keys.pair = x.client.keys.map Keys.pair)
    (hreply : ∀ hs m ck tag start since, c'.phase = .waitReply hs m ck tag start since →
      x.clientKeys = [] ∧
        ∃ m₁ cookie, S.Sent1 cc.keypair cc.serverPublic m₁ hs ∧ m = m₁ ++ cookie)
    (hhs : c'.phase.live = true → ∀ hs, c'.rekeyHs = some hs → RekeyHs cc hs)
    (hst : c'.stats.rekeys = x.client.stats.rekeys) :
    Lag cc n (x.clientMove now c' o) := by
  have hkeys : (x.clientMove now c' o).clientKeys = x.clientKeys := by
    simp [clientMove, ho.installed]
  refine ⟨hdead, ?_, ?_, hhs, hi.server, hkeys.symm ▸ hi.behind, hkeys.symm ▸ hi.lag, ?_, ?_,
    hi.frameS2C, ?_, hi.serverRekeys⟩
  · intro h
    rw [hkeys]
    exact (hk h).trans (hi.client hlive)
  · rw [hkeys]
    exact hreply
  · intro b hb
    rw [hkeys]
    rcases List.mem_append.1 hb with hb | hb
    · exact hi.rawC2S b hb
    · exact .inl (ho.raw b (raw_mem_sent.1 hb))
  · intro f hmem
    rw [hkeys]
    rcases List.mem_append.1 hmem with hmem | hmem
    · exact hi.frameC2S f hmem
    · obtain ⟨hty, r, hr⟩ := ho.frames f (frame_mem_sent.1 hmem)
      exact ⟨_, _, hi.clientKeys_last hlive hr, rfl, fun h => absurd h hty⟩
  · rw [hkeys]
    exact hst.trans hi.clientRekeys

/-- An event of the client that leaves it connected, with its keys. -/
theorem Lag.client_quiet (hi : Lag cc n x) {now : ℤ} {c' : Client S} {o : Out S}
    (hlive : x.client.phase.live = true) (ho : Harmless cc x o)
    (hp : c'.phase = x.client.phase ∨ c'.phase.keyed = true)
    (hk : c'.keys.map Keys.pair = x.client.keys.map Keys.pair)
    (hhs : ∀ hs, c'.rekeyHs = some hs → RekeyHs cc hs)
    (hst : c'.stats.rekeys = x.client.stats.rekeys) :
    Lag cc n (x.clientMove now c' o) := by
  have hlive' : c'.phase.live = true := by
    rcases hp with hp | hp
    · rw [hp, hlive]
    · exact Phase.live_of_keyed hp
  refine hi.client_keeps hlive ho (fun h => ?_) (fun _ => hk) ?_ (fun _ => hhs) hst
  · rw [hlive'] at h
    cases h
  · intro hs m ck tag start since hph
    rcases hp with hp | hp
    · exact hi.reply hs m ck tag start since (hp ▸ hph)
    · rw [hph] at hp
      cases hp

/-- The client installs the keys `ks`: all that was in flight stays as it was. -/
theorem Lag.client_installs (hi : Lag cc n x) {now : ℤ} {c' : Client S} {o : Out S}
    {ks : S.Key × S.Key} (hin : o.installed = [ks]) (hp : c'.phase.keyed = true)
    (hk : c'.keys = some (newKeys S true ks))
    (hhs : ∀ hs, c'.rekeyHs = some hs → RekeyHs cc hs)
    (hlag : x.clientKeys.length ≤ x.serverKeys.length)
    (hst : c'.stats.rekeys = n + x.clientKeys.length)
    (hraw : ∀ b, (b, true) ∈ o.raw → x.clientKeys = [] ∧ Third cc b ks)
    (hf : ∀ f, (f, true) ∈ o.frames → Third cc f.payload ks ∧
      ∃ r, x.clientKeys.getLast? = some (f.key, r)) :
    Lag cc n (x.clientMove now c' o) := by
  have hkeys : (x.clientMove now c' o).clientKeys = x.clientKeys ++ [ks] := by
    rw [clientMove, hin]
  have hpre : x.clientKeys <+: x.clientKeys ++ [ks] := List.prefix_append ..
  refine ⟨?_, ?_, ?_, fun _ => hhs, hi.server, hkeys.symm ▸ hi.behind.trans hpre, ?_, ?_, ?_,
    hi.frameS2C, ?_, hi.serverRekeys⟩
  · intro h
    exact absurd (Phase.live_of_keyed hp) (by rw [show c'.phase.live = false from h]; nofun)
  · intro _
    rw [hkeys, List.getLast?_concat]
    change c'.keys.map _ = _
    rw [hk]
    rfl
  · intro hs m ck tag start since hph
    rw [show c'.phase = _ from hph] at hp
    cases hp
  · rw [hkeys, List.length_append]
    exact Nat.add_le_add_right hlag 1
  · intro b hb
    rw [hkeys]
    rcases List.mem_append.1 hb with hb | hb
    · rcases hi.rawC2S b hb with h | ⟨ks', h, ht⟩
      · exact .inl h
      · exact .inr ⟨ks', getElem?_mono hpre h, ht⟩
    · obtain ⟨hnil, ht⟩ := hraw b (raw_mem_sent.1 hb)
      exact .inr ⟨ks, by rw [hnil]; rfl, ht⟩
  · intro f hmem
    rw [hkeys]
    rcases List.mem_append.1 hmem with hmem | hmem
    · obtain ⟨j, ks₁, hj, hkey, h3⟩ := hi.frameC2S f hmem
      refine ⟨j, ks₁, getElem?_mono hpre hj, hkey, fun hty => ?_⟩
      obtain ⟨ks₂, hj₂, ht⟩ := h3 hty
      exact ⟨ks₂, getElem?_mono hpre hj₂, ht⟩
    · obtain ⟨ht, r, hlast⟩ := hf f (frame_mem_sent.1 hmem)
      rw [List.getLast?_eq_getElem?] at hlast
      have hpos := (List.getElem?_eq_some_iff.1 hlast).1
      refine ⟨_, _, getElem?_mono hpre hlast, rfl, fun _ => ⟨ks, ?_, ht⟩⟩
      rw [Nat.sub_add_cancel (Nat.one_le_of_lt hpos), List.getElem?_concat_length]
  · rw [hkeys, List.length_append]
    exact hst

/-- What the client reads of the server: a frame that opens was sealed with a key the server had
installed. -/
def FromServer (x : Conn S) (e : Client.Event) : Prop :=
  ∀ data k f, e = .recv (some data) → x.client.keys = some k →
    authenticate S k.recvKey data = some f →
    ∃ (j : ℕ) (ks : S.Key × S.Key), x.serverKeys[j]? = some ks ∧ k.recvKey = ks.2

/-- When the client continues a rekey, the server has the client's keys. -/
theorem Lag.length_le_of_continues (hi : Lag cc n x) (hfresh : x.Fresh) {data : Bytes}
    {k' : Keys S} {f : Frame} {hs : S.HS} (hc : x.client.Continues data k' f hs)
    (hrecv : x.FromServer (.recv (some data))) : x.clientKeys.length ≤ x.serverKeys.length := by
  obtain ⟨k, hk, ho⟩ := hc.opened
  have hlive : x.client.phase.live = true := by rw [hc.running]; rfl
  have hauth : ∃ f, authenticate S k.recvKey data = some f := by
    cases ho with
    | accepted _ w ha => exact ⟨_, ha⟩
  obtain ⟨g, hg⟩ := hauth
  obtain ⟨j, ks, hj, hkey⟩ := hrecv data k g rfl hk hg
  have hlast : x.clientKeys[x.clientKeys.length - 1]? = some k.pair :=
    hi.clientKeys_last hlive (by rw [hk]; rfl)
  have hj' := index_eq_of_map hfresh.s2c (getElem?_mono hi.behind hj) hlast hkey.symm
  have := (List.getElem?_eq_some_iff.1 hj).1
  omega

/-- The third message of a rekey leads to the keys the client derives. -/
theorem third_of_read {hs : S.HS} {st st₃ : HsStep S.HS S.Key} {m : Bytes} {e : S.Seed}
    {ks : S.Key × S.Key} (h : RekeyHs cc hs) (hread : S.read hs m = some st)
    (hwrite : S.write st.hs e [] = some st₃) (hks : st₃.keys = some ks) :
    Third cc st₃.out ks := by
  rcases h with ⟨m₁, h⟩ | h
  · exact ⟨m₁, m, st.hs, e, [], st₃, ⟨hs, st, h, hread, rfl⟩, hwrite, rfl, hks⟩
  · rw [h m] at hread
    cases hread

/-- A handshake of a rekey that has read its second message completes with the third. -/
theorem complete_of_read (hX : S.XKLaws) {hs : S.HS} {st st₃ : HsStep S.HS S.Key} {m : Bytes}
    {e : S.Seed} (h : RekeyHs cc hs) (hread : S.read hs m = some st)
    (hwrite : S.write st.hs e [] = some st₃) : st₃.keys ≠ none := by
  rcases h with ⟨m₁, h⟩ | h
  · exact Option.isSome_iff_ne_none.1 (hX.third_complete ⟨_, _, h, hread, rfl⟩ hwrite)
  · rw [h m] at hread
    cases hread

/-- The client completes a rekey: it sends the third message under the keys it had. -/
theorem Lag.client_rekeyed (hi : Lag cc n x) {env : ClientEnv S} {data : Bytes} {k' : Keys S}
    {f : Frame} {hs : S.HS} {st st₃ : HsStep S.HS S.Key} {ks : S.Key × S.Key} {ep : Endpoint S}
    {fs : List (Sealed S × Bool)} (hc : x.client.Continues data k' f hs)
    (hread : S.read hs f.payload = some st) (hwrite : S.write st.hs env.seed [] = some st₃)
    (hks : st₃.keys = some ks)
    (hsend : { x.client.toEndpoint with
      keys := some k', lastRecv := env.now, rekeyHs := some st₃.hs }.Sends msgRekey3 st₃.out
        ep fs true)
    (hlen : x.clientKeys.length ≤ x.serverKeys.length) :
    Lag cc n (x.clientMove env.now (Client.rekeyed env { x.client with toEndpoint := ep } ks)
      { frames := fs, installed := [ks] }) := by
  obtain ⟨k, hk, ho⟩ := hc.opened
  have hlive : x.client.phase.live = true := by rw [hc.running]; rfl
  have hlast : x.clientKeys.getLast? = some k.pair := by
    rw [← hi.client hlive, hk]
    rfl
  have hpos : 0 < x.clientKeys.length := by
    rw [List.length_pos_iff]
    intro h
    rw [h] at hlast
    cases hlast
  refine hi.client_installs rfl ?_ rfl nofun hlen ?_ (by simp) ?_
  · rw [Client.rekeyed, hc.running]
    rfl
  · have hst : ep.stats.rekeys = n + (x.clientKeys.length - 1) :=
      hsend.rekeys.trans hi.clientRekeys
    change ep.stats.rekeys + 1 = _
    omega
  · intro g hg
    obtain ⟨-, k₁, hk₁, hby⟩ := hsend.sealedBy hg
    cases hk₁
    have hthird := third_of_read (hi.rekeyHs hlive _ hc.rekeyHs) hread hwrite hks
    refine ⟨hby.payload ▸ hthird, k.recvKey, ?_⟩
    rw [hlast, hby.key, ho.keys.1]
    rfl

/-- **What the client does keeps the invariant.** -/
theorem Lag.clientSteps (hX : S.XKLaws) (hi : Lag cc n x) (hfresh : x.Fresh) {env : ClientEnv S}
    {e : Client.Event} {c' : Client S} {o : Out S} (hlive : x.client.phase.live = true)
    (hs : Client.Steps cc env x.client e c' o) (hrecv : x.FromServer e) :
    Lag cc n (x.clientMove env.now c' o) := by
  have hold := hi.rekeyHs hlive
  cases hs with
  | idle _ hst => exact hi.client_quiet hlive .empty (.inl rfl) rfl hold hst
  | keyless _ hst => exact hi.client_quiet hlive .empty (.inl rfl) rfl hold hst
  | hangup hk hdead hst _ hin hraw hf =>
    refine hi.client_keeps hlive (.of_hangup hin hraw hf) (fun _ => hk) ?_ ?_ ?_ hst
    · exact fun h => absurd h (by simp [hdead])
    · intro hs m ck tag start since hph
      rw [hph] at hdead
      cases hdead
    · exact fun h => absurd h (by simp [hdead])
  | @cookie hs m₁ data tag start since hp hlen _ =>
    obtain ⟨hnil, m, ck, hsent, rfl⟩ := hi.reply _ _ _ _ _ _ hp
    have ho : Harmless cc x { raw := [(m ++ ck ++ data, true)] } := by
      refine ⟨rfl, fun b hb => ?_, by simp⟩
      obtain rfl : b = m ++ ck ++ data := by simpa using hb
      exact ⟨m, ck ++ data, hs, hsent, List.append_assoc ..⟩
    refine hi.client_keeps hlive ho nofun (fun _ => rfl) ?_ (fun _ => hold) rfl
    intro hs' m' ck' tag' start' since' hph
    cases hph
    exact ⟨hnil, m, ck ++ data, hsent, List.append_assoc ..⟩
  | keyed hp hread hwrite hks =>
    obtain ⟨hnil, m, ck, hsent, -⟩ := hi.reply _ _ _ _ _ _ hp
    refine hi.client_installs rfl rfl rfl hold (by simp [hnil]) ?_ ?_ (by simp)
    · rw [hnil]
      exact hi.clientRekeys.trans (by rw [hnil]; rfl)
    · intro b hb
      obtain rfl : b = _ := by simpa using hb
      exact ⟨hnil, third_of_read (.inl ⟨m, hsent⟩) hread hwrite hks⟩
  | @opened k k' r c' o data stats last hkeyed hk ho hep ht hph hst hf hr hin =>
    have hk' : c'.keys = some k' := congrArg Endpoint.keys hep
    have hhs' : c'.rekeyHs = x.client.rekeyHs := (congrArg Endpoint.rekeyHs hep :)
    have hst' : c'.stats = stats := congrArg Endpoint.stats hep
    refine hi.client_quiet hlive ⟨hin, by simp [hr], by simp [hf]⟩ (.inr hph) ?_ (hhs' ▸ hold)
      (hst' ▸ hst)
    rw [hk', hk, Option.map_some, ho.pair, Option.map_some]
  | sent hp he hty hsend hst =>
    exact hi.client_quiet hlive (.of_sends hsend (ne_rekey3 hty)) (.inl rfl) hsend.pair
      (hsend.frame.2.2.1 ▸ hold) (hst.trans hsend.rekeys)
  | @keepalive pt ep fs ok c' o hp hconn hrk hsend hm =>
    have hhs : ep.rekeyHs = x.client.rekeyHs := hsend.frame.2.2.1
    cases hm with
    | no =>
      rw [Out.append_empty]
      exact hi.client_quiet hlive (.of_sends hsend (by decide)) (.inl rfl) hsend.pair (hhs ▸ hold)
        hsend.rekeys
    | unsent hnew hwrite hsend' =>
      exact hi.client_quiet hlive (.of_sends_sends hsend hsend' (by decide) (by decide)) (.inl rfl)
        (hsend'.pair.trans hsend.pair) (hsend'.frame.2.2.1.trans hhs ▸ hold)
        (hsend'.rekeys.trans hsend.rekeys)
    | @started hs st ep' fs' hnew hwrite hsend' =>
      refine hi.client_quiet hlive (.of_sends_sends hsend hsend' (by decide) (by decide)) (.inl rfl)
        (hsend'.pair.trans hsend.pair) ?_ (hsend'.rekeys.trans hsend.rekeys)
      intro hs' hh
      cases hh
      exact .inl ⟨st.out, hs, env.seed, [], st, hnew, hwrite, rfl, rfl⟩
  | rekeyUnread hc hn =>
    obtain ⟨k, hk, ho⟩ := hc.opened
    refine hi.client_quiet hlive .empty (.inl rfl) ?_ hold rfl
    rw [hk, Option.map_some, Option.map_some, ho.pair]
  | rekeyUnwritten hc hread hn =>
    obtain ⟨k, hk, ho⟩ := hc.opened
    refine hi.client_quiet hlive .empty (.inl rfl) ?_ ?_ rfl
    · rw [hk, Option.map_some, Option.map_some, ho.pair]
    · intro hs' hh
      cases hh
      exact .inr fun m => hX.read_turn hread
  | rekeyIncomplete hc hread hwrite hn =>
    -- a client that has read a second message completes its handshake with the third
    exact absurd hn (complete_of_read hX (hold _ hc.rekeyHs) hread hwrite)
  | @rekeyUnsent k' f hs st st₃ ks ep fs data hc hread hwrite hks hsend =>
    obtain ⟨k, hk, ho⟩ := hc.opened
    refine hi.client_quiet hlive (.of_unsent hsend) (.inl rfl) ?_ ?_ hsend.rekeys
    · rw [hsend.pair, hk, Option.map_some, Option.map_some, ho.pair]
    · intro hs' hh
      obtain rfl : st₃.hs = hs' := Option.some.inj (hsend.frame.2.2.1.symm.trans hh)
      exact .inr fun m => hX.read_done hwrite (by rw [hks]; rfl)
  | rekeyed hc hread hwrite hks hsend =>
    exact hi.client_rekeyed hc hread hwrite hks hsend (hi.length_le_of_continues hfresh hc hrecv)

/-! ### The server -/

/-- The keys of the server are the last pair it installed. -/
theorem Lag.serverKeys_last (hi : Lag cc n x) {k : Keys S} (hk : x.server.keys = some k) :
    x.serverKeys[x.serverKeys.length - 1]? = some k.pair.swap := by
  have h := hi.server
  rw [hk, Option.map_some, List.getLast?_eq_getElem?] at h
  obtain ⟨ks, hks, h⟩ := Option.map_eq_some_iff.1 h.symm
  rw [hks, ← h, Prod.swap_swap]

/-- An event of the server that installs no keys. -/
theorem Lag.server_quiet (hi : Lag cc n x) {s' : ServerSession S} {up : Bool} {o : Out S}
    (hk : s'.keys.map Keys.pair = x.server.keys.map Keys.pair)
    (hst : s'.stats.rekeys = x.server.stats.rekeys) (hin : o.installed = [])
    (hf : ∀ f, (f, true) ∈ o.frames → ∃ r, x.server.keys.map Keys.pair = some (f.key, r)) :
    Lag cc n (x.serverMove s' up o) := by
  have hkeys : (x.serverMove s' up o).serverKeys = x.serverKeys := by
    simp [serverMove, hin]
  refine ⟨hi.dead, hi.client, hi.reply, hi.rekeyHs, ?_, hkeys.symm ▸ hi.behind, hkeys.symm ▸ hi.lag,
    hi.rawC2S, hi.frameC2S, ?_, hi.clientRekeys, ?_⟩
  · rw [hkeys]
    exact hk.trans hi.server
  · intro f hmem
    rw [hkeys]
    rcases List.mem_append.1 hmem with hmem | hmem
    · exact hi.frameS2C f hmem
    · obtain ⟨r, hr⟩ := hf f (frame_mem_sent.1 hmem)
      obtain ⟨k, hk, hpair⟩ := Option.map_eq_some_iff.1 hr
      exact ⟨_, _, hi.serverKeys_last hk, by rw [hpair]; rfl⟩
  · rw [hkeys]
    exact hst.trans hi.serverRekeys

/-- The server installs the pair the client installed next. -/
theorem Lag.server_installs (hi : Lag cc n x) {s' : ServerSession S} {up : Bool} {o : Out S}
    {ks : S.Key × S.Key} (hin : o.installed = [ks])
    (hnext : x.clientKeys[x.serverKeys.length]? = some ks)
    (hk : s'.keys.map Keys.pair = some ks.swap) (hst : s'.stats.rekeys = x.serverKeys.length)
    (hf : ∀ f, (f, true) ∈ o.frames → f.key = ks.2) :
    Lag cc n (x.serverMove s' up o) := by
  have hkeys : (x.serverMove s' up o).serverKeys = x.serverKeys ++ [ks] := by
    rw [serverMove, hin]
  have hpre : x.serverKeys ++ [ks] <+: x.clientKeys := by
    obtain ⟨t, ht⟩ := hi.behind
    rw [← ht, List.getElem?_append_right (Nat.le_refl _), Nat.sub_self] at hnext
    cases t with
    | nil => cases hnext
    | cons a t =>
      obtain rfl : a = ks := by simpa using hnext
      exact ⟨t, by rw [← ht, List.append_assoc]; rfl⟩
  refine ⟨hi.dead, hi.client, hi.reply, hi.rekeyHs, ?_, hkeys.symm ▸ hpre, ?_, hi.rawC2S,
    hi.frameC2S, ?_, hi.clientRekeys, ?_⟩
  · rw [hkeys, List.getLast?_concat]
    exact hk
  · rw [hkeys, List.length_append]
    exact Nat.le_succ_of_le hi.lag
  · intro f hmem
    rw [hkeys]
    rcases List.mem_append.1 hmem with hmem | hmem
    · obtain ⟨j, ks', hj, hkey⟩ := hi.frameS2C f hmem
      exact ⟨j, ks', getElem?_mono (List.prefix_append ..) hj, hkey⟩
    · exact ⟨_, ks, List.getElem?_concat_length, hf f (frame_mem_sent.1 hmem)⟩
  · rw [hkeys, List.length_append]
    exact hst

/-- What the server reads of the client: a frame that opens was in flight. -/
theorem frame_of_authenticate (hA : S.AeadLaws) (hid : x.Ideal) {p : Packet S} (hp : p ∈ x.c2s)
    {k : Keys S} {g : Frame} (hk : x.server.keys = some k)
    (hg : authenticate S k.recvKey p.wire = some g) :
    ∃ f, p = .frame f ∧ f.key = k.recvKey ∧ g = f.frame := by
  cases p with
  | raw b => exact absurd (hg.symm.trans (hid.rawC2S b k hp hk)) (by simp)
  | frame f =>
    obtain ⟨hkey, hframe⟩ := f.key_of_authenticate hA hg
    exact ⟨f, rfl, hkey.symm, hframe⟩

/-- A third message of a rekey that the server opens leads to the client's next pair. -/
theorem Lag.next_of_rekey3 (hA : S.AeadLaws) (hi : Lag cc n x) (hid : x.Ideal) (hfresh : x.Fresh)
    {p : Packet S} (hp : p ∈ x.c2s) {k : Keys S} {g : Frame} (hk : x.server.keys = some k)
    (hg : authenticate S k.recvKey p.wire = some g) (hty : g.typ = msgRekey3) :
    ∃ ks, x.clientKeys[x.serverKeys.length]? = some ks ∧ Third cc g.payload ks := by
  obtain ⟨f, rfl, hkey, rfl⟩ := frame_of_authenticate hA hid hp hk hg
  obtain ⟨j, ks, hj, hjkey, h3⟩ := hi.frameC2S f hp
  have hlast := hi.serverKeys_last hk
  have hj' := index_eq_of_map hfresh.c2s hj (getElem?_mono hi.behind hlast)
    (hjkey.symm.trans hkey)
  have hpos := (List.getElem?_eq_some_iff.1 hlast).1
  obtain ⟨ks', hks', ht⟩ := h3 hty
  refine ⟨ks', ?_, ht⟩
  rw [hj', Nat.sub_add_cancel (Nat.one_le_of_lt hpos)] at hks'
  exact hks'

/-- A handshake of the server that has answered a first message. -/
def Answered (cs : ServerConfig) (h : S.HS) : Prop := ∃ m₁ m₂, S.Answered cs.keypair m₁ m₂ h

/-- A server that completes on a third message of the client derives the client's keys. -/
theorem Third.agree (hX : S.XKLaws) {m : Bytes} {ks ks' : S.Key × S.Key} {h : S.HS}
    {st : HsStep S.HS S.Key} (ht : Third cc m ks) (ha : Answered cs h)
    (hread : S.read h m = some st) (hks : st.keys = some ks') : ks' = ks := by
  obtain ⟨m₁, m₂, ht⟩ := ht
  obtain ⟨m₁', m₂', ha⟩ := ha
  exact (hX.agree ht ha hread hks).1

/-- The message that completes the server's initial handshake is the client's third message. -/
theorem Lag.first_of_third (hX : S.XKLaws) (hi : Lag cc n x) (hid : x.Ideal) {p : Packet S}
    (hp : p ∈ x.c2s) {h : S.HS} {st : HsStep S.HS S.Key} (hh : x.server.hs = some h)
    (ha : Answered cs h) (hread : S.read h p.wire = some st) :
    ∃ ks, x.clientKeys[0]? = some ks ∧ Third cc p.wire ks := by
  cases p with
  | raw b =>
    rcases hi.rawC2S b hp with ⟨m₁, cookie, i, hsent, rfl⟩ | h3
    · obtain ⟨m₁', m₂', ha⟩ := ha
      exact absurd (hread.symm.trans (hX.first_not_third hsent ha)) (by simp)
    · exact h3
  | frame f => exact absurd (hread.symm.trans (hid.frame f h hp hh)) (by simp)

/-- **Handling a datagram keeps the invariant.** -/
theorem Lag.handles (hA : S.AeadLaws) (hX : S.XKLaws) (hi : Lag cc n x) (hid : x.Ideal)
    (hfresh : x.Fresh) (hhs : ∀ h, x.server.hs = some h → Answered cs h)
    (hrk : ∀ h, x.server.rekeyHs = some h → Answered cs h) {env : ServerEnv S}
    {s' : ServerSession S} {o : Out S} {err : Option SessionErr} {p : Packet S} (hp : p ∈ x.c2s)
    (h : ServerSession.Handles cs env { x.server with lastRecv := env.now } p.wire (s', o, err))
    (up : Bool) : Lag cc n (x.serverMove s' up o) := by
  -- opening a frame leaves the pair alone
  have hpair : ∀ {k k' : Keys S} {r}, x.server.keys = some k → k.Opened p.wire k' r →
      (some k').map Keys.pair = x.server.keys.map Keys.pair := by
    intro k k' r hk ho
    rw [hk, Option.map_some, ho.pair, Option.map_some]
  cases h with
  | refused hk hf _ hin => exact hi.server_quiet rfl rfl hin (by simp [hf])
  | tagged hk => exact hi.server_quiet rfl rfl rfl (by simp)
  | answered _ _ _ _ _ _ _ hf _ hin => exact hi.server_quiet rfl rfl hin (by simp [hf])
  | rejected => exact hi.server_quiet rfl rfl rfl (by simp)
  | @keyed h st ip ks ep fs sent hk hh hread _ _ hks hsend =>
    obtain ⟨ks', hfirst, ht⟩ := hi.first_of_third hX hid hp hh (hhs h hh) hread
    obtain rfl := ht.agree hX (hhs h hh) hread hks
    have hnil : x.serverKeys = [] := by
      have h := hi.server
      rw [show x.server.keys = none from hk] at h
      simpa using h.symm
    refine hi.server_installs rfl (by rw [hnil]; exact hfirst) hsend.pair ?_ ?_
    · rw [hnil]
      exact hsend.rekeys.trans (hi.serverRekeys.trans (by rw [hnil]; rfl))
    · intro f hf
      obtain ⟨-, k, hk', hby⟩ := hsend.sealedBy hf
      cases hk'
      exact hby.key
  | opened hk ho _ hst => exact hi.server_quiet (hpair hk ho) hst rfl (by simp)
  | delivered hk ho _ _ _ _ hst => exact hi.server_quiet (hpair hk ho) hst rfl (by simp)
  | echoed hk ho _ _ hsend =>
    refine hi.server_quiet (hsend.pair.trans (hpair hk ho)) hsend.rekeys rfl fun f hf => ?_
    obtain ⟨-, r, hr⟩ := hsend.key hf
    exact ⟨r, (hpair hk ho).symm.trans hr⟩
  | rekey1 hk ho _ _ _ _ _ _ hsend =>
    refine hi.server_quiet (hsend.pair.trans (hpair hk ho)) hsend.rekeys rfl fun f hf => ?_
    obtain ⟨-, r, hr⟩ := hsend.key hf
    exact ⟨r, (hpair hk ho).symm.trans hr⟩
  | aborted hk ho => exact hi.server_quiet (hpair hk ho) rfl rfl (by simp)
  | @rekeyed k k' f h st ks stats hk ho _ hty _ hh hread _ hks hst =>
    obtain ⟨ks', hnext, ht⟩ := hi.next_of_rekey3 hA hid hfresh hp hk ho.authenticate hty
    obtain rfl := ht.agree hX (hrk h hh) hread hks
    have hpos := (List.getElem?_eq_some_iff.1 (hi.serverKeys_last hk)).1
    refine hi.server_installs rfl hnext rfl ?_ (by simp)
    have := hi.serverRekeys
    change stats.rekeys = _
    change stats.rekeys = x.server.stats.rekeys + 1 at hst
    omega

/-- An iteration of the server's run loop keeps the invariant. -/
theorem Lag.loops (hA : S.AeadLaws) (hX : S.XKLaws) (hi : Lag cc n x) (hid : x.Ideal)
    (hfresh : x.Fresh) (hhs : ∀ h, x.server.hs = some h → Answered cs h)
    (hrk : ∀ h, x.server.rekeyHs = some h → Answered cs h) {env : ServerEnv S}
    {e : ServerSession.Event} {s' : ServerSession S} {o : Out S} {up : Bool}
    (hdata : ∀ data, e = .recv (some data) → ∃ p ∈ x.c2s, data = p.wire)
    (h : ServerSession.Loops cs env x.server e (s', o, up)) (up' : Bool) :
    Lag cc n (x.serverMove s' up' o) := by
  cases h with
  | idle => exact hi.server_quiet rfl rfl rfl (by simp)
  | recv h =>
    obtain ⟨p, hp, rfl⟩ := hdata _ rfl
    exact hi.handles hA hX hid hfresh hhs hrk hp h up'
  | sent _ _ hsend =>
    exact hi.server_quiet hsend.pair hsend.rekeys rfl fun f hf => (hsend.key hf).2
  | timeout => exact hi.server_quiet rfl rfl rfl (by simp)

/-- **What the server does keeps the invariant.** -/
theorem Lag.serverSteps (hA : S.AeadLaws) (hX : S.XKLaws) (hi : Lag cc n x) (hid : x.Ideal)
    (hfresh : x.Fresh) (hhs : ∀ h, x.server.hs = some h → Answered cs h)
    (hrk : ∀ h, x.server.rekeyHs = some h → Answered cs h) {env : ServerEnv S}
    {e : ServerSession.Event} {s' : ServerSession S} {o : Out S} {up : Bool}
    (hdata : ∀ data, e = .recv (some data) → ∃ p ∈ x.c2s, data = p.wire)
    (h : ServerSession.Steps cs env x.server e (s', o, up)) :
    Lag cc n (x.serverMove s' up o) := by
  cases h with
  | run h => exact hi.loops hA hX hid hfresh hhs hrk hdata h true
  | halt h =>
    rw [Out.append_empty]
    exact hi.loops hA hX hid hfresh hhs hrk hdata h false
  | @close s₁ o₁ ep fs ok h hsend =>
    rw [serverMove_append x s₁ _ false]
    exact (hi.loops hA hX hid hfresh hhs hrk hdata h false).server_quiet hsend.pair hsend.rekeys rfl
      fun f hf => (hsend.key hf).2

/-! ### Whole runs -/

variable {x' : Conn S} {l : Label S}

theorem Lag.keys_of_reply (hi : Lag cc n x) (h : x.client.phase.keyed = false) :
    x.client.keys = none := by
  cases hp : x.client.phase with
  | waitReply hs m ck tag start since =>
    have hk := hi.client (by rw [hp]; rfl)
    rw [(hi.reply _ _ _ _ _ _ hp).1] at hk
    simpa using hk
  | backoff => exact hi.dead (by rw [hp]; rfl)
  | stopped => exact hi.dead (by rw [hp]; rfl)
  | _ => rw [hp] at h; cases h

/-- What the client opens was sealed with a key the server had installed. -/
theorem Lag.fromServer (hA : S.AeadLaws) (hi : Lag cc n x) (hid : x.Ideal) {p : Packet S}
    (hp : p ∈ x.s2c) : x.FromServer (.recv (some p.wire)) := by
  intro data k g hdata hk hg
  cases hdata
  cases p with
  | raw b => exact absurd (hg.symm.trans (hid.rawS2C b k hp hk)) (by simp)
  | frame f =>
    obtain ⟨j, ks, hj, hkey⟩ := hi.frameS2C f hp
    exact ⟨j, ks, hj, (f.key_of_authenticate hA hg).1.trans hkey⟩

/-- **Every step keeps the invariant.** -/
theorem Lag.step (hA : S.AeadLaws) (hX : S.XKLaws) (hi : Lag cc n x) (hid : x.Ideal)
    (hfresh : x.Fresh) (hhs : ∀ h, x.up = true → x.server.hs = some h → Answered cs h)
    (hrk : ∀ h, x.server.rekeyHs = some h → Answered cs h) (h : Step cc cs x l x') :
    Lag cc n x' := by
  cases h with
  | client hlive he hs =>
    refine hi.clientSteps hX hfresh hlive (Client.step_spec hlive hi.keys_of_reply hs) ?_
    rintro data k f rfl
    cases he
  | @toClient env i p c' o hlive hp hs =>
    have hmem := List.mem_of_getElem? hp
    have hmove := hi.clientSteps hX hfresh hlive (Client.step_spec hlive hi.keys_of_reply hs)
      (hi.fromServer hA hid hmem)
    exact hmove.mono (fun _ => id) fun _ => List.mem_of_mem_eraseIdx
  | server hup he hs =>
    refine hi.serverSteps hA hX hid hfresh (fun h => hhs h hup) hrk ?_ (ServerSession.step_spec hs)
    rintro data rfl
    cases he
  | @toServer env i p s' o up hup hp hs =>
    have hmem := List.mem_of_getElem? hp
    have hmove := hi.serverSteps hA hX hid hfresh (fun h => hhs h hup) hrk
      (fun data hd => by cases hd; exact ⟨p, hmem, rfl⟩) (ServerSession.step_spec hs)
    exact hmove.mono (fun _ => List.mem_of_mem_eraseIdx) fun _ => id
  | faultC2S f => exact hi.mono (Network.fault_subset _ f) fun _ => id
  | faultS2C f => exact hi.mono (fun _ => id) (Network.fault_subset _ f)

/-- When a connection begins, the client waits for the answer to its first message. -/
theorem Begun.lag (h : Begun cc x) : Lag cc x.client.stats.rekeys x := by
  obtain ⟨c, c', env, o, sid, peerIP, now, hp, hs, hlive, rfl⟩ := h
  unfold Client.step at hs
  rw [hp] at hs
  obtain ⟨hs₀, st, hnew, hwrite, rfl, rfl⟩ | ⟨⟨t, rfl⟩, -⟩ := Client.connect_spec hs
  · have hsent : S.Sent1 cc.keypair cc.serverPublic st.out st.hs :=
      ⟨hs₀, env.seed, env.tag.toBytes, st, hnew, hwrite, rfl, rfl⟩
    refine ⟨nofun, fun _ => rfl, ?_, nofun, rfl, List.prefix_refl _, Nat.zero_le _, ?_, ?_,
      nofun, rfl, rfl⟩
    · intro hs m ck tag start since hph
      cases hph
      exact ⟨rfl, st.out, [], hsent, (List.append_nil _).symm⟩
    · intro b hb
      obtain rfl : b = st.out := by simpa using hb
      exact .inl ⟨st.out, [], st.hs, hsent, (List.append_nil _).symm⟩
    · intro f hf
      simp at hf
  · cases hlive

/-- The two ends of a connection that behaves as the ideal cryptography lets it. -/
def idealLts (S : Suite) (cc : ClientConfig) (cs : ServerConfig) : LTS (Conn S) (Label S) :=
  (lts S cc cs).restrict fun x _ => x.Ideal

/-- The server's handshakes have answered a first message. -/
theorem answered_of_run {x₀ : Conn S} {ls : List (Label S)} (hb : Begun cc x₀)
    (h : (lts S cc cs).Run x₀ ls x) :
    (∀ h, x.up = true → x.server.hs = some h → Answered cs h) ∧
      ∀ h, x.server.rekeyHs = some h → Answered cs h := by
  obtain ⟨ms, hr⟩ := server_run h
  obtain ⟨c, c', env, o, sid, peerIP, now, -, -, -, rfl⟩ := hb
  have hi := ServerSession.RunInv.of_run sid peerIP now hr
  refine ⟨fun h hup hh => ?_, fun h hh => hi.inv.rekeyHs h hh⟩
  obtain ⟨a, -, rfl, -⟩ := hi.hs h hh hup
  exact ⟨_, _, a.answered⟩

theorem Lag.run (hA : S.AeadLaws) (hX : S.XKLaws) {x₀ : Conn S} {ls : List (Label S)}
    (hb : Begun cc x₀) (h : (idealLts S cc cs).Run x₀ ls x) (hf : x.Fresh) :
    Lag cc x₀.client.stats.rekeys x := by
  induction h with
  | nil => exact hb.lag
  | snoc hr hst ih =>
    obtain ⟨hid, hstep⟩ := hst
    have hfresh := Fresh.of_step hstep hf
    obtain ⟨hhs, hrk⟩ := answered_of_run hb hr.of_restrict
    exact (ih hfresh).step hA hX hid hfresh hhs hrk hstep

/-- **Bounded key lag.**  In every state of a connection in which the server has keys, they are the
pair `ks` the client has, or had when it gave the connection up, or the pair it had just before it
installed that one; and the server has completed as many rekeys as the client, or one less. -/
theorem keys_lag (hA : S.AeadLaws) (hX : S.XKLaws) {x₀ : Conn S} {ls : List (Label S)}
    (hb : Begun cc x₀) (run : (idealLts S cc cs).Run x₀ ls x) (hf : x.Fresh) {k : Keys S}
    (hk : x.server.keys = some k) :
    ∃ before ks, x.clientKeys = before ++ [ks] ∧
      (∀ kc, x.client.keys = some kc → kc.pair = ks) ∧
      (k.pair.swap = ks ∨ before.getLast? = some k.pair.swap) ∧
      (x.client.stats.rekeys = x₀.client.stats.rekeys + x.server.stats.rekeys ∨
        x.client.stats.rekeys = x₀.client.stats.rekeys + x.server.stats.rekeys + 1) := by
  have hi := Lag.run hA hX hb run hf
  have hlast := hi.serverKeys_last hk
  have hpos := (List.getElem?_eq_some_iff.1 hlast).1
  obtain ⟨t, ht⟩ := hi.behind
  have hlen := congrArg List.length ht
  rw [List.length_append] at hlen
  have hlag := hi.lag
  have hcount := hi.clientRekeys
  have hcount' := hi.serverRekeys
  have hclient : ∀ kc, x.client.keys = some kc → x.clientKeys.getLast? = some kc.pair := by
    intro kc hkc
    cases hlive : x.client.phase.live with
    | false => rw [hi.dead hlive] at hkc; cases hkc
    | true => rw [← hi.client hlive, hkc]; rfl
  rw [← List.getLast?_eq_getElem?] at hlast
  match t with
  | [] =>
    -- the server has caught up
    rw [List.append_nil] at ht
    rw [ht] at hlast
    obtain ⟨before, hbefore⟩ := List.getLast?_eq_some_iff.1 hlast
    refine ⟨before, k.pair.swap, hbefore, fun kc hkc => ?_, .inl rfl, .inl ?_⟩
    · exact Option.some.inj ((hclient kc hkc).symm.trans hlast)
    · rw [List.length_nil] at hlen
      omega
  | [ks] =>
    refine ⟨x.serverKeys, ks, ht.symm, fun kc hkc => ?_, .inr hlast, .inr ?_⟩
    · have h := hclient kc hkc
      rw [← ht, List.getLast?_concat] at h
      exact (Option.some.inj h).symm
    · rw [List.length_singleton] at hlen
      omega
  | _ :: _ :: _ =>
    simp only [List.length_cons] at hlen
    omega

theorem plainSettled_reachable :
    (idealLts plain Client.plainConfig ServerSession.plainConfig).Reachable plainStart
      plainSettled := by
  have hrun : plainOpening.foldlM (fun x l => if isIdeal x then
      next Client.plainConfig ServerSession.plainConfig x l else none) plainStart =
      some plainSettled := rfl
  refine (LTS.run_of_next (fun x l x' hx => ?_) hrun).reachable
  split_ifs at hx with hid
  exact ⟨ideal_of_test hid, step_of_next hx⟩

/-- The client has swapped its keys for the pair 6, and the server still has the pair 5. -/
theorem keys_lag_plain : ∃ x k,
    (idealLts plain Client.plainConfig ServerSession.plainConfig).Reachable plainStart x ∧
    x.server.keys = some k ∧ k.pair = (133, 5) ∧ ∃ before ks, x.clientKeys = before ++ [ks] ∧
      (k.pair.swap = ks ∨ before.getLast? = some k.pair.swap) := by
  obtain ⟨x, run, hp⟩ := exists_plain_run (fun x _ => x.isIdeal) (fun _ _ => ideal_of_test)
    plainStart (plainOpening ++ [.toClient (Client.plainEnv 3 0) 0,
      .client (Client.plainEnv 30 8) .keepalive, .toServer (ServerSession.plainEnv 31 10) 1,
      .toClient (Client.plainEnv 32 6) 0])
    (fun x => plainKeys x == [(5, 133), (6, 134)] && plainPair x.server.keys == some (133, 5))
    (by decide +kernel)
  simp only [Bool.and_eq_true, beq_iff_eq] at hp
  obtain ⟨k, hk, hpair⟩ := exists_of_plainPair hp.2
  obtain ⟨before, ks, h, -, hlag, -⟩ := keys_lag Plain.aeadLaws Plain.xkLaws begun_plainStart run
    (fresh_of_plainKeys hp.1 (by decide) (by decide)) hk
  exact ⟨x, k, run.reachable, hk, hpair, before, ks, h, hlag⟩

end Conn

end VibeVpn

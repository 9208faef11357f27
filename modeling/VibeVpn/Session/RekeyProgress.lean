import VibeVpn.LTS.Runs
import VibeVpn.Session.Tunnel

/-!
# A rekey completes

During a rekey neither end sends data, so a rekey that never ended would stall the tunnel.  Over a
carrier that keeps the order and takes what it is given (`Conn.reliableLts`) this does not happen:
while the client is rekeying, exactly one message of the rekey is on its way, and each delivery
brings it nearer.

* `Conn.Asked`, `Conn.Replied`, `Conn.Owed` : the message under way is the first, the second or the
  third one, with so many datagrams before it;
* `Conn.Asked.step`, `Conn.Replied.step`, `Conn.Owed.step` : every step leaves it where it is,
  brings it nearer, or ends the wait;
* `Conn.rekey_completes` : **a rekey that has begun is completed by both ends** once what is in
  flight has been delivered, to the server, back to the client, and to the server again.

The carrier is that of `Conn.orderedLts`, with its two conditions: the server's rekey timeout does
not strike while a message of the rekey is in flight (`Conn.Heeds`), and no send counter comes near
`2 ^ 32` (`Conn.Roomy`).
-/

namespace VibeVpn

variable {S : Suite}

/-! ### The two handlers that carry a rekey on -/

/-- A client that is rekeying and opens the answer of the server installs new keys. -/
theorem Client.installs_of_rekey2 {cfg : ClientConfig} {env : ClientEnv S} {c c' : Client S}
    {o : Out S} {data : Bytes} {k k' : Keys S} {f : Frame} {hs : S.HS}
    {st st₃ : HsStep S.HS S.Key} {ks : S.Key × S.Key} (hp : c.phase = .running)
    (hk : c.keys = some k) (hop : k.open data = .ok (k', .ok f)) (htag : f.tag = c.tag)
    (hty : f.typ = msgRekey2) (hrk : c.rekeying = true) (hhs : c.rekeyHs = some hs)
    (hread : S.read hs f.payload = some st) (hwrite : S.write st.hs env.seed [] = some st₃)
    (hks : st₃.keys = some ks) (hok : env.send.ok = true)
    (h : c.step cfg env (.recv (some data)) = .ok (c', o)) : o.installed = [ks] := by
  unfold step at h
  rw [hp] at h
  obtain ⟨⟨c₁, o₁, err⟩, hf, h⟩ := Go.bind_eq_ok.1 h
  simp only [handleFrame, hk, hop, Go.ok_bind, htag, ne_eq, not_true_eq_false, if_false, dispatch,
    hty, hrk, if_true, continueRekey, hhs, hread, hwrite, hks] at hf
  rw [if_neg (by decide), if_neg (by decide), if_neg (by decide), if_neg (by decide)] at hf
  obtain ⟨⟨c₂, o₂, sent⟩, he, hf⟩ := Go.bind_eq_ok.1 hf
  obtain ⟨⟨ep, fs, sent'⟩, he', heq⟩ := Go.bind_eq_ok.1 he
  have hsent := Endpoint.encryptSend_sent he' (by rintro (hn | ⟨-, hn⟩) <;> cases hn)
  cases heq
  rw [hok] at hsent
  subst hsent
  cases hf
  cases h
  rfl

/-- A session that is not rekeying and opens the first message of a rekey answers it. -/
theorem ServerSession.answers_of_rekey1 {cfg : ServerConfig} {env : ServerEnv S}
    {s s' : ServerSession S} {o : Out S} {up : Bool} {data : Bytes} {k k' : Keys S} {f : Frame}
    {r : S.HS} {st st₂ : HsStep S.HS S.Key} (hk : s.keys = some k)
    (hop : k.open data = .ok (k', .ok f)) (htag : f.tag = s.tag) (hty : f.typ = msgRekey1)
    (hrk : s.rekeying = false) (hnew : S.newServerHandshake cfg.keypair = some r)
    (hread : S.read r f.payload = some st) (hwrite : S.write st.hs env.seed [] = some st₂)
    (hok : env.send.ok = true) (h : s.step cfg env (.recv (some data)) = .ok (s', o, up)) :
    s'.rekeying = true ∧ ∃ g, g.typ = msgRekey2 ∧ o = { frames := [(g, true)] } := by
  obtain ⟨⟨s₁, o₁, running⟩, hl, h⟩ := Go.bind_eq_ok.1 h
  obtain ⟨⟨s₂, o₂, err⟩, hh, hl⟩ := Go.bind_eq_ok.1 hl
  simp only [handle, hk, hop, Go.ok_bind, htag, ne_eq, not_true_eq_false, if_false, dispatch,
    hty, rekey1, Option.isNone_some, hrk, Bool.or_self, Bool.false_eq_true, hnew, hread, hwrite,
    if_true] at hh
  rw [if_neg (by decide), if_neg (by decide), if_neg (by decide), if_neg (by decide)] at hh
  obtain ⟨⟨s₃, o₃⟩, he, hh⟩ := Go.bind_eq_ok.1 hh
  obtain ⟨⟨ep, fs, sent⟩, he', heq⟩ := Go.bind_eq_ok.1 he
  have hsent := Endpoint.encryptSend_sent he' (by rintro (hn | ⟨-, hn⟩) <;> cases hn)
  have hsends := Endpoint.encryptSend_spec he'
  cases heq
  cases hh
  cases hl
  cases h
  rw [hok] at hsent
  subst hsent
  cases hsends with
  | sealed _ _ hby => exact ⟨rfl, _, hby.typ, rfl⟩

/-! ### How long an end is rekeying -/

/-- A client goes on rekeying until it opens a second message or gives the connection up. -/
theorem Client.Steps.rekeying {cfg : ClientConfig} {env : ClientEnv S} {c c' : Client S}
    {o : Out S} {e : Event} (h : Steps cfg env c e c' o) (hp : c.phase = .running)
    (hrk : c.rekeying = true) (hlive : c'.phase.live = true)
    (hno : ∀ data k' f hs, e = .recv (some data) → ¬ c.Continues data k' f hs) :
    c'.phase = .running ∧ c'.rekeying = true ∧ c'.rekeyHs = c.rekeyHs ∧ o.installed = [] := by
  cases h with
  | idle => exact ⟨hp, hrk, rfl, rfl⟩
  | keyless => exact ⟨hp, hrk, rfl, rfl⟩
  | hangup _ hdead =>
    rw [hdead] at hlive
    cases hlive
  | cookie hw => exact absurd (hp.symm.trans hw) nofun
  | keyed hw => exact absurd (hp.symm.trans hw) nofun
  | opened _ _ _ hep _ _ _ _ _ hin _ hph =>
    refine ⟨?_, (congrArg Endpoint.rekeying hep).trans hrk,
      (congrArg Endpoint.rekeyHs hep :), hin⟩
    exact hph.elim (fun h => h.1.trans hp) (·.1)
  | sent _ _ _ hs => exact ⟨hp, hs.frame.2.1.trans hrk, hs.frame.2.2.1, rfl⟩
  | keepalive _ _ hidle =>
    rw [hrk] at hidle
    cases hidle
  | rekeyUnread hc => exact absurd hc (hno _ _ _ _ rfl)
  | rekeyUnwritten hc => exact absurd hc (hno _ _ _ _ rfl)
  | rekeyIncomplete hc => exact absurd hc (hno _ _ _ _ rfl)
  | rekeyUnsent hc => exact absurd hc (hno _ _ _ _ rfl)
  | rekeyed hc => exact absurd hc (hno _ _ _ _ rfl)

/-- A client with keys that installs new ones is not rekeying any more. -/
theorem Client.Steps.not_rekeying {cfg : ClientConfig} {env : ClientEnv S} {c c' : Client S}
    {o : Out S} {e : Event} (h : Steps cfg env c e c' o) (hkeyed : c.phase.keyed = true)
    (hin : o.installed ≠ []) : c'.rekeying = false := by
  cases h with
  | hangup _ _ _ _ h => exact absurd h hin
  | keyed hp => rw [hp] at hkeyed; cases hkeyed
  | opened _ _ _ _ _ _ _ _ _ h => exact absurd h hin
  | keepalive _ _ _ _ hm => cases hm <;> exact absurd rfl hin
  | rekeyed => rfl
  | _ => exact absurd rfl hin

namespace Conn

variable {cc : ClientConfig} {cs : ServerConfig} {n N i j : ℕ} {x x' : Conn S} {l : Label S}

/-! ### Where a rekey stands -/

/-- The invariants of the runs over an ordered carrier. -/
structure Steady (cc : ClientConfig) (cs : ServerConfig) (n : ℕ) (x : Conn S) : Prop where
  lag : Lag cc n x
  sync : Sync cc cs x
  order : InOrder x

/-- The client is in a rekey, and its handshake still awaits the second message. -/
structure Rekeys (x : Conn S) : Prop where
  running : x.client.phase = .running
  rekeying : x.client.rekeying = true
  reads : ∃ hs m, x.client.rekeyHs = some hs ∧ (S.read hs m).isSome

/-- The first message of the rekey is on its way, behind `i` other datagrams.  The server may still
be about to complete the rekey before. -/
structure Asked (i : ℕ) (x : Conn S) : Prop extends Rekeys x where
  first : ∃ f, x.c2s[i]? = some (.frame f) ∧ f.typ = msgRekey1 ∧
    ∀ kc, x.client.keys = some kc → f.key = kc.sendKey
  idle : x.server.rekeying = true → x.clientKeys.length = x.serverKeys.length + 1

/-- The second message of the rekey is on its way, behind `j` other datagrams. -/
structure Replied (j : ℕ) (x : Conn S) : Prop extends Rekeys x where
  second : ∃ g, x.s2c[j]? = some (.frame g) ∧ g.typ = msgRekey2
  busy : x.server.rekeying = true
  length : x.clientKeys.length = x.serverKeys.length

/-- The third message of the rekey that leaves the server with more than `N` pairs is on its way,
behind `i` other datagrams. -/
structure Owed (N i : ℕ) (x : Conn S) : Prop where
  third : ∃ f k, x.c2s[i]? = some (.frame f) ∧ f.typ = msgRekey3 ∧ x.server.keys = some k ∧
    f.key = k.recvKey
  server : x.serverKeys.length = N
  client : N < x.clientKeys.length

/-- The message written by the client's handshake is the one the server may be answering. -/
theorem Rekeys.sent1 (h : Rekeys x) {m₁ : Bytes} (ha : Attempt cc x m₁) :
    ∃ hs, x.client.rekeyHs = some hs ∧ S.Sent1 cc.keypair cc.serverPublic m₁ hs := by
  obtain ⟨hs, m, hhs, hm⟩ := h.reads
  refine ⟨hs, hhs, (ha.hs (by rw [h.running]; rfl) hs hhs).resolve_right fun hno => ?_⟩
  rw [hno] at hm
  cases hm

/-- An event of the client in which it opens no second message. -/
theorem Rekeys.client (h : Rekeys x) {env : ClientEnv S} {e : Client.Event} {c' : Client S}
    {o : Out S} (hs : Client.Steps cc env x.client e c' o) (hlive : c'.phase.live = true)
    (hno : ∀ data k' f hs, e = .recv (some data) → ¬ x.client.Continues data k' f hs)
    (net : List (Packet S)) :
    Rekeys ({ x with s2c := net }.clientMove env.now c' o) ∧ o.installed = [] := by
  obtain ⟨h1, h2, h3, h4⟩ := hs.rekeying h.running h.rekeying hlive hno
  exact ⟨⟨h1, h2, by
    obtain ⟨hs, m, hh, hm⟩ := h.reads
    exact ⟨hs, m, h3.trans hh, hm⟩⟩, h4⟩

/-- While both ends are live and the client is rekeying, its send key does not change without new
keys. -/
theorem sendKey_of_steps {env : ClientEnv S} {e : Client.Event} {c c' : Client S} {o : Out S}
    (hs : Client.Steps cc env c e c' o) (hkeyed : c.phase.keyed = true) {kc kc' : Keys S}
    (hkc : c.keys = some kc) (hin : o.installed = []) (hkc' : c'.keys = some kc') :
    kc'.sendKey = kc.sendKey := by
  obtain ⟨k', huse, -, hafter⟩ := hs.uses hkeyed hkc
  cases hafter with
  | drops hno => cases hno.symm.trans hkc'
  | keeps hk' =>
    cases hk'.symm.trans hkc'
    exact congrArg Prod.fst huse.pair
  | swaps _ _ _ _ hin' =>
    rw [hin] at hin'
    cases hin'

theorem getElem?_append_sent {q : List (Packet S)} {p : Packet S} (h : q[i]? = some p)
    (o : Out S) : (q ++ o.sent)[i]? = some p := by
  rw [List.getElem?_append_left (List.getElem?_eq_some_iff.1 h).1]
  exact h

/-- While the first message is on its way, a server with the keys of the client is not rekeying. -/
theorem Asked.server_idle (h : Asked i x) {m₁ : Bytes} (hal : Aligned cs x m₁) :
    x.server.rekeying = false := by
  refine Bool.eq_false_iff.2 fun hr => ?_
  have hbehind := h.idle hr
  have hlen := hal.length
  omega

/-- While the first message is on its way the client opens no second one. -/
theorem Asked.not_continues (hA : S.AeadLaws) (h : Asked i x) (hg : Steady cc cs n x)
    (hid : x.Ideal) {p : Packet S} (hp : p ∈ x.s2c) {k' : Keys S} {f : Frame} {hs : S.HS} :
    ¬ x.client.Continues p.wire k' f hs := by
  intro hc
  obtain ⟨kc, hkc, hop⟩ := hc.opened
  have hlive : x.client.phase.live = true := by rw [hc.running]; rfl
  obtain ⟨k, hk⟩ := Option.isSome_iff_exists.1 hg.sync.server
  obtain ⟨g, rfl, rfl⟩ : ∃ g, p = .frame g ∧ f = g.frame := by
    cases p with
    | raw b => exact absurd (hop.authenticate.symm.trans (hid.rawS2C b kc hp hkc)) nofun
    | frame g => exact ⟨g, rfl, (g.key_of_authenticate hA hop.authenticate).2⟩
  have hd := hg.order.down kc hkc
  obtain ⟨m₁, -, hal | ⟨g', k₀, hb⟩⟩ := hg.sync.turn
  · -- a server that is not rekeying has no second message in flight
    have hidle := h.server_idle hal
    have hpair := hal.pair_eq hg.lag hlive hkc hk
    exact hal.free hlive hidle g k hp hc.typ hk ((hd.key g hp).trans (congrArg Prod.snd hpair))
  · exact (hd.behind hb.length).1 g hp

/-- The first message, while the client moves. -/
theorem Asked.client (h : Asked i x) (hg : Steady cc cs n x) {env : ClientEnv S}
    {e : Client.Event} {c' : Client S} {o : Out S} (hs : Client.Steps cc env x.client e c' o)
    (hlive : c'.phase.live = true)
    (hno : ∀ data k' f hs, e = .recv (some data) → ¬ x.client.Continues data k' f hs)
    (net : List (Packet S)) :
    Asked i ({ x with s2c := net }.clientMove env.now c' o) ∧ o.installed = [] := by
  obtain ⟨hr, hin⟩ := h.toRekeys.client hs hlive hno net
  obtain ⟨f, hf, hty, hkey⟩ := h.first
  have hlive₀ : x.client.phase.live = true := by rw [h.running]; rfl
  obtain ⟨kc, hkc⟩ := hg.sync.exists_clientKeys hg.lag hlive₀
  refine ⟨⟨hr, ⟨f, getElem?_append_sent hf o, hty, fun kc' hkc' => ?_⟩, fun hrk => ?_⟩, hin⟩
  · exact (hkey kc hkc).trans (sendKey_of_steps hs (hg.sync.keyed hlive₀) hkc hin hkc').symm
  · show (x.clientKeys ++ o.installed).length = _
    rw [hin, List.append_nil]
    exact h.idle hrk

/-- The first message, while the server moves and answers none. -/
theorem Asked.server (h : Asked i x) {env : ServerEnv S} {e : ServerSession.Event}
    {s' : ServerSession S} {o : Out S} {up : Bool} {k : Keys S} (hk : x.server.keys = some k)
    (hs : ServerSession.Steps cs env x.server e (s', o, up))
    (hno : x.server.rekeying = false → ¬ ServerSession.Opens k e msgRekey1)
    {net : List (Packet S)} (hnet : ∀ p, x.c2s[i]? = some p → net[j]? = some p) :
    Asked j ({ x with c2s := net }.serverMove s' up o) := by
  obtain ⟨f, hf, hrest⟩ := h.first
  refine ⟨⟨h.running, h.rekeying, h.reads⟩, ⟨f, hnet _ hf, hrest⟩, fun hrk => ?_⟩
  have hrk : s'.rekeying = true := hrk
  cases hs.moves.of_keys hk with
  | keeps hkeep =>
    cases hkeep.turn with
    | same hsame =>
      show _ = (x.serverKeys ++ o.installed).length + 1
      rw [hkeep.installed, List.append_nil]
      exact h.idle (hsame.symm.trans hrk)
    | starts hidle _ ho => exact absurd ho (hno hidle)
    | stops _ hstop => exact absurd (hrk.symm.trans hstop) nofun
  | swaps hsw => exact absurd (hrk.symm.trans hsw.idle) nofun

/-- The server opens the first message, and answers it. -/
theorem Asked.replied (hA : S.AeadLaws) (hT : S.XKProgress)
    (hpub : Paired S cc cs) (h : Asked i x) (hg : Steady cc cs n x) {m₁ : Bytes}
    (ha : Attempt cc x m₁) (hal : Aligned cs x m₁) {env : ServerEnv S} (hok : env.send.ok = true)
    {g : Sealed S} {q : List (Packet S)} (hq : x.c2s = .frame g :: q) (hty : g.typ = msgRekey1)
    {s' : ServerSession S} {o : Out S} {up : Bool}
    (hs : x.server.step cs env (.recv (some g.wire)) = .ok (s', o, up)) :
    Replied x.s2c.length ({ x with c2s := q }.serverMove s' up o) := by
  have hlive : x.client.phase.live = true := by rw [h.running]; rfl
  obtain ⟨k, hk⟩ := Option.isSome_iff_exists.1 hg.sync.server
  obtain ⟨kc, hkc⟩ := hg.sync.exists_clientKeys hg.lag hlive
  have hidle := h.server_idle hal
  have hu := hg.order.up k hk
  -- the message is the one that the client's handshake has written
  obtain ⟨k', hop, htag⟩ := hu.opens hA hg.sync hk hq
  have hpair := hal.pair_eq hg.lag hlive hkc hk
  have hkey : g.key = kc.sendKey :=
    (hu.head_key hg.sync hk hq).trans (congrArg Prod.fst hpair).symm
  have hpay : g.payload = m₁ := (ha.frames kc g hkc (by simp [hq]) hty hkey).2
  obtain ⟨hs₁, -, hsent⟩ := h.sent1 ha
  obtain ⟨r, st, st₂, hnew, hread, hwrite⟩ :=
    hT.answers env.seed hpub.client hpub.server (hpub.pins ▸ hsent)
  obtain ⟨hrk, g₂, hty₂, rfl⟩ := ServerSession.answers_of_rekey1 hk hop htag hty hidle hnew
    (by rw [← hread, ← hpay]; rfl) hwrite hok hs
  refine ⟨⟨h.running, h.rekeying, h.reads⟩, ⟨g₂, ?_, hty₂⟩, hrk, ?_⟩
  · exact List.getElem?_concat_length
  · show _ = (x.serverKeys ++ []).length
    rw [List.append_nil]
    exact hal.length

/-- The server is handed the first datagram in flight: the first message of the rekey is one place
nearer, or answered. -/
theorem Asked.toServer (hA : S.AeadLaws) (hT : S.XKProgress)
    (hpub : Paired S cc cs) (h : Asked i x) (hg : Steady cc cs n x)
    (hid : x.Ideal) (hfresh : x.Fresh) {env : ServerEnv S} (hok : env.send.ok = true)
    {p : Packet S} (hp : x.c2s[0]? = some p) {s' : ServerSession S} {o : Out S} {up : Bool}
    (hs : x.server.step cs env (.recv (some p.wire)) = .ok (s', o, up)) :
    (∃ j, Replied j ({ x with c2s := x.c2s.eraseIdx 0 }.serverMove s' up o)) ∨
      i ≠ 0 ∧ Asked (i - 1) ({ x with c2s := x.c2s.eraseIdx 0 }.serverMove s' up o) := by
  have hlive : x.client.phase.live = true := by rw [h.running]; rfl
  obtain ⟨k, hk⟩ := Option.isSome_iff_exists.1 hg.sync.server
  obtain ⟨kc, hkc⟩ := hg.sync.exists_clientKeys hg.lag hlive
  obtain ⟨f, hf, hty, hkey⟩ := h.first
  have hq : x.c2s = p :: x.c2s.eraseIdx 0 := by
    cases Takes.of_head hp with
    | head hq => exact hq
  -- another datagram comes before the message
  have hnext : i ≠ 0 → (x.server.rekeying = false → ∀ g, p = .frame g → g.typ ≠ msgRekey1) →
      Asked (i - 1) ({ x with c2s := x.c2s.eraseIdx 0 }.serverMove s' up o) := by
    intro hi hno
    refine h.server hk (ServerSession.step_spec hs) (fun hidle => ?_) fun p' hp' =>
      getElem?_eraseIdx_zero hp' hi
    rintro ⟨data, k', f', he, hop, hty'⟩
    cases he
    obtain ⟨g, rfl, -, rfl⟩ :=
      frame_of_authenticate hA hid (List.mem_of_getElem? hp) hk hop.authenticate
    exact hno hidle g rfl hty'
  obtain ⟨m₁, ha, hal | ⟨f₃, k₀, hb⟩⟩ := hg.sync.turn
  · by_cases h1 : ∃ g, p = .frame g ∧ g.typ = msgRekey1
    · obtain ⟨g, rfl, hty₁⟩ := h1
      exact .inl ⟨_, h.replied hA hT hpub hg ha hal hok hq hty₁ hs⟩
    · have hi : i ≠ 0 := by
        rintro rfl
        exact h1 ⟨f, Option.some.inj (hp.symm.trans hf), hty⟩
      exact .inr ⟨hi, hnext hi fun _ g hgp hg1 => h1 ⟨g, hgp, hg1⟩⟩
  · -- the server has yet to complete the rekey before, and the message is under the newer keys
    cases hk.symm.trans hb.keys
    have hi : i ≠ 0 := by
      rintro rfl
      obtain rfl : p = .frame f := Option.some.inj (hp.symm.trans hf)
      have hold := (hg.order.up k hk).head_key hg.sync hk hq
      rw [hkey kc hkc] at hold
      exact hb.key_ne hg.lag hfresh hlive (by rw [hkc]; rfl : _ = some kc.pair) hold
    refine .inr ⟨hi, hnext hi fun hidle => ?_⟩
    rw [hb.rekeying] at hidle
    cases hidle

/-- The second message, while the client moves and opens none. -/
theorem Replied.client (h : Replied i x) {env : ClientEnv S} {e : Client.Event} {c' : Client S}
    {o : Out S} (hs : Client.Steps cc env x.client e c' o) (hlive : c'.phase.live = true)
    (hno : ∀ data k' f hs, e = .recv (some data) → ¬ x.client.Continues data k' f hs)
    {net : List (Packet S)} (hnet : ∀ p, x.s2c[i]? = some p → net[j]? = some p) :
    Replied j ({ x with s2c := net }.clientMove env.now c' o) ∧ o.installed = [] := by
  obtain ⟨hr, hin⟩ := h.toRekeys.client hs hlive hno net
  obtain ⟨g, hg, hty⟩ := h.second
  refine ⟨⟨hr, ⟨g, hnet _ hg, hty⟩, h.busy, ?_⟩, hin⟩
  show (x.clientKeys ++ o.installed).length = _
  rw [hin, List.append_nil]
  exact h.length

/-- Ends that have installed as many pairs have the same keys. -/
theorem Replied.aligned (h : Replied j x) (hg : Steady cc cs n x) :
    ∃ m₁, Attempt cc x m₁ ∧ Aligned cs x m₁ := by
  obtain ⟨m₁, ha, hal | ⟨f, k, hb⟩⟩ := hg.sync.turn
  · exact ⟨m₁, ha, hal⟩
  · have := hb.length
    have := h.length
    omega

/-- The client opens the second message, and installs new keys. -/
theorem Replied.installs (hA : S.AeadLaws) (hX : S.XKLaws) (hT : S.XKProgress)
    (hpub : Paired S cc cs) (h : Replied j x) (hg : Steady cc cs n x)
    {env : ClientEnv S} (hok : env.send.ok = true) {g : Sealed S} {q : List (Packet S)}
    (hq : x.s2c = .frame g :: q) (hty : g.typ = msgRekey2) {c' : Client S} {o : Out S}
    (hs : x.client.step cc env (.recv (some g.wire)) = .ok (c', o)) : ∃ ks, o.installed = [ks] := by
  have hlive : x.client.phase.live = true := by rw [h.running]; rfl
  obtain ⟨k, hk⟩ := Option.isSome_iff_exists.1 hg.sync.server
  obtain ⟨kc, hkc⟩ := hg.sync.exists_clientKeys hg.lag hlive
  obtain ⟨m₁, ha, hal⟩ := h.aligned hg
  have hd := hg.order.down kc hkc
  obtain ⟨k', hop, htag⟩ := hd.opens hA hq
  have hpair := hal.pair_eq hg.lag hlive hkc hk
  have hmem : .frame g ∈ x.s2c := by simp [hq]
  -- it is the server's answer to the message that the client's handshake has written
  obtain ⟨-, r, m₂, -, hans, hpay⟩ := hal.busy hlive h.busy
  have hpay : g.payload = m₂ :=
    hpay g k hmem hty hk ((hd.key g hmem).trans (congrArg Prod.snd hpair))
  obtain ⟨hs₁, hhs, hsent⟩ := h.sent1 ha
  obtain ⟨st, st₃, hread, hwrite⟩ :=
    hT.continues env.seed hpub.client hpub.server (hpub.pins ▸ hsent) hans
  obtain ⟨ks, hks⟩ := Option.isSome_iff_exists.1
    (hX.third_complete ⟨hs₁, st, hsent, hread, rfl⟩ hwrite)
  exact ⟨ks, Client.installs_of_rekey2 h.running hkc hop (htag.trans (hg.sync.tag hlive).symm) hty
    h.rekeying hhs (by rw [← hread, ← hpay]; rfl) hwrite hks hok hs⟩

/-- The second message, while the server moves. -/
theorem Replied.server (h : Replied j x) {env : ServerEnv S} {e : ServerSession.Event}
    {s' : ServerSession S} {o : Out S} {up : Bool} {k : Keys S} (hk : x.server.keys = some k)
    (hs : ServerSession.Steps cs env x.server e (s', o, up))
    (hlate : e = .tick → ¬ cs.handshakeTimeout < env.now - x.server.rekeyStart)
    (hno : ¬ ServerSession.Opens k e msgRekey3) (net : List (Packet S)) :
    Replied j ({ x with c2s := net }.serverMove s' up o) := by
  obtain ⟨g, hg, hty⟩ := h.second
  cases hs.moves.of_keys hk with
  | keeps hkeep =>
    cases hkeep.turn with
    | same hsame =>
      refine ⟨⟨h.running, h.rekeying, h.reads⟩, ⟨g, getElem?_append_sent hg o, hty⟩,
        hsame.trans h.busy, ?_⟩
      show _ = (x.serverKeys ++ o.installed).length
      rw [hkeep.installed, List.append_nil]
      exact h.length
    | starts hidle => exact absurd (h.busy.symm.trans hidle) nofun
    | stops _ _ hwhy =>
      rcases hwhy with ⟨he, hl⟩ | ho
      · exact absurd hl (hlate he)
      · exact absurd ho hno
  | swaps hsw => exact absurd ⟨_, _, _, hsw.event, hsw.opened, hsw.typ⟩ hno

/-- The client is handed the first datagram in flight: the second message of the rekey is one place
nearer, or the client installs new keys. -/
theorem Replied.toClient (hA : S.AeadLaws) (hX : S.XKLaws) (hT : S.XKProgress)
    (hpub : Paired S cc cs) (h : Replied j x) (hg : Steady cc cs n x)
    (hid : x.Ideal) {env : ClientEnv S} (hok : env.send.ok = true) {p : Packet S}
    (hp : x.s2c[0]? = some p) {c' : Client S} {o : Out S}
    (hs : x.client.step cc env (.recv (some p.wire)) = .ok (c', o))
    (hlive' : c'.phase.live = true) :
    (∃ ks, o.installed = [ks]) ∨ o.installed = [] ∧ j ≠ 0 ∧
      Replied (j - 1) ({ x with s2c := x.s2c.eraseIdx 0 }.clientMove env.now c' o) := by
  have hlive : x.client.phase.live = true := by rw [h.running]; rfl
  by_cases h2 : ∃ g, p = .frame g ∧ g.typ = msgRekey2
  · obtain ⟨g, rfl, hty⟩ := h2
    cases Takes.of_head hp with
    | head hq => exact .inl (h.installs hA hX hT hpub hg hok hq hty hs)
  · obtain ⟨g, hgj, hty⟩ := h.second
    have hj : j ≠ 0 := by
      rintro rfl
      exact h2 ⟨g, Option.some.inj (hp.symm.trans hgj), hty⟩
    obtain ⟨hnext, hin⟩ := h.client (Client.step_spec hlive hg.lag.keys_of_reply hs) hlive'
      (fun data k' f hs' he hc => by
        cases he
        obtain ⟨kc, hkc, hop⟩ := hc.opened
        cases p with
        | raw b =>
          have := hop.authenticate
          rw [Packet.wire, hid.rawS2C b kc (List.mem_of_getElem? hp) hkc] at this
          cases this
        | frame g' =>
          obtain ⟨-, rfl⟩ := g'.key_of_authenticate hA hop.authenticate
          exact h2 ⟨g', rfl, hc.typ⟩)
      (fun p' hp' => getElem?_eraseIdx_zero hp' hj)
    exact .inr ⟨hin, hj, hnext⟩

/-- The client starts a rekey. -/
theorem asked_of_started (hT : S.XKProgress) (hpub : Paired S cc cs)
    (hg : Steady cc cs n x) {env : ClientEnv S} {e : Client.Event} {c' : Client S} {o : Out S}
    (hs : Client.Steps cc env x.client e c' o) (hlive : c'.phase.live = true)
    (hidle : x.client.rekeying = false) (hrk : c'.rekeying = true) (net : List (Packet S)) :
    ∃ i, Asked i ({ x with s2c := net }.clientMove env.now c' o) := by
  have hsame : ∀ {P : Prop}, c'.rekeying = x.client.rekeying → P := fun h => by
    rw [hrk, hidle] at h
    cases h
  have hcont : ∀ {P : Prop} {data : Bytes} {k' : Keys S} {f : Frame} {hs : S.HS},
      x.client.Continues data k' f hs → P := fun hc => by
    have := hc.rekeying
    rw [hidle] at this
    cases this
  cases hs with
  | idle => exact hsame rfl
  | keyless => exact hsame rfl
  | hangup _ hdead =>
    rw [hdead] at hlive
    cases hlive
  | cookie => exact hsame rfl
  | keyed => exact hsame rfl
  | opened _ _ _ hep => exact hsame (congrArg Endpoint.rekeying hep :)
  | sent _ _ _ hsend => exact hsame hsend.frame.2.1
  | rekeyUnread hc => exact hcont hc
  | rekeyUnwritten hc => exact hcont hc
  | rekeyIncomplete hc => exact hcont hc
  | rekeyUnsent hc => exact hcont hc
  | rekeyed hc => exact hcont hc
  | @keepalive pt ep fs ok c' o hp hconn _ hsend hm =>
    have hep : ep.rekeying = x.client.rekeying := hsend.frame.2.1
    cases hm with
    | no => exact hsame hep
    | unsent _ _ hsend' => exact hsame (hsend'.frame.2.1.trans hep)
    | @started hs st ep' fs' hnew hwrite hsend' =>
      have hsent : S.Sent1 cc.keypair cs.keypair.pub st.out st.hs :=
        hpub.pins ▸ ⟨hs, env.seed, [], st, hnew, hwrite, rfl, rfl⟩
      obtain ⟨m, hm⟩ := hT.reads env.seed hpub.client hpub.server hsent
      cases hsend' with
      | @sealed k f _ stats last hk _ hby =>
        obtain ⟨i, hi⟩ := List.mem_iff_getElem?.1
          (show .frame f ∈ x.c2s ++
            (({ frames := fs } : Out S).append { frames := [(f, true)] }).sent from
            List.mem_append_right _ (frame_mem_sent.2 (by simp [Out.append])))
        refine ⟨i, ⟨hp, rfl, st.hs, m, rfl, hm⟩, ⟨f, hi, hby.typ, fun kc hkc => ?_⟩, fun hr => ?_⟩
        · cases hkc
          exact hby.key
        · -- a server that is rekeying while the client is not is behind
          show (x.clientKeys ++ _).length = _
          rw [show (({ frames := fs } : Out S).append { frames := [(f, true)] }).installed = []
            from rfl, List.append_nil]
          obtain ⟨m₁, -, hal | ⟨g, k₀, hb⟩⟩ := hg.sync.turn
          · have := (hal.busy (by rw [hp]; rfl) hr).1
            rw [hidle] at this
            cases this
          · exact hb.length

/-! ### Every step -/

/-- The transport takes what an end sends in answer to a datagram. -/
def Reliable : Label S → Prop
  | .toClient env _ => env.send.ok = true
  | .toServer env _ => env.send.ok = true
  | _ => True

/-- The runs over a carrier that keeps the order and takes what it is given. -/
def reliableLts (S : Suite) (cc : ClientConfig) (cs : ServerConfig) : LTS (Conn S) (Label S) :=
  (orderedLts S cc cs).restrict fun _ l => Reliable l

/-- A datagram is delivered to the server. -/
def Label.isToServer : Label S → Bool
  | .toServer .. => true
  | _ => false

/-- A datagram is delivered to the client. -/
def Label.isToClient : Label S → Bool
  | .toClient .. => true
  | _ => false

/-- Neither end has given the connection up, and every handshake has derived new keys. -/
structure Intact (x : Conn S) : Prop where
  fresh : x.Fresh
  live : x.client.phase.live = true
  up : x.up = true

theorem Intact.of_step (h : Step cc cs x l x') (hi : Intact x') : Intact x := by
  have hfresh := Fresh.of_step h hi.fresh
  cases h with
  | client hlive => exact ⟨hfresh, hlive, hi.up⟩
  | toClient hlive => exact ⟨hfresh, hlive, hi.up⟩
  | server hup => exact ⟨hfresh, hi.live, hup⟩
  | toServer hup => exact ⟨hfresh, hi.live, hup⟩
  | faultC2S => exact ⟨hfresh, hi.live, hi.up⟩
  | faultS2C => exact ⟨hfresh, hi.live, hi.up⟩

theorem Steady.step (hA : S.AeadLaws) (hX : S.XKLaws) (hpub : Paired S cc cs)
    (hg : Steady cc cs n x) (h : (orderedLts S cc cs).step x l x') (hf : x'.Fresh) :
    Steady cc cs n x' := by
  obtain ⟨⟨⟨hid, hheed⟩, hseq, hroom⟩, hstep⟩ := h
  have hfresh := Fresh.of_step hstep hf
  have hlag' := hg.lag.step hA hX hid hfresh (fun h _ hh => by rw [hg.sync.hs] at hh; cases hh)
    hg.sync.rekeyHs hstep
  exact ⟨hlag', hg.sync.step hA hX hpub hg.lag hid hfresh hf hheed hstep,
    hg.order.step hA hg.sync hg.lag hlag' hid hfresh hroom hseq hstep⟩

/-- **The first message is answered, or comes nearer with every delivery to the server.** -/
theorem Asked.step (hA : S.AeadLaws) (hT : S.XKProgress) (hpub : Paired S cc cs)
    (h : Asked i x) (hg : Steady cc cs n x) (hst : (reliableLts S cc cs).step x l x')
    (hi : Intact x') : x'.clientKeys = x.clientKeys ∧
      ((∃ j, Replied j x') ∨ ∃ i', Asked i' x' ∧ i' + (if l.isToServer then 1 else 0) ≤ i) := by
  obtain ⟨hrel, ⟨⟨⟨hid, hheed⟩, hseq, -⟩, hstep⟩⟩ := hst
  have hfresh := (hi.of_step hstep).fresh
  obtain ⟨k, hk⟩ := Option.isSome_iff_exists.1 hg.sync.server
  cases hstep with
  | @client env e c' o hlive he hs =>
    obtain ⟨hnext, hin⟩ := h.client hg (Client.step_spec hlive hg.lag.keys_of_reply hs) hi.live
      (fun data k' f hs' hd _ => by subst hd; cases he) x.s2c
    exact ⟨by simp [clientMove, hin], .inr ⟨i, hnext, Nat.le_refl _⟩⟩
  | @toClient env i₀ p c' o hlive hp hs =>
    obtain rfl : i₀ = 0 := hseq
    obtain ⟨hnext, hin⟩ := h.client hg (Client.step_spec hlive hg.lag.keys_of_reply hs) hi.live
      (fun data k' f hs' hd hc => by
        cases hd
        exact h.not_continues hA hg hid (List.mem_of_getElem? hp) hc) (x.s2c.eraseIdx 0)
    exact ⟨by simp [clientMove, hin], .inr ⟨i, hnext, Nat.le_refl _⟩⟩
  | @server env e s' o up hup he hs =>
    have hnext : Asked i (x.serverMove s' up o) := by
      refine h.server hk (ServerSession.step_spec hs) ?_ fun _ hp => hp
      rintro - ⟨data, _, _, rfl, _⟩
      cases he
    exact ⟨rfl, .inr ⟨i, hnext, Nat.le_refl _⟩⟩
  | @toServer env i₀ p s' o up hup hp hs =>
    obtain rfl : i₀ = 0 := hseq
    refine ⟨rfl, (h.toServer hA hT hpub hg hid hfresh hrel hp hs).imp_right ?_⟩
    rintro ⟨hne, hnext⟩
    refine ⟨i - 1, hnext, ?_⟩
    simp only [Label.isToServer, if_true]
    omega
  | faultC2S => exact hseq.elim
  | faultS2C => exact hseq.elim

/-- **The second message makes the client install new keys, or comes nearer with every delivery to
the client.** -/
theorem Replied.step (hA : S.AeadLaws) (hX : S.XKLaws) (hT : S.XKProgress)
    (hpub : Paired S cc cs) (h : Replied j x) (hg : Steady cc cs n x)
    (hst : (reliableLts S cc cs).step x l x') (hi : Intact x') :
    x.clientKeys.length < x'.clientKeys.length ∨ x'.clientKeys = x.clientKeys ∧
      ∃ j', Replied j' x' ∧ j' + (if l.isToClient then 1 else 0) ≤ j := by
  obtain ⟨hrel, ⟨⟨⟨hid, hheed⟩, hseq, -⟩, hstep⟩⟩ := hst
  have hfresh := (hi.of_step hstep).fresh
  have hlive := (hi.of_step hstep).live
  obtain ⟨k, hk⟩ := Option.isSome_iff_exists.1 hg.sync.server
  obtain ⟨m₁, -, hal⟩ := h.aligned hg
  cases hstep with
  | @client env e c' o hlive he hs =>
    have hmove : Replied j (x.clientMove env.now c' o) ∧ o.installed = [] :=
      h.client (Client.step_spec hlive hg.lag.keys_of_reply hs) hi.live
        (fun data k' f hs' hd _ => by subst hd; cases he) fun _ hp => hp
    obtain ⟨hnext, hin⟩ := hmove
    exact .inr ⟨by simp [clientMove, hin], j, hnext, Nat.le_refl _⟩
  | @toClient env i₀ p c' o hlive hp hs =>
    obtain rfl : i₀ = 0 := hseq
    rcases h.toClient hA hX hT hpub hg hid hrel hp hs hi.live with ⟨ks, hin⟩ | ⟨hin, hne, hnext⟩
    · exact .inl (by simp [clientMove, hin])
    · refine .inr ⟨by simp [clientMove, hin], j - 1, hnext, ?_⟩
      simp only [Label.isToClient, if_true]
      omega
  | @server env e s' o up hup he hs =>
    refine .inr ⟨rfl, j, h.server hk (ServerSession.step_spec hs) ?_ ?_ x.c2s, Nat.le_refl _⟩
    · -- the timeout does not strike while the second message is in flight
      rintro rfl hlate
      obtain ⟨g, hgj, hty⟩ := h.second
      obtain ⟨kc, hkc⟩ := hg.sync.exists_clientKeys hg.lag hlive
      have hmem := List.mem_of_getElem? hgj
      exact (hheed h.busy hlate).1 g kc hmem hty hkc ((hg.order.down kc hkc).key g hmem)
    · rintro ⟨data, _, _, rfl, _⟩
      cases he
  | @toServer env i₀ p s' o up hup hp hs =>
    refine .inr ⟨rfl, j, h.server hk (ServerSession.step_spec hs) (by rintro ⟨⟩) ?_ _,
      Nat.le_refl _⟩
    rintro ⟨data, k', f, hd, hop, hty⟩
    cases hd
    have hmem := List.mem_of_getElem? hp
    obtain ⟨g, rfl, hkey, rfl⟩ := frame_of_authenticate hA hid hmem hk hop.authenticate
    exact hal.no_rekey3 hg.lag hfresh hk hmem hkey hty
  | faultC2S => exact hseq.elim
  | faultS2C => exact hseq.elim

/-- **The third message makes the server install new keys, or comes nearer with every delivery to
the server.** -/
theorem Owed.step (h : Owed N i x) (hg : Steady cc cs n x) (hg' : Steady cc cs n x')
    (hst : (orderedLts S cc cs).step x l x') : N < x'.serverKeys.length ∨
      ∃ i', Owed N i' x' ∧ i' + (if l.isToServer then 1 else 0) ≤ i := by
  obtain ⟨⟨-, hseq, -⟩, hstep⟩ := hst
  obtain ⟨f, k, hf, hty, hk, hkey⟩ := h.third
  have hgrow : ∀ o : Out S, N < (x.clientKeys ++ o.installed).length := fun o => by
    rw [List.length_append]
    exact Nat.lt_add_right _ h.client
  cases hstep with
  | client => exact .inr ⟨i, ⟨⟨f, k, getElem?_append_sent hf _, hty, hk, hkey⟩, h.server,
      hgrow _⟩, Nat.le_refl _⟩
  | toClient => exact .inr ⟨i, ⟨⟨f, k, getElem?_append_sent hf _, hty, hk, hkey⟩, h.server,
      hgrow _⟩, Nat.le_refl _⟩
  | @server env e s' o up hup he hs =>
    cases (ServerSession.step_spec hs).moves.of_keys hk with
    | swaps hsw =>
      have hd := hsw.event
      subst hd
      cases he
    | @keeps k' hkeep =>
      have hrecv : k'.recvKey = k.recvKey := congrArg Prod.snd hkeep.uses.pair
      exact .inr ⟨i, ⟨⟨f, k', hf, hty, hkeep.keys, hkey.trans hrecv.symm⟩,
        by simp [serverMove, hkeep.installed, h.server], h.client⟩, Nat.le_refl _⟩
  | @toServer env i₀ p s' o up hup hp hs =>
    obtain rfl : i₀ = 0 := hseq
    cases (ServerSession.step_spec hs).moves.of_keys hk with
    | swaps hsw =>
      left
      simp [serverMove, hsw.out, h.server]
    | @keeps k' hkeep =>
      have hrecv : k'.recvKey = k.recvKey := congrArg Prod.snd hkeep.uses.pair
      have hlen : (x.serverKeys ++ o.installed).length = N := by
        rw [hkeep.installed, List.append_nil, h.server]
      by_cases hi : i = 0
      · -- a server that has passed over the message would be behind for good
        exfalso
        subst hi
        obtain rfl : p = .frame f := Option.some.inj (hp.symm.trans hf)
        have hclient := h.client
        have hserver := h.server
        obtain ⟨m₁, -, hal | ⟨f₀, k₀, hb⟩⟩ := hg.sync.turn
        · have := hal.length
          omega
        obtain ⟨m₁', -, hal' | ⟨f', k₁, hb'⟩⟩ := hg'.sync.turn
        · have : x.clientKeys.length = _ := hal'.length
          have hlen' : _ = N := hlen
          simp only [serverMove] at this
          omega
        cases hk.symm.trans hb.keys
        cases hkeep.keys.symm.trans hb'.keys
        have hmem : .frame f' ∈ x.c2s.eraseIdx 0 := hb'.mem
        have hf₀ : f = f₀ :=
          (hb.last f (List.mem_of_getElem? hp) hkey).resolve_right fun h3 => h3.2 hty
        have hf' : f' = f₀ := (hb.last f' (List.mem_of_mem_eraseIdx hmem)
          (hb'.key.trans hrecv)).resolve_right fun h3 => h3.2 hb'.typ
        subst hf₀ hf'
        exact Nat.lt_irrefl _
          ((Takes.of_head hp).rel (hg.order.up k hk).sorted.order hmem rfl)
      · refine .inr ⟨i - 1, ⟨⟨f, k', getElem?_eraseIdx_zero hf hi, hty, hkeep.keys,
          hkey.trans hrecv.symm⟩, hlen, h.client⟩, ?_⟩
        simp only [Label.isToServer, if_true]
        omega
  | faultC2S => exact hseq.elim
  | faultS2C => exact hseq.elim

/-! ### Whole runs -/

theorem clientKeys_mono (h : Step cc cs x l x') :
    x.clientKeys.length ≤ x'.clientKeys.length := by
  cases h with
  | client => simp [clientMove]
  | toClient => simp [clientMove]
  | _ => exact Nat.le_refl _

theorem serverKeys_mono (h : Step cc cs x l x') :
    x.serverKeys.length ≤ x'.serverKeys.length := by
  cases h with
  | server => simp [serverMove]
  | toServer => simp [serverMove]
  | _ => exact Nat.le_refl _

/-- A client that has just swapped its keys is not rekeying. -/
theorem not_rekeying_of_installs (hg : Steady cc cs n x) (h : Step cc cs x l x')
    (hlt : x.clientKeys.length < x'.clientKeys.length) : x'.client.rekeying = false := by
  have hclient : ∀ {env : ClientEnv S} {e : Client.Event} {c' : Client S} {o : Out S},
      x.client.phase.live = true → x.client.step cc env e = .ok (c', o) →
      x.clientKeys.length < (x.clientKeys ++ o.installed).length → c'.rekeying = false := by
    intro env e c' o hlive hs hlt
    have hin : o.installed ≠ [] := by
      intro hin
      rw [hin, List.append_nil] at hlt
      exact Nat.lt_irrefl _ hlt
    exact (Client.step_spec hlive hg.lag.keys_of_reply hs).not_rekeying (hg.sync.keyed hlive) hin
  cases h with
  | client hlive _ hs => exact hclient hlive hs hlt
  | toClient hlive _ hs => exact hclient hlive hs hlt
  | _ => exact absurd hlt (Nat.lt_irrefl _)

/-- The client that had `N` pairs has new ones, or is about to. -/
def Underway (N : ℕ) (x : Conn S) : Prop :=
  (∃ j, Replied j x) ∧ x.clientKeys.length = N ∨ N < x.clientKeys.length

theorem Underway.step (hA : S.AeadLaws) (hX : S.XKLaws) (hT : S.XKProgress)
    (hpub : Paired S cc cs) (h : Underway N x) (hg : Steady cc cs n x)
    (hst : (reliableLts S cc cs).step x l x') (hi : Intact x') : Underway N x' := by
  have hmono := clientKeys_mono hst.2.2
  rcases h with ⟨⟨j, hj⟩, rfl⟩ | h
  · rcases hj.step hA hX hT hpub hg hst hi with hlt | ⟨heq, j', hj', -⟩
    · exact .inr hlt
    · exact .inl ⟨⟨j', hj'⟩, by rw [heq]⟩
  · exact .inr (Nat.lt_of_lt_of_le h hmono)

variable {y : Conn S} {ls : List (Label S)}

theorem Intact.of_run (h : (reliableLts S cc cs).Run x ls y) (hi : Intact y) : Intact x := by
  induction h with
  | nil => exact hi
  | snoc _ hst ih => exact ih (hi.of_step hst.2.2)

/-- What holds at the start of a run, and is kept as long as the connection is intact. -/
theorem Steady.run (hA : S.AeadLaws) (hX : S.XKLaws) (hpub : Paired S cc cs)
    {I : Conn S → Prop} (hI : ∀ {x x' : Conn S} {l : Label S}, I x → Steady cc cs n x →
      (reliableLts S cc cs).step x l x' → Intact x' → I x')
    (hg : Steady cc cs n x) (h : I x) (run : (reliableLts S cc cs).Run x ls y) (hi : Intact y) :
    Steady cc cs n y ∧ I y := by
  induction run with
  | nil => exact ⟨hg, h⟩
  | snoc _ hst ih =>
    obtain ⟨hg', h'⟩ := ih (hi.of_step hst.2.2)
    exact ⟨hg'.step hA hX hpub hst.2 hi.fresh, hI h' hg' hst hi⟩

/-- **A client that is rekeying has a message of the rekey under way.** -/
theorem stage_of_rekeying (hA : S.AeadLaws) (hX : S.XKLaws) (hT : S.XKProgress)
    (hpub : Paired S cc cs) {ks : S.Key × S.Key} {x₀ : Conn S}
    (h₀ : Settled cc ks x₀) (run : (reliableLts S cc cs).Run x₀ ls x) (hi : Intact x) :
    Steady cc cs x₀.client.stats.rekeys x ∧
      (x.client.rekeying = true → (∃ i, Asked i x) ∨ ∃ j, Replied j x) := by
  refine Steady.run (I := fun x => x.client.rekeying = true → (∃ i, Asked i x) ∨ ∃ j, Replied j x)
    hA hX hpub (fun {x x' l} h hg hst hi hrk => ?_) ⟨h₀.lag, h₀.sync, h₀.inOrder⟩ (fun hrk => ?_)
    run hi
  · cases hbefore : x.client.rekeying with
    | true =>
      rcases h hbefore with ⟨i, ha⟩ | ⟨j, hr⟩
      · exact (ha.step hA hT hpub hg hst hi).2.symm.imp_left fun ⟨i', h', _⟩ => ⟨i', h'⟩
      · rcases hr.step hA hX hT hpub hg hst hi with hlt | ⟨-, j', hj', -⟩
        · -- a client that has just swapped its keys is not rekeying
          rw [not_rekeying_of_installs hg hst.2.2 hlt] at hrk
          cases hrk
        · exact .inr ⟨j', hj'⟩
    | false =>
      obtain ⟨-, ⟨-, hseq, -⟩, hstep⟩ := hst
      cases hstep with
      | client hlive _ hs =>
        exact .inl (asked_of_started hT hpub hg (Client.step_spec hlive hg.lag.keys_of_reply hs)
          hi.live hbefore hrk x.s2c)
      | toClient hlive _ hs =>
        exact .inl (asked_of_started hT hpub hg (Client.step_spec hlive hg.lag.keys_of_reply hs)
          hi.live hbefore hrk _)
      | _ => exact absurd (hbefore.symm.trans hrk) nofun
  · rw [h₀.idle.1] at hrk
    cases hrk

/-- Once all that was in flight to the server has been delivered, the first message is answered. -/
theorem Asked.run (hA : S.AeadLaws) (hX : S.XKLaws) (hT : S.XKProgress)
    (hpub : Paired S cc cs) (h : Asked i x) (hg : Steady cc cs n x)
    (run : (reliableLts S cc cs).Run x ls y) (hi : Intact y)
    (hcount : x.c2s.length ≤ ls.countP Label.isToServer) : Underway x.clientKeys.length y := by
  obtain ⟨f, hf, -⟩ := h.first
  have hlt := Nat.lt_of_lt_of_le (List.getElem?_eq_some_iff.1 hf).1 hcount
  refine (LTS.Run.wait (P := fun i z => Intact z → Steady cc cs n z ∧ Asked i z ∧
      z.clientKeys = x.clientKeys)
    (Q := fun z => Intact z → Steady cc cs n z ∧ Underway x.clientKeys.length z)
    (fun i z l z' hz hst => ?_) (fun z l z' hz hst hi' => ?_) run (fun _ => ⟨hg, h, rfl⟩) hlt hi).2
  · by_cases hi' : Intact z'
    · obtain ⟨hg, ha, hkeys⟩ := hz (hi'.of_step hst.2.2)
      have hg' := hg.step hA hX hpub hst.2 hi'.fresh
      obtain ⟨hsame, hr | ⟨i', ha', hle⟩⟩ := ha.step hA hT hpub hg hst hi'
      · exact .inl fun _ => ⟨hg', .inl ⟨hr, by rw [hsame, hkeys]⟩⟩
      · exact .inr ⟨i', fun _ => ⟨hg', ha', hsame.trans hkeys⟩, hle⟩
    · exact .inl fun h => absurd h hi'
  · obtain ⟨hg, hu⟩ := hz (hi'.of_step hst.2.2)
    exact ⟨hg.step hA hX hpub hst.2 hi'.fresh, hu.step hA hX hT hpub hg hst hi'⟩

/-- Once all that was in flight to the client has been delivered, it has new keys. -/
theorem Underway.run (hA : S.AeadLaws) (hX : S.XKLaws) (hT : S.XKProgress)
    (hpub : Paired S cc cs) (h : Underway N x) (hg : Steady cc cs n x)
    (run : (reliableLts S cc cs).Run x ls y) (hi : Intact y)
    (hcount : x.s2c.length ≤ ls.countP Label.isToClient) : N < y.clientKeys.length := by
  have hstay : ∀ z l z', N < z.clientKeys.length → (reliableLts S cc cs).step z l z' →
      N < z'.clientKeys.length := fun z l z' hz hst =>
    Nat.lt_of_lt_of_le hz (clientKeys_mono hst.2.2)
  rcases h with ⟨⟨j, hj⟩, hN⟩ | h
  · obtain ⟨g, hgj, -⟩ := hj.second
    have hlt := Nat.lt_of_lt_of_le (List.getElem?_eq_some_iff.1 hgj).1 hcount
    refine LTS.Run.wait (P := fun j z => Intact z → Steady cc cs n z ∧ Replied j z ∧
        z.clientKeys.length = N) (Q := fun z => Intact z → N < z.clientKeys.length)
      (fun j z l z' hz hst => ?_) (fun z l z' hz hst hi' => ?_) run (fun _ => ⟨hg, hj, hN⟩) hlt hi
    · by_cases hi' : Intact z'
      · obtain ⟨hg, hr, hkeys⟩ := hz (hi'.of_step hst.2.2)
        have hg' := hg.step hA hX hpub hst.2 hi'.fresh
        obtain hlt | ⟨hsame, j', hr', hle⟩ := hr.step hA hX hT hpub hg hst hi'
        · exact .inl fun _ => hkeys ▸ hlt
        · exact .inr ⟨j', fun _ => ⟨hg', hr', by rw [hsame, hkeys]⟩, hle⟩
      · exact .inl fun h => absurd h hi'
    · exact hstay z l z' (hz (hi'.of_step hst.2.2)) hst
  · exact run.reachable.invariant h hstay

/-- Once all that was in flight to the server has been delivered, it has caught up. -/
theorem Steady.catches_up (hA : S.AeadLaws) (hX : S.XKLaws)
    (hpub : Paired S cc cs) (hg : Steady cc cs n x)
    (h : N < x.clientKeys.length) (run : (reliableLts S cc cs).Run x ls y) (hi : Intact y)
    (hcount : x.c2s.length ≤ ls.countP Label.isToServer) : N < y.serverKeys.length := by
  have hstay : ∀ z l z', N < z.serverKeys.length → (reliableLts S cc cs).step z l z' →
      N < z'.serverKeys.length := fun z l z' hz hst =>
    Nat.lt_of_lt_of_le hz (serverKeys_mono hst.2.2)
  by_cases hN : N < x.serverKeys.length
  · exact run.reachable.invariant hN hstay
  · have hlag := hg.lag.lag
    obtain ⟨m₁, -, hal | ⟨f, k, hb⟩⟩ := hg.sync.turn
    · have := hal.length
      omega
    have hN : x.serverKeys.length = N := by omega
    obtain ⟨i, hi₀⟩ := List.mem_iff_getElem?.1 hb.mem
    have hlt := Nat.lt_of_lt_of_le (List.getElem?_eq_some_iff.1 hi₀).1 hcount
    refine LTS.Run.wait (P := fun i z => Intact z → Steady cc cs n z ∧ Owed N i z)
      (Q := fun z => Intact z → N < z.serverKeys.length) (fun i z l z' hz hst => ?_)
      (fun z l z' hz hst hi' => ?_) run
      (fun _ => ⟨hg, ⟨f, k, hi₀, hb.typ, hb.keys, hb.key⟩, hN, h⟩) hlt hi
    · by_cases hi' : Intact z'
      · obtain ⟨hg, ho⟩ := hz (hi'.of_step hst.2.2)
        have hg' := hg.step hA hX hpub hst.2 hi'.fresh
        obtain hlt | ⟨i', ho', hle⟩ := ho.step hg hg' hst.2
        · exact .inl fun _ => hlt
        · exact .inr ⟨i', fun _ => ⟨hg', ho'⟩, hle⟩
      · exact .inl fun h => absurd h hi'
    · exact hstay z l z' (hz (hi'.of_step hst.2.2)) hst

/-- **A rekey completes.**  Let the client be rekeying in `x`.  When the server has been handed as
many datagrams as were in flight to it then (up to `y`), and the client as many as were in flight
to it by then (up to `z`), the client has new keys; and when the server has been handed what was in
flight once more (up to `w`), so has the server.  The ends may do anything else in between, short
of giving the connection up.  The carrier keeps the order and takes what it is given, the server's
rekey timeout does not strike while a message of the rekey is in flight (`Heeds`), and fewer than
`2 ^ 32` frames are sealed under each key (`Roomy`). -/
theorem rekey_completes (hA : S.AeadLaws) (hX : S.XKLaws) (hT : S.XKProgress)
    (hpub : Paired S cc cs) {ks : S.Key × S.Key} {x₀ x y z w : Conn S}
    {ls₀ ls₁ ls₂ ls₃ : List (Label S)} (h₀ : Settled cc ks x₀)
    (run₀ : (reliableLts S cc cs).Run x₀ ls₀ x) (hrk : x.client.rekeying = true)
    (run₁ : (reliableLts S cc cs).Run x ls₁ y)
    (h₁ : x.c2s.length ≤ ls₁.countP Label.isToServer)
    (run₂ : (reliableLts S cc cs).Run y ls₂ z)
    (h₂ : y.s2c.length ≤ ls₂.countP Label.isToClient)
    (run₃ : (reliableLts S cc cs).Run z ls₃ w)
    (h₃ : z.c2s.length ≤ ls₃.countP Label.isToServer) (hi : Intact w) :
    x.clientKeys.length < z.clientKeys.length ∧ x.clientKeys.length < w.serverKeys.length := by
  have hz := hi.of_run run₃
  have hy := hz.of_run run₂
  have hx := hy.of_run run₁
  obtain ⟨gx, hstage⟩ := stage_of_rekeying hA hX hT hpub h₀ run₀ hx
  have gy := (Steady.run (I := fun _ => True) hA hX hpub (fun _ _ _ _ => trivial) gx trivial run₁
    hy).1
  have gz := (Steady.run (I := fun _ => True) hA hX hpub (fun _ _ _ _ => trivial) gy trivial run₂
    hz).1
  have hu : Underway x.clientKeys.length y := by
    rcases hstage hrk with ⟨i, ha⟩ | ⟨j, hr⟩
    · exact ha.run hA hX hT hpub gx run₁ hy h₁
    · exact (Steady.run hA hX hpub (fun h hg hst hi => h.step hA hX hT hpub hg hst hi) gx
        (.inl ⟨⟨j, hr⟩, rfl⟩) run₁ hy).2
  have hnew := hu.run hA hX hT hpub gy run₂ hz h₂
  exact ⟨hnew, gz.catches_up hA hX hpub hnew run₃ hi h₃⟩

/-- A test for the conditions on the steps over a reliable carrier. -/
def isReliable (x : Conn S) (l : Label S) : Bool :=
  x.isOrdered l && match l with
    | .toClient env _ => env.send.ok
    | .toServer env _ => env.send.ok
    | _ => true

theorem reliable_of_test {l : Label plain} {x x' : Conn plain}
    (h : (if x.isReliable l then x.next Client.plainConfig ServerSession.plainConfig l else none) =
      some x') :
    (reliableLts plain Client.plainConfig ServerSession.plainConfig).step x l x' := by
  split_ifs at h with ht
  obtain ⟨ho, hr⟩ := Bool.and_eq_true_iff.1 ht
  refine ⟨?_, ordered_of_test ho, step_of_next h⟩
  cases l with
  | toClient => exact hr
  | toServer => exact hr
  | _ => trivial

/-- The client of the plain suite starts a rekey in `x`, with a keepalive before its first message:
two datagrams to the server, two to the client and one to the server complete it. -/
theorem rekey_completes_plain : ∃ x₀ ls₀ x ls₁ y ls₂ z ls₃ w,
    (idealLts plain Client.plainConfig ServerSession.plainConfig).Reachable plainStart x₀ ∧
    (reliableLts plain Client.plainConfig ServerSession.plainConfig).Run x₀ ls₀ x ∧
    x.client.rekeying = true ∧ x.c2s.length = 2 ∧ y.s2c.length = 2 ∧ z.c2s.length = 1 ∧
    (reliableLts plain Client.plainConfig ServerSession.plainConfig).Run x ls₁ y ∧
    (reliableLts plain Client.plainConfig ServerSession.plainConfig).Run y ls₂ z ∧
    (reliableLts plain Client.plainConfig ServerSession.plainConfig).Run z ls₃ w ∧
    x.clientKeys.length < z.clientKeys.length ∧ x.clientKeys.length < w.serverKeys.length := by
  let run (ls : List (Label plain)) (x : Conn plain) : Option (Conn plain) :=
    ls.foldlM (fun x l => if isReliable x l then
      next Client.plainConfig ServerSession.plainConfig x l else none) x
  let third : List (Label plain) := [.toServer (ServerSession.plainEnv 33 0) 0]
  -- each run is computed from the end of the one before it
  obtain ⟨x, run₀, hx⟩ := LTS.exists_run_of_next (fun _ _ _ => reliable_of_test) plainSettled
    plainAsk (fun x => (x.client.rekeying && x.c2s.length == 2) &&
      (run plainAnswer x).any fun y => y.s2c.length == 2 &&
        (run plainInstall y).any fun z => z.c2s.length == 1 &&
          (run third z).any fun w => plainKeys w == [(5, 133), (6, 134)] &&
            (w.client.phase.live && w.up)) (by decide +kernel)
  obtain ⟨hx, hrest⟩ := Bool.and_eq_true_iff.1 hx
  obtain ⟨y, run₁, hy⟩ := LTS.exists_run_of_next (fun _ _ _ => reliable_of_test) x _ _ hrest
  obtain ⟨qy, hrest⟩ := Bool.and_eq_true_iff.1 hy
  obtain ⟨z, run₂, hz⟩ := LTS.exists_run_of_next (fun _ _ _ => reliable_of_test) y _ _ hrest
  obtain ⟨qz, hrest⟩ := Bool.and_eq_true_iff.1 hz
  obtain ⟨w, run₃, hw⟩ := LTS.exists_run_of_next (fun _ _ _ => reliable_of_test) z _ _ hrest
  simp only [Bool.and_eq_true, beq_iff_eq] at hx qy qz hw
  have hi : Intact w :=
    ⟨fresh_of_plainKeys hw.1 (by decide) (by decide), hw.2.1, hw.2.2⟩
  exact ⟨plainSettled, _, x, _, y, _, z, _, w, plainSettled_reachable, run₀, hx.1, hx.2, qy, qz,
    run₁, run₂, run₃, rekey_completes Plain.aeadLaws Plain.xkLaws Plain.xkProgress plain_paired
      settled_plainSettled run₀ hx.1 run₁ (by rw [hx.2]; decide) run₂ (by rw [qy]; decide) run₃
      (by rw [qz]; decide) hi⟩

end Conn

end VibeVpn

import VibeVpn.Session.Accounts
import VibeVpn.Session.Traffic

/-!
# What a client measures

A client sends keepalives with the time in them, and the server sends them back; when an echo
arrives, the client takes the time since as the round trip time.  The setting is that of the
authentic packets: any number of clients and sessions over a network that belongs to an attacker,
who may delay, replay and inject datagrams at will.

* `Traffic.Pinged` : a client has sealed a keepalive with a pair of keys, and handed it to its
  transport;
* `Traffic.RoundTrip` : a client has opened an echo of such a keepalive, with the same pair;
* `Traffic.round_trips_genuine` : **every sample in the histogram of a client is the time since a
  keepalive that this client has sealed with the very keys under which the echo arrived**, and the
  counters of the client are those of what it has put out.
-/

namespace VibeVpn

variable {S : Suite}

/-! ### Keepalives and echoes -/

namespace Client

variable {cfg : ClientConfig} {env : ClientEnv S} {c c' : Client S} {o : Out S} {e : Event}

/-- The frames in which a message is sent. -/
theorem encryptSend_typ {typ : UInt8} {pt : Bytes} {now : ℤ} {se : SendEnv} {sent : Bool}
    (h : c.encryptSend cfg now se typ pt = .ok (c', o, sent)) {g : Sealed S} {ok : Bool}
    (hg : (g, ok) ∈ o.frames) : g.typ = typ ∧ g.payload = pt := by
  obtain ⟨ep, fs, hs, -, rfl⟩ := encryptSend_spec h
  obtain ⟨-, k, -, hby⟩ := hs.sealedBy hg
  exact ⟨hby.typ, hby.payload⟩

theorem maybeRekey_typ (h : c.maybeRekey cfg env = .ok (c', o)) {g : Sealed S} {ok : Bool}
    (hg : (g, ok) ∈ o.frames) : g.typ = msgRekey1 := by
  cases maybeRekey_spec h with
  | no => cases hg
  | unsent _ _ hs => exact (hs.key hg).1
  | started _ _ hs => exact (hs.key hg).1

theorem drainRecv_typ {data : Bytes} (hp : c.phase = .running)
    (h : c.drainRecv cfg env (some data) = .ok (c', o)) {g : Sealed S} {ok : Bool}
    (hg : (g, ok) ∈ o.frames) : g.typ = msgRekey3 ∨ g.typ = msgClose := by
  cases drainRecv_spec hp h with
  | rekeyUnsent _ _ _ _ hs | rekeyed _ _ _ _ hs => exact .inl (hs.key hg).1
  | hangup _ _ _ _ _ _ hf =>
    rcases hf with hf | ⟨ep, ok, hs⟩
    · rw [hf] at hg
      cases hg
    · exact .inr (hs.key hg).1
  | opened _ _ _ _ _ _ _ hf =>
    rw [hf] at hg
    cases hg
  | sent _ hne => exact absurd rfl (hne data)
  | idle | keyless | cookie | keyed | rekeyUnread | rekeyUnwritten | rekeyIncomplete => cases hg

/-- **The keepalives of a client carry the time.** -/
theorem keepalive_of_frame (h : c.step cfg env e = .ok (c', o)) {g : Sealed S} {ok : Bool}
    (hg : (g, ok) ∈ o.frames) (hty : g.typ = msgKeepalive) :
    e = .keepalive ∧ g.payload = be64 (env.now % 2 ^ 64).toNat := by
  cases step_works h with
  | silent hs =>
    rw [hs.1] at hg
    cases hg
  | close hc =>
    unfold sendClose at hc
    split_ifs at hc
    · obtain ⟨⟨c₁, o₁, sent⟩, hs, hc⟩ := Go.bind_eq_ok.1 hc
      cases hc
      cases (encryptSend_typ hs hg).1.symm.trans hty
    · cases hc
      cases hg
  | recv hp hd =>
    rcases drainRecv_typ hp hd hg with h | h
    · cases h.symm.trans hty
    · cases h.symm.trans hty
  | tun ht =>
    unfold sendPacket at ht
    split_ifs at ht
    · cases ht
      cases hg
    · obtain ⟨⟨c₁, o₁, sent⟩, hs, ht⟩ := Go.bind_eq_ok.1 ht
      cases sent <;> cases ht <;> cases (encryptSend_typ hs hg).1.symm.trans hty
  | keepalive hk =>
    refine ⟨rfl, ?_⟩
    unfold keepalive at hk
    split_ifs at hk
    · cases hk
      cases hg
    · obtain ⟨⟨c₁, o₁, sent⟩, hs, hk⟩ := Go.bind_eq_ok.1 hk
      obtain ⟨⟨c₂, o₂⟩, hm, hk⟩ := Go.bind_eq_ok.1 hk
      cases hk
      rcases List.mem_append.1 hg with hg | hg
      · exact (encryptSend_typ hs hg).2
      · cases (maybeRekey_typ hm hg).symm.trans hty
    · cases hk
      cases hg
  | decoy hd =>
    unfold decoy at hd
    split_ifs at hd
    · obtain ⟨⟨c₁, o₁, sent⟩, hs, hd⟩ := Go.bind_eq_ok.1 hd
      cases hd
      cases (encryptSend_typ hs hg).1.symm.trans hty
    · cases hd
      cases hg

end Client

/-- **The keepalives of a session are echoes** of what it has just opened. -/
theorem ServerSession.echo_of_frame {cfg : ServerConfig} {env : ServerEnv S}
    {s s' : ServerSession S} {o : Out S} {e : Event} {running : Bool}
    (h : s.step cfg env e = .ok (s', o, running)) {g : Sealed S} {ok : Bool}
    (hg : (g, ok) ∈ o.frames) (hty : g.typ = msgKeepalive) :
    ∃ data k k' f, e = .recv (some data) ∧ s.keys = some k ∧ k.Opened data k' (.ok f) ∧
      f.typ = msgKeepalive ∧ g.payload = f.payload ∧ g.key = k.sendKey := by
  obtain ⟨⟨s₁, o₁, r⟩, hl, h⟩ := Go.bind_eq_ok.1 h
  have hfirst : (g, ok) ∈ o₁.frames := by
    cases r with
    | true => cases h; exact hg
    | false =>
      obtain ⟨⟨s₂, o₂⟩, hq, h⟩ := Go.bind_eq_ok.1 h
      cases h
      refine (List.mem_append.1 hg).resolve_right fun hg => ?_
      obtain ⟨-, rfl⟩ | ⟨ep, fs, sent, -, hs, -, rfl⟩ := sendCloseQuiet_spec hq
      · cases hg
      · cases (hs.key hg).1.symm.trans hty
  have hno : ∀ {a b : Endpoint S} {typ : UInt8} {pt : Bytes} {fs : List (Sealed S × Bool)}
      {sent : Bool}, a.Sends typ pt b fs sent → (g, ok) ∈ fs → typ = msgKeepalive :=
    fun hs hg => (hs.key hg).1.symm.trans hty
  cases loop_spec hl with
  | idle => cases hfirst
  | timeout => cases hfirst
  | sent _ htyp hs =>
    have := hno hs hfirst
    subst this
    simp [msgKeepalive, msgData, msgClose, msgDecoy] at htyp
  | recv hh =>
    cases hh with
    | echoed hk ho _ hty' hs =>
      obtain ⟨-, k₁, hk₁, hby⟩ := hs.sealedBy hfirst
      cases hk₁
      exact ⟨_, _, _, _, rfl, hk, ho, hty', hby.payload, hby.key.trans ho.keys.1⟩
    | keyed _ _ _ _ _ _ hs => cases hno hs hfirst
    | rekey1 _ _ _ _ _ _ _ _ hs => cases hno hs hfirst
    | refused _ hf => rw [hf] at hfirst; cases hfirst
    | answered _ _ _ _ _ _ _ hf => rw [hf] at hfirst; cases hfirst
    | tagged | rejected | opened | delivered | aborted | rekeyed => cases hfirst

/-! ### The histogram -/

namespace Stats

/-- What a client knows of the round trip time after these measurements. -/
def histogram (ds : List ℤ) : ℤ × List ℕ :=
  (ds.getLast?.getD 0, rttThresholdsMS.map fun b => ds.countP fun d => d ≤ b * 10 ^ 6)

theorem rtt_recordRTT {s : Stats} {ds : List ℤ} (h : s.rtt = histogram ds) (d : ℤ) :
    (s.recordRTT d).rtt = histogram (ds ++ [d]) := by
  obtain ⟨-, hb⟩ := Prod.mk.inj h
  simp only [rtt, recordRTT, hb, histogram, List.getLast?_concat, Option.getD_some,
    List.countP_append]
  congr 1
  rw [List.zipWith_map_left, List.zipWith_self]
  refine List.map_congr_left fun b _ => ?_
  rw [List.countP_singleton]
  split_ifs with h₁ h₂ h₂
  · rfl
  · exact absurd (decide_eq_true h₁) h₂
  · exact absurd (of_decide_eq_true h₂) h₁
  · rfl

end Stats

namespace Traffic

open Agreement

variable {ι : Type} {D : Deployment ι} {x x' : World S ι} {r r' : List (Fact S ι)}
  {ls : List (Label S ι)} {l : Label S ι}

section
variable [DecidableEq ι]

/-- The frame is a keepalive of the time `t`, under the send key of the pair `ks`. -/
def Ping (ks : S.Key × S.Key) (t : ℤ) (g : Sealed S) : Prop :=
  g.key = ks.1 ∧ g.typ = msgKeepalive ∧ g.payload = be64 (t % 2 ^ 64).toNat

/-- In the run `ls`, the client `i` had the pair `ks` at the time `t`, and has sealed a keepalive
with it and handed it to its transport. -/
def Pinged (D : Deployment ι) (ls : List (Label S ι)) (i : ι) (ks : S.Key × S.Key) (t : ℤ) :
    Prop :=
  ∃ l₁ env l₂ y r₁ k c' o g ok, ls = l₁ ++ .client i env .keepalive :: l₂ ∧ env.now = t ∧
    (lts S D).Run (World.start S ι, []) l₁ (y, r₁) ∧ (y.clients i).keys = some k ∧ k.pair = ks ∧
    (y.clients i).step (D.client i) env .keepalive = .ok (c', o) ∧ (g, ok) ∈ o.frames ∧
    Ping ks t g

theorem Pinged.mono {i : ι} {ks : S.Key × S.Key} {t : ℤ} (h : Pinged D ls i ks t)
    (l : Label S ι) : Pinged D (ls ++ [l]) i ks t := by
  obtain ⟨l₁, env, l₂, y, r₁, k, c', o, g, ok, rfl, h⟩ := h
  exact ⟨l₁, env, l₂ ++ [l], y, r₁, k, c', o, g, ok, by simp, h⟩

/-- The keepalives that were sealed with a recorded pair, by either end, carry the times of those
that its client has sent. -/
def Echoes (D : Deployment ι) (ls : List (Label S ι)) (x : World S ι) (r : List (Fact S ι)) :
    Prop :=
  ∀ g ∈ x.log, ∀ i ks, .installs i ks ∈ r → g.key = ks.1 ∨ g.key = ks.2 →
    g.typ = msgKeepalive → ∃ t, Pinged D ls i ks t ∧ g.payload = be64 (t % 2 ^ 64).toNat

theorem Echoes.mono (h : Echoes D ls x r) {g : Sealed S} (hg : g ∈ x.log) {i : ι}
    {ks : S.Key × S.Key} (hin : .installs i ks ∈ r) (hkey : g.key = ks.1 ∨ g.key = ks.2)
    (hty : g.typ = msgKeepalive) (l : Label S ι) :
    ∃ t, Pinged D (ls ++ [l]) i ks t ∧ g.payload = be64 (t % 2 ^ 64).toNat := by
  obtain ⟨t, ht, hpay⟩ := h g hg i ks hin hkey hty
  exact ⟨t, ht.mono l, hpay⟩

theorem Echoes.step (hA : S.AeadLaws) (run : (lts S D).Run (World.start S ι, []) ls (x, r))
    (hE : Echoes D ls x r) (hst : Steps D x r l x' r') : Echoes D (ls ++ [l]) x' r' := by
  have hI := Inv.run run
  cases hst with
  | @client i env e c' o hs _ hnew =>
    intro g hg i' ks hin hkey hty
    have hold := hI.installed_before hs hnew hg hin hkey
    rcases (x.mem_log_woken i c' o).1 hg with hg | hg
    · exact hE.mono hg hold hkey hty _
    · obtain ⟨k, hk, hin', hgk⟩ := hI.frame_client hs hg
      obtain ⟨⟨f, ok⟩, hf, rfl⟩ := List.mem_map.1 hg
      obtain ⟨rfl, hpay⟩ := Client.keepalive_of_frame hs hf hty
      rcases hI.apart i i' k.pair ks hin' hold with ⟨rfl, rfl⟩ | hap
      · exact ⟨env.now, ⟨ls, env, [], x, r, k, c', o, f, ok, rfl, rfl, run, hk, rfl, hs, hf, hgk,
          hty, hpay⟩, hpay⟩
      · rw [hgk] at hkey
        exact (hkey.elim hap.1 hap.2.1).elim
  | accept => exact fun g hg i ks hin hkey hty => hE.mono hg hin hkey hty _
  | @server j p env e s' o running heard hj hs hun _ =>
    intro g hg i ks hin hkey hty
    have hold := (List.mem_append.1 hin).resolve_right installs_notMem_serverFacts
    rcases (x.mem_log_ran j _ o).1 hg with hg | hg
    · exact hE.mono hg hold hkey hty _
    · -- an echo: what it answers was sealed by the client
      obtain ⟨⟨f, ok⟩, hf, rfl⟩ := List.mem_map.1 hg
      obtain ⟨data, k, k', f', rfl, hk, hop, hty', hpay, hgk⟩ :=
        ServerSession.echo_of_frame hs hf hty
      obtain ⟨key, -, ⟨i', hpin, hin', -⟩ | ⟨hap, -⟩⟩ :=
        hI.session p (List.mem_of_getElem? hj) k hk
      · obtain ⟨g, hg, hkey', rfl⟩ := (hun data rfl).sealed hA hop hin' hpin (.inl rfl)
        rcases hI.apart i' i _ ks hin' hold with ⟨rfl, rfl⟩ | hap
        · rw [hpay]
          exact hE.mono hg hold (.inl hkey') hty' _
        · rw [hgk] at hkey
          exact (hkey.elim hap.2.2.1 hap.2.2.2).elim
      · rw [hgk] at hkey
        exact (hkey.elim (hap i ks hold).2.2.1 (hap i ks hold).2.2.2).elim
  | idle => exact fun g hg i ks hin hkey hty => hE.mono hg hin hkey hty _

theorem Echoes.run (hA : S.AeadLaws) (run : (lts S D).Run (World.start S ι, []) ls (x, r)) :
    Echoes D ls x r := by
  generalize hy : (x, r) = y at run
  induction run generalizing x r with
  | nil =>
    cases hy
    exact fun g hg => absurd hg List.not_mem_nil
  | @snoc ls y y' l hr hst ih =>
    subst hy
    exact (ih rfl).step hA hr (step_cases hst)

/-! ### The samples -/

omit [DecidableEq ι] in
/-- A time comes back as an `int64`. -/
theorem bmod_beVal_be64 (t : ℤ) :
    Int.bmod (beVal (be64 (t % 2 ^ 64).toNat)) (2 ^ 64) = Int.bmod t (2 ^ 64) := by
  have hlt : (t % 2 ^ 64).toNat < 2 ^ 64 := by omega
  have hcast : (((t % 2 ^ 64).toNat : ℕ) : ℤ) = t % ((2 ^ 64 : ℕ) : ℤ) :=
    Int.toNat_of_nonneg (Int.emod_nonneg t (by decide))
  rw [beVal_be64, Nat.mod_eq_of_lt hlt, hcast, Int.emod_bmod]

/-- In the run `ls`, the client `i` has opened an echo `d` nanoseconds after it had sent the
keepalive of that time, under the same keys.  The time in a keepalive has 64 bits. -/
def RoundTrip (D : Deployment ι) (ls : List (Label S ι)) (i : ι) (d : ℤ) : Prop :=
  ∃ l₁ env data l₂ y r₁ k k' f t, ls = l₁ ++ .client i env (.recv (some data)) :: l₂ ∧
    (lts S D).Run (World.start S ι, []) l₁ (y, r₁) ∧ (y.clients i).keys = some k ∧
    k.Opened data k' (.ok f) ∧ f.typ = msgKeepalive ∧ f.payload = be64 (t % 2 ^ 64).toNat ∧
    Pinged D l₁ i k.pair t ∧ d = env.now - Int.bmod t (2 ^ 64) ∧ 0 < d ∧ d < 60 * 10 ^ 9

theorem RoundTrip.mono {i : ι} {d : ℤ} (h : RoundTrip D ls i d) (l : Label S ι) :
    RoundTrip D (ls ++ [l]) i d := by
  obtain ⟨l₁, env, data, l₂, y, r₁, k, k', f, t, rfl, h⟩ := h
  exact ⟨l₁, env, data, l₂ ++ [l], y, r₁, k, k', f, t, by simp, h⟩

/-- What the client `i` knows of the round trip time, it has from round trips. -/
def Measured (D : Deployment ι) (ls : List (Label S ι)) (x : World S ι) (i : ι) : Prop :=
  ∃ ds, (x.clients i).stats.rtt = Stats.histogram ds ∧ ∀ d ∈ ds, RoundTrip D ls i d

theorem Measured.of_rtt {i : ι} (h : Measured D ls x i)
    (heq : (x'.clients i).stats.rtt = (x.clients i).stats.rtt) (l : Label S ι) :
    Measured D (ls ++ [l]) x' i := by
  obtain ⟨ds, hds, hall⟩ := h
  exact ⟨ds, heq.trans hds, fun d hd => (hall d hd).mono l⟩

theorem Measured.step (hA : S.AeadLaws) (run : (lts S D).Run (World.start S ι, []) ls (x, r))
    {i : ι} (hpin : D.Pins i) (h : Measured D ls x i) (hst : Steps D x r l x' r') :
    Measured D (ls ++ [l]) x' i := by
  cases hst with
  | @client j env e c' o hs hun _ =>
    by_cases hij : i = j
    · subst hij
      obtain ⟨-, hr | ⟨data, k, k', f, rfl, hk, hop, hm⟩⟩ := Client.step_books hs
      · exact h.of_rtt (by rw [x.clients_woken_self, hr]) _
      · -- the echo was sealed, and so answers a keepalive of this client
        have hin := (Inv.run run).client i k hk
        obtain ⟨g, hg, hgk, rfl⟩ := (hun data rfl).sealed hA hop hin hpin (.inr rfl)
        obtain ⟨t, ht, hpay⟩ := Echoes.run hA run g hg i k.pair hin (.inr hgk) hm.typ
        obtain ⟨ds, hds, hall⟩ := h
        have htime : Int.bmod (beVal g.frame.payload) (2 ^ 64) = Int.bmod t (2 ^ 64) := by
          have hframe : g.frame.payload = be64 (t % 2 ^ 64).toNat := hpay
          rw [hframe, bmod_beVal_be64]
        have hpos := hm.pos
        have hlt := hm.lt
        have hrtt := hm.rtt
        rw [htime] at hpos hlt hrtt
        refine ⟨ds ++ [env.now - Int.bmod t (2 ^ 64)], ?_, fun d hd => ?_⟩
        · rw [x.clients_woken_self, hrtt]
          exact Stats.rtt_recordRTT hds _
        · rcases List.mem_append.1 hd with hd | hd
          · exact (hall d hd).mono _
          · obtain rfl := List.mem_singleton.1 hd
            exact ⟨ls, env, data, [], x, r, k, k', g.frame, t, rfl, run, hk, hop, hm.typ, hpay, ht,
              rfl, hpos, hlt⟩
    · exact h.of_rtt (by rw [x.clients_woken_of_ne j i c' o hij]) _
  | accept => exact h.of_rtt rfl _
  | server => exact h.of_rtt rfl _
  | idle => exact h.of_rtt rfl _

theorem Measured.run (hA : S.AeadLaws) (run : (lts S D).Run (World.start S ι, []) ls (x, r))
    {i : ι} (hpin : D.Pins i) : Measured D ls x i := by
  generalize hy : (x, r) = y at run
  induction run generalizing x r with
  | nil =>
    cases hy
    exact ⟨[], rfl, fun d hd => absurd hd List.not_mem_nil⟩
  | @snoc ls y y' l hr hst ih =>
    subst hy
    exact (ih rfl).step hA hr hpin (step_cases hst)

/-! ### The counters -/

/-- What the clients put out in a step. -/
def outs (D : Deployment ι) (y : World S ι × List (Fact S ι)) : Label S ι → List (ι × Out S)
  | .client i env e =>
    match (y.1.clients i).step (D.client i) env e with
    | .ok (_, o) => [(i, o)]
    | .error _ => []
  | _ => []

/-- What the outputs of a client count for. -/
def total (q : List (ι × Out S)) (i : ι) : Counter → ℕ :=
  ((q.filter fun a => a.1 = i).map fun a => a.2.count).sum

theorem total_append (q q' : List (ι × Out S)) (i : ι) :
    total (q ++ q') i = total q i + total q' i := by
  simp [total]

theorem counter_step (hst : (lts S D).step (x, r) l (x', r')) (i : ι) :
    (x'.clients i).stats.counter = (x.clients i).stats.counter + total (outs D (x, r) l) i := by
  cases step_cases hst with
  | @client j env e c' o hs _ _ =>
    simp only [outs, hs]
    by_cases hij : i = j
    · subst hij
      rw [x.clients_woken_self, (Client.step_books hs).1]
      simp [total]
    · rw [x.clients_woken_of_ne j i c' o hij]
      simp [total, Ne.symm hij]
  | accept => rfl
  | server => rfl
  | idle => rfl

/-- **What a client measures is genuine.**  In every run of any number of clients and sessions over
a network under the attacker's control in which no frame is forged, the handshakes of the server are
authentic and the keys that a client installs are new (`Traffic.Ideal`): the counters of a client
are those of what it has put out; and if it pins the server's key, its last round trip time and its
histogram are those of a list of samples, each of which is the time since a keepalive that this
client had sealed and handed to its transport, under the keys under which the echo arrived. -/
theorem round_trips_genuine (hA : S.AeadLaws) {q : List (ι × Out S)}
    (run : ((lts S D).recording (outs D)).Run ((World.start S ι, []), []) ls ((x, r), q)) (i : ι) :
    (x.clients i).stats.counter = total q i ∧
      (D.Pins i → ∃ ds, (x.clients i).stats.rtt = Stats.histogram ds ∧
        ∀ d ∈ ds, RoundTrip D ls i d) := by
  refine ⟨?_, fun hpin => Measured.run hA run.of_recording hpin⟩
  refine run.reachable.invariant (I := fun y => (y.1.1.clients i).stats.counter = total y.2 i)
    ?_ ?_
  · funext c
    cases c <;> rfl
  · intro y l y' hy hst
    obtain ⟨hst, hq⟩ := hst
    rw [hq, total_append, ← hy]
    exact counter_step hst i

end

/-! ### A round trip of the plain suite -/

/-- A keepalive of time 4, with the number of the frame and the key it is sealed with. -/
def plainKeepalive (seq : ℕ) (key : UInt8) : Bytes :=
  List.replicate 12 0 ++ (innerOf ⟨1, 2, 3, 4⟩ msgKeepalive seq (be64 4) [] ++ Plain.trailer key)

/-- The client 42 has connected; it sends a keepalive, which comes back three nanoseconds later. -/
def plainPing : List (Label plain Unit) :=
  plainLabels.dropLast ++ [.client () (Client.plainEnv 4 0) .keepalive,
    .server 0 (ServerSession.plainEnv 5 0) (.recv (some (plainKeepalive 0 5))),
    .client () (Client.plainEnv 7 0) (.recv (some (plainKeepalive 1 133)))]

/-- The client 42 of the plain suite measures a round trip. -/
theorem round_trips_genuine_plain : ∃ x r q,
    ((lts plain plainDeployment).recording (outs plainDeployment)).Run
      ((World.start plain Unit, []), []) plainPing ((x, r), q) ∧
    (x.clients ()).stats.lastRTTNanos = 3 ∧ (x.clients ()).stats.packetsSent = 1 ∧
    total q () .packetsSent = 1 ∧ ∃ d, RoundTrip plainDeployment plainPing () d := by
  obtain ⟨⟨x, r⟩, hrun, hp⟩ := LTS.exists_run_restrict_of_any
    (f := fun (y : World plain Unit × List (Fact plain Unit)) l =>
      (y.1.step plainDeployment l).map fun s => (s, y.2 ++ facts plainDeployment y.1 l))
    idealTest (fun _ _ => ideal_of_test) (World.start plain Unit, []) plainPing
    (fun y => (y.1.clients ()).stats.lastRTTNanos == 3 && (y.1.clients ()).stats.packetsSent == 1)
    (by decide +kernel)
  rw [← LTS.recording_ofExcept] at hrun
  simp only [Bool.and_eq_true, beq_iff_eq] at hp
  obtain ⟨q, hq⟩ : ∃ q, ((lts plain plainDeployment).recording (outs plainDeployment)).Run
      ((World.start plain Unit, []), []) plainPing ((x, r), q) :=
    LTS.Run.exists_recording hrun []
  obtain ⟨hcount, hrtt⟩ := round_trips_genuine Plain.aeadLaws hq ()
  obtain ⟨ds, hds, hall⟩ := hrtt rfl
  refine ⟨x, r, q, hq, hp.1, hp.2, ?_, ?_⟩
  · rw [← hcount]
    exact hp.2
  · -- without a sample the last one would be zero
    have hlast : (3 : ℤ) = ds.getLast?.getD 0 := by
      rw [← hp.1]
      exact congrArg Prod.fst hds
    cases hd : ds.getLast? with
    | none =>
      rw [hd] at hlast
      cases hlast
    | some d => exact ⟨d, hall d (List.mem_of_getLast? hd)⟩

end Traffic

end VibeVpn

import VibeVpn.Session.Moves
import VibeVpn.Session.RekeyAgreement

/-!
# A connection over a carrier that keeps the order

TLS and raw TCP deliver every datagram once and in the order in which it was sent.  Over such a
carrier the client's swap of keys cannot overtake what the server sent before: the server answers
the first message of a rekey and then keeps silent until the third one has arrived.

`Conn.orderedLts` restricts the runs of a connection to those of such a carrier.  The server's
rekey timeout does not strike while a message of the rekey is in flight (`Conn.Heeds`), and no send
counter comes near `2 ^ 32` (`Conn.Roomy`).

* `Keys.Sees` : what an event adds to the window of its end; `Client.Steps.uses` is the client's
  counterpart of `ServerSession.Steps.moves`;
* `Conn.Up`, `Conn.Down` : what is in flight is sorted, first the frames under the receiver's
  key, and the receiver's window has seen none of it;
* `Conn.every_frame_opens` : **no session frame is ever refused**, across any number of rekeys.
-/

namespace VibeVpn

variable {S : Suite}

/-! ### What an event does with the keys of its end -/

namespace Keys

variable {k k' : Keys S} {tag : Byte4} {fs : List (Sealed S × Bool)}

/-- What the window of `k'` has seen more than that of `k` when its end was handed the datagram
`p`, if any. -/
structure Sees (k : Keys S) (p : Option (Packet S)) (k' : Keys S) : Prop where
  below : ∀ n, k.Below n → (∀ f, p = some (.frame f) → f.ctr < n) → k'.Below n
  quiet : (∀ f, p ≠ some (.frame f)) → k'.replay = k.replay

theorem Uses.sees (hA : S.AeadLaws) {p : Option (Packet S)}
    (h : k.Uses (p.map Packet.wire) tag fs k')
    (hraw : ∀ b, p = some (.raw b) → authenticate S k.recvKey b = Option.none) :
    k.Sees p k' := by
  rcases h.window with hw | ⟨d, k₁, r, hd, ho, hw⟩
  · exact ⟨fun n hn _ => by rwa [Below, hw], fun _ => hw⟩
  · obtain ⟨q, rfl, rfl⟩ := Option.map_eq_some_iff.1 hd
    cases q with
    | raw b =>
      have hno := hraw b rfl
      have hsame : k₁ = k := by
        cases ho with
        | rejected => rfl
        | replayed => rfl
        | accepted f w ha => rw [Packet.wire, hno] at ha; cases ha
      subst hsame
      exact ⟨fun n hn _ => by rwa [Below, hw], fun _ => hw⟩
    | frame f =>
      refine ⟨fun n hn hlt => ?_, fun hq => absurd rfl (hq f)⟩
      have := ho.below hn fun g hg => ?_
      · rwa [Below, hw]
      · subst hg
        obtain ⟨-, rfl⟩ := f.key_of_authenticate hA ho.authenticate
        exact Nat.lt_of_le_of_lt f.seq_le_ctr (hlt f rfl)

end Keys

namespace Client

variable {cfg : ClientConfig} {env : ClientEnv S} {c c' : Client S} {o : Out S} {e : Event}
  {k : Keys S}

theorem MaybeRekeys.uses (h : MaybeRekeys cfg env c c' o) (hk : c.keys = some k) :
    ∃ k', c'.keys = some k' ∧ k.Uses none c.tag o.frames k' ∧ o.frames.length ≤ 1 ∧
      o.installed = [] := by
  cases h with
  | no => exact ⟨k, hk, .none .., Nat.zero_le _, rfl⟩
  | unsent _ _ hs =>
    obtain ⟨k', hk', hu, hl⟩ := hs.uses hk
    exact ⟨k', hk', hu, hl, rfl⟩
  | started _ _ hs =>
    obtain ⟨k', hk', hu, hl⟩ := hs.uses hk
    exact ⟨k', hk', hu, hl, rfl⟩

/-- What becomes of the keys of a client: they are dropped, kept, or swapped for the pair of a rekey
whose second message was just opened. -/
inductive After (k : Keys S) (e : Event) (k' : Keys S) (c' : Client S) (o : Out S) : Prop where
  | drops : c'.keys = none → o.installed = [] → After k e k' c' o
  | keeps : c'.keys = some k' → o.installed = [] → After k e k' c' o
  | swaps {d : Bytes} {k₁ : Keys S} {f : Frame} {ks : S.Key × S.Key} :
      e = .recv (some d) → k.Opened d k₁ (.ok f) → f.typ = msgRekey2 →
      c'.keys = some (newKeys S true ks) → o.installed = [ks] → After k e k' c' o

/-- **What a wake-up does with the keys of a client.** -/
theorem Steps.uses (h : Steps cfg env c e c' o) (hkeyed : c.phase.keyed = true)
    (hk : c.keys = some k) : ∃ k', k.Uses e.datagram c.tag o.frames k' ∧ o.frames.length ≤ 2 ∧
      After k e k' c' o := by
  -- the client has opened the second message of a rekey
  have hcont : ∀ {data : Bytes} {k₂ : Keys S} {f : Frame} {hs : S.HS},
      c.Continues data k₂ f hs → k.Opened data k₂ (.ok f) := by
    intro data k₂ f hs hc
    obtain ⟨k₁, hk₁, ho⟩ := hc.opened
    cases hk.symm.trans hk₁
    exact ho
  cases h with
  | idle => exact ⟨k, .none .., Nat.zero_le _, .keeps hk rfl⟩
  | keyless hno => rw [hk] at hno; cases hno
  | hangup hno _ _ _ hin _ hf =>
    rcases hf with hf | ⟨ep, ok, hs⟩
    · exact ⟨k, hf ▸ .none .., hf ▸ Nat.zero_le _, .drops hno hin⟩
    · obtain ⟨k', -, hu, hl⟩ := hs.uses hk
      exact ⟨k', hu.lift, Nat.le_succ_of_le hl, .drops hno hin⟩
  | cookie hp => rw [hp] at hkeyed; cases hkeyed
  | keyed hp => rw [hp] at hkeyed; cases hkeyed
  | opened _ hk₁ ho hep _ _ _ hf _ hin =>
    cases hk.symm.trans hk₁
    exact ⟨_, hf ▸ .of_opened ho _, hf ▸ Nat.zero_le _, .keeps (congrArg Endpoint.keys hep) hin⟩
  | sent _ _ _ hs =>
    obtain ⟨k', hk', hu, hl⟩ := hs.uses hk
    exact ⟨k', hu.lift, Nat.le_succ_of_le hl, .keeps hk' rfl⟩
  | @keepalive pt ep fs ok c' o _ _ _ hs hm =>
    obtain ⟨k₁, hk₁, hu₁, hl₁⟩ := hs.uses hk
    obtain ⟨k₂, hk₂, hu₂, hl₂, hin⟩ := hm.uses (k := k₁) hk₁
    have htag : ep.tag = c.tag := hs.frame.1
    refine ⟨k₂, (hu₁.trans (htag ▸ hu₂)).lift, ?_, .keeps hk₂ hin⟩
    simp only [Out.append, List.length_append]
    omega
  | rekeyUnread hc => exact ⟨_, .of_opened (hcont hc) _, Nat.zero_le _, .keeps rfl rfl⟩
  | rekeyUnwritten hc => exact ⟨_, .of_opened (hcont hc) _, Nat.zero_le _, .keeps rfl rfl⟩
  | rekeyIncomplete hc => exact ⟨_, .of_opened (hcont hc) _, Nat.zero_le _, .keeps rfl rfl⟩
  | rekeyUnsent hc _ _ _ hs =>
    obtain ⟨k', hk', hu, hl⟩ := hs.uses rfl
    exact ⟨k', (Keys.Uses.of_opened (hcont hc) _).trans hu, Nat.le_succ_of_le hl, .keeps hk' rfl⟩
  | rekeyed hc _ _ _ hs =>
    obtain ⟨k', -, hu, hl⟩ := hs.uses rfl
    exact ⟨k', (Keys.Uses.of_opened (hcont hc) _).trans hu, Nat.le_succ_of_le hl,
      .swaps rfl (hcont hc) hc.typ rfl rfl⟩

end Client

namespace Conn

variable {cc : ClientConfig} {cs : ServerConfig} {n : ℕ} {x : Conn S}

/-! ### What is in flight in one direction -/

/-- The two datagrams are related when both are session frames. -/
def OnFrames (R : Sealed S → Sealed S → Prop) (p q : Packet S) : Prop :=
  ∀ f g, p = .frame f → q = .frame g → R f g

/-- The frames of an output join a queue. -/
theorem pairwise_append_sent {R : Sealed S → Sealed S → Prop} {q : List (Packet S)} {o : Out S}
    (hq : q.Pairwise (OnFrames R))
    (hcross : ∀ f g, .frame f ∈ q → (g, true) ∈ o.frames → R f g)
    (ho : o.frames.Pairwise fun f g => R f.1 g.1) : (q ++ o.sent).Pairwise (OnFrames R) := by
  refine List.pairwise_append.2 ⟨hq, List.pairwise_append.2 ⟨?_, ?_, ?_⟩, ?_⟩
  · exact List.pairwise_map.2 (List.pairwise_of_forall fun _ _ _ _ h => nomatch h)
  · refine List.pairwise_map.2 ((ho.filter _).imp fun h f g hf hg => ?_)
    cases hf
    cases hg
    exact h
  · intro p hp p' _ f g hf _
    obtain ⟨r, -, rfl⟩ := List.mem_map.1 hp
    cases hf
  · rintro p hp p' hp' f g rfl rfl
    exact hcross f g hp (frame_mem_sent.1 hp')

/-- The frames in flight carry the tag, have counters that fit the wire, and follow each other in
the order of their counters. -/
structure Sorted (tag : Byte4) (q : List (Packet S)) : Prop where
  tag : ∀ f, .frame f ∈ q → f.tag = tag
  ctr : ∀ f, .frame f ∈ q → f.ctr < 2 ^ 32
  order : q.Pairwise (OnFrames fun f g => f.key = g.key → f.ctr < g.ctr)

theorem Sorted.sublist {tag : Byte4} {q q' : List (Packet S)} (h : Sorted tag q)
    (hs : q'.Sublist q) : Sorted tag q' :=
  ⟨fun f hf => h.tag f (hs.mem hf), fun f hf => h.ctr f (hs.mem hf), h.order.sublist hs⟩

/-- What an end seals next joins the queue in order. -/
theorem Sorted.append {tag : Byte4} {q : List (Packet S)} {o : Out S} {k k' : Keys S}
    {data : Option Bytes} (h : Sorted tag q) (hu : k.Uses data tag o.frames k')
    (hlen : o.frames.length ≤ 2) (hroom : k.sendSeq + 1 < 2 ^ 32)
    (hold : ∀ f, .frame f ∈ q → f.key = k.sendKey → f.ctr < k.sendSeq) :
    Sorted tag (q ++ o.sent) := by
  refine ⟨fun f hf => ?_, fun f hf => ?_, pairwise_append_sent h.order ?_ ?_⟩
  · rcases List.mem_append.1 hf with hf | hf
    · exact h.tag f hf
    · exact (hu.sealed _ (frame_mem_sent.1 hf)).2.1
  · rcases List.mem_append.1 hf with hf | hf
    · exact h.ctr f hf
    · have hlt := (hu.sealed _ (frame_mem_sent.1 hf)).2.2.2
      rw [hu.sendSeq] at hlt
      dsimp only at hlt
      omega
  · intro f g hf hg hkey
    obtain ⟨hk, -, hle, -⟩ := hu.sealed _ hg
    exact Nat.lt_of_lt_of_le (hold f hf (hkey.trans hk)) hle
  · exact hu.order.imp_of_mem fun _ _ h _ => h

/-! ### From the client to the server -/

/-- What is in flight to a server with the keys `k`: first the frames under its key, which its
window has not seen, and then, if the client has swapped its keys, those under the new pair. -/
structure Up (x : Conn S) (k : Keys S) : Prop where
  sorted : Sorted x.server.tag x.c2s
  key : ∀ f, .frame f ∈ x.c2s → f.key = k.recvKey ∨
    x.clientKeys.length = x.serverKeys.length + 1 ∧ ∃ r, x.clientKeys.getLast? = some (f.key, r)
  turn : x.c2s.Pairwise (OnFrames fun f g => g.key = k.recvKey → f.key = k.recvKey)
  new : ∀ f, .frame f ∈ x.c2s → f.key = k.recvKey → k.Below f.ctr

/-- The first frame in flight is sealed with the key the server receives with. -/
theorem Up.head_key {k : Keys S} (hu : Up x k) (hi : Sync cc cs x) (hk : x.server.keys = some k)
    {f : Sealed S} {q : List (Packet S)} (hq : x.c2s = .frame f :: q) : f.key = k.recvKey := by
  rcases hu.key f (by simp [hq]) with h | ⟨hlen, -⟩
  · exact h
  · -- the third message of the rekey is in flight, and `f` is not after it
    obtain ⟨m₁, -, hal | ⟨g, k₀, hb⟩⟩ := hi.turn
    · have := hal.length
      omega
    · cases hk.symm.trans hb.keys
      have hmem := hb.mem
      have hturn := hu.turn
      rw [hq] at hmem hturn
      rcases List.mem_cons.1 hmem with h | h
      · cases h
        exact hb.key
      · exact (List.pairwise_cons.1 hturn).1 _ h f g rfl rfl hb.key

/-- The first frame in flight opens. -/
theorem Up.opens (hA : S.AeadLaws) {k : Keys S} (hu : Up x k) (hi : Sync cc cs x)
    (hk : x.server.keys = some k) {f : Sealed S} {q : List (Packet S)}
    (hq : x.c2s = .frame f :: q) :
    ∃ k', k.open f.wire = .ok (k', .ok f.frame) ∧ f.tag = x.server.tag := by
  have hf : .frame f ∈ x.c2s := by simp [hq]
  have hkey := hu.head_key hi hk hq
  obtain ⟨k', r, ho, hop⟩ := k.open_ok f.wire
  have hseq : f.frame.seq = f.ctr := Nat.mod_eq_of_lt (hu.sorted.ctr f hf)
  obtain rfl : r = .ok f.frame :=
    hop.of_below (hkey ▸ f.authenticate_wire hA) (hseq ▸ hu.new f hf hkey)
  exact ⟨k', ho, hu.sorted.tag f hf⟩

/-! ### From the server to the client -/

/-- What is in flight to a client with the keys `kc`: frames under its key, which its window has not
seen.  Nothing follows the second message of a rekey, and nothing is in flight while the server has
yet to swap its keys. -/
structure Down (x : Conn S) (kc : Keys S) : Prop where
  sorted : Sorted x.server.tag x.s2c
  key : ∀ f, .frame f ∈ x.s2c → f.key = kc.recvKey
  new : ∀ f, .frame f ∈ x.s2c → kc.Below f.ctr
  sent : ∀ k, x.server.keys = some k → kc.recvKey = k.sendKey →
    kc.Below k.sendSeq ∧ ∀ f, .frame f ∈ x.s2c → f.ctr < k.sendSeq
  last : x.s2c.Pairwise (OnFrames fun f _ => f.typ ≠ msgRekey2)
  behind : x.clientKeys.length = x.serverKeys.length + 1 →
    (∀ f, .frame f ∉ x.s2c) ∧ kc.replay.high = noHigh

/-- The first frame in flight opens. -/
theorem Down.opens (hA : S.AeadLaws) {kc : Keys S} (hd : Down x kc) {f : Sealed S}
    {q : List (Packet S)} (hq : x.s2c = .frame f :: q) :
    ∃ k', kc.open f.wire = .ok (k', .ok f.frame) ∧ f.tag = x.server.tag := by
  have hf : .frame f ∈ x.s2c := by simp [hq]
  obtain ⟨k', r, ho, hop⟩ := kc.open_ok f.wire
  have hseq : f.frame.seq = f.ctr := Nat.mod_eq_of_lt (hd.sorted.ctr f hf)
  obtain rfl : r = .ok f.frame :=
    hop.of_below (hd.key f hf ▸ f.authenticate_wire hA) (hseq ▸ hd.new f hf)
  exact ⟨k', ho, hd.sorted.tag f hf⟩

/-- Both directions, as far as the ends have keys. -/
structure InOrder (x : Conn S) : Prop where
  up : ∀ k, x.server.keys = some k → Up x k
  down : ∀ kc, x.client.keys = some kc → Down x kc

/-! ### The client -/

/-- The datagram `p`, if any, is taken from the head of the queue, which leaves `net`. -/
inductive Takes (q : List (Packet S)) : Option (Packet S) → List (Packet S) → Prop where
  | none : Takes q none q
  | head {p : Packet S} {net : List (Packet S)} : q = p :: net → Takes q (some p) net

theorem Takes.sublist {q net : List (Packet S)} {p : Option (Packet S)} (h : Takes q p net) :
    net.Sublist q := by
  cases h with
  | none => exact .refl _
  | head h => exact h ▸ List.sublist_cons_self ..

theorem Takes.mem {q net : List (Packet S)} {p : Packet S} (h : Takes q (some p) net) : p ∈ q := by
  cases h with
  | head h => simp [h]

/-- What is left in the queue comes after the datagram taken. -/
theorem Takes.rel {q net : List (Packet S)} {f g : Sealed S} {R : Sealed S → Sealed S → Prop}
    (h : Takes q (some (.frame f)) net) (hq : q.Pairwise (OnFrames R)) (hg : .frame g ∈ net) :
    R f g := by
  cases h with
  | head h =>
    subst h
    exact (List.pairwise_cons.1 hq).1 _ hg f g rfl rfl

/-- A client that keeps its pair: what it seals joins the queue. -/
theorem Up.client_keeps {k kc kc' : Keys S} (hu : Up x k) (hi : Sync cc cs x) (hlag : Lag cc n x)
    (hfresh : x.Fresh) (hk : x.server.keys = some k) (hkc : x.client.keys = some kc)
    {now : ℤ} {c' : Client S} {o : Out S} {data : Option Bytes}
    (huse : kc.Uses data x.client.tag o.frames kc') (hlen : o.frames.length ≤ 2)
    (hroom : kc.sendSeq + 1 < 2 ^ 32) (hin : o.installed = []) (net : List (Packet S)) :
    Up ({ x with s2c := net }.clientMove now c' o) k := by
  have hlive := hlag.live_of_keys hkc
  have hkeys : ({ x with s2c := net }.clientMove now c' o).clientKeys = x.clientKeys := by
    simp [clientMove, hin]
  have hpair : x.client.keys.map Keys.pair = some kc.pair := by rw [hkc]; rfl
  -- the frames sealed are under the server's key, or under the pair it does not have yet
  have hnew : (∀ g, (g, true) ∈ o.frames → g.key = k.recvKey ∧ k.Below g.ctr) ∧
      (∀ f, .frame f ∈ x.c2s → f.key = k.recvKey) ∨
      ∀ g, (g, true) ∈ o.frames → g.key ≠ k.recvKey ∧
        x.clientKeys.length = x.serverKeys.length + 1 ∧
          ∃ r, x.clientKeys.getLast? = some (g.key, r) := by
    obtain ⟨m₁, -, hal | ⟨f, k₀, hb⟩⟩ := hi.turn
    · have hsame : kc.sendKey = k.recvKey := congrArg Prod.fst (hal.pair_eq hlag hlive hkc hk)
      refine .inl ⟨fun g hg => ?_, fun f hf => ?_⟩
      · obtain ⟨h1, -, h2, -⟩ := huse.sealed _ hg
        exact ⟨h1.trans hsame, (hal.window kc k hkc hk).mono h2⟩
      · refine (hu.key f hf).resolve_right fun h => ?_
        have := hal.length
        omega
    · cases hk.symm.trans hb.keys
      refine .inr fun g hg => ?_
      have hg' := (huse.sealed _ hg).1
      refine ⟨hg' ▸ hb.key_ne hlag hfresh hlive hpair, hb.length, kc.recvKey, ?_⟩
      rw [← hlag.client hlive, hpair]
      exact congrArg some (Prod.ext hg'.symm rfl)
  have hcount : ∀ f, .frame f ∈ x.c2s → f.key = kc.sendKey → f.ctr < kc.sendSeq :=
    fun f hf => hi.counter kc f hkc hf
  refine ⟨hu.sorted.append (hi.tag hlive ▸ huse) hlen hroom hcount, fun f hf => ?_,
    pairwise_append_sent hu.turn ?_ ?_, fun f hf hkey => ?_⟩
  · rw [hkeys]
    rcases List.mem_append.1 hf with hf | hf
    · exact hu.key f hf
    · have hf := frame_mem_sent.1 hf
      exact hnew.imp (fun h => (h.1 f hf).1) fun h => (h f hf).2
  · intro f g hf hg hkey
    rcases hnew with h | h
    · exact h.2 f hf
    · exact absurd hkey (h g hg).1
  · refine huse.order.imp_of_mem fun hf hg _ hkey => ?_
    exact (huse.sealed _ hf).1.trans ((huse.sealed _ hg).1.symm.trans hkey)
  · rcases List.mem_append.1 hf with hf | hf
    · exact hu.new f hf hkey
    · have hf := frame_mem_sent.1 hf
      rcases hnew with h | h
      · exact (h.1 f hf).2
      · exact absurd hkey (h f hf).1

/-- A client that completes a rekey: its third message joins the queue, under the server's key. -/
theorem Up.client_swaps {k kc kc' : Keys S} {m₁ : Bytes} (hu : Up x k) (hi : Sync cc cs x)
    (hlag : Lag cc n x) (hal : Aligned cs x m₁) (hk : x.server.keys = some k)
    (hkc : x.client.keys = some kc) {now : ℤ} {c' : Client S} {o : Out S} {data : Option Bytes}
    (huse : kc.Uses data x.client.tag o.frames kc') (hlen : o.frames.length ≤ 2)
    (hroom : kc.sendSeq + 1 < 2 ^ 32) (net : List (Packet S)) :
    Up ({ x with s2c := net }.clientMove now c' o) k := by
  have hlive := hlag.live_of_keys hkc
  have hsame : kc.sendKey = k.recvKey := congrArg Prod.fst (hal.pair_eq hlag hlive hkc hk)
  have hold : ∀ f, .frame f ∈ x.c2s → f.key = k.recvKey := by
    refine fun f hf => (hu.key f hf).resolve_right fun h => ?_
    have := hal.length
    omega
  have hkey : ∀ f, .frame f ∈ x.c2s ++ o.sent → f.key = k.recvKey := by
    intro f hf
    rcases List.mem_append.1 hf with hf | hf
    · exact hold f hf
    · exact (huse.sealed _ (frame_mem_sent.1 hf)).1.trans hsame
  refine ⟨hu.sorted.append (hi.tag hlive ▸ huse) hlen hroom fun f hf => hi.counter kc f hkc hf,
    fun f hf => .inl (hkey f hf), ?_, fun f hf _ => ?_⟩
  · refine List.pairwise_of_forall_mem_list fun p hp q _ f g hf _ _ => ?_
    subst hf
    exact hkey f hp
  · rcases List.mem_append.1 hf with hf | hf
    · exact hu.new f hf (hold f hf)
    · exact (hal.window kc k hkc hk).mono (huse.sealed _ (frame_mem_sent.1 hf)).2.2.1

/-- A client that keeps its pair has seen at most the datagram it was handed. -/
theorem Down.client_keeps {kc kc' : Keys S} (hd : Down x kc) {p : Option (Packet S)}
    {net : List (Packet S)} (hnet : Takes x.s2c p net) (hpair : kc'.pair = kc.pair)
    (hsees : kc.Sees p kc') {now : ℤ} {c' : Client S} {o : Out S} (hin : o.installed = []) :
    Down ({ x with s2c := net }.clientMove now c' o) kc' := by
  have hrecv : kc'.recvKey = kc.recvKey := congrArg Prod.snd hpair
  have hsub := hnet.sublist
  have hkeys : ({ x with s2c := net }.clientMove now c' o).clientKeys = x.clientKeys := by
    simp [clientMove, hin]
  refine ⟨hd.sorted.sublist hsub, fun f hf => (hd.key f (hsub.mem hf)).trans hrecv.symm,
    fun f hf => ?_, fun k hk hkey => ?_, hd.last.sublist hsub, fun hlen => ?_⟩
  · -- what is left in the queue has greater counters than what was opened
    refine hsees.below _ (hd.new f (hsub.mem hf)) fun g hg => ?_
    subst hg
    have hg := hd.key g hnet.mem
    exact hnet.rel hd.sorted.order hf (hg.trans (hd.key f (hsub.mem hf)).symm)
  · obtain ⟨h1, h2⟩ := hd.sent k hk (hrecv.symm.trans hkey)
    refine ⟨hsees.below _ h1 fun g hg => ?_, fun f hf => h2 f (hsub.mem hf)⟩
    subst hg
    exact h2 g hnet.mem
  · rw [hkeys] at hlen
    obtain ⟨h1, h2⟩ := hd.behind hlen
    refine ⟨fun f hf => h1 f (hsub.mem hf), ?_⟩
    rw [hsees.quiet fun f hf => ?_]
    · exact h2
    · subst hf
      exact h1 f hnet.mem

/-- When the client swaps its keys, nothing is in flight to it any more. -/
theorem Down.client_swaps {kc : Keys S} (hd : Down x kc) {g : Sealed S} {net : List (Packet S)}
    (hnet : Takes x.s2c (some (.frame g)) net) (hty : g.typ = msgRekey2) {now : ℤ}
    {c' : Client S} {o : Out S} (ks : S.Key × S.Key) :
    Down ({ x with s2c := net }.clientMove now c' o) (newKeys S true ks) := by
  -- nothing follows the second message of a rekey
  have hno : ∀ f, .frame f ∉ net := fun f hf => hnet.rel hd.last hf hty
  exact ⟨hd.sorted.sublist hnet.sublist, fun f hf => absurd hf (hno f),
    fun f hf => absurd hf (hno f), fun _ _ _ => ⟨.inl rfl, fun f hf => absurd hf (hno f)⟩,
    hd.last.sublist hnet.sublist, fun _ => ⟨hno, rfl⟩⟩

/-- A client with a connection has keys. -/
theorem Sync.exists_clientKeys (hi : Sync cc cs x) (hlag : Lag cc n x)
    (hlive : x.client.phase.live = true) : ∃ kc, x.client.keys = some kc := by
  obtain ⟨k, hk⟩ := Option.isSome_iff_exists.1 hi.server
  obtain ⟨ks, hks⟩ : ∃ ks, x.clientKeys.getLast? = some ks := by
    refine Option.ne_none_iff_exists'.1 fun h => ?_
    rw [List.getLast?_eq_none_iff] at h
    have hno : x.serverKeys = [] := List.prefix_nil.1 (h ▸ hlag.behind)
    have := hlag.server
    rw [hk, hno] at this
    cases this
  have := hlag.client hlive
  rw [hks] at this
  obtain ⟨kc, hkc, -⟩ := Option.map_eq_some_iff.1 this
  exact ⟨kc, hkc⟩

/-- **What the client does keeps the order.** -/
theorem InOrder.clientSteps (hA : S.AeadLaws) (ho : InOrder x) (hi : Sync cc cs x)
    (hlag : Lag cc n x) (hid : x.Ideal) (hfresh : x.Fresh) {env : ClientEnv S} {e : Client.Event}
    {c' : Client S} {o : Out S} (hlive : x.client.phase.live = true)
    (hroom : ∀ k, x.client.keys = some k → k.sendSeq + 1 < 2 ^ 32)
    {p : Option (Packet S)} {net : List (Packet S)} (hnet : Takes x.s2c p net)
    (hp : e.datagram = p.map Packet.wire) (h : Client.Steps cc env x.client e c' o) :
    InOrder ({ x with s2c := net }.clientMove env.now c' o) := by
  obtain ⟨kc, hkc⟩ := hi.exists_clientKeys hlag hlive
  obtain ⟨kc', huse, hlen, hafter⟩ := h.uses (hi.keyed hlive) hkc
  have hd := ho.down kc hkc
  rw [hp] at huse
  have hsees : kc.Sees p kc' := huse.sees hA fun b hb =>
    hid.rawS2C b kc (by subst hb; exact hnet.mem) hkc
  cases hafter with
  | drops hno hin =>
    refine ⟨fun k hk => (ho.up k hk).client_keeps hi hlag hfresh hk hkc huse hlen (hroom kc hkc)
      hin net, fun k hk => ?_⟩
    cases hno.symm.trans hk
  | keeps hk' hin =>
    refine ⟨fun k hk => (ho.up k hk).client_keeps hi hlag hfresh hk hkc huse hlen (hroom kc hkc)
      hin net, fun k hk => ?_⟩
    cases hk'.symm.trans hk
    exact hd.client_keeps hnet huse.pair hsees hin
  | @swaps d k₁ f ks he hop hty hk' hin =>
    subst he
    obtain ⟨q, rfl, hd'⟩ := Option.map_eq_some_iff.1 hp.symm
    cases hd'
    -- the datagram is a frame of the server, sealed with the pair of the client
    cases q with
    | raw b =>
      have := hop.authenticate
      rw [Packet.wire, hid.rawS2C b kc hnet.mem hkc] at this
      cases this
    | frame g =>
      obtain ⟨-, rfl⟩ := g.key_of_authenticate hA hop.authenticate
      refine ⟨fun k hk => ?_, fun k hk => ?_⟩
      · obtain ⟨m₁, -, hal | ⟨f, k₀, hb⟩⟩ := hi.turn
        · exact (ho.up k hk).client_swaps hi hlag hal hk hkc huse hlen (hroom kc hkc) net
        · exact absurd hnet.mem ((hd.behind hb.length).1 g)
      · cases hk'.symm.trans hk
        exact hd.client_swaps hnet hty ks

/-! ### The server -/

/-- A server that keeps its pair has seen at most the datagram it was handed. -/
theorem Up.server_keeps {k k' : Keys S} (hu : Up x k) {p : Option (Packet S)}
    {net : List (Packet S)} (hnet : Takes x.c2s p net) (hpair : k'.pair = k.pair)
    (hsees : k.Sees p k') {s' : ServerSession S} {up : Bool} {o : Out S}
    (htag : s'.tag = x.server.tag) (hin : o.installed = [])
    (hkey : ∀ g, p = some (.frame g) → g.key = k.recvKey) :
    Up ({ x with c2s := net }.serverMove s' up o) k' := by
  have hrecv : k'.recvKey = k.recvKey := congrArg Prod.snd hpair
  have hsub := hnet.sublist
  have hkeys : ({ x with c2s := net }.serverMove s' up o).serverKeys = x.serverKeys := by
    simp [serverMove, hin]
  refine ⟨htag ▸ hu.sorted.sublist hsub, fun f hf => ?_, ?_, fun f hf hfk => ?_⟩
  · rw [hkeys, hrecv]
    exact hu.key f (hsub.mem hf)
  · rw [hrecv]
    exact hu.turn.sublist hsub
  · rw [hrecv] at hfk
    refine hsees.below _ (hu.new f (hsub.mem hf) hfk) fun g hg => ?_
    have hgk := hkey g hg
    subst hg
    exact hnet.rel hu.sorted.order hf (hgk.trans hfk.symm)

/-- A server that completes a rekey: what is left in flight is sealed with the new pair. -/
theorem Up.server_swaps {k : Keys S} {g : Sealed S} (hu : Up x k) (hb : Behind cc cs x g k)
    {net : List (Packet S)} (hnet : Takes x.c2s (some (.frame g)) net) {s' : ServerSession S}
    {up : Bool} {ks : S.Key × S.Key} (htag : s'.tag = x.server.tag)
    (hks : x.clientKeys.getLast? = some ks) :
    Up ({ x with c2s := net }.serverMove s' up { installed := [ks] }) (newKeys S false ks) := by
  have hsub := hnet.sublist
  have hkey : ∀ f, .frame f ∈ net → f.key = ks.1 := by
    intro f hf
    rcases hu.key f (hsub.mem hf) with h | ⟨-, r, h⟩
    · -- a frame under the old key was sealed before the third message
      have hlt : g.ctr < f.ctr := hnet.rel hu.sorted.order hf (hb.key.trans h.symm)
      rcases hb.last f (hsub.mem hf) h with rfl | h'
      · exact absurd hlt (Nat.lt_irrefl _)
      · exact absurd h'.1 (Nat.lt_asymm hlt)
    · exact congrArg Prod.fst (Option.some.inj (h.symm.trans hks))
  refine ⟨htag ▸ hu.sorted.sublist hsub, fun f hf => .inl (hkey f hf), ?_, fun _ _ _ => .inl rfl⟩
  refine List.pairwise_of_forall_mem_list fun p hp q _ f g hf _ _ => ?_
  subst hf
  exact hkey f hp

/-- A server that keeps its pair: what it seals joins the queue. -/
theorem Down.server_keeps {kc k k' : Keys S} (hd : Down x kc) (hi : Sync cc cs x)
    (hlag : Lag cc n x) (hk : x.server.keys = some k) (hkc : x.client.keys = some kc)
    {env : ServerEnv S} {e : ServerSession.Event} {s' : ServerSession S} {up : Bool} {o : Out S}
    (huse : ServerSession.Keeps cs env x.server k e s' o up 2 k') (hroom : k.sendSeq + 1 < 2 ^ 32)
    (net : List (Packet S)) : Down ({ x with c2s := net }.serverMove s' up o) kc := by
  have hlive := hlag.live_of_keys hkc
  have hkeys : ({ x with c2s := net }.serverMove s' up o).serverKeys = x.serverKeys := by
    simp [serverMove, huse.installed]
  have hkey' : k'.sendKey = k.sendKey := congrArg Prod.fst huse.uses.pair
  have hle : k.sendSeq ≤ k'.sendSeq := huse.uses.sendSeq ▸ Nat.le_add_right _ _
  obtain ⟨m₁, -, hal | ⟨f, k₀, hb⟩⟩ := hi.turn
  · have hsame : kc.recvKey = k.sendKey := congrArg Prod.snd (hal.pair_eq hlag hlive hkc hk)
    obtain ⟨hbelow, hsent⟩ := hd.sent k hk hsame
    refine ⟨?_, fun f hf => ?_, fun f hf => ?_, fun k₁ hk₁ _ => ?_,
      pairwise_append_sent hd.last ?_ huse.last, fun h => ?_⟩
    · show Sorted s'.tag _
      rw [huse.tag]
      exact hd.sorted.append huse.uses huse.length hroom fun f hf _ => hsent f hf
    · rcases List.mem_append.1 hf with hf | hf
      · exact hd.key f hf
      · exact (huse.uses.sealed _ (frame_mem_sent.1 hf)).1.trans hsame.symm
    · rcases List.mem_append.1 hf with hf | hf
      · exact hd.new f hf
      · exact hbelow.mono (huse.uses.sealed _ (frame_mem_sent.1 hf)).2.2.1
    · cases huse.keys.symm.trans hk₁
      refine ⟨hbelow.mono hle, fun f hf => ?_⟩
      rcases List.mem_append.1 hf with hf | hf
      · exact Nat.lt_of_lt_of_le (hsent f hf) hle
      · exact (huse.uses.sealed _ (frame_mem_sent.1 hf)).2.2.2
    · -- a server that is not rekeying has no second message in flight
      intro f g hf hg hty
      have hidle := huse.idle _ hg
      exact hal.free hlive hidle f k hf hty hk ((hd.key f hf).trans hsame)
    · rw [hkeys] at h
      have := hal.length
      have h : x.clientKeys.length = _ := h
      omega
  · -- a server that waits for the third message seals nothing
    obtain ⟨hnone, hhigh⟩ := hd.behind hb.length
    have hno : ∀ f, .frame f ∉ x.s2c ++ o.sent := by
      intro f hf
      rcases List.mem_append.1 hf with hf | hf
      · exact hnone f hf
      · have := huse.idle _ (frame_mem_sent.1 hf)
        rw [hb.rekeying] at this
        cases this
    refine ⟨⟨fun f hf => absurd hf (hno f), fun f hf => absurd hf (hno f), ?_⟩,
      fun f hf => absurd hf (hno f), fun f hf => absurd hf (hno f),
      fun _ _ _ => ⟨.inl hhigh, fun f hf => absurd hf (hno f)⟩, ?_, fun _ => ⟨hno, hhigh⟩⟩ <;>
    · refine List.pairwise_of_forall_mem_list fun p hp q _ f g hf _ => ?_
      subst hf
      exact absurd hp (hno f)

/-- A server that completes a rekey has nothing in flight. -/
theorem Down.server_swaps {kc : Keys S} (hd : Down x kc)
    (hlen : x.clientKeys.length = x.serverKeys.length + 1) {s' : ServerSession S} {up : Bool}
    {o : Out S} (hno : o.sent = []) (htag : s'.tag = x.server.tag) (net : List (Packet S)) :
    Down ({ x with c2s := net }.serverMove s' up o) kc := by
  obtain ⟨hnone, hhigh⟩ := hd.behind hlen
  have hnet : x.s2c ++ o.sent = x.s2c := by rw [hno, List.append_nil]
  have hnone' : ∀ f, .frame f ∉ x.s2c ++ o.sent := fun f hf => hnone f (hnet ▸ hf)
  refine ⟨?_, fun f hf => absurd hf (hnone' f), fun f hf => absurd hf (hnone' f),
    fun _ _ _ => ⟨.inl hhigh, fun f hf => absurd hf (hnone' f)⟩, ?_, fun _ => ⟨hnone', hhigh⟩⟩
  · show Sorted s'.tag (x.s2c ++ o.sent)
    rw [htag, hnet]
    exact hd.sorted
  · show (x.s2c ++ o.sent).Pairwise _
    rw [hnet]
    exact hd.last

/-- **What the server does keeps the order.** -/
theorem InOrder.serverSteps (hA : S.AeadLaws) (ho : InOrder x) (hi : Sync cc cs x)
    (hlag : Lag cc n x) (hid : x.Ideal) (hfresh : x.Fresh) {env : ServerEnv S}
    {e : ServerSession.Event} {s' : ServerSession S} {o : Out S} {up : Bool}
    (hroom : ∀ k, x.server.keys = some k → k.sendSeq + 1 < 2 ^ 32)
    {p : Option (Packet S)} {net : List (Packet S)} (hnet : Takes x.c2s p net)
    (hp : e.datagram = p.map Packet.wire)
    (hlag' : Lag cc n ({ x with c2s := net }.serverMove s' up o))
    (h : ServerSession.Steps cs env x.server e (s', o, up)) :
    InOrder ({ x with c2s := net }.serverMove s' up o) := by
  obtain ⟨k, hk⟩ := Option.isSome_iff_exists.1 hi.server
  have hu := ho.up k hk
  cases h.moves.of_keys hk with
  | @keeps k' huse =>
    have huses := huse.uses
    rw [hp] at huses
    have hsees : k.Sees p k' := huses.sees hA fun b hb =>
      hid.rawC2S b k (by subst hb; exact hnet.mem) hk
    refine ⟨fun k₁ hk₁ => ?_, fun kc hkc =>
      (ho.down kc hkc).server_keeps hi hlag hk hkc huse (hroom k hk) net⟩
    cases huse.keys.symm.trans hk₁
    refine hu.server_keeps hnet huses.pair hsees huse.tag huse.installed fun g hg => ?_
    subst hg
    cases hnet with
    | head hq => exact hu.head_key hi hk hq
  | @swaps d k₁ f hs st ks hsw =>
    obtain rfl := hsw.event
    obtain rfl := hsw.out
    obtain ⟨q, rfl, hd'⟩ := Option.map_eq_some_iff.1 hp.symm
    cases hd'
    obtain ⟨g, rfl, -, hb⟩ :=
      hi.behind_of_rekey3 hA hlag hid hfresh hnet.mem hk hsw.opened hsw.typ
    -- what the server installs is the client's last pair
    have hall : x.serverKeys ++ [ks] = x.clientKeys :=
      hlag'.behind.eq_of_length (by simp [serverMove, hb.length])
    have hks : x.clientKeys.getLast? = some ks := by rw [← hall]; simp
    refine ⟨fun k₂ hk₂ => ?_, fun kc hkc =>
      (ho.down kc hkc).server_swaps hb.length rfl hsw.tag net⟩
    cases hsw.keys.symm.trans hk₂
    exact hu.server_swaps hb hnet hsw.tag hks

/-! ### Whole runs -/

/-- The carrier neither loses nor duplicates, and delivers from the head of the queue. -/
def InSequence : Label S → Prop
  | .toClient _ i => i = 0
  | .toServer _ i => i = 0
  | .faultC2S _ => False
  | .faultS2C _ => False
  | _ => True

/-- The send counters are far from the end of the wire's sequence numbers: an event seals at most
two frames. -/
structure Roomy (x : Conn S) : Prop where
  client : ∀ k, x.client.keys = some k → k.sendSeq + 1 < 2 ^ 32
  server : ∀ k, x.server.keys = some k → k.sendSeq + 1 < 2 ^ 32

/-- The runs of a connection over a carrier that keeps the order. -/
def orderedLts (S : Suite) (cc : ClientConfig) (cs : ServerConfig) : LTS (Conn S) (Label S) :=
  (lts S cc cs).restrict fun x l => (x.Ideal ∧ x.Heeds cs l) ∧ InSequence l ∧ x.Roomy

theorem Takes.of_head {q : List (Packet S)} {p : Packet S} (h : q[0]? = some p) :
    Takes q (some p) (q.eraseIdx 0) := by
  cases q with
  | nil => cases h
  | cons a q =>
    cases h
    exact .head rfl

theorem client_datagram_eq_none {e : Client.Event} (h : e.isDatagram = false) :
    e.datagram = none := by
  cases e with
  | recv d =>
    cases d with
    | none => rfl
    | some d => cases h
  | _ => rfl

theorem server_datagram_eq_none {e : ServerSession.Event} (h : e.isDatagram = false) :
    e.datagram = none := by
  cases e with
  | recv d =>
    cases d with
    | none => rfl
    | some d => cases h
  | _ => rfl

variable {x' : Conn S} {l : Label S}

/-- **Every step of an ordered carrier keeps the order.** -/
theorem InOrder.step (hA : S.AeadLaws) (ho : InOrder x) (hi : Sync cc cs x) (hlag : Lag cc n x)
    (hlag' : Lag cc n x') (hid : x.Ideal) (hfresh : x.Fresh) (hroom : x.Roomy)
    (hseq : InSequence l) (h : Step cc cs x l x') : InOrder x' := by
  cases h with
  | client hlive hd hstep =>
    have hs := Client.step_spec hlive hlag.keys_of_reply hstep
    exact ho.clientSteps hA hi hlag hid hfresh hlive hroom.client .none
      (client_datagram_eq_none hd) hs
  | @toClient env i p c' o hlive hp hstep =>
    obtain rfl : i = 0 := hseq
    have hs := Client.step_spec hlive hlag.keys_of_reply hstep
    exact ho.clientSteps hA hi hlag hid hfresh hlive hroom.client (.of_head hp) rfl hs
  | server _ hd hstep =>
    exact ho.serverSteps hA hi hlag hid hfresh hroom.server .none (server_datagram_eq_none hd)
      hlag' (ServerSession.step_spec hstep)
  | @toServer env i p s' o up _ hp hstep =>
    obtain rfl : i = 0 := hseq
    exact ho.serverSteps hA hi hlag hid hfresh hroom.server (.of_head hp) rfl hlag'
      (ServerSession.step_spec hstep)
  | faultC2S => exact hseq.elim
  | faultS2C => exact hseq.elim

/-- A connection whose handshake has just completed, with the server's address frame on its way. -/
structure Settled (cc : ClientConfig) (ks : S.Key × S.Key) (x : Conn S) : Prop
    extends Established cc ks x where
  s2c_eq : ∃ f k, x.s2c = [.frame f] ∧ x.server.keys = some k ∧ f.tag = x.server.tag ∧
    f.ctr < k.sendSeq ∧ f.ctr < 2 ^ 32 ∧ f.typ = msgAssign ∧ f.payload.length = 9

theorem Settled.inOrder {ks : S.Key × S.Key} (h : Settled cc ks x) : InOrder x := by
  have hno : ∀ f, .frame f ∉ x.c2s := by
    intro f hf
    obtain ⟨b, hb, -⟩ := h.c2s _ hf
    cases hb
  obtain ⟨g, k₀, hq, hk₀, htag, hlt, hctr, -⟩ := h.s2c_eq
  have honly : ∀ f, .frame f ∈ x.s2c → f = g := by
    intro f hf
    rw [hq] at hf
    exact Packet.frame.inj (List.mem_singleton.1 hf)
  refine ⟨fun k _ => ⟨⟨fun f hf => absurd hf (hno f), fun f hf => absurd hf (hno f), ?_⟩,
      fun f hf => absurd hf (hno f), ?_, fun f hf => absurd hf (hno f)⟩, fun kc hkc => ?_⟩
  iterate 2
    refine List.pairwise_of_forall_mem_list fun p hp q _ f g hf _ => ?_
    subst hf
    exact absurd hp (hno f)
  · cases h.client.2.symm.trans hkc
    refine ⟨⟨fun f hf => honly f hf ▸ htag, fun f hf => honly f hf ▸ hctr, ?_⟩,
      fun f hf => (h.s2c f hf).1, fun _ _ => .inl rfl, fun k hk _ => ⟨.inl rfl, fun f hf => ?_⟩, ?_,
      fun hlen => ?_⟩
    · exact hq ▸ List.pairwise_singleton ..
    · cases hk₀.symm.trans hk
      exact honly f hf ▸ hlt
    · exact hq ▸ List.pairwise_singleton ..
    · rw [h.keys.1, h.keys.2] at hlen
      cases hlen

/-- The invariants of the runs over an ordered carrier. -/
theorem InOrder.run (hA : S.AeadLaws) (hX : S.XKLaws) (hpub : Paired S cc cs)
    {ks : S.Key × S.Key} {x₀ : Conn S} {ls : List (Label S)} (h₀ : Settled cc ks x₀)
    (h : (orderedLts S cc cs).Run x₀ ls x) (hf : x.Fresh) :
    Lag cc x₀.client.stats.rekeys x ∧ Sync cc cs x ∧ InOrder x := by
  induction h with
  | nil => exact ⟨h₀.lag, h₀.sync, h₀.inOrder⟩
  | snoc hr hst ih =>
    obtain ⟨⟨⟨hid, hheed⟩, hseq, hroom⟩, hstep⟩ := hst
    have hfresh := Fresh.of_step hstep hf
    obtain ⟨hlag, hsync, ho⟩ := ih hfresh
    have hlag' := hlag.step hA hX hid hfresh (fun h _ hh => by rw [hsync.hs] at hh; cases hh)
      hsync.rekeyHs hstep
    exact ⟨hlag', hsync.step hA hX hpub hlag hid hfresh hf hheed hstep,
      ho.step hA hsync hlag hlag' hid hfresh hroom hseq hstep⟩

/-- **No session frame is refused.**  Over a carrier that keeps the order, with the rekey timeout
heeding what is in flight (`Heeds`) and fewer than `2 ^ 32` frames under each key (`Roomy`), the
frame that either end is handed next carries its tag and opens with the keys it has, whatever the
ends do in between and however often they rekey. -/
theorem every_frame_opens (hA : S.AeadLaws) (hX : S.XKLaws)
    (hpub : Paired S cc cs) {ks : S.Key × S.Key} {x₀ : Conn S}
    {ls : List (Label S)} (h₀ : Settled cc ks x₀) (run : (orderedLts S cc cs).Run x₀ ls x)
    (hf : x.Fresh) :
    (∀ f q k, x.c2s = .frame f :: q → x.server.keys = some k →
      f.tag = x.server.tag ∧ ∃ k', k.open f.wire = .ok (k', .ok f.frame)) ∧
    ∀ f q k, x.s2c = .frame f :: q → x.client.keys = some k →
      f.tag = x.client.tag ∧ ∃ k', k.open f.wire = .ok (k', .ok f.frame) := by
  obtain ⟨hlag, hsync, ho⟩ := InOrder.run hA hX hpub h₀ run hf
  refine ⟨fun f q k hq hk => ?_, fun f q k hq hk => ?_⟩
  · obtain ⟨k', hop, htag⟩ := (ho.up k hk).opens hA hsync hk hq
    exact ⟨htag, k', hop⟩
  · obtain ⟨k', hop, htag⟩ := (ho.down k hk).opens hA hq
    exact ⟨htag.trans (hsync.tag (hlag.live_of_keys hk)).symm, k', hop⟩

/-! ### A run of the plain suite -/

theorem settled_plainSettled : Settled (S := plain) Client.plainConfig (5, 133) plainSettled where
  toEstablished := established_plainSettled
  s2c_eq := ⟨_, _, rfl, rfl, rfl, by decide, by decide, rfl, rfl⟩

/-- A test for `InSequence`. -/
def Label.isInSequence : Label S → Bool
  | .toClient _ i => i == 0
  | .toServer _ i => i == 0
  | .faultC2S _ => false
  | .faultS2C _ => false
  | _ => true

/-- A test for the conditions on the steps over an ordered carrier. -/
def isOrdered (x : Conn S) (l : Label S) : Bool :=
  (x.isIdeal && x.isHeeding l) && (l.isInSequence &&
    (x.client.keys.toList ++ x.server.keys.toList).all fun k => k.sendSeq + 1 < 2 ^ 32)

theorem ordered_of_test {l : Label S} (h : x.isOrdered l = true) :
    (x.Ideal ∧ x.Heeds cs l) ∧ InSequence l ∧ x.Roomy := by
  simp only [isOrdered, Bool.and_eq_true, List.all_eq_true, decide_eq_true_eq, List.mem_append,
    Option.mem_toList] at h
  obtain ⟨⟨hid, hheed⟩, hseq, hctr⟩ := h
  refine ⟨⟨ideal_of_test hid, heeds_of_test hheed⟩, ?_, fun k hk => hctr k (.inl hk),
    fun k hk => hctr k (.inr hk)⟩
  cases l with
  | toClient => exact beq_iff_eq.1 hseq
  | toServer => exact beq_iff_eq.1 hseq
  | faultC2S => cases hseq
  | faultS2C => cases hseq
  | _ => trivial

/-- The client gets its address and starts a rekey, with a keepalive before its first message. -/
def plainAsk : List (Label plain) :=
  [.toClient (Client.plainEnv 3 0) 0, .client (Client.plainEnv 30 8) .keepalive]

/-- The server is handed both. -/
def plainAnswer : List (Label plain) :=
  [.toServer (ServerSession.plainEnv 31 0) 0, .toServer (ServerSession.plainEnv 31 10) 0]

/-- The client is handed what the server has sent. -/
def plainInstall : List (Label plain) :=
  [.toClient (Client.plainEnv 32 0) 0, .toClient (Client.plainEnv 32 6) 0]

/-- The only datagram in flight to the server is a frame under this key. -/
def carriesKey (x : Conn plain) (key : UInt8) : Bool :=
  match x.c2s with
  | [.frame f] => f.key == key
  | _ => false

theorem exists_frame_of_carriesKey {x : Conn plain} {key : UInt8} (h : x.carriesKey key = true) :
    ∃ f, x.c2s = [.frame f] ∧ f.key = key := by
  unfold carriesKey at h
  split at h
  · next f hf => exact ⟨f, hf, beq_iff_eq.1 h⟩
  · cases h

/-- The client has rekeyed to the pair 6 and sent a keepalive, and the server has just followed: the
keepalive opens. -/
theorem every_frame_opens_plain : ∃ x₀ ls x f k,
    (idealLts plain Client.plainConfig ServerSession.plainConfig).Reachable plainStart x₀ ∧
    (orderedLts plain Client.plainConfig ServerSession.plainConfig).Run x₀ ls x ∧
    x.c2s = [.frame f] ∧ f.key = (6 : UInt8) ∧ x.server.keys = some k ∧
    ∃ k', k.open f.wire = .ok (k', .ok f.frame) := by
  obtain ⟨x, run, hp⟩ := exists_plain_run isOrdered (fun _ _ => ordered_of_test) plainSettled
    (plainAsk ++ plainAnswer ++ plainInstall ++ [.client (Client.plainEnv 40 0) .keepalive,
      .toServer (ServerSession.plainEnv 41 0) 0])
    (fun x => plainKeys x == [(5, 133), (6, 134)] &&
      (x.carriesKey 6 && x.server.keys.isSome)) (by decide +kernel)
  simp only [Bool.and_eq_true, beq_iff_eq, Option.isSome_iff_exists] at hp
  obtain ⟨hkeys, hc, k, hk⟩ := hp
  obtain ⟨f, hq, hkey⟩ := exists_frame_of_carriesKey hc
  have hf := fresh_of_plainKeys hkeys (by decide) (by decide)
  have hopens := every_frame_opens Plain.aeadLaws Plain.xkLaws plain_paired settled_plainSettled
    run hf
  exact ⟨plainSettled, _, x, f, k, plainSettled_reachable, run, hq, hkey, hk,
    (hopens.1 f [] k hq hk).2⟩

end Conn

end VibeVpn

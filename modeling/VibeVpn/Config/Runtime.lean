import VibeVpn.Config.Fit
import VibeVpn.Session.Pool
import VibeVpn.Session.Registry

/-!
# What an accepted configuration is started with

`cmd/vpn` hands a configuration that has passed `ApplyDefaults` and `Validate` to code with
preconditions of its own: `time.NewTicker` panics unless the keepalive interval is positive, and
`ipPool` counts the addresses of an IPv4 network.  `Validate` compares the keepalive interval with
the session timeout only, and of the subnet it asks that `net.ParseCIDR` reads it; `NewManager`
turns away the masks of less than two bits.

* `Config.runtime_ready_iff` : **an accepted configuration meets the preconditions exactly when the
  keepalive interval is positive in nanoseconds of 64 bits and the subnet is an IPv4 network with a
  mask of at most 30 bits**.
* `Config.runtime_not_ready` : accepted configurations with a negative ticker interval, with a
  subnet on which the first `adopt` panics, and with one on which it finds no address.
-/

namespace VibeVpn

/-! ### The subnet -/

namespace Subnet

variable {n : Subnet}

/-- A subnet has an address for a client as soon as its mask leaves two bits. -/
theorem exists_host_iff : (∃ k, n.Host k) ↔ n.ones ≤ 30 := by
  constructor
  · rintro ⟨k, hk⟩
    by_contra hones
    obtain ⟨i, hi, rfl⟩ := hk.mem.exists_addr
    -- The mask has 31 or 32 bits: there are only the network's and the broadcast address.
    have hsize : n.size ≤ 2 :=
      Nat.pow_le_pow_right (Nat.le_succ 1) (show 32 - n.ones ≤ 1 by omega)
    have hfirst : i ≠ 0 := by
      rintro rfl
      exact hk.ne_network addr_zero
    have hlast : i ≠ n.size - 1 := by
      rintro rfl
      exact hk.ne_broadcast rfl
    omega
  · intro hones
    have hsize := four_le_size hones
    exact ⟨n.addr 2, (host_addr_iff hones (by omega)).2 (by omega)⟩

theorem mem_gateway (h : n.ones ≤ 30) : n.Mem n.toIPNet.gateway := by
  have hsize := four_le_size h
  rw [gateway_eq h]
  exact mem_addr (by omega)

/-- The empty pool of a subnet with host addresses hands one out. -/
theorem alloc_new (h : n.ones ≤ 30) :
    ∃ p k, (IpPool.new n.toIPNet).alloc none = .ok (some (p, k)) := by
  obtain ⟨k, hk⟩ := exists_host_iff.2 h
  have heq := (IpPool.new n.toIPNet).allocate_eq none
  rcases (IpPool.Of.new n).allocate_nil h with ⟨k', ha, -⟩ | ⟨-, hall⟩
  · rw [ha] at heq
    cases hr : (IpPool.new n.toIPNet).alloc none with
    | error p =>
      rw [hr] at heq
      cases heq
    | ok r =>
      cases r with
      | none =>
        rw [hr] at heq
        cases heq
      | some r => exact ⟨r.1, r.2, rfl⟩
  · have hused := hall k ((mem_hosts_iff h).2 hk)
    cases hused

end Subnet

/-- The networks that the pool can serve. -/
def IPNet.Usable (n : IPNet) : Prop := n.ip4.isSome ∧ n.ones ≤ 30

/-! ### Before the first adopt -/

namespace Registry

variable {m : Manager} {x x' : Registry} {l : Label}

/-- No session has been adopted: the pool is the one that `NewManager` made, and no session has an
address.  No code of the server sets `requestedIP`. -/
structure Unadopted (m : Manager) (x : Registry) : Prop where
  pool : x.mgr.pool = m.pool
  byStatic : ∀ key, x.mgr.byStatic.lookup key = none
  entry : ∀ e ∈ x.mgr.heap, e.ip = none ∧ e.requestedIP = none

theorem Unadopted.set (h : Unadopted m x) {s : Ref} {e e' : Entry} (he : x.mgr.heap[s]? = some e)
    (hip : e'.ip = e.ip) (hreq : e'.requestedIP = e.requestedIP) :
    ∀ e'' ∈ x.mgr.heap.set s e', e''.ip = none ∧ e''.requestedIP = none := by
  intro e'' hmem
  obtain hold | rfl := List.mem_or_eq_of_mem_set hmem
  · exact h.entry e'' hold
  · rw [hip, hreq]
    exact h.entry e (List.mem_of_getElem? he)

/-- Every critical section but `adopt` leaves it so. -/
theorem Step.unadopted (hst : Step x l x') (hl : ∀ s, l ≠ .adopt s) (h : Unadopted m x) :
    Unadopted m x' := by
  cases hst with
  | reject => exact ⟨h.pool, h.byStatic, h.entry⟩
  | alloc _ ha =>
    obtain ⟨r, -, hr⟩ := Option.map_eq_some_iff.1 ha
    cases hr
    exact ⟨h.pool, h.byStatic, h.entry⟩
  | insert =>
    refine ⟨h.pool, h.byStatic, fun e he => ?_⟩
    obtain hold | hnew := List.mem_append.1 he
    · exact h.entry e hold
    · obtain rfl := List.mem_singleton.1 hnew
      exact ⟨rfl, rfl⟩
  | identify he => exact ⟨h.pool, h.byStatic, h.set he rfl rfl⟩
  | adopt => exact absurd rfl (hl _)
  | @remove s e he =>
    have hip := (h.entry e (List.mem_of_getElem? he)).1
    refine ⟨?_, fun key => ?_, h.set he rfl rfl⟩
    · simp only [Manager.remove, hip]
      exact h.pool
    · simp only [Manager.remove, GoMap.eraseIf]
      split
      · exact h.byStatic key
      · rw [if_neg (by simp [h.byStatic])]
        exact h.byStatic key

theorem Unadopted.of_run {subnet : Option IPNet} {maxSessions : ℤ} {ls : List Label}
    (h₀ : Manager.new subnet maxSessions = .ok m) (hrun : lts.Run (.start m) ls x)
    (hls : ∀ s, .adopt s ∉ ls) : Unadopted m x := by
  induction hrun with
  | nil =>
    obtain ⟨n, -, -, rfl⟩ := Manager.new_eq_ok h₀
    exact ⟨rfl, fun _ => rfl, fun e he => by cases he⟩
  | snoc _ hst ih =>
    simp only [List.mem_append, List.mem_singleton, not_or] at hls
    exact (step_cases hst).unadopted (fun s hs => (hls s).2 hs.symm) (ih fun s => (hls s).1)

/-- The first `adopt` asks the empty pool for any address. -/
theorem Unadopted.adopt (h : Unadopted m x) {s : Ref} {e : Entry} (he : x.mgr.heap[s]? = some e)
    {p : IpPool} {k : Byte4} (ha : m.pool.alloc none = .ok (some (p, k))) :
    x.mgr.adopt s e = .ok ({ x.mgr with pool := p }.enter s e k, some k) := by
  have hpred : x.mgr.predecessor s e = none := by
    rw [Manager.predecessor, h.byStatic]
    rfl
  rw [Manager.adopt, hpred, h.pool, (h.entry e (List.mem_of_getElem? he)).2]
  dsimp only
  rw [ha, Go.ok_bind]
  rfl

end Registry

/-- The manager can serve clients: its network is IPv4, with the gateway's address in it and an
address for a client, and whenever the first client has been identified, `adopt` finds an address
for it and does not panic. -/
structure Manager.Ready (m : Manager) : Prop where
  ipv4 : ∃ n : Subnet, m.pool.network = n.toIPNet ∧ n.Mem m.gw ∧ ∃ k, n.Host k
  adopts : ∀ {ls x s e}, Registry.lts.Run (.start m) ls x → (∀ s, .adopt s ∉ ls) →
    x.mgr.heap[s]? = some e → ∃ m' k, x.mgr.adopt s e = .ok (m', some k)

namespace Config

/-- The networks that `net.ParseCIDR` returns for the texts it accepts. -/
structure Networks (h : ServerHost) where
  /-- The network of a text. -/
  network : String → IPNet
  /-- An IPv4 network has no address bit below its mask. -/
  masked : ∀ {text a}, h.parseCIDR text = .ok () → (network text).ip4 = some a →
    (network text).ones ≤ 32 → a.toUint32 % 2 ^ (32 - (network text).ones) = 0

/-- The manager that `cmd/vpn/server.go` starts. -/
def Server.manager {h : ServerHost} (net : Networks h) (s : Server) : Except String Manager :=
  Manager.new (some (net.network s.subnet)) s.maxSessions

theorem Server.parseCIDR_of_validate {h : ServerHost} {s : Server} (hv : s.validate h = .ok ()) :
    h.parseCIDR s.subnet = .ok () := by
  obtain ⟨-, hv⟩ := bind_ok_left hv
  have hsub := (bind_ok_left hv).1
  unfold validateSubnet at hsub
  split at hsub
  · cases hsub
  · assumption

/-- **Which subnets the manager can serve.** -/
theorem ready_iff {h : ServerHost} (net : Networks h) {s : Server} {m : Manager}
    (hv : s.validate h = .ok ()) (hm : s.manager net = .ok m) :
    m.Ready ↔ (net.network s.subnet).Usable := by
  obtain ⟨n, hn, -, rfl⟩ := Manager.new_eq_ok hm
  obtain rfl := Option.some.inj hn
  constructor
  · rintro ⟨⟨n, hnet, -, hhost⟩, -⟩
    change net.network s.subnet = n.toIPNet at hnet
    rw [hnet]
    exact ⟨rfl, Subnet.exists_host_iff.1 hhost⟩
  · rintro ⟨hip, hones⟩
    obtain ⟨a, ha⟩ := Option.isSome_iff_exists.1 hip
    let n : Subnet := ⟨a, (net.network s.subnet).ones, by omega,
      net.masked (Server.parseCIDR_of_validate hv) ha (by omega)⟩
    have hnet : net.network s.subnet = n.toIPNet := by
      rw [Subnet.toIPNet, ← ha]
    obtain ⟨p, k, halloc⟩ := n.alloc_new hones
    refine ⟨⟨n, hnet, ?_, Subnet.exists_host_iff.2 hones⟩, fun hrun hls he => ?_⟩
    · change n.Mem (net.network s.subnet).gateway
      rw [hnet]
      exact n.mem_gateway hones
    · have hpool : (Manager.init (net.network s.subnet) s.maxSessions).pool.alloc none =
          .ok (some (p, k)) := by
        rw [hnet]
        exact halloc
      exact ⟨_, k, (Registry.Unadopted.of_run hm hrun hls).adopt he hpool⟩

/-! ### The keepalive interval -/

/-- `Keepalive` of the `session.ClientConfig` that `cmd/vpn/client.go` builds, which `Run` gives to
`time.NewTicker`. -/
def Client.tickerInterval (c : Client) : ℤ := seconds c.keepalive

/-- A keepalive interval, in seconds, that is left to the default or positive when its nanoseconds
are read as a signed number of 64 bits. -/
def Punctual (keepalive : ℤ) : Prop :=
  keepalive = 0 ∨
    0 < keepalive * 10 ^ 9 % 2 ^ 64 ∧ keepalive * 10 ^ 9 % 2 ^ 64 < 2 ^ 63

/-- Up to the 292 years that a `time.Duration` can hold, these are the intervals that are not
negative. -/
theorem punctual_iff_nonneg {keepalive : ℤ} (hlow : -9223372036 ≤ keepalive)
    (hhigh : keepalive ≤ 9223372036) : Punctual keepalive ↔ 0 ≤ keepalive := by
  have hlow' : -2 ^ 63 ≤ keepalive * 10 ^ 9 := by omega
  have hhigh' : keepalive * 10 ^ 9 < 2 ^ 63 := by omega
  have hsign : 0 < keepalive * 10 ^ 9 ↔ 0 < keepalive := by omega
  unfold Punctual
  generalize keepalive * 10 ^ 9 = nanos at hlow' hhigh' hsign ⊢
  omega

theorem bmod_pos_iff (x : ℤ) : 0 < Int.bmod x (2 ^ 64) ↔ 0 < x % 2 ^ 64 ∧ x % 2 ^ 64 < 2 ^ 63 := by
  have hcast : ((2 ^ 64 : ℕ) : ℤ) = 2 ^ 64 := rfl
  rw [Int.bmod_def, hcast]
  split_ifs <;> omega

theorem tickerInterval_pos_iff (c : Client) :
    0 < c.applyDefaults.tickerInterval ↔ Punctual c.keepalive := by
  simp only [Client.tickerInterval, Client.applyDefaults, orDefault, seconds, Punctual,
    bmod_pos_iff]
  split_ifs with h0
  · exact iff_of_true (by decide) (.inl h0)
  · simp only [h0, false_or]

/-- **Which accepted configurations meet the preconditions of the code they start.**  A client's
ticker interval is positive exactly when its keepalive interval is left to the default or positive
in 64 bits, which up to 9223372036 seconds means that it is not negative.  A server whose manager
is made can serve clients exactly when the subnet is an IPv4 network with a mask of at most 30
bits. -/
theorem runtime_ready_iff {h : ServerHost} (net : Networks h) :
    (∀ c : Client, c.applyDefaults.validate h.toHost = .ok () →
      (0 < c.applyDefaults.tickerInterval ↔ Punctual c.keepalive) ∧
      (-9223372036 ≤ c.keepalive → c.keepalive ≤ 9223372036 →
        (0 < c.applyDefaults.tickerInterval ↔ 0 ≤ c.keepalive))) ∧
    ∀ (s : Server) (m : Manager), s.applyDefaults.validate h = .ok () →
      s.applyDefaults.manager net = .ok m →
      (m.Ready ↔ (net.network s.applyDefaults.subnet).Usable) := by
  refine ⟨fun c _ => ⟨tickerInterval_pos_iff c, fun hlow hhigh => ?_⟩, fun s m => ready_iff net⟩
  rw [tickerInterval_pos_iff c]
  exact punctual_iff_nonneg hlow hhigh

/-- What `net.ParseCIDR` makes of the three texts it accepts. -/
def plainNetworks : Networks plainHost where
  network text :=
    if text = "fd00::/64" then ⟨none, 64⟩
    else if text = "10.77.0.0/31" then ⟨some ⟨10, 77, 0, 0⟩, 31⟩
    else ⟨some ⟨10, 77, 0, 0⟩, 24⟩
  masked := by
    intro text a _ ha _
    split_ifs at ha ⊢
    · cases ha
      decide
    · cases ha
      decide

/-- The defaults of both roles meet the preconditions. -/
theorem runtime_ready_iff_defaults :
    0 < ({ server := "s:1", privateKey := "k", serverPublicKey := "p" } :
      Client).applyDefaults.tickerInterval ∧
    ∃ m, ({ privateKey := "k" } : Server).applyDefaults.manager plainNetworks = .ok m ∧
      m.Ready := by
  have hall := runtime_ready_iff plainNetworks
  have hc := (hall.1 { server := "s:1", privateKey := "k", serverPublicKey := "p" } (by decide)).1
  have hs := hall.2 { privateKey := "k" } _ (by decide) rfl
  exact ⟨hc.2 (.inl rfl), _, rfl, hs.2 ⟨rfl, by decide⟩⟩

/-- What `adopt` answers the first client of a server whose subnet is the text. -/
def FirstAdopt (subnet : String) (answer : Go (Option Byte4)) : Prop :=
  ∃ (s : Server) (m : Manager) (x : Registry), s.subnet = subnet ∧
    s.applyDefaults.validate plainHost = .ok () ∧ s.applyDefaults.manager plainNetworks = .ok m ∧
    Registry.lts.Run (.start m) [.check, .insert 0, .identify 0 [7]] x ∧
    (x.mgr.heap[0]?.map fun e => (x.mgr.adopt 0 e).map Prod.snd) = some answer

/-- **Accepted configurations that the code cannot run with**: the keepalive interval of minus one
second, on which `time.NewTicker` panics; an IPv6 subnet, on which the first `adopt` panics; and a
subnet of two addresses, on which it finds none. -/
theorem runtime_not_ready :
    (∃ c : Client, c.applyDefaults.validate plainHost.toHost = .ok () ∧
      c.applyDefaults.tickerInterval = -10 ^ 9) ∧
    FirstAdopt "fd00::/64" (.error .negativeShift) ∧ FirstAdopt "10.77.0.0/31" (.ok none) := by
  refine ⟨⟨{ server := "s:1", privateKey := "k", serverPublicKey := "p", keepalive := -1 },
    by decide, by decide⟩, ?_, ?_⟩
  · obtain ⟨x, hrun, hp⟩ := LTS.exists_run_of_any (f := Registry.step)
      (.start (.init ⟨none, 64⟩ 1024)) [.check, .insert 0, .identify 0 [7]]
      (fun x => (x.mgr.heap[0]?.map fun e => (x.mgr.adopt 0 e).map Prod.snd) ==
        some (.error .negativeShift)) (by decide)
    exact ⟨{ privateKey := "k", subnet := "fd00::/64" }, _, x, rfl, by decide, rfl, hrun,
      eq_of_beq hp⟩
  · obtain ⟨x, hrun, hp⟩ := LTS.exists_run_of_any (f := Registry.step)
      (.start (.init ⟨some ⟨10, 77, 0, 0⟩, 31⟩ 1024)) [.check, .insert 0, .identify 0 [7]]
      (fun x => (x.mgr.heap[0]?.map fun e => (x.mgr.adopt 0 e).map Prod.snd) ==
        some (.ok none)) (by decide)
    exact ⟨{ privateKey := "k", subnet := "10.77.0.0/31" }, _, x, rfl, by decide, rfl, hrun,
      eq_of_beq hp⟩

end Config

end VibeVpn

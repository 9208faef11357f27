import VibeVpn.Go.Basic
import VibeVpn.Go.Map

/-!
# The session manager

`Manager` of `internal/session/server.go`: the tables that find a session by its id, by its tunnel
address and by its client's static key, the allocation of ids and the pool of addresses.  Sessions
are pointers in the source; here a session is a `Ref` into the list `Manager.heap` of all sessions
that were ever registered, and an `Entry` holds the fields of `serverSession` the manager reads or
writes.  Each critical section of `Manager.mu` is one function:

* `Manager.handleTransportAlloc`, `Manager.handleTransportInsert` : the two critical sections of
  `HandleTransport`, the capacity check with the id allocation and the insertion;
* `Manager.adopt`, `Manager.remove`, `Manager.lookupIP`, `Manager.replyTo`.

`byStatic` is keyed by the client's key itself; the source encodes it in base64, which is
injective.  The mutex of `ipPool` is only ever taken under `Manager.mu`.
-/

namespace VibeVpn

/-! ### The address pool -/

namespace Byte4

/-- The address as a `uint32`. -/
def toUint32 (a : Byte4) : ℕ := beVal a.toBytes

/-- The address of a `uint32`, which wraps around. -/
def ofUint32 (n : ℕ) : Byte4 := copyOf (be32 n)

end Byte4

/-- `net.IP.To4`: four bytes, or an IPv4 address mapped into sixteen. -/
def to4 (ip : Bytes) : Option Byte4 :=
  if ip.length = 4 then some (Byte4.copyOf ip)
  else if ip.length = 16 ∧ ip.take 12 = List.replicate 10 0 ++ [0xff, 0xff] then
    some (Byte4.copyOf (ip.drop 12))
  else none

/-- `net.IPNet`, as `net.ParseCIDR` returns it. -/
structure IPNet where
  /-- `IP.To4()`, `none` for an IPv6 network. -/
  ip4 : Option Byte4
  /-- The leading ones of the mask. -/
  ones : ℕ
  deriving DecidableEq, Repr

namespace IPNet

/-- `copy(out, n.IP.To4())` into four zero bytes. -/
def base (n : IPNet) : Byte4 := n.ip4.getD ⟨0, 0, 0, 0⟩

/-- `Contains`, of an IPv4 address; the mask of a mapped network is read from its last bytes. -/
def contains (n : IPNet) (ip : Byte4) : Bool :=
  match n.ip4 with
  | none => false
  | some a =>
    let ones := if 32 < n.ones then n.ones - 96 else n.ones
    a.toUint32 / 2 ^ (32 - ones) == ip.toUint32 / 2 ^ (32 - ones)

/-- `gateway(n)`. -/
def gateway (n : IPNet) : Byte4 := { n.base with b3 := n.base.b3 + 1 }

end IPNet

/-- `ipPool`. -/
structure IpPool where
  /-- `network`. -/
  network : IPNet
  /-- `gateway`. -/
  gateway : Byte4
  /-- `used`. -/
  used : GoMap Byte4 Bool

namespace IpPool

/-- `newIPPool(n)`. -/
def new (n : IPNet) : IpPool where
  network := n
  gateway := n.gateway
  used := ∅

/-- `used[k]`. -/
def isUsed (p : IpPool) (k : Byte4) : Bool := (p.used.lookup k).getD false

/-- `used[k] = true`. -/
def take (p : IpPool) (k : Byte4) : IpPool := { p with used := p.used.insert k true }

/-- `inRange(ip)`, with the four-byte form of the address. -/
def inRange (p : IpPool) (ip : Bytes) : Option Byte4 :=
  match to4 ip with
  | none => none
  | some k => if k = p.gateway then none else if p.network.contains k then some k else none

/-- The number of candidates; the shift panics on a mask of more than 32 bits. -/
def hosts (p : IpPool) : Go ℕ :=
  if 32 < p.network.ones then .error .negativeShift else .ok (2 ^ (32 - p.network.ones) - 2)

/-- The `i`-th candidate above the network's address. -/
def candidate (p : IpPool) (i : ℕ) : Byte4 := Byte4.ofUint32 (p.network.base.toUint32 + i)

/-- The candidate is neither the gateway nor in use. -/
def isFree (p : IpPool) (k : Byte4) : Bool := k != p.gateway && !p.isUsed k

/-- `alloc(preferred)`; `none` stands for "session: subnet exhausted". -/
def alloc (p : IpPool) (preferred : Option Bytes) : Go (Option (IpPool × Byte4)) :=
  let wish := (preferred.bind p.inRange).filter fun k => !p.isUsed k
  match wish with
  | some k => pure (some (p.take k, k))
  | none => do
    let hosts ← p.hosts
    match (List.range' 1 hosts).find? fun i => p.isFree (p.candidate i) with
    | some i => pure (some (p.take (p.candidate i), p.candidate i))
    | none => pure none

/-- `release(ip)`. -/
def release (p : IpPool) (ip : Byte4) : IpPool := { p with used := p.used.erase ip }

theorem isUsed_take (p : IpPool) (k k' : Byte4) :
    (p.take k).isUsed k' = (decide (k' = k) || p.isUsed k') := by
  simp only [isUsed, take, GoMap.lookup_insert_eq]
  split_ifs with h <;> simp [h]

theorem isUsed_release (p : IpPool) (k k' : Byte4) :
    (p.release k).isUsed k' = (!decide (k' = k) && p.isUsed k') := by
  simp only [isUsed, release, GoMap.lookup_erase_eq]
  split_ifs with h <;> simp [h]

/-- An allocated address was free, and is then the only one whose state has changed. -/
theorem alloc_spec {p p' : IpPool} {preferred : Option Bytes} {k : Byte4}
    (h : p.alloc preferred = .ok (some (p', k))) : p.isUsed k = false ∧ p' = p.take k := by
  unfold alloc at h
  dsimp only at h
  split at h
  · next k' hw =>
    cases h
    exact ⟨by simpa using (Option.filter_eq_some_iff.1 hw).2, rfl⟩
  · obtain ⟨n, -, h⟩ := Go.bind_eq_ok.1 h
    split at h
    · next i hi =>
      cases h
      have hfree := List.find?_some hi
      simp only [isFree, Bool.and_eq_true, Bool.not_eq_true'] at hfree
      exact ⟨hfree.2, rfl⟩
    · cases h

end IpPool

/-! ### The tables -/

/-- A pointer to a session: its position among all sessions ever registered. -/
abbrev Ref := ℕ

/-- The fields of `serverSession` that the manager reads or writes. -/
structure Entry where
  /-- `sid`. -/
  sid : ℕ
  /-- `clientKey`. -/
  clientKey : Option Bytes
  /-- `requestedIP`. -/
  requestedIP : Option Bytes
  /-- `ip`. -/
  ip : Option Byte4
  /-- `transferred`. -/
  transferred : Bool
  /-- `cancel` was called. -/
  cancelled : Bool
  /-- History: `remove` has run for this session. -/
  removed : Bool
  deriving DecidableEq, Repr

/-- A session as `HandleTransport` creates it. -/
def Entry.new (sid : ℕ) : Entry where
  sid := sid
  clientKey := none
  requestedIP := none
  ip := none
  transferred := false
  cancelled := false
  removed := false

/-- `ServerStats`, the counters that the manager itself keeps. -/
structure ManagerStats where
  /-- `Sessions`. -/
  sessions : ℤ := 0
  /-- `SessionsTotal`. -/
  sessionsTotal : ℕ := 0
  /-- `Handshakes`. -/
  handshakes : ℕ := 0
  /-- `Dropped`. -/
  dropped : ℕ := 0
  deriving DecidableEq, Repr

/-- `Manager`. -/
structure Manager where
  /-- `cfg.MaxSessions`. -/
  maxSessions : ℤ
  /-- `gw`. -/
  gw : Byte4
  /-- `prefix`. -/
  prefixLen : ℕ
  /-- `byID`. -/
  byID : GoMap ℕ Ref
  /-- `byIP`. -/
  byIP : GoMap Byte4 Ref
  /-- `byStatic`. -/
  byStatic : GoMap Bytes Ref
  /-- `nextID`. -/
  nextID : ℕ
  /-- `pool`. -/
  pool : IpPool
  /-- `stats`. -/
  stats : ManagerStats
  /-- The sessions. -/
  heap : List Entry

/-- `DefaultMaxSessions`. -/
def defaultMaxSessions : ℤ := 1024

/-- `SessionView`. -/
structure SessionView where
  /-- `sid`. -/
  sid : ℕ
  /-- `ip`. -/
  ip : Option Byte4
  deriving DecidableEq, Repr

namespace Manager

/-- The manager `NewManager` returns for a subnet. -/
def init (n : IPNet) (maxSessions : ℤ) : Manager where
  maxSessions := if maxSessions ≤ 0 then defaultMaxSessions else maxSessions
  gw := n.gateway
  prefixLen := n.ones
  byID := ∅
  byIP := ∅
  byStatic := ∅
  nextID := 0
  pool := .new n
  stats := {}
  heap := []

/-- `NewManager(cfg)`, with the text of its error. -/
def new (subnet : Option IPNet) (maxSessions : ℤ) : Except String Manager :=
  match subnet with
  | none => .error "session: server requires a subnet"
  | some n => if n.ones < 2 then .error "session: subnet too small" else .ok (init n maxSessions)

theorem new_eq_ok {subnet : Option IPNet} {maxSessions : ℤ} {m : Manager}
    (h : new subnet maxSessions = .ok m) :
    ∃ n, subnet = some n ∧ 2 ≤ n.ones ∧ m = init n maxSessions := by
  unfold new at h
  split at h
  · cases h
  · next n =>
    split_ifs at h with hn
    cases h
    exact ⟨n, rfl, not_lt.1 hn, rfl⟩

/-- Count a dropped packet or connection. -/
def drop (m : Manager) : Manager :=
  { m with stats := { m.stats with dropped := m.stats.dropped + 1 } }

/-- `m.nextID++`, which skips zero. -/
def bumpID (n : ℕ) : ℕ := if (n + 1) % 2 ^ 32 = 0 then 1 else (n + 1) % 2 ^ 32

/-- The number of session ids. -/
def idCount : ℕ := 2 ^ 32 - 1

/-- The loop of `allocIDLocked`: the number of ids tried and the free id found.  `none` stands for
the loop that finds all ids taken and never ends. -/
def allocLoop (byID : GoMap ℕ Ref) : ℕ → ℕ → Option (ℕ × ℕ)
  | 0, _ => none
  | fuel + 1, n =>
    if bumpID n ∈ byID then (allocLoop byID fuel (bumpID n)).map fun r => (r.1 + 1, r.2)
    else some (1, bumpID n)

/-- `allocIDLocked`. -/
def allocIDLocked (m : Manager) : Option (ℕ × ℕ) := allocLoop m.byID idCount m.nextID

/-- The first critical section of `HandleTransport` turns the peer away. -/
def isFull (m : Manager) : Bool := decide (m.maxSessions ≤ GoMap.len m.byID)

/-- The first critical section of `HandleTransport` on a peer it does not turn away: the manager,
the number of ids tried and the id. -/
def handleTransportAlloc (m : Manager) : Option (Manager × ℕ × ℕ) :=
  m.allocIDLocked.map fun r => ({ m with nextID := r.2 }, r)

/-- The second critical section of `HandleTransport`. -/
def handleTransportInsert (m : Manager) (id : ℕ) : Manager :=
  { m with
    byID := m.byID.insert id m.heap.length
    stats := { m.stats with
      sessions := m.stats.sessions + 1
      sessionsTotal := m.stats.sessionsTotal + 1 }
    heap := m.heap ++ [Entry.new id] }

/-- `handshake3` stores the client's key in its session. -/
def identify (m : Manager) (s : Ref) (e : Entry) (key : Bytes) : Manager :=
  { m with heap := m.heap.set s { e with clientKey := some key } }

/-- The end of `adopt`, on a session that has got its address. -/
def enter (m : Manager) (s : Ref) (e : Entry) (ip : Byte4) : Manager :=
  { m with
    byStatic := m.byStatic.insert (e.clientKey.getD []) s
    byIP := m.byIP.insert ip s
    stats := { m.stats with handshakes := m.stats.handshakes + 1 }
    heap := m.heap.set s { e with ip := some ip } }

/-- `adopt` takes an address over from the session `old`. -/
def bump (m : Manager) (old : Ref) (o : Entry) : Manager :=
  { m with
    byID := m.byID.erase o.sid
    heap := m.heap.set old { o with transferred := true, cancelled := true } }

/-- The session that a reconnecting client takes over from. -/
def predecessor (m : Manager) (s : Ref) (e : Entry) : Option Ref :=
  (m.byStatic.lookup (e.clientKey.getD [])).filter fun old => old != s

/-- `adopt(s)`, for the session `s` with the fields `e`: the manager and the address, `none` when
`ipPool.alloc` fails. -/
def adopt (m : Manager) (s : Ref) (e : Entry) : Go (Manager × Option Byte4) :=
  match m.predecessor s e with
  | some old =>
    match m.heap[old]? with
    | none => throw .nilDeref
    | some o =>
      match o.ip with
      | none => throw .arrayLength
      | some ip => pure ((m.bump old o).enter s e ip, some ip)
  | none => do
    match ← m.pool.alloc e.requestedIP with
    | none => pure (m, none)
    | some (pool, ip) => pure ({ m with pool }.enter s e ip, some ip)

/-- `remove(s)`, for the session `s` with the fields `e`. -/
def remove (m : Manager) (s : Ref) (e : Entry) : Manager :=
  { m with
    byID := GoMap.eraseIf m.byID (some e.sid) s
    byIP := GoMap.eraseIf m.byIP e.ip s
    byStatic := GoMap.eraseIf m.byStatic e.clientKey s
    pool := match e.ip with
      | none => m.pool
      | some ip => if e.transferred then m.pool else m.pool.release ip
    stats := { m.stats with sessions := m.stats.sessions - 1 }
    heap := m.heap.set s { e with removed := true } }

/-- `LookupIP(ip)`. -/
def lookupIP (m : Manager) (ip : Byte4) : Option SessionView := do
  let s ← m.byIP.lookup ip
  let e ← m.heap[s]?
  pure { sid := e.sid, ip := e.ip }

/-- The session `Reply` finds for a view. -/
def replyTo (m : Manager) (v : SessionView) : Option Ref := m.byID.lookup v.sid

end Manager

end VibeVpn

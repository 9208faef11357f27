import VibeVpn.Session.Manager
import Mathlib.Data.List.Perm.Subperm

/-!
# The address pool

`ipPool` hands out the addresses of the subnet.  `IpPool.allocate` is `alloc` with its loop written
out, as one transition of the pool; `IpPool.allocate_eq` connects it to the function the manager
calls.  The meaning of a call is given over `Subnet`, an IPv4 network in which no address bit is set
below the mask, with the addresses as numbers:

* `Allocated` : the three ways a call ends: the preferred address, the smallest free host address,
  or failure with every host address in use;
* `alloc_safe_iff` : **an address handed out is a host address of the subnet, free and not the
  gateway's, exactly when the preferred address is not the network or the broadcast address**, or
  that one is in use;
* `alloc_network` : a client that prefers the network address gets it;
* `alloc_complete` : **without a preference, all `2 ^ (32 - p) - 3` host addresses are handed out**,
  the smallest free one first.
-/

namespace VibeVpn

/-! ### Addresses as numbers -/

namespace Byte4

theorem toUint32_lt (k : Byte4) : k.toUint32 < 2 ^ 32 := beVal_lt k.toBytes

theorem toUint32_inj {k k' : Byte4} (h : k.toUint32 = k'.toUint32) : k = k' := by
  have hb : k.toBytes = k'.toBytes := by
    rw [← be32_beVal (length_toBytes k), ← be32_beVal (length_toBytes k')]
    exact congrArg be32 h
  rw [← copyOf_toBytes k, hb, copyOf_toBytes]

theorem toUint32_ofUint32 {n : ℕ} (h : n < 2 ^ 32) : (ofUint32 n).toUint32 = n := by
  rw [toUint32, ofUint32, toBytes_copyOf (length_be32 n), beVal_be32, Nat.mod_eq_of_lt h]

theorem toUint32_eq (k : Byte4) : k.toUint32 =
    2 ^ 24 * k.b0.toNat + 2 ^ 16 * k.b1.toNat + 2 ^ 8 * k.b2.toNat + k.b3.toNat := by
  simp only [toUint32, toBytes, beVal, List.foldl_cons, List.foldl_nil]
  omega

end Byte4

/-- An IPv4 network as `net.ParseCIDR` returns it: its address has no bits below the mask. -/
structure Subnet where
  /-- `IP.To4()`. -/
  base : Byte4
  /-- The leading ones of the mask. -/
  ones : ℕ
  ones_le : ones ≤ 32
  masked : base.toUint32 % 2 ^ (32 - ones) = 0

namespace Subnet

variable (n : Subnet)

/-- The network as the pool has it. -/
def toIPNet : IPNet := ⟨some n.base, n.ones⟩

/-- The number of its addresses. -/
def size : ℕ := 2 ^ (32 - n.ones)

/-- The address at an offset. -/
def addr (i : ℕ) : Byte4 := .ofUint32 (n.base.toUint32 + i)

/-- The address lies in the subnet. -/
def Mem (k : Byte4) : Prop := n.base.toUint32 ≤ k.toUint32 ∧ k.toUint32 < n.base.toUint32 + n.size

/-- The broadcast address, the last one. -/
def broadcast : Byte4 := n.addr (n.size - 1)

/-- An address for a client: in the subnet, but not the network's, the broadcast or the gateway's
address. -/
structure Host (k : Byte4) : Prop where
  mem : n.Mem k
  ne_network : k ≠ n.base
  ne_broadcast : k ≠ n.broadcast
  ne_gateway : k ≠ n.toIPNet.gateway

/-- The host addresses in their order. -/
def hosts : List Byte4 := (List.range' 2 (n.size - 3)).map n.addr

variable {n} {k : Byte4} {i j : ℕ}

theorem size_pos : 0 < n.size := Nat.two_pow_pos _

/-- The addresses of the subnet fit a `uint32`: nothing wraps around. -/
theorem end_le : n.base.toUint32 + n.size ≤ 2 ^ 32 := by
  have hsplit : 2 ^ 32 = n.size * 2 ^ n.ones := by
    rw [size, ← Nat.pow_add, Nat.sub_add_cancel n.ones_le]
  obtain ⟨q, hq⟩ := Nat.dvd_of_mod_eq_zero n.masked
  change n.base.toUint32 = n.size * q at hq
  have hlt := n.base.toUint32_lt
  rw [hq, hsplit] at hlt
  have hq' : q + 1 ≤ 2 ^ n.ones := Nat.lt_of_mul_lt_mul_left hlt
  calc n.base.toUint32 + n.size = n.size * (q + 1) := by rw [hq, Nat.mul_succ]
    _ ≤ n.size * 2 ^ n.ones := Nat.mul_le_mul_left _ hq'
    _ = 2 ^ 32 := hsplit.symm

theorem toUint32_addr (h : i < n.size) : (n.addr i).toUint32 = n.base.toUint32 + i :=
  Byte4.toUint32_ofUint32 (by have := n.end_le; omega)

theorem mem_addr (h : i < n.size) : n.Mem (n.addr i) := by
  unfold Mem
  rw [toUint32_addr h]
  omega

theorem addr_inj (hi : i < n.size) (hj : j < n.size) (h : n.addr i = n.addr j) : i = j := by
  have := congrArg Byte4.toUint32 h
  rw [toUint32_addr hi, toUint32_addr hj] at this
  omega

theorem addr_zero : n.addr 0 = n.base :=
  Byte4.toUint32_inj (by rw [toUint32_addr n.size_pos, Nat.add_zero])

theorem Mem.exists_addr (h : n.Mem k) : ∃ i < n.size, k = n.addr i := by
  obtain ⟨hle, hlt⟩ := h
  refine ⟨k.toUint32 - n.base.toUint32, by omega, Byte4.toUint32_inj ?_⟩
  rw [toUint32_addr (by omega)]
  omega

theorem contains_iff : n.toIPNet.contains k = true ↔ n.Mem k := by
  have hpos := n.size_pos
  have hdiv : n.base.toUint32 / n.size * n.size = n.base.toUint32 :=
    Nat.div_mul_cancel (Nat.dvd_of_mod_eq_zero n.masked)
  have hones : ¬ 32 < n.ones := Nat.not_lt.2 n.ones_le
  simp only [IPNet.contains, toIPNet, hones, ↓reduceIte, beq_iff_eq]
  change n.base.toUint32 / n.size = k.toUint32 / n.size ↔ _
  rw [eq_comm, Nat.div_eq_iff hpos, hdiv, Mem]
  omega

/-- The arithmetic of `gateway` does not overflow its byte below a mask of at most 30 bits. -/
theorem gateway_eq (h : n.ones ≤ 30) : n.toIPNet.gateway = n.addr 1 := by
  have hsize : n.size = 4 * 2 ^ (30 - n.ones) := by
    rw [size, show 32 - n.ones = 2 + (30 - n.ones) by omega, Nat.pow_add]
  have hfour : n.base.toUint32 % 4 = 0 :=
    Nat.mod_eq_zero_of_dvd (Nat.dvd_trans ⟨_, hsize⟩ (Nat.dvd_of_mod_eq_zero n.masked))
  have hlt := n.base.b3.toNat_lt
  rw [Byte4.toUint32_eq] at hfour
  apply Byte4.toUint32_inj
  rw [toUint32_addr (by have := Nat.two_pow_pos (30 - n.ones); omega), Byte4.toUint32_eq,
    Byte4.toUint32_eq]
  have hb3 : (n.base.b3 + 1).toNat = n.base.b3.toNat + 1 := by
    rw [UInt8.toNat_add]
    exact Nat.mod_eq_of_lt (show n.base.b3.toNat + 1 < 256 by omega)
  change 2 ^ 24 * n.base.b0.toNat + 2 ^ 16 * n.base.b1.toNat + 2 ^ 8 * n.base.b2.toNat +
    (n.base.b3 + 1).toNat = _
  omega

theorem four_le_size (h : n.ones ≤ 30) : 4 ≤ n.size :=
  Nat.pow_le_pow_right (Nat.le_succ 1) (show 2 ≤ 32 - n.ones by omega)

/-- The host addresses are those at the offsets from 2 to the last but one. -/
theorem host_addr_iff (h : n.ones ≤ 30) (hi : i < n.size) :
    n.Host (n.addr i) ↔ 2 ≤ i ∧ i + 1 < n.size := by
  have hsize := four_le_size h
  have hne : ∀ {j}, j < n.size → (n.addr i ≠ n.addr j ↔ i ≠ j) := fun hj =>
    not_congr ⟨addr_inj hi hj, fun heq => heq ▸ rfl⟩
  constructor
  · intro hh
    have h0 := hh.ne_network
    have h1 := hh.ne_gateway
    have h2 := hh.ne_broadcast
    rw [← addr_zero, hne (by omega)] at h0
    rw [gateway_eq h, hne (by omega)] at h1
    rw [broadcast, hne (by omega)] at h2
    omega
  · rintro ⟨hge, hlt⟩
    refine ⟨mem_addr hi, ?_, ?_, ?_⟩
    · rw [← addr_zero, hne (by omega)]
      omega
    · rw [broadcast, hne (by omega)]
      omega
    · rw [gateway_eq h, hne (by omega)]
      omega

theorem mem_hosts_iff (h : n.ones ≤ 30) : k ∈ n.hosts ↔ n.Host k := by
  simp only [hosts, List.mem_map, List.mem_range'_1]
  constructor
  · rintro ⟨i, hi, rfl⟩
    exact (host_addr_iff h (by omega)).2 (by omega)
  · intro hh
    obtain ⟨i, hi, rfl⟩ := hh.mem.exists_addr
    have := (host_addr_iff h hi).1 hh
    exact ⟨i, by omega, rfl⟩

theorem length_hosts : n.hosts.length = 2 ^ (32 - n.ones) - 3 := by simp [hosts, size]

theorem nodup_hosts : n.hosts.Nodup := by
  refine List.Nodup.map_on (fun i hi j hj h => ?_) List.nodup_range'
  rw [List.mem_range'_1] at hi hj
  exact addr_inj (by omega) (by omega) h

end Subnet

/-! ### One call -/

namespace IpPool

variable {n : Subnet} {p p' : IpPool} {k : Byte4} {preferred : Option Bytes}

/-- The loop of `alloc`, at the candidate `i` with `m` left. -/
def scan (p : IpPool) : ℕ → ℕ → IpPool × Option Byte4
  | _, 0 => (p, none)
  | i, m + 1 =>
    let k := p.candidate i
    if k = p.gateway then p.scan (i + 1) m
    else if !p.isUsed k then (p.take k, some k)
    else p.scan (i + 1) m

/-- `alloc(preferred)` as one transition of the pool; `none` stands for "session: subnet
exhausted". -/
def allocate (p : IpPool) (preferred : Option Bytes) : Go (IpPool × Option Byte4) :=
  match preferred.bind p.inRange with
  | some k =>
    if !p.isUsed k then pure (p.take k, some k)
    else do pure (p.scan 1 (← p.hosts))
  | none => do pure (p.scan 1 (← p.hosts))

/-- `release(ip)`, of any `net.IP`. -/
def releaseIP (p : IpPool) (ip : Bytes) : IpPool :=
  match to4 ip with
  | none => p
  | some k => p.release k

/-- The transition that a result of `alloc` stands for. -/
def settle (p : IpPool) : Option (IpPool × Byte4) → IpPool × Option Byte4
  | some (p', k) => (p', some k)
  | none => (p, none)

/-- The loop ends at the first candidate that is free. -/
theorem scan_eq (p : IpPool) (i m : ℕ) : p.scan i m =
    match (List.range' i m).find? fun j => p.isFree (p.candidate j) with
    | some j => (p.take (p.candidate j), some (p.candidate j))
    | none => (p, none) := by
  induction m generalizing i with
  | zero => rfl
  | succ m ih =>
    rw [scan, List.range'_succ, List.find?_cons]
    by_cases hg : p.candidate i = p.gateway
    · have hfree : p.isFree p.gateway = false := by simp [isFree]
      simp [hg, hfree, ih]
    · cases hu : p.isUsed (p.candidate i) with
      | false =>
        have hfree : p.isFree (p.candidate i) = true := by simp [isFree, hg, hu]
        simp [hg, hfree]
      | true =>
        have hfree : p.isFree (p.candidate i) = false := by simp [isFree, hu]
        simp [hg, hfree, ih]

/-- `allocate` is the function the manager calls. -/
theorem allocate_eq (p : IpPool) (preferred : Option Bytes) :
    p.allocate preferred = (p.alloc preferred).map p.settle := by
  unfold allocate alloc
  cases preferred.bind p.inRange with
  | none =>
    cases p.hosts with
    | error => rfl
    | ok m =>
      simp only [Option.filter_none, Go.ok_bind, scan_eq]
      cases (List.range' 1 m).find? fun j => p.isFree (p.candidate j) <;> rfl
  | some k =>
    cases hu : p.isUsed k with
    | false =>
      simp only [Option.filter_some, hu]
      rfl
    | true =>
      cases p.hosts with
      | error =>
        simp only [Option.filter_some, hu]
        rfl
      | ok m =>
        simp only [Option.filter_some, hu, Go.ok_bind, scan_eq]
        cases (List.range' 1 m).find? fun j => p.isFree (p.candidate j) <;> rfl

/-- The pool of a subnet. -/
structure Of (n : Subnet) (p : IpPool) : Prop where
  network : p.network = n.toIPNet
  gateway : p.gateway = n.toIPNet.gateway

theorem Of.new (n : Subnet) : Of n (IpPool.new n.toIPNet) := ⟨rfl, rfl⟩

theorem Of.take (h : Of n p) (k : Byte4) : Of n (p.take k) := ⟨h.network, h.gateway⟩

theorem Of.releaseIP (h : Of n p) (ip : Bytes) : Of n (p.releaseIP ip) := by
  unfold IpPool.releaseIP
  split
  · exact h
  · exact ⟨h.network, h.gateway⟩

theorem Of.candidate (h : Of n p) (i : ℕ) : p.candidate i = n.addr i := by
  rw [IpPool.candidate, h.network]
  rfl

theorem Of.hosts (h : Of n p) : p.hosts = .ok (n.size - 2) := by
  rw [IpPool.hosts, h.network]
  exact if_neg (Nat.not_lt.2 n.ones_le)

/-- The preferred address can be had. -/
def Wish (n : Subnet) (p : IpPool) (preferred : Option Bytes) (k : Byte4) : Prop :=
  preferred.bind to4 = some k ∧ n.Mem k ∧ k ≠ n.toIPNet.gateway ∧ p.isUsed k = false

theorem Of.inRange_iff (h : Of n p) : preferred.bind p.inRange = some k ↔
    preferred.bind to4 = some k ∧ n.Mem k ∧ k ≠ n.toIPNet.gateway := by
  cases preferred with
  | none => simp
  | some ip =>
    simp only [Option.bind_some, IpPool.inRange]
    cases to4 ip with
    | none => simp
    | some k' =>
      dsimp only
      rw [h.gateway, h.network]
      split_ifs with hg hc
      · simp only [Option.some.injEq, false_iff]
        rintro ⟨rfl, -, hne⟩
        exact hne hg
      · simp only [Option.some.injEq]
        refine ⟨?_, And.left⟩
        rintro rfl
        exact ⟨rfl, Subnet.contains_iff.1 hc, hg⟩
      · simp only [Option.some.injEq, false_iff]
        rintro ⟨rfl, hm, -⟩
        exact hc (Subnet.contains_iff.2 hm)

/-- How a call `alloc(preferred)` ends: with the pool and the result given. -/
inductive Allocated (n : Subnet) (p : IpPool) (preferred : Option Bytes) :
    IpPool → Option Byte4 → Prop where
  /-- The preferred address is handed out. -/
  | wish (k : Byte4) : Wish n p preferred k → Allocated n p preferred (p.take k) (some k)
  /-- The smallest free host address is handed out. -/
  | first (k : Byte4) : (∀ k', ¬ Wish n p preferred k') → n.Host k → p.isUsed k = false →
      (∀ k', n.Host k' → p.isUsed k' = false → k.toUint32 ≤ k'.toUint32) →
      Allocated n p preferred (p.take k) (some k)
  /-- Every host address is in use. -/
  | exhausted : (∀ k', ¬ Wish n p preferred k') → (∀ k', n.Host k' → p.isUsed k' = true) →
      Allocated n p preferred p none

/-- The scan finds the smallest free host address. -/
theorem Of.scan (h : Of n p) (h30 : n.ones ≤ 30) {preferred : Option Bytes}
    (hw : ∀ k', ¬ Wish n p preferred k') :
    ∃ p' r, p.scan 1 (n.size - 2) = (p', r) ∧ Allocated n p preferred p' r := by
  have hsize := Subnet.four_le_size h30
  have hfree : ∀ {i}, i < n.size → 1 ≤ i → i + 1 < n.size →
      (p.isFree (p.candidate i) = true ↔ n.Host (n.addr i) ∧ p.isUsed (n.addr i) = false) := by
    intro i hi hge hlt
    have hgw : (n.addr i ≠ n.addr 1) ↔ 2 ≤ i := by
      rw [Ne, not_congr ⟨Subnet.addr_inj hi (by omega), fun heq => heq ▸ rfl⟩]
      omega
    rw [Subnet.host_addr_iff h30 hi, h.candidate, isFree, h.gateway, Subnet.gateway_eq h30,
      Bool.and_eq_true, bne_iff_ne, hgw, Bool.not_eq_true']
    simp [hlt]
  rw [scan_eq]
  cases hf : (List.range' 1 (n.size - 2)).find? fun j => p.isFree (p.candidate j) with
  | none =>
    refine ⟨p, none, rfl, .exhausted hw fun k' hk' => ?_⟩
    obtain ⟨i, hi, rfl⟩ := hk'.mem.exists_addr
    have hrange := (Subnet.host_addr_iff h30 hi).1 hk'
    have hnot := List.find?_eq_none.1 hf i (List.mem_range'_1.2 (by omega))
    rw [hfree hi (by omega) hrange.2] at hnot
    simpa [hk'] using hnot
  | some i =>
    have hi := List.mem_range'_1.1 (List.mem_of_find?_eq_some hf)
    have hfound : p.isFree (p.candidate i) = true :=
      List.find?_some (p := fun j => p.isFree (p.candidate j)) hf
    obtain ⟨hhost, hunused⟩ := (hfree (by omega) hi.1 (by omega)).1 hfound
    refine ⟨_, _, rfl, ?_⟩
    rw [h.candidate]
    refine .first _ hw hhost hunused fun k' hk' hu' => ?_
    obtain ⟨j, hj, rfl⟩ := hk'.mem.exists_addr
    have hrange := (Subnet.host_addr_iff h30 hj).1 hk'
    rw [Subnet.toUint32_addr (by omega), Subnet.toUint32_addr hj]
    -- a smaller candidate was passed over because it is not free
    by_contra hlt
    obtain ⟨-, as, bs, hsplit, hbefore⟩ := List.find?_eq_some_iff_append.1 hf
    have hmem : j ∈ as := by
      have hpw : (as ++ i :: bs).Pairwise (· < ·) := hsplit ▸ List.pairwise_lt_range'
      have hjm : j ∈ as ++ i :: bs := hsplit ▸ List.mem_range'_1.2 (by omega)
      rw [List.pairwise_append, List.pairwise_cons] at hpw
      rcases List.mem_append.1 hjm with hjm | hjm
      · exact hjm
      · rcases List.mem_cons.1 hjm with rfl | hjm
        · omega
        · have := hpw.2.1.1 j hjm
          omega
    have hnot := hbefore j hmem
    rw [Bool.not_eq_true', ← Bool.not_eq_true, hfree hj (by omega) hrange.2] at hnot
    exact hnot ⟨hk', hu'⟩

/-- **`alloc` never panics on an IPv4 subnet with at most 30 bits**, and ends in one of the ways
`Allocated` lists. -/
theorem Of.allocate (h : Of n p) (h30 : n.ones ≤ 30) (preferred : Option Bytes) :
    ∃ p' r, p.allocate preferred = .ok (p', r) ∧ Allocated n p preferred p' r := by
  unfold IpPool.allocate
  cases hr : preferred.bind p.inRange with
  | none =>
    have hno : ∀ k', ¬ Wish n p preferred k' := fun k' hw => by
      rw [h.inRange_iff.2 ⟨hw.1, hw.2.1, hw.2.2.1⟩] at hr
      cases hr
    obtain ⟨p', r, hs, ha⟩ := h.scan h30 hno
    exact ⟨p', r, by rw [h.hosts, Go.ok_bind, hs]; rfl, ha⟩
  | some k =>
    obtain ⟨hto, hmem, hgw⟩ := h.inRange_iff.1 hr
    cases hu : p.isUsed k with
    | false => exact ⟨_, _, by simp [hu], .wish k ⟨hto, hmem, hgw, hu⟩⟩
    | true =>
      have hno : ∀ k', ¬ Wish n p preferred k' := fun k' hw => by
        rw [hw.1] at hto
        cases hto
        rw [hw.2.2.2] at hu
        cases hu
      obtain ⟨p', r, hs, ha⟩ := h.scan h30 hno
      refine ⟨p', r, ?_, ha⟩
      simp only [hu, Bool.not_true, Bool.false_eq_true, ↓reduceIte]
      rw [h.hosts, Go.ok_bind, hs]
      rfl

/-! ### Runs -/

/-- A call on the pool. -/
inductive Op where
  /-- `alloc(preferred)`. -/
  | alloc (preferred : Option Bytes)
  /-- `release(ip)`. -/
  | release (ip : Bytes)
  deriving DecidableEq, Repr

/-- The pool after a call. -/
def step (p : IpPool) : Op → Go IpPool
  | .alloc preferred => (p.allocate preferred).map Prod.fst
  | .release ip => pure (p.releaseIP ip)

/-- The pool after calls in turn. -/
def run (p : IpPool) : List Op → Go IpPool
  | [] => pure p
  | op :: ops => do (← p.step op).run ops

theorem Of.step (h : Of n p) (h30 : n.ones ≤ 30) (op : Op) :
    ∃ q, p.step op = .ok q ∧ Of n q := by
  cases op with
  | alloc preferred =>
    obtain ⟨p', r, ha, hr⟩ := h.allocate h30 preferred
    refine ⟨p', by rw [IpPool.step, ha]; rfl, ?_⟩
    cases hr with
    | wish k => exact h.take k
    | first k => exact h.take k
    | exhausted => exact h
  | release ip => exact ⟨_, rfl, h.releaseIP ip⟩

theorem Of.run (h : Of n p) (h30 : n.ones ≤ 30) (ops : List Op) :
    ∃ q, p.run ops = .ok q ∧ Of n q := by
  induction ops generalizing p with
  | nil => exact ⟨p, rfl, h⟩
  | cons op ops ih =>
    obtain ⟨q, hq, hof⟩ := h.step h30 op
    obtain ⟨q', hq', hof'⟩ := ih hof
    exact ⟨q', by rw [IpPool.run, hq, Go.ok_bind, hq'], hof'⟩

/-! ### Safety -/

/-- The preferred address is neither the network's nor the broadcast address, or it is in use. -/
def Modest (n : Subnet) (p : IpPool) (preferred : Option Bytes) : Prop :=
  ∀ k, preferred.bind to4 = some k → k = n.base ∨ k = n.broadcast → p.isUsed k = true

/-- The network's and the broadcast address can be wished for. -/
theorem wish_of_special (h30 : n.ones ≤ 30) (hk : preferred.bind to4 = some k)
    (hs : k = n.base ∨ k = n.broadcast) (hu : p.isUsed k = false) : Wish n p preferred k := by
  have hsize := Subnet.four_le_size h30
  refine ⟨hk, ?_, ?_, hu⟩
  · rcases hs with rfl | rfl
    · rw [← Subnet.addr_zero]
      exact Subnet.mem_addr (by omega)
    · exact Subnet.mem_addr (by omega)
  · rw [Subnet.gateway_eq h30]
    intro heq
    rcases hs with rfl | rfl
    · rw [← Subnet.addr_zero] at heq
      exact absurd (Subnet.addr_inj (by omega) (by omega) heq) (by omega)
    · exact absurd (Subnet.addr_inj (by omega) (by omega) heq) (by omega)

/-- One call hands out a host address, if any, exactly when the wish is modest. -/
theorem Allocated.host_iff {r : Option Byte4} (h30 : n.ones ≤ 30)
    (h : Allocated n p preferred p' r) :
    (∀ k, r = some k → n.Host k ∧ p.isUsed k = false) ↔ Modest n p preferred := by
  constructor
  · intro hsafe k hk hs
    by_contra hu
    have hw := wish_of_special h30 hk hs (Bool.eq_false_iff.2 hu)
    cases h with
    | wish k' hw' =>
      obtain rfl : k' = k := Option.some.inj (hw'.1.symm.trans hk)
      have hhost := (hsafe k' rfl).1
      exact hs.elim hhost.ne_network hhost.ne_broadcast
    | first _ hno => exact hno k hw
    | exhausted hno => exact hno k hw
  · intro hm k hk
    cases h with
    | wish k' hw =>
      cases hk
      have hused : ∀ hs, p.isUsed k = true := hm k hw.1
      refine ⟨⟨hw.2.1, fun hs => ?_, fun hs => ?_, hw.2.2.1⟩, hw.2.2.2⟩
      · exact absurd (hused (.inl hs)) (by simp [hw.2.2.2])
      · exact absurd (hused (.inr hs)) (by simp [hw.2.2.2])
    | first k' _ hhost hu _ =>
      cases hk
      exact ⟨hhost, hu⟩
    | exhausted => cases hk

/-- **Which calls of `alloc` are safe.**  In every state of the pool of an IPv4 subnet that calls
lead to, `alloc` returns, and leaves the pool as it is if it fails; an address it returns lies in
the subnet, is not the gateway's and was free.  It is also neither the network's nor the broadcast
address, exactly when the preferred address is neither, or is in use. -/
theorem alloc_safe_iff (n : Subnet) (hones : 2 ≤ n.ones ∧ n.ones ≤ 30) (ops : List Op)
    (preferred : Option Bytes) :
    ∃ p p' r, (IpPool.new n.toIPNet).run ops = .ok p ∧ p.allocate preferred = .ok (p', r) ∧
      (r = none → p'.used = p.used) ∧
      (∀ k, r = some k → n.Mem k ∧ k ≠ n.toIPNet.gateway ∧ p.isUsed k = false) ∧
      ((∀ k, r = some k → n.Host k ∧ p.isUsed k = false) ↔ Modest n p preferred) := by
  obtain ⟨p, hrun, hof⟩ := (Of.new n).run hones.2 ops
  obtain ⟨p', r, ha, hr⟩ := hof.allocate hones.2 preferred
  refine ⟨p, p', r, hrun, ha, ?_, ?_, hr.host_iff hones.2⟩
  · rintro rfl
    cases hr
    rfl
  · rintro k rfl
    cases hr with
    | wish _ hw => exact ⟨hw.2.1, hw.2.2.1, hw.2.2.2⟩
    | first _ _ hhost hu => exact ⟨hhost.mem, hhost.ne_gateway, hu⟩

/-- The network 10.77.0.0/24. -/
def defaultSubnet : Subnet where
  base := ⟨10, 77, 0, 0⟩
  ones := 24
  ones_le := by decide
  masked := by decide

/-- A client that prefers 10.77.0.9 gets it. -/
theorem alloc_safe_iff_preferred : ∃ p p' r,
    (IpPool.new defaultSubnet.toIPNet).run [] = .ok p ∧
    p.allocate (some [10, 77, 0, 9]) = .ok (p', r) ∧
    ∀ k, r = some k → defaultSubnet.Host k ∧ p.isUsed k = false := by
  obtain ⟨p, p', r, hrun, ha, -, -, hiff⟩ :=
    alloc_safe_iff defaultSubnet (by decide) [] (some [10, 77, 0, 9])
  refine ⟨p, p', r, hrun, ha, hiff.2 fun k hk hs => ?_⟩
  obtain rfl : (⟨10, 77, 0, 9⟩ : Byte4) = k := Option.some.inj hk
  exact absurd hs (by decide)

/-- **The network address is handed out** to a client that prefers it. -/
theorem alloc_network : ((IpPool.new defaultSubnet.toIPNet).allocate (some [10, 77, 0, 0])).map
    Prod.snd = .ok (some defaultSubnet.base) := by decide

/-! ### Completeness -/

/-- Every entry of `used` is a host address that is in use. -/
def Hosted (n : Subnet) (p : IpPool) : Prop :=
  ∀ k ∈ p.used.keys, n.Host k ∧ p.isUsed k = true

theorem mem_keys_of_isUsed (h : p.isUsed k = true) : k ∈ p.used.keys := by
  by_contra hk
  rw [isUsed, AList.lookup_eq_none.2 hk] at h
  cases h

theorem Hosted.new (n : Subnet) : Hosted n (IpPool.new n.toIPNet) := by
  intro k hk
  cases hk

theorem Hosted.take (h : Hosted n p) (hk : n.Host k) : Hosted n (p.take k) := by
  intro k' hk'
  rw [isUsed_take]
  rcases eq_or_ne k' k with rfl | hne
  · simp [hk]
  · have hmem : k' ∈ p.used.keys := by
      rw [IpPool.take, AList.keys_insert, List.mem_cons] at hk'
      exact List.mem_of_mem_erase (hk'.resolve_left hne)
    simp [h k' hmem]

theorem Hosted.releaseIP (h : Hosted n p) (ip : Bytes) : Hosted n (p.releaseIP ip) := by
  unfold IpPool.releaseIP
  split
  · exact h
  · next k _ =>
    intro k' hk'
    rw [release, AList.keys_erase, p.used.keys_nodup.mem_erase_iff] at hk'
    obtain ⟨hhost, hused⟩ := h k' hk'.2
    rw [isUsed_release]
    exact ⟨hhost, by simp [hk'.1, hused]⟩

/-- Taking a free address makes one more entry. -/
theorem Hosted.len_take (h : Hosted n p) (hu : p.isUsed k = false) :
    GoMap.len (p.take k).used = GoMap.len p.used + 1 := by
  have hk : k ∉ p.used.keys := fun hk => by
    rw [(h k hk).2] at hu
    cases hu
  simp [GoMap.len, IpPool.take, AList.keys_insert, List.erase_of_not_mem hk]

/-- Every host address is in use exactly when there are as many entries as host addresses. -/
theorem Hosted.full_iff (h : Hosted n p) (h30 : n.ones ≤ 30) :
    (∀ k ∈ n.hosts, p.isUsed k = true) ↔ n.hosts.length ≤ GoMap.len p.used := by
  have hsub : p.used.keys.Subperm n.hosts :=
    p.used.keys_nodup.subperm fun k hk => (Subnet.mem_hosts_iff h30).2 (h k hk).1
  constructor
  · intro hall
    exact (Subnet.nodup_hosts.subperm fun k hk => mem_keys_of_isUsed (hall k hk)).length_le
  · intro hlen k hk
    exact (h k ((hsub.perm_of_length_le hlen).mem_iff.2 hk)).2

/-- How a call without a preference ends. -/
theorem Of.allocate_nil (hof : Of n p) (h30 : n.ones ≤ 30) :
    (∃ k, p.allocate none = .ok (p.take k, some k) ∧ k ∈ n.hosts ∧ p.isUsed k = false ∧
      ∀ k' ∈ n.hosts, p.isUsed k' = false → k.toUint32 ≤ k'.toUint32) ∨
    (p.allocate none = .ok (p, none) ∧ ∀ k ∈ n.hosts, p.isUsed k = true) := by
  obtain ⟨p', r, ha, hr⟩ := hof.allocate h30 none
  cases hr with
  | wish k hw => cases hw.1
  | first k _ hhost hu hmin =>
    exact .inl ⟨k, ha, (Subnet.mem_hosts_iff h30).2 hhost, hu, fun k' hk' =>
      hmin k' ((Subnet.mem_hosts_iff h30).1 hk')⟩
  | exhausted _ hall =>
    exact .inr ⟨ha, fun k hk => hall k ((Subnet.mem_hosts_iff h30).1 hk)⟩

/-- The calls of clients without a preference keep the entries to host addresses. -/
theorem Hosted.run (hof : Of n p) (h : Hosted n p) (h30 : n.ones ≤ 30) {ops : List Op}
    (hops : ∀ op ∈ ops, ∀ ip, op ≠ .alloc (some ip)) :
    ∃ q, p.run ops = .ok q ∧ Of n q ∧ Hosted n q := by
  induction ops generalizing p with
  | nil => exact ⟨p, rfl, hof, h⟩
  | cons op ops ih =>
    rw [List.forall_mem_cons] at hops
    have hstep : ∃ q, p.step op = .ok q ∧ Of n q ∧ Hosted n q := by
      match op, hops.1 with
      | .release ip, _ => exact ⟨_, rfl, hof.releaseIP ip, h.releaseIP ip⟩
      | .alloc (some ip), hne => exact absurd rfl (hne ip)
      | .alloc none, _ =>
        rw [IpPool.step]
        rcases hof.allocate_nil h30 with ⟨k, ha, hk, -⟩ | ⟨ha, -⟩
        · rw [ha]
          exact ⟨_, rfl, hof.take k, h.take ((Subnet.mem_hosts_iff h30).1 hk)⟩
        · rw [ha]
          exact ⟨_, rfl, hof, h⟩
    obtain ⟨q, hq, hof', h'⟩ := hstep
    obtain ⟨q', hq', hh⟩ := ih hof' h' hops.2
    exact ⟨q', by rw [IpPool.run, hq, Go.ok_bind, hq'], hh⟩

/-- As many calls as there are free host addresses take all of them. -/
theorem Hosted.fill (hof : Of n p) (h : Hosted n p) (h30 : n.ones ≤ 30) {m : ℕ}
    (hm : n.hosts.length = GoMap.len p.used + m) :
    ∃ q, p.run (List.replicate m (.alloc none)) = .ok q ∧ ∀ k ∈ n.hosts, q.isUsed k = true := by
  induction m generalizing p with
  | zero => exact ⟨p, rfl, (h.full_iff h30).2 (Nat.le_of_eq hm)⟩
  | succ m ih =>
    rcases hof.allocate_nil h30 with ⟨k, ha, hk, hu, -⟩ | ⟨-, hall⟩
    · have hlen := h.len_take hu
      obtain ⟨q, hq, hall⟩ := ih (hof.take k) (h.take ((Subnet.mem_hosts_iff h30).1 hk)) (by omega)
      refine ⟨q, ?_, hall⟩
      rw [List.replicate_succ, IpPool.run, IpPool.step, ha]
      exact hq
    · have := (h.full_iff h30).1 hall
      omega

theorem to4_toBytes (k : Byte4) : to4 k.toBytes = some k := rfl

/-- **Allocation without preferences is complete.**  In every state that calls of `alloc(nil)` and
`release` lead to from the empty pool of an IPv4 subnet with `p` bits, `alloc(nil)` fails exactly
when all `2 ^ (32 - p) - 3` host addresses are in use, and otherwise hands out the smallest one that
is not; calls for the addresses that are left take them all, and an address that is released is
handed out again as soon as no smaller one is free. -/
theorem alloc_complete (n : Subnet) (hones : 2 ≤ n.ones ∧ n.ones ≤ 30) (ops : List Op)
    (hops : ∀ op ∈ ops, ∀ ip, op ≠ .alloc (some ip)) :
    n.hosts.Nodup ∧ n.hosts.length = 2 ^ (32 - n.ones) - 3 ∧ (∀ k, k ∈ n.hosts ↔ n.Host k) ∧
    ∃ p p' r, (IpPool.new n.toIPNet).run ops = .ok p ∧ p.allocate none = .ok (p', r) ∧
      (r = none ↔ ∀ k ∈ n.hosts, p.isUsed k = true) ∧
      (∀ k, r = some k → k ∈ n.hosts ∧ p.isUsed k = false ∧
        ∀ k' ∈ n.hosts, p.isUsed k' = false → k.toUint32 ≤ k'.toUint32) ∧
      (∃ q, p.run (List.replicate (2 ^ (32 - n.ones) - 3 - GoMap.len p.used) (.alloc none)) =
          .ok q ∧ ∀ k ∈ n.hosts, q.isUsed k = true) ∧
      ∀ k ∈ n.hosts, ∃ q k', (p.releaseIP k.toBytes).allocate none = .ok (q, some k') ∧
        k'.toUint32 ≤ k.toUint32 := by
  have h30 := hones.2
  obtain ⟨p, hrun, hof, h⟩ := (Hosted.new n).run (Of.new n) h30 hops
  refine ⟨Subnet.nodup_hosts, Subnet.length_hosts, fun k => Subnet.mem_hosts_iff h30, ?_⟩
  have hfill : ∃ q, p.run (List.replicate (2 ^ (32 - n.ones) - 3 - GoMap.len p.used)
      (.alloc none)) = .ok q ∧ ∀ k ∈ n.hosts, q.isUsed k = true := by
    rcases Nat.le_total n.hosts.length (GoMap.len p.used) with hle | hle
    · rw [← Subnet.length_hosts, Nat.sub_eq_zero_of_le hle]
      exact ⟨p, rfl, (h.full_iff h30).2 hle⟩
    · rw [← Subnet.length_hosts]
      exact h.fill hof h30 (by omega)
  have hagain : ∀ k ∈ n.hosts, ∃ q k',
      (p.releaseIP k.toBytes).allocate none = .ok (q, some k') ∧ k'.toUint32 ≤ k.toUint32 := by
    intro k hk
    have hfree : (p.releaseIP k.toBytes).isUsed k = false := by
      rw [releaseIP, to4_toBytes]
      simp [isUsed_release]
    rcases (hof.releaseIP k.toBytes).allocate_nil h30 with ⟨k', ha, -, -, hmin⟩ | ⟨-, hall⟩
    · exact ⟨_, k', ha, hmin k hk hfree⟩
    · exact absurd (hall k hk) (by simp [hfree])
  rcases hof.allocate_nil h30 with ⟨k, ha, hk, hu, hmin⟩ | ⟨ha, hall⟩
  · refine ⟨p, _, _, hrun, ha, ⟨fun hr => (nomatch hr), fun hall => ?_⟩, ?_, hfill, hagain⟩
    · exact absurd (hall k hk) (by simp [hu])
    · rintro _ ⟨⟩
      exact ⟨hk, hu, hmin⟩
  · exact ⟨p, _, _, hrun, ha, ⟨fun _ => hall, fun _ => rfl⟩, fun k hk => (nomatch hk), hfill,
      hagain⟩

/-- A subnet with a single host address, which is taken and released. -/
theorem alloc_complete_single :
    ∃ p p' r, (IpPool.new (⟨some ⟨10, 0, 0, 0⟩, 30⟩ : IPNet)).run
        [.alloc none, .release [10, 0, 0, 2]] = .ok p ∧ p.allocate none = .ok (p', r) ∧
      r ≠ none := by
  let n : Subnet := ⟨⟨10, 0, 0, 0⟩, 30, by decide, by decide⟩
  obtain ⟨-, -, -, p, p', r, hrun, ha, hnone, -⟩ := alloc_complete n (by decide)
    [.alloc none, .release [10, 0, 0, 2]] (by simp)
  refine ⟨p, p', r, hrun, ha, fun hr => ?_⟩
  have hfree : ((IpPool.new n.toIPNet).run [.alloc none, .release [10, 0, 0, 2]]).map
      (fun p => p.isUsed ⟨10, 0, 0, 2⟩) = .ok false := by decide
  rw [hrun] at hfree
  have hused := hnone.1 hr ⟨10, 0, 0, 2⟩ (by decide)
  rw [Except.map, hused] at hfree
  cases hfree

end IpPool

end VibeVpn

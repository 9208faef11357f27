import VibeVpn.Config.Server
import VibeVpn.Crypto.Plain
import VibeVpn.Transport.Carrier

/-!
# Which packets fit the wire

A packet of at most `MTU` bytes becomes a frame with a header, a nonce, an AEAD tag and the padding
of the shaping policy.  `framing.Seal` builds the frame in a buffer of `MaxWire` bytes, and the UDP
transport takes no longer datagram.  `Validate` bounds the MTU by 65535 and `RandMax` only from
below, and two of the padding modes add padding without regard to the size of the frame
(`Shaping.blindMax`), so the limits can collide:

* `Config.packets_fit_iff` : **an accepted configuration is safe exactly when its MTU and its blind
  padding leave room for the 39 bytes of overhead**; then every packet of at most `MTU` bytes is
  sealed and taken by every carrier, whatever is drawn.
* `Config.mtu_overflow` : an accepted configuration with the MTU 65535, under which `Seal` panics
  on a packet of 65469 bytes.
-/

namespace VibeVpn

namespace Config

/-- The MTU and the shaping policy of an accepted configuration, of either role. -/
inductive Accepted (h : ServerHost) : ℤ → Shaping → Prop where
  | client {c : Client} : c.validate h.toHost = .ok () → Accepted h c.mtu c.shaping
  | server {s : Server} : s.validate h = .ok () → Accepted h s.mtu s.shaping

theorem bind_ok_left {x : Except String Unit} {f : Unit → Except String Unit}
    (h : x >>= f = .ok ()) : x = .ok () ∧ f () = .ok () := by
  obtain ⟨u, hx, hf⟩ := Go.bind_eq_ok.1 h
  exact ⟨hx, hf⟩

theorem of_failIf {cond : Bool} {msg : String} (h : failIf cond msg = .ok ()) : cond = false := by
  unfold failIf at h
  split_ifs at h with hc
  simpa using hc

/-- `Validate` bounds the MTU, in both roles. -/
theorem Accepted.mtu {h : ServerHost} {mtu : ℤ} {sh : Shaping} (ha : Accepted h mtu sh) :
    576 ≤ mtu ∧ mtu ≤ 65535 := by
  have hrange : ∀ {mtu : ℤ} {msg : String},
      failIf (mtu < 576 || 65535 < mtu) msg = .ok () → 576 ≤ mtu ∧ mtu ≤ 65535 := by
    intro mtu msg hf
    simpa using of_failIf hf
  cases ha with
  | client hv =>
    obtain ⟨-, hv⟩ := bind_ok_left hv
    obtain ⟨-, hv⟩ := bind_ok_left hv
    obtain ⟨-, hv⟩ := bind_ok_left hv
    obtain ⟨-, hv⟩ := bind_ok_left hv
    exact hrange (bind_ok_left hv).1
  | server hv =>
    obtain ⟨-, hv⟩ := bind_ok_left hv
    obtain ⟨-, hv⟩ := bind_ok_left hv
    exact hrange (bind_ok_left hv).1

/-- The MTU and the blind padding leave room for the header, the nonce and the AEAD tag. -/
def Roomy (mtu : ℤ) (sh : Shaping) : Prop :=
  mtu + sh.policy.blindMax ≤ 65468

/-- The length of the frame in which `encryptSend` sends a packet of `len` bytes. -/
def wireLen (sh : Shaping) (d : Draw) (len : ℕ) : ℤ :=
  nonceLen + tagLen + innerHeaderLen + len +
    sh.policy.paddingFor d.u32 ((innerHeaderLen + len : ℕ) : ℤ)

theorem wireLen_eq (sh : Shaping) (d : Draw) (len : ℕ) : wireLen sh d len =
    ((nonceLen + (innerHeaderLen + len + (sh.policy.paddingOf d len).length) +
      tagLen : ℕ) : ℤ) := by
  have h := sh.policy.length_paddingOf d len
  simp only [wireLen]
  push_cast at h ⊢
  omega

theorem overhead : (maxWire : ℤ) - nonceLen - tagLen - innerHeaderLen = 65468 := rfl

theorem Roomy.wireLen_le {mtu : ℤ} {sh : Shaping} (h : Roomy mtu sh) (d : Draw) {len : ℕ}
    (hlen : len ≤ mtu) : wireLen sh d len ≤ maxWire := by
  have hover := overhead
  unfold Roomy at h
  unfold wireLen
  obtain hle | hle := sh.policy.paddingFor_le d.u32 ((innerHeaderLen + len : ℕ) : ℤ)
  · push_cast at hle ⊢
    omega
  · omega

/-- An IPv4 packet of `20 + k` bytes. -/
def packetOf (k : ℕ) : Bytes :=
  [0x45, 0, 0, 20, 0, 0, 0, 0, 0, 0, 0, 0, 0, 0, 0, 0, 0, 0, 0, 0] ++ List.replicate k 0

@[simp] theorem length_packetOf (k : ℕ) : (packetOf k).length = 20 + k := by
  simp [packetOf]
  omega

theorem parse_packetOf (k : ℕ) : ∃ h, Header.parse (packetOf k) = .ok (some h) := by
  refine ⟨⟨⟨0, 0, 0, 0⟩, ⟨0, 0, 0, 0⟩⟩, ?_⟩
  have hl := length_packetOf k
  have hlen : beVal (((packetOf k).take 4).drop 2) = 20 := rfl
  have hfirst : (packetOf k)[0] = 0x45 := rfl
  unfold Header.parse
  rw [if_neg (by omega), index_ok (by omega), Go.ok_bind, hfirst]
  dsimp only
  rw [if_neg (by decide), if_neg (by rw [hl]; simp), slice_ok (by omega) (by omega), Go.ok_bind,
    hlen, if_neg (by rw [hl]; simp), slice_ok (by omega) (by omega), Go.ok_bind,
    slice_ok (by omega) (by omega), Go.ok_bind]
  rfl

variable {S : Suite}

/-- A frame has the length that `encryptSend` computes for it. -/
theorem length_wire (hlen : ∀ k n p, (S.aeadSeal k n p).length = p.length + 16) (f : Sealed S) :
    0 < f.wire.length ∧ f.wire.length ≤ maxDatagram := by
  obtain ⟨hw, hfit⟩ := sealFrame_eq_ok f.wire_eq
  rw [hw, List.length_append, hlen, length_innerOf, f.nonce_len]
  simp only [maxWire, maxDatagram, nonceLen, tagLen, innerHeaderLen] at hfit ⊢
  omega

/-- **Which accepted configurations are safe.**  Under an accepted configuration of either role,
every packet of at most `MTU` bytes fits, whatever is drawn (its frame is at most `MaxWire` bytes
long, so that `encryptSend` does not panic and every carrier takes the frame), exactly when the MTU
and the blind padding leave room for the overhead. -/
theorem packets_fit_iff (hlen : ∀ k n p, (S.aeadSeal k n p).length = p.length + 16)
    {h : ServerHost} {mtu : ℤ} {sh : Shaping} (ha : Accepted h mtu sh) :
    (∀ (pkt : Bytes) (hdr : Header) (e : SendEnv), Header.parse pkt = .ok (some hdr) →
        (pkt.length : ℤ) ≤ mtu →
      wireLen sh e.draw pkt.length ≤ maxWire ∧
      ∀ (s : Endpoint S) (now : ℤ), ∃ s' fs ok,
        s.encryptSend sh.policy true now e msgData pkt = .ok (s', fs, ok) ∧
        ∀ f ∈ fs, ∀ t : Transport, t.takes f.1.wire.length = true) ↔ Roomy mtu sh := by
  constructor
  · intro hfit
    obtain ⟨hmin, hmax⟩ := ha.mtu
    obtain ⟨k, hk⟩ := Int.eq_ofNat_of_zero_le (show 0 ≤ mtu - 20 by omega)
    have hover := overhead
    unfold Roomy
    by_cases hweb : sh.policy.padding = .web ∧ mtu < 1460
    · rw [sh.policy.blindMax_web hweb.1]
      omega
    · -- the largest packet, with the draw that pads it most
      obtain ⟨u, hu⟩ := sh.policy.exists_blindMax_le
        ((innerHeaderLen + (20 + k) : ℕ) : ℤ) (fun hw => by
          have hmtu : ¬ mtu < 1460 := fun hlt => hweb ⟨hw, hlt⟩
          push_cast
          simp only [nonceLen, tagLen, innerHeaderLen]
          omega)
      obtain ⟨hdr, hparse⟩ := parse_packetOf k
      have hle := (hfit (packetOf k) hdr ⟨{ (default : Draw) with u32 := fun _ => u }, true⟩ hparse
        (by rw [length_packetOf]; push_cast; omega)).1
      rw [length_packetOf] at hle
      simp only [wireLen] at hle
      push_cast at hle hu
      omega
  · intro hroom pkt hdr e _ hle
    have hfit := hroom.wireLen_le e.draw hle
    refine ⟨hfit, fun s now => ?_⟩
    rw [wireLen_eq] at hfit
    obtain ⟨⟨s', fs, ok⟩, hsend⟩ := (Endpoint.encryptSend_ok_iff hlen sh.policy now e s msgData
      pkt).2 (.inr (Int.ofNat_le.1 hfit))
    refine ⟨s', fs, ok, hsend, fun f _ t => ?_⟩
    obtain ⟨hpos, hdatagram⟩ := length_wire hlen f.1
    have hlimit := t.maxDatagram_le_limit
    simp only [Transport.takes, Bool.and_eq_true, bne_iff_ne, decide_eq_true_eq]
    omega

/-- A host on which one address and three networks are well formed, and that has no files. -/
def plainHost : ServerHost where
  splitHostPort addr :=
    if addr = "s:1" then .ok ("s", "1")
    else .error ("address " ++ addr ++ ": missing port in address")
  isLoopback _ := false
  stat path := .error ("stat " ++ path ++ ": no such file or directory")
  quote s := "\"" ++ s ++ "\""
  parseCIDR text :=
    if text = "10.77.0.0/24" ∨ text = "10.77.0.0/31" ∨ text = "fd00::/64" then .ok ()
    else .error ("invalid CIDR address: " ++ text)

/-- A server with web padding. -/
def plainServer : Server where
  privateKey := "k"
  subnet := "10.77.0.0/24"
  mtu := 1280
  shaping := { padding := "web" }

/-- The MTU 1280 and web padding: a full packet fits with the largest padding. -/
theorem packets_fit_iff_web : plainServer.validate plainHost = .ok () ∧
    wireLen plainServer.shaping { (default : Draw) with u32 := fun _ => 16 } 1280 ≤ maxWire := by
  have hv : plainServer.validate plainHost = .ok () := by decide
  obtain ⟨hdr, hparse⟩ := parse_packetOf 1260
  have hfit := ((packets_fit_iff (S := plain) Plain.aeadLaws.seal_length (.server hv)).2
    (by unfold Roomy; decide)) (packetOf 1260) hdr
    ⟨{ (default : Draw) with u32 := fun _ => 16 }, true⟩ hparse (by rw [length_packetOf]; decide)
  rw [length_packetOf] at hfit
  exact ⟨hv, hfit.1⟩

/-- **`Seal` panics under an accepted configuration**: the MTU 65535 admits a packet of 65469
bytes, whose frame is one byte too long even without padding. -/
theorem mtu_overflow : ∃ (c : Client) (pkt : Bytes) (hdr : Header) (s : Endpoint plain),
    c.validate plainHost.toHost = .ok () ∧ Header.parse pkt = .ok (some hdr) ∧
    (pkt.length : ℤ) ≤ c.mtu ∧ ∀ (e : SendEnv) (now : ℤ),
      maxWire < wireLen c.shaping e.draw pkt.length ∧
      s.encryptSend c.shaping.policy true now e msgData pkt = .error .sliceBounds := by
  obtain ⟨hdr, hparse⟩ := parse_packetOf 65449
  refine ⟨{ server := "s:1", privateKey := "k", serverPublicKey := "p", mtu := 65535 },
    packetOf 65449, hdr,
    ⟨some (newKeys plain true (1, 2)), default, false, none, {}, 0, 0⟩, by decide, hparse,
    by rw [length_packetOf]; decide, fun e now => ?_⟩
  rw [length_packetOf]
  have hpad : VibeVpn.Shaping.paddingOf (({} : Shaping).policy) e.draw (20 + 65449) = [] :=
    VibeVpn.Shaping.paddingOf_none rfl _ _
  refine ⟨?_, Endpoint.encryptSend_panics rfl rfl ?_⟩
  · rw [wireLen_eq, hpad]
    decide
  · rw [length_packetOf, hpad]
    decide

end Config

end VibeVpn

import Mathlib.Algebra.BigOperators.Group.List.Basic
import Mathlib.Algebra.Ring.Nat
import Mathlib.Algebra.Group.Pi.Basic
import VibeVpn.Session.Journal

/-!
# The counters of a session

`Stats` counts what an end of a session sends and receives.  `Out.count` counts the same things in
what the end puts out: frames that the transport took and packets that the TUN took, their bytes,
and the sizes of what they carry.

* `Client.step_books`, `ServerSession.loop_books` : **every wake-up of an end adds to its counters
  exactly what it puts out**, and a client measures a round trip when it opens an echo of eight
  bytes, and at no other time.
-/

namespace VibeVpn

variable {S : Suite}

/-! ### Counting -/

/-- The counters of traffic. -/
inductive Counter where
  /-- `PacketsSent`. -/
  | packetsSent
  /-- `BytesSent`. -/
  | bytesSent
  /-- `PacketsReceived`. -/
  | packetsReceived
  /-- `BytesReceived`. -/
  | bytesReceived
  /-- `SizeLE64`. -/
  | le64
  /-- `SizeLE256`. -/
  | le256
  /-- `SizeLE1024`. -/
  | le1024
  /-- `SizeLE1500`. -/
  | le1500
  /-- `SizeGT1500`. -/
  | gt1500
  deriving DecidableEq, Repr

/-- The counter for a size. -/
def sizeClass (n : ℕ) : Counter :=
  if n ≤ 64 then .le64
  else if n ≤ 256 then .le256
  else if n ≤ 1024 then .le1024
  else if n ≤ 1500 then .le1500
  else .gt1500

/-- A size counts for none of the other counters. -/
theorem sizeClass_ne (n : ℕ) : sizeClass n ≠ .packetsSent ∧ sizeClass n ≠ .bytesSent ∧
    sizeClass n ≠ .packetsReceived ∧ sizeClass n ≠ .bytesReceived := by
  unfold sizeClass
  split_ifs <;> decide

namespace Stats

variable {s : Stats}

/-- The value of a counter. -/
def counter (s : Stats) : Counter → ℕ
  | .packetsSent => s.packetsSent
  | .bytesSent => s.bytesSent
  | .packetsReceived => s.packetsReceived
  | .bytesReceived => s.bytesReceived
  | .le64 => s.sizeLE64
  | .le256 => s.sizeLE256
  | .le1024 => s.sizeLE1024
  | .le1500 => s.sizeLE1500
  | .gt1500 => s.sizeGT1500

/-- What is known of the round trip time: the last measurement and the histogram. -/
def rtt (s : Stats) : ℤ × List ℕ := (s.lastRTTNanos, s.rttBuckets)

theorem counter_recordSize (n : ℕ) :
    (s.recordSize n).counter = s.counter + Pi.single (sizeClass n) 1 := by
  funext c
  unfold recordSize sizeClass
  split_ifs <;> cases c <;> rfl

theorem rtt_recordSize (n : ℕ) : (s.recordSize n).rtt = s.rtt := by
  unfold recordSize
  split_ifs <;> rfl

end Stats

/-- What a frame handed to the transport counts for. -/
def frameCount (f : Sealed S × Bool) : Counter → ℕ :=
  if f.2 then Pi.single .packetsSent 1 + Pi.single .bytesSent f.1.wire.length +
    Pi.single (sizeClass f.1.payload.length) 1
  else 0

/-- What a packet handed to the TUN counts for. -/
def packetCount (p : Bytes × Bool) : Counter → ℕ :=
  if p.2 then Pi.single .packetsReceived 1 + Pi.single .bytesReceived p.1.length +
    Pi.single (sizeClass p.1.length) 1
  else 0

/-- What an output counts for. -/
def Out.count (o : Out S) : Counter → ℕ :=
  (o.frames.map frameCount).sum + (o.tun.map packetCount).sum

@[simp] theorem Out.count_empty : ({} : Out S).count = 0 := rfl

theorem Out.count_append (a b : Out S) : (a.append b).count = a.count + b.count := by
  simp only [Out.count, Out.append, List.map_append, List.sum_append]
  exact add_add_add_comm _ _ _ _

theorem Out.count_of_silent {o : Out S} (h : o.Silent) : o.count = 0 := by
  rw [Out.count, h.1, h.2]
  rfl

theorem Stats.counter_sent (s : Stats) (f : Sealed S) :
    (s.sent f.wire.length f.payload.length).counter = s.counter + frameCount (f, true) := by
  rw [Stats.sent, counter_recordSize, frameCount, if_pos rfl, ← add_assoc]
  congr 1
  funext c
  cases c <;> simp [counter]

theorem Stats.counter_received (s : Stats) (p : Bytes) :
    (s.received p.length).counter = s.counter + packetCount (p, true) := by
  rw [Stats.received, counter_recordSize, packetCount, if_pos rfl, ← add_assoc]
  congr 1
  funext c
  cases c <;> simp [counter]

/-- An action that turns the counters `s` into `s'` puts out what they say, and measures no round
trip. -/
structure Books (s s' : Stats) (o : Out S) : Prop where
  count : s'.counter = s.counter + o.count
  rtt : s'.rtt = s.rtt

namespace Books

variable {s s' s'' : Stats} {o o' : Out S}

/-- Nothing is put out, and what is counted is something else. -/
theorem silent (hc : s'.counter = s.counter) (hr : s'.rtt = s.rtt) (ho : o.Silent) :
    Books s s' o :=
  ⟨by rw [hc, Out.count_of_silent ho, add_zero], hr⟩

theorem refl (s : Stats) : Books s s ({} : Out S) := silent rfl rfl ⟨rfl, rfl⟩

theorem trans (h : Books s s' o) (h' : Books s' s'' o') : Books s s'' (o.append o') :=
  ⟨by rw [h'.count, h.count, Out.count_append, add_assoc], h'.rtt.trans h.rtt⟩

/-- What is installed and sent raw does not count. -/
theorem congr (h : Books s s' o) (hf : o'.frames = o.frames) (ht : o'.tun = o.tun) :
    Books s s' o' :=
  ⟨by rw [h.count, Out.count, Out.count, hf, ht], h.rtt⟩

/-- What is counted afterwards is something else. -/
theorem congr_right (h : Books s s' o) (hc : s''.counter = s'.counter) (hr : s''.rtt = s'.rtt) :
    Books s s'' o :=
  ⟨hc.trans h.count, hr.trans h.rtt⟩

end Books

theorem Endpoint.encryptSend_books {sh : Shaping} {t : Bool} {now : ℤ} {e : SendEnv}
    {s s' : Endpoint S} {typ : UInt8} {pt : Bytes} {fs : List (Sealed S × Bool)} {sent : Bool}
    (h : s.encryptSend sh t now e typ pt = .ok (s', fs, sent)) :
    Books s.stats s'.stats ({ frames := fs } : Out S) := by
  unfold encryptSend at h
  split at h
  next => cases h; exact .refl _
  next k _ =>
    by_cases hr : (s.rekeying && !isRekey typ) = true
    · rw [if_pos hr] at h
      cases h
      exact .refl _
    · rw [if_neg hr] at h
      obtain ⟨⟨k', f⟩, hseal, h⟩ := Go.bind_eq_ok.1 h
      have hsent : Books s.stats (s.stats.sent f.wire.length pt.length)
          ({ frames := [(f, true)] } : Out S) := by
        refine ⟨?_, Stats.rtt_recordSize _⟩
        rw [← (Keys.seal_spec hseal).2.payload, Stats.counter_sent, Out.count]
        simp
      dsimp only at h
      split_ifs at h
      · cases h; exact hsent
      · cases h; exact hsent
      · cases h
        exact ⟨by simp [Out.count, frameCount], rfl⟩

/-! ### The server's end -/

namespace ServerSession

variable {cfg : ServerConfig} {env : ServerEnv S} {s s' : ServerSession S} {o : Out S}
  {data : Bytes} {err : Option SessionErr} {running : Bool}

theorem encryptSend_books {now : ℤ} {se : SendEnv} {typ : UInt8} {pt : Bytes}
    (h : s.encryptSend cfg now se typ pt = .ok (s', o)) : Books s.stats s'.stats o := by
  obtain ⟨⟨ep, fs, sent⟩, hs, h⟩ := Go.bind_eq_ok.1 h
  cases h
  exact Endpoint.encryptSend_books hs

theorem sendRaw_silent {b : Bytes} (h : sendRaw env b = (o, err)) : o.Silent := by
  unfold sendRaw at h
  split_ifs at h <;> cases h <;> exact ⟨rfl, rfl⟩

theorem respond_books {m : Bytes} (h : respond cfg env s m = (s', o, err)) :
    Books s.stats s'.stats o := by
  unfold respond at h
  split at h
  · cases h; exact .refl _
  · split at h
    · cases h; exact .refl _
    · split_ifs at h
      · cases h; exact .refl _
      · dsimp only at h
        split at h
        · cases h; exact .refl _
        · obtain ⟨rfl, hsend⟩ := Prod.mk.inj h
          exact .silent rfl rfl (sendRaw_silent hsend)

theorem handshake1_books (h : s.handshake1 cfg env data = .ok (s', o, err)) :
    Books s.stats s'.stats o := by
  unfold handshake1 at h
  split at h
  · cases h; exact .refl _
  · obtain ⟨r, -, h⟩ := Go.bind_eq_ok.1 h
    cases r with
    | none => cases h; exact .refl _
    | some mc =>
      dsimp only at h
      split at h
      · obtain ⟨rfl, hsend⟩ := Prod.mk.inj (Except.ok.inj h)
        exact .silent rfl rfl (sendRaw_silent hsend)
      · exact respond_books (Except.ok.inj h)

theorem handshake3_books (h : s.handshake3 cfg env data = .ok (s', o, err)) :
    Books s.stats s'.stats o := by
  unfold handshake3 at h
  split at h
  · cases h; exact .refl _
  · split at h
    · cases h; exact .refl _
    · dsimp only at h
      split_ifs at h
      · cases h; exact .refl _
      · obtain ⟨ip, -, h⟩ := Go.bind_eq_ok.1 h
        cases ip with
        | none => cases h; exact .refl _
        | some ip =>
          dsimp only at h
          split at h
          · cases h
          · obtain ⟨⟨s₁, o₁⟩, hs, h⟩ := Go.bind_eq_ok.1 h
            cases h
            exact (encryptSend_books hs).congr rfl rfl

theorem rekey1_books (h : s.rekey1 cfg env data = .ok (s', o, err)) :
    Books s.stats s'.stats o := by
  unfold rekey1 at h
  split at h
  · cases h; exact .refl _
  · split at h
    · cases h; exact .refl _
    · split at h
      · cases h; exact .refl _
      · split at h
        · cases h; exact .refl _
        · obtain ⟨⟨s₁, o₁⟩, hs, h⟩ := Go.bind_eq_ok.1 h
          have hb := encryptSend_books hs
          cases h
          exact hb

theorem rekey3_books (h : s.rekey3 data = .ok (s', o, err)) : Books s.stats s'.stats o := by
  unfold rekey3 at h
  split at h
  · split at h
    · cases h; exact .refl _
    · split_ifs at h
      · cases h; exact .refl _
      · split at h
        · cases h
        · cases h
          exact .silent rfl rfl ⟨rfl, rfl⟩
  · cases h; exact .refl _

theorem drop_books (s : ServerSession S) : Books s.stats s.drop.stats ({} : Out S) :=
  .silent rfl rfl ⟨rfl, rfl⟩

theorem handleData_books (h : s.handleData cfg env data = .ok (s', o, err)) :
    Books s.stats s'.stats o := by
  unfold handleData at h
  split at h
  · cases h; exact .refl _
  · split at h
    · cases h; exact drop_books s
    · split at h
      · cases h; exact drop_books s
      · obtain ⟨r, -, h⟩ := Go.bind_eq_ok.1 h
        cases r with
        | none => cases h; exact drop_books s
        | some hdr =>
          dsimp only at h
          split_ifs at h
          · cases h; exact drop_books s
          · cases h
            exact ⟨by simp [Out.count, packetCount], rfl⟩
          · cases h
            refine ⟨?_, Stats.rtt_recordSize _⟩
            simp [Stats.counter_received, Out.count]

theorem handleKeepalive_books (h : s.handleKeepalive cfg env data = .ok (s', o, err)) :
    Books s.stats s'.stats o := by
  obtain ⟨⟨s₁, o₁⟩, hs, h⟩ := Go.bind_eq_ok.1 h
  cases h
  exact encryptSend_books hs

theorem dispatch_books {f : Frame} (h : s.dispatch cfg env f = .ok (s', o, err)) :
    Books s.stats s'.stats o := by
  unfold dispatch at h
  split_ifs at h
  · exact handleData_books h
  · exact handleKeepalive_books h
  · cases h; exact .refl _
  · cases h; exact .refl _
  · exact rekey1_books h
  · exact rekey3_books h
  · cases h; exact .refl _

theorem handle_books (h : s.handle cfg env data = .ok (s', o, err)) :
    Books s.stats s'.stats o := by
  unfold handle at h
  split at h
  · split_ifs at h
    · exact handshake1_books h
    · exact handshake3_books h
  · obtain ⟨⟨k', r⟩, -, h⟩ := Go.bind_eq_ok.1 h
    cases r with
    | error => cases h; exact drop_books s
    | ok f =>
      dsimp only at h
      split_ifs at h
      · cases h; exact drop_books s
      · have hb := dispatch_books h
        exact hb

theorem loop_books {e : Event} (h : s.loop cfg env e = .ok (s', o, running)) :
    Books s.stats s'.stats o := by
  have hlast : ∀ {now : ℤ} {se : SendEnv} {typ : UInt8} {pt : Bytes} {r : ServerSession S × Out S}
      {goesOn : Bool}, s.encryptSend cfg now se typ pt = .ok r →
        (r.1, r.2, goesOn) = (s', o, running) → Books s.stats s'.stats o := by
    intro now se typ pt r goesOn hs heq
    cases heq
    exact encryptSend_books hs
  cases e with
  | cancel => cases h; exact .refl _
  | recv d =>
    cases d with
    | none => cases h; exact .refl _
    | some data =>
      obtain ⟨⟨s₁, o₁, err⟩, hh, h⟩ := Go.bind_eq_ok.1 h
      cases h
      exact handle_books (s := { s with lastRecv := env.now }) hh
  | reply pkt =>
    simp only [loop] at h
    split_ifs at h
    · obtain ⟨r, hs, h⟩ := Go.bind_eq_ok.1 h
      exact hlast hs (Except.ok.inj h)
    · cases h; exact .refl _
  | tick =>
    simp only [loop, tick] at h
    split_ifs at h
    · cases h; exact .refl _
    · obtain ⟨r, hs, h⟩ := Go.bind_eq_ok.1 h
      exact hlast hs (Except.ok.inj h)
    · cases h; exact .silent rfl rfl ⟨rfl, rfl⟩
    · cases h; exact .refl _
  | decoy =>
    simp only [loop] at h
    split_ifs at h
    · obtain ⟨r, hs, h⟩ := Go.bind_eq_ok.1 h
      exact hlast hs (Except.ok.inj h)
    · cases h; exact .refl _

theorem sendCloseQuiet_books (h : s.sendCloseQuiet cfg env = .ok (s', o)) :
    Books s.stats s'.stats o := by
  unfold sendCloseQuiet at h
  split_ifs at h
  · exact encryptSend_books h
  · cases h; exact .refl _

end ServerSession

/-! ### The client's end -/

namespace Client

variable {cfg : ClientConfig} {env : ClientEnv S} {c c' : Client S} {o : Out S} {e : Event}
  {data : Bytes} {err : Option ClientErr}

theorem encryptSend_books {now : ℤ} {se : SendEnv} {typ : UInt8} {pt : Bytes} {sent : Bool}
    (h : c.encryptSend cfg now se typ pt = .ok (c', o, sent)) : Books c.stats c'.stats o := by
  obtain ⟨⟨ep, fs, sent⟩, hs, h⟩ := Go.bind_eq_ok.1 h
  cases h
  exact Endpoint.encryptSend_books hs

theorem failConnect_books (ho : o.Silent) : Books c.stats c.failConnect.stats o := by
  unfold failConnect
  split_ifs <;> exact .silent rfl rfl ho

theorem connect_books (h : c.connect cfg env = .ok (c', o)) : Books c.stats c'.stats o := by
  have ho := connect_silent h
  obtain ⟨i₀, st, -, -, rfl, rfl⟩ | ⟨⟨t, rfl⟩, -⟩ := connect_spec h
  · exact .silent rfl rfl ho
  · exact failConnect_books (c := { c.teardownTransport with t }) ho

theorem recvReply_books {hs : S.HS} {m₁ : Bytes} {ck : Bool} {tag : Byte4} {start since : ℤ}
    (h : c.recvReply env hs m₁ ck tag start since data = .ok (c', o)) :
    Books c.stats c'.stats o := by
  have ho := recvReply_silent h
  unfold recvReply at h
  split at h
  · unfold finishHandshake at h
    split at h
    · cases h; exact failConnect_books ho
    · split at h
      · cases h; exact failConnect_books ho
      · obtain ⟨⟨o₁, ok⟩, -, h⟩ := Go.bind_eq_ok.1 h
        cases ok with
        | false => cases h; exact failConnect_books ho
        | true => cases h; exact .silent rfl rfl ho
  · split at h
    · obtain ⟨⟨o₁, ok⟩, -, h⟩ := Go.bind_eq_ok.1 h
      cases ok with
      | false => cases h; exact failConnect_books ho
      | true => cases h; exact .silent rfl rfl ho
    · cases h; exact .refl _

theorem recvAssign_books {start : ℤ} (h : c.recvAssign env start data = .ok (c', o)) :
    Books c.stats c'.stats o := by
  have ho := recvAssign_silent h
  unfold recvAssign at h
  split at h
  · cases h
  · obtain ⟨⟨k', r⟩, -, h⟩ := Go.bind_eq_ok.1 h
    cases r with
    | error e => cases h; exact .silent rfl rfl ho
    | ok f =>
      dsimp only at h
      split_ifs at h
      · cases h; exact .silent rfl rfl ho
      · cases h; exact .silent rfl rfl ho
      · obtain ⟨a, -, h⟩ := Go.bind_eq_ok.1 h
        cases a with
        | none => cases h; exact failConnect_books (c := { c with keys := none }) ho
        | some a => cases h; exact .silent rfl rfl ho

theorem startRekey_books (h : c.startRekey cfg env = .ok (c', o)) : Books c.stats c'.stats o := by
  unfold startRekey at h
  split at h
  · cases h; exact .refl _
  · split at h
    · cases h; exact .refl _
    · obtain ⟨⟨c₁, o₁, sent⟩, hs, h⟩ := Go.bind_eq_ok.1 h
      have hb := encryptSend_books hs
      cases sent <;> cases h <;> exact hb

theorem maybeRekey_books (h : c.maybeRekey cfg env = .ok (c', o)) : Books c.stats c'.stats o := by
  unfold maybeRekey at h
  dsimp only at h
  split_ifs at h
  · exact startRekey_books h
  · exact startRekey_books h
  · exact startRekey_books h
  · cases h; exact .refl _

theorem continueRekey_books (h : c.continueRekey cfg env data = .ok (c', o, err)) :
    Books c.stats c'.stats o := by
  unfold continueRekey at h
  split at h
  · cases h
  · split at h
    · cases h; exact .refl _
    · split at h
      · cases h; exact .refl _
      · dsimp only at h
        split at h
        · cases h; exact .refl _
        · obtain ⟨⟨c₁, o₁, sent⟩, hs, h⟩ := Go.bind_eq_ok.1 h
          have hb := encryptSend_books hs
          cases sent with
          | false => cases h; exact hb
          | true => cases h; exact ⟨hb.count, hb.rtt⟩

theorem drop_books (c : Client S) : Books c.stats c.drop.stats ({} : Out S) :=
  .silent rfl rfl ⟨rfl, rfl⟩

theorem handleData_books (h : c.handleData cfg env data = (c', o)) :
    Books c.stats c'.stats o := by
  unfold handleData at h
  split_ifs at h
  · cases h; exact drop_books c
  · cases h
    exact ⟨by simp [Out.count, packetCount], rfl⟩
  · cases h
    refine ⟨?_, Stats.rtt_recordSize _⟩
    simp [Stats.counter_received, Out.count]

theorem sendPacket_books (h : c.sendPacket cfg env data = .ok (c', o)) :
    Books c.stats c'.stats o := by
  unfold sendPacket at h
  split_ifs at h
  · cases h; exact drop_books c
  · obtain ⟨⟨c₁, o₁, sent⟩, hs, h⟩ := Go.bind_eq_ok.1 h
    have hb := encryptSend_books hs
    cases sent with
    | false => cases h; exact hb.congr_right rfl rfl
    | true => cases h; exact hb

theorem keepalive_books (h : c.keepalive cfg env = .ok (c', o)) : Books c.stats c'.stats o := by
  unfold keepalive at h
  split_ifs at h
  · cases h; exact .silent rfl rfl ⟨rfl, rfl⟩
  · obtain ⟨⟨c₁, o₁, sent⟩, hs, h⟩ := Go.bind_eq_ok.1 h
    obtain ⟨⟨c₂, o₂⟩, hm, h⟩ := Go.bind_eq_ok.1 h
    cases h
    exact (encryptSend_books hs).trans (maybeRekey_books hm)
  · cases h; exact .refl _

theorem decoy_books (h : c.decoy cfg env = .ok (c', o)) : Books c.stats c'.stats o := by
  unfold decoy at h
  split_ifs at h
  · obtain ⟨⟨c₁, o₁, sent⟩, hs, h⟩ := Go.bind_eq_ok.1 h
    cases h
    exact encryptSend_books hs
  · cases h; exact .refl _

theorem sendClose_books (h : c.sendClose cfg env = .ok (c', o)) : Books c.stats c'.stats o := by
  unfold sendClose at h
  split_ifs at h
  · obtain ⟨⟨c₁, o₁, sent⟩, hs, h⟩ := Go.bind_eq_ok.1 h
    cases h
    exact encryptSend_books hs
  · cases h; exact .refl _

/-- An echo in the frame `f` is measured. -/
structure Measured (env : ClientEnv S) (s s' : Stats) (f : Frame) : Prop where
  typ : f.typ = msgKeepalive
  length : f.payload.length = 8
  pos : 0 < env.now - Int.bmod (beVal f.payload) (2 ^ 64)
  lt : env.now - Int.bmod (beVal f.payload) (2 ^ 64) < 60 * 10 ^ 9
  rtt : s'.rtt = (s.recordRTT (env.now - Int.bmod (beVal f.payload) (2 ^ 64))).rtt

theorem dispatch_books {f : Frame} (h : c.dispatch cfg env f = .ok (c', o, err)) :
    c'.stats.counter = c.stats.counter + o.count ∧
      (c'.stats.rtt = c.stats.rtt ∨ Measured env c.stats c'.stats f) := by
  have hof : Books c.stats c'.stats o → c'.stats.counter = c.stats.counter + o.count ∧
      (c'.stats.rtt = c.stats.rtt ∨ Measured env c.stats c'.stats f) :=
    fun hb => ⟨hb.count, .inl hb.rtt⟩
  unfold dispatch at h
  split_ifs at h with hdata hecho
  · cases h; exact hof (handleData_books rfl)
  · cases h
    unfold handleEcho
    dsimp only
    split_ifs with hm
    · exact ⟨rfl, .inr ⟨hecho, hm.1, hm.2.1, hm.2.2, rfl⟩⟩
    · exact ⟨rfl, .inl rfl⟩
  · cases h; exact hof (.refl _)
  · cases h; exact hof (.refl _)
  · exact hof (continueRekey_books h)
  · cases h; exact hof (.refl _)
  · cases h; exact hof (.refl _)

/-- What a datagram does to the counters: it may be an echo under the keys the client has. -/
def Accounted (env : ClientEnv S) (c : Client S) (data : Bytes) (s' : Stats) (o : Out S) : Prop :=
  s'.counter = c.stats.counter + o.count ∧
    (s'.rtt = c.stats.rtt ∨ ∃ k k' f, c.keys = some k ∧ k.Opened data k' (.ok f) ∧
      Measured env c.stats s' f)

theorem handleFrame_books (h : c.handleFrame cfg env data = .ok (c', o, err)) :
    Accounted env c data c'.stats o := by
  unfold handleFrame at h
  split at h
  · cases h; exact ⟨rfl, .inl rfl⟩
  · next k hk =>
    obtain ⟨⟨k', r⟩, ho, h⟩ := Go.bind_eq_ok.1 h
    cases r with
    | error => cases h; exact ⟨rfl, .inl rfl⟩
    | ok f =>
      dsimp only at h
      split_ifs at h
      · cases h; exact ⟨rfl, .inl rfl⟩
      · obtain ⟨hc, hr⟩ := dispatch_books h
        exact ⟨hc, hr.imp_right fun hm => ⟨k, k', f, hk, Keys.open_spec ho, hm⟩⟩

theorem drainRecv_books (h : c.drainRecv cfg env (some data) = .ok (c', o)) :
    Accounted env c data c'.stats o := by
  obtain ⟨⟨c₁, o₁, err⟩, hf, h⟩ := Go.bind_eq_ok.1 h
  obtain ⟨hc, hr⟩ := handleFrame_books hf
  dsimp only at h
  split_ifs at h
  · cases h
    refine ⟨hc, hr.imp_right ?_⟩
    rintro ⟨k, k', f, hk, ho, hm⟩
    exact ⟨k, k', f, hk, ho, hm.typ, hm.length, hm.pos, hm.lt, hm.rtt⟩
  · cases h; exact ⟨hc, hr⟩

/-- **Every wake-up of a client adds to its counters exactly what it puts out**, and it measures a
round trip only when it opens an echo under the keys it has. -/
theorem step_books (h : c.step cfg env e = .ok (c', o)) :
    c'.stats.counter = c.stats.counter + o.count ∧
      (c'.stats.rtt = c.stats.rtt ∨ ∃ data k k' f, e = .recv (some data) ∧ c.keys = some k ∧
        k.Opened data k' (.ok f) ∧ Measured env c.stats c'.stats f) := by
  have hof : Books c.stats c'.stats o → c'.stats.counter = c.stats.counter + o.count ∧
      (c'.stats.rtt = c.stats.rtt ∨ ∃ data k k' f, e = .recv (some data) ∧ c.keys = some k ∧
        k.Opened data k' (.ok f) ∧ Measured env c.stats c'.stats f) :=
    fun hb => ⟨hb.count, .inl hb.rtt⟩
  cases step_branch h with
  | idle => exact hof (.refl _)
  | interrupted => exact hof (.refl _)
  | connect h => exact hof (connect_books h)
  | failConnect => exact hof (failConnect_books ⟨rfl, rfl⟩)
  | recvReply h => exact hof (recvReply_books h)
  | failAssign => exact hof (failConnect_books (c := { c with keys := none }) ⟨rfl, rfl⟩)
  | recvAssign h => exact hof (recvAssign_books h)
  | close h =>
    have hb := sendClose_books h
    exact ⟨hb.count, .inl hb.rtt⟩
  | reconnect => exact ⟨rfl, .inl rfl⟩
  | @recv data _ _ _ h =>
    obtain ⟨hc, hr⟩ := drainRecv_books h
    refine ⟨hc, hr.imp_right ?_⟩
    rintro ⟨k, k', f, hk, ho, hm⟩
    exact ⟨data, k, k', f, rfl, hk, ho, hm⟩
  | tun h => exact hof (sendPacket_books h)
  | keepalive h => exact hof (keepalive_books h)
  | decoy h => exact hof (decoy_books h)

end Client

end VibeVpn

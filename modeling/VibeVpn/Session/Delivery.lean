import VibeVpn.LTS.Basic
import VibeVpn.Session.Keys
import VibeVpn.Crypto.Plain
import Mathlib.Data.List.Nodup

/-!
# Delivery within one key epoch

One direction of a session under one key: the sender's `Keys.seal`, the receiver's `Keys.open`,
and between them a network that hands the receiver any datagrams in any order.  A run records what
was sealed and what was accepted.

The assumption on the AEAD is `Channel.Ideal`: a datagram opens only if it is the wire image of a
frame sealed before.

* `Channel.Inv.step` : the receiver's window has processed exactly the sequence numbers that
  arrived, and has accepted those that `Accepts` says;
* `Channel.accepted_once_iff` : **every sealed frame is accepted at most once exactly when no
  sequence number arrives again after it slid the window as a whole**.
-/

namespace VibeVpn

/-- The two ends of one direction, and what happened on it. -/
structure Channel (S : Suite) where
  /-- The sender's keys. -/
  sender : Keys S
  /-- The receiver's keys. -/
  receiver : Keys S
  /-- The frames sealed so far, oldest first. -/
  sent : List (Sealed S)
  /-- The datagrams accepted so far, oldest first. -/
  accepted : List Bytes

namespace Channel

/-- What can happen on a channel. -/
inductive Event where
  /-- The sender seals a frame. -/
  | seal (d : Draw) (tag : Byte4) (typ : UInt8) (payload padding : Bytes)
  /-- The network hands a datagram to the receiver. -/
  | deliver (wire : Bytes)

/-- Both ends right after the handshake that derived `ks`. -/
def new (S : Suite) (isClient : Bool) (ks : S.Key × S.Key) : Channel S where
  sender := newKeys S isClient ks
  receiver := newKeys S (!isClient) ks
  sent := []
  accepted := []

variable {S : Suite}

/-- One event. -/
def step (c : Channel S) : Event → Go (Channel S)
  | .seal d tag typ payload padding => do
    let (k, f) ← c.sender.seal d tag typ payload padding
    pure { c with sender := k, sent := c.sent ++ [f] }
  | .deliver wire => do
    match ← c.receiver.open wire with
    | (k, .ok _) => pure { c with receiver := k, accepted := c.accepted ++ [wire] }
    | (k, .error _) => pure { c with receiver := k }

/-- The channel as a transition system. -/
def lts (S : Suite) : LTS (Channel S) Event := LTS.ofExcept step

/-- The ideal AEAD: what opens was sealed. -/
def Ideal (c : Channel S) : Event → Prop
  | .seal .. => True
  | .deliver wire =>
    (S.aeadOpen c.receiver.recvKey (wire.take nonceLen) (wire.drop nonceLen)).isSome →
      ∃ f ∈ c.sent, f.wire = wire

/-- The sequence number a datagram carries under the key `k`. -/
def seqOf (k : S.Key) (wire : Bytes) : Option ℕ := (authenticate S k wire).map Frame.seq

/-- The sequence numbers that arrive, in order: those of the delivered datagrams that
authenticate. -/
def arrivals (k : S.Key) (es : List Event) : List ℕ :=
  es.filterMap fun
    | .seal .. => none
    | .deliver wire => seqOf k wire

theorem arrivals_snoc (k : S.Key) (es : List Event) (e : Event) :
    arrivals k (es ++ [e]) = arrivals k es ++ arrivals k [e] := List.filterMap_append

/-! ### The invariant -/

/-- The state of a channel after the arrivals `ds`. -/
structure Inv (key : S.Key) (c : Channel S) (ds : List ℕ) : Prop where
  sendKey : c.sender.sendKey = key
  recvKey : c.receiver.recvKey = key
  sendSeq : c.sender.sendSeq = c.sent.length
  sent : ∀ f ∈ c.sent, f.key = key ∧ f.ctr < c.sent.length
  ctr_inj : ∀ f ∈ c.sent, ∀ g ∈ c.sent, f.ctr = g.ctr → f = g
  size : c.receiver.replay.size = replayWindowSize
  tracks : Tracks c.receiver.replay ds
  accepted_sent : ∀ w ∈ c.accepted, ∃ f ∈ c.sent, f.wire = w
  accepts : Accepts replayWindowSize ds (c.accepted.map fun w => (seqOf key w).getD 0)

variable {key : S.Key} {c c' : Channel S} {ds : List ℕ} {e : Event}

theorem seqOf_wire (hS : S.AeadLaws) (f : Sealed S) : seqOf f.key f.wire = some f.seq := by
  rw [seqOf, f.authenticate_wire hS]
  rfl

theorem Inv.new (S : Suite) (isClient : Bool) (ks : S.Key × S.Key) :
    Inv (if isClient then ks.1 else ks.2) (Channel.new S isClient ks) [] where
  sendKey := rfl
  recvKey := by cases isClient <;> rfl
  sendSeq := rfl
  sent _ h := by cases h
  ctr_inj _ h := by cases h
  size := rfl
  tracks := .new _
  accepted_sent _ h := by cases h
  accepts := .nil

/-- Sealing keeps the invariant: the new frame has the next counter. -/
theorem Inv.seal (hi : Inv key c ds) {d : Draw} {tag : Byte4} {typ : UInt8}
    {payload padding : Bytes} (h : c.step (.seal d tag typ payload padding) = .ok c') :
    Inv key c' ds := by
  obtain ⟨⟨k, f⟩, hs, h⟩ := Go.bind_eq_ok.1 h
  cases h
  obtain ⟨rfl, hf⟩ := Keys.seal_spec hs
  have hlast : f.ctr = c.sent.length := hf.ctr.trans hi.sendSeq
  refine ⟨hi.sendKey, hi.recvKey, ?_, fun g hg => ?_, fun g hg g' hg' heq => ?_, hi.size,
    hi.tracks, fun w hw => ?_, hi.accepts⟩
  · simp [hi.sendSeq]
  · rw [List.length_append, List.length_singleton]
    rcases List.mem_append.1 hg with hg | hg
    · exact ⟨(hi.sent g hg).1, Nat.lt_succ_of_lt (hi.sent g hg).2⟩
    · rw [List.mem_singleton.1 hg]
      exact ⟨hf.key.trans hi.sendKey, by omega⟩
  · rcases List.mem_append.1 hg with hg | hg <;> rcases List.mem_append.1 hg' with hg' | hg'
    · exact hi.ctr_inj g hg g' hg' heq
    · rw [List.mem_singleton.1 hg'] at heq
      have := (hi.sent g hg).2; omega
    · rw [List.mem_singleton.1 hg] at heq
      have := (hi.sent g' hg').2; omega
    · rw [List.mem_singleton.1 hg, List.mem_singleton.1 hg']
  · obtain ⟨f', hf', hw'⟩ := hi.accepted_sent w hw
    exact ⟨f', List.mem_append_left _ hf', hw'⟩

/-- Delivering a datagram keeps the invariant, with its sequence number as one more arrival when
it authenticates. -/
theorem Inv.deliver (hi : Inv key c ds) {wire : Bytes} (hid : c.Ideal (.deliver wire))
    (h : c.step (.deliver wire) = .ok c') :
    Inv key c' (ds ++ arrivals key [.deliver wire]) := by
  obtain ⟨⟨k, r⟩, ho, h⟩ := Go.bind_eq_ok.1 h
  have harr : arrivals key [.deliver wire] = (seqOf key wire).toList := by
    cases hs : seqOf key wire <;> simp [arrivals, hs]
  have hopen := Keys.open_spec ho
  rw [harr]
  cases hopen with
  | rejected e hn =>
    cases h
    rw [hi.recvKey] at hn
    simpa [seqOf, hn] using hi
  | replayed f hf hck =>
    cases h
    have hseq : seqOf key wire = some f.seq := by rw [← hi.recvKey, seqOf, hf]; rfl
    have hlt : f.seq < noHigh := Nat.lt_of_lt_of_le (seq_lt_of_authenticate hf) (by decide)
    have hfresh : ¬ Fresh replayWindowSize ds f.seq := by
      rcases hi.tracks.check f.seq with ⟨hc, -⟩ | ⟨-, hnf⟩
      · rw [hck] at hc; cases hc
      · rwa [hi.size] at hnf
    rw [hseq]
    exact { hi with
      tracks := hi.tracks.skip hlt (by rwa [hi.size])
      accepts := .skip hi.accepts hfresh }
  | accepted f w hf hck hadd hsize =>
    cases h
    have hseq : seqOf key wire = some f.seq := by rw [← hi.recvKey, seqOf, hf]; rfl
    obtain ⟨g, hg, rfl⟩ := hid (aeadOpen_of_authenticate hf)
    have hlt : f.seq < noHigh := Nat.lt_of_lt_of_le (seq_lt_of_authenticate hf) (by decide)
    have hfresh : Fresh replayWindowSize ds f.seq := by
      rcases hi.tracks.check f.seq with ⟨-, hfr⟩ | ⟨hc, -⟩
      · rwa [hi.size] at hfr
      · rw [hck] at hc; cases hc
    rw [hseq]
    refine { hi with
      size := hsize.trans hi.size
      tracks := hi.tracks.add hlt (by rwa [hi.size]) hadd hsize
      accepted_sent := fun w' hw' => ?_
      accepts := ?_ }
    · rcases List.mem_append.1 hw' with hw' | hw'
      · exact hi.accepted_sent w' hw'
      · exact ⟨g, hg, (List.mem_singleton.1 hw').symm⟩
    · simpa [hseq] using Accepts.take hi.accepts hfresh

theorem Inv.step (hi : Inv key c ds) (hid : c.Ideal e)
    (h : c.step e = .ok c') : Inv key c' (ds ++ arrivals key [e]) := by
  cases e with
  | «seal» d tag typ payload padding => simpa [arrivals] using hi.seal h
  | deliver wire => exact hi.deliver hid h

/-- The invariant along a run. -/
theorem Inv.run {isClient : Bool} {ks : S.Key × S.Key} {es : List Event}
    (h : ((lts S).restrict Ideal).Run (Channel.new S isClient ks) es c) :
    Inv (if isClient then ks.1 else ks.2) c
      (arrivals (S := S) (if isClient then ks.1 else ks.2) es) := by
  induction h with
  | nil => exact .new S isClient ks
  | snoc _ hstep ih =>
    rw [arrivals_snoc]
    exact ih.step hstep.1 hstep.2

/-! ### At most once -/

/-- Below `2 ^ 32` frames, accepted datagrams with the same sequence number are the same. -/
theorem Inv.wire_inj (hS : S.AeadLaws) (hi : Inv key c ds) (hlt : c.sent.length < 2 ^ 32) :
    ∀ w ∈ c.accepted, ∀ w' ∈ c.accepted,
      (seqOf key w).getD 0 = (seqOf key w').getD 0 → w = w' := by
  intro w hw w' hw' heq
  obtain ⟨f, hf, rfl⟩ := hi.accepted_sent w hw
  obtain ⟨f', hf', rfl⟩ := hi.accepted_sent w' hw'
  obtain ⟨rfl, hc⟩ := hi.sent f hf
  obtain ⟨hk', hc'⟩ := hi.sent f' hf'
  have h1 : f.seq = f.ctr := Nat.mod_eq_of_lt (by omega)
  have h2 : f'.seq = f'.ctr := Nat.mod_eq_of_lt (by omega)
  rw [seqOf_wire hS f, ← hk', seqOf_wire hS f', Option.getD_some, Option.getD_some] at heq
  rw [hi.ctr_inj f hf f' hf' (by omega)]

theorem Inv.nodup_iff (hS : S.AeadLaws) (hi : Inv key c ds) (hlt : c.sent.length < 2 ^ 32) :
    c.accepted.Nodup ↔ ¬ HasReplay replayWindowSize ds := by
  rw [← hi.accepts.nodup_iff (by decide)]
  exact ⟨fun h => h.map_on fun w hw w' hw' => hi.wire_inj hS hlt w hw w' hw', List.Nodup.of_map _⟩

/-- All accepted datagrams are sealed frames, so "each sealed frame at most once" is `Nodup`. -/
theorem Inv.count_le_one_iff (hi : Inv key c ds) :
    (∀ f ∈ c.sent, c.accepted.count f.wire ≤ 1) ↔ c.accepted.Nodup := by
  rw [List.nodup_iff_count_le_one]
  refine ⟨fun h w => ?_, fun h f _ => h f.wire⟩
  by_cases hw : w ∈ c.accepted
  · obtain ⟨f, hf, rfl⟩ := hi.accepted_sent w hw
    exact h f hf
  · rw [List.count_eq_zero_of_not_mem hw]
    exact Nat.zero_le _

/-! ### Every order of arrivals happens -/

/-- Any number of frames can be sealed. -/
theorem exists_seal_run (hS : S.AeadLaws) (isClient : Bool) (ks : S.Key × S.Key) (d : Draw)
    (n : ℕ) : ∃ es c, ((lts S).restrict Ideal).Run (Channel.new S isClient ks) es c ∧
      (∀ k : S.Key, arrivals k es = []) ∧ c.sent.map Sealed.ctr = List.range n := by
  induction n with
  | zero => exact ⟨[], _, .nil, fun _ => rfl, rfl⟩
  | succ n ih =>
    obtain ⟨es, c, hrun, harr, hctr⟩ := ih
    have hfits : nonceLen + (innerHeaderLen + ([] : Bytes).length + ([] : Bytes).length) + tagLen ≤
        maxWire := by decide
    obtain ⟨⟨k, f⟩, hf⟩ :=
      (Keys.seal_ok_iff hS.seal_length c.sender d default msgData [] []).2 hfits
    have hlen : c.sent.length = n := by
      rw [← List.length_map Sealed.ctr, hctr, List.length_range]
    have hnext : f.ctr = n := by
      rw [(Keys.seal_spec hf).2.ctr, (Inv.run hrun).sendSeq, hlen]
    refine ⟨es ++ [.seal d default msgData [] []],
      { c with sender := k, sent := c.sent ++ [f] }, hrun.snoc ⟨?_, ?_⟩, fun k => ?_, ?_⟩
    · trivial
    · change c.step _ = _
      simp only [step, hf, Go.ok_bind, Go.pure_eq_ok]
    · rw [arrivals_snoc, harr]; rfl
    · rw [List.map_append, hctr, List.range_succ, List.map_singleton, hnext]

/-- A sealed frame can be delivered at any time, any number of times. -/
theorem exists_deliver_run (hS : S.AeadLaws) {isClient : Bool} {ks : S.Key × S.Key}
    {es : List Event} (run : ((lts S).restrict Ideal).Run (Channel.new S isClient ks) es c)
    {f : Sealed S} (hf : f ∈ c.sent) :
    ∃ e c', ((lts S).restrict Ideal).Run (Channel.new S isClient ks) (es ++ [e]) c' ∧
      arrivals (S := S) (if isClient then ks.1 else ks.2) [e] = [f.seq] ∧ c'.sent = c.sent := by
  have hkey : f.key = if isClient then ks.1 else ks.2 := ((Inv.run run).sent f hf).1
  have harr : arrivals (S := S) (if isClient then ks.1 else ks.2) [.deliver f.wire] = [f.seq] := by
    rw [← hkey]
    simp [arrivals, seqOf_wire hS f]
  obtain ⟨k, r, ho, -⟩ := c.receiver.open_ok f.wire
  cases r with
  | error err =>
    refine ⟨.deliver f.wire, { c with receiver := k }, run.snoc ⟨fun _ => ⟨f, hf, rfl⟩, ?_⟩,
      harr, rfl⟩
    change c.step _ = _
    simp only [step, ho, Go.ok_bind, Go.pure_eq_ok]
  | ok g =>
    refine ⟨.deliver f.wire, { c with receiver := k, accepted := c.accepted ++ [f.wire] },
      run.snoc ⟨fun _ => ⟨f, hf, rfl⟩, ?_⟩, harr, rfl⟩
    change c.step _ = _
    simp only [step, ho, Go.ok_bind, Go.pure_eq_ok]

/-- **The network can produce every order of arrivals** of the frames sealed before. -/
theorem exists_run (hS : S.AeadLaws) (isClient : Bool) (ks : S.Key × S.Key) (d : Draw) {n : ℕ}
    (hn : n ≤ 2 ^ 32) (ds : List ℕ) (hds : ∀ s ∈ ds, s < n) :
    ∃ es c, ((lts S).restrict Ideal).Run (Channel.new S isClient ks) es c ∧ c.sent.length = n ∧
      arrivals (S := S) (if isClient then ks.1 else ks.2) es = ds := by
  -- the frames are sealed first; then the arrivals are appended one by one
  suffices h : ∃ es c, ((lts S).restrict Ideal).Run (Channel.new S isClient ks) es c ∧
      c.sent.map Sealed.ctr = List.range n ∧
      arrivals (S := S) (if isClient then ks.1 else ks.2) es = ds by
    obtain ⟨es, c, hrun, hctr, harr⟩ := h
    exact ⟨es, c, hrun, by rw [← List.length_map Sealed.ctr, hctr, List.length_range], harr⟩
  induction ds using List.reverseRecOn with
  | nil =>
    obtain ⟨es, c, hrun, harr, hctr⟩ := exists_seal_run hS isClient ks d n
    exact ⟨es, c, hrun, hctr, harr _⟩
  | append_singleton ds s ih =>
    obtain ⟨es, c, hrun, hctr, harr⟩ := ih fun t ht => hds t (List.mem_append_left _ ht)
    have hs : s < n := hds s (by simp)
    have hmem : s ∈ c.sent.map Sealed.ctr := by rw [hctr]; exact List.mem_range.2 hs
    obtain ⟨f, hf, rfl⟩ := List.mem_map.1 hmem
    obtain ⟨e, c', hrun', he, hsent⟩ := exists_deliver_run hS hrun hf
    refine ⟨es ++ [e], c', hrun', by rw [hsent, hctr], ?_⟩
    have hseq : f.seq = f.ctr := Nat.mod_eq_of_lt (by omega)
    rw [arrivals_snoc, harr, he, hseq]

/-- **At-most-once delivery.**  In a run under one key with fewer than `2 ^ 32` sealed frames,
every sealed frame is accepted at most once exactly when no sequence number arrives again after it
slid the window as a whole: after it arrived at least 2048 above everything before it, it does not
come back before the window has moved past it. -/
theorem accepted_once_iff (hS : S.AeadLaws) (isClient : Bool) (ks : S.Key × S.Key)
    {es : List Event} (run : ((lts S).restrict Ideal).Run (Channel.new S isClient ks) es c)
    (hlt : c.sent.length < 2 ^ 32) :
    (∀ f ∈ c.sent, c.accepted.count f.wire ≤ 1) ↔
      ¬ HasReplay replayWindowSize (arrivals (S := S) (if isClient then ks.1 else ks.2) es) := by
  have hi := Inv.run run
  rw [hi.count_le_one_iff, hi.nodup_iff hS hlt]

/-- Duplicates inside the window are caught: the frames 0, 2, 2, 1, 2 arrive, and each is accepted
at most once. -/
theorem accepted_once_of_duplicates : ∃ es c,
    ((lts plain).restrict Ideal).Run (Channel.new plain true (1, 129)) es c ∧
      arrivals (S := plain) 1 es = [0, 2, 2, 1, 2] ∧
      ∀ f ∈ c.sent, c.accepted.count f.wire ≤ 1 := by
  obtain ⟨es, c, hrun, hlen, harr⟩ := exists_run Plain.aeadLaws true (1, 129) default
    (n := 3) (by decide) [0, 2, 2, 1, 2] (by decide)
  refine ⟨es, c, hrun, harr, (accepted_once_iff Plain.aeadLaws true (1, 129) hrun (by omega)).2 ?_⟩
  rw [harr]
  -- no number is a whole window above another one
  rintro ⟨pre, s, post, he, -, pre', post', -, -, hle⟩
  have hmem : s ∈ [0, 2, 2, 1, 2] := by rw [he]; simp
  have hs : s ≤ 2 := (by decide : ∀ t ∈ [0, 2, 2, 1, 2], t ≤ 2) s hmem
  unfold replayWindowSize at hle
  omega

/-- **A frame that jumps the window is accepted twice.**  Of 2049 sealed frames the network delivers
the first one, then the last one, then the last one again. -/
theorem accepted_twice_after_jump : ∃ es c f,
    ((lts plain).restrict Ideal).Run (Channel.new plain true (1, 129)) es c ∧
      arrivals (S := plain) 1 es = [0, 2048, 2048] ∧ c.sent.length = 2049 ∧
      f ∈ c.sent ∧ 1 < c.accepted.count f.wire := by
  obtain ⟨es, c, hrun, hlen, harr⟩ := exists_run Plain.aeadLaws true (1, 129) default
    (n := 2049) (by decide) [0, 2048, 2048] (by decide)
  have hi := Inv.run hrun
  have hreplay : HasReplay replayWindowSize [0, 2048, 2048] :=
    ⟨[0, 2048], 2048, [], rfl, by decide, [0], [], rfl, by simp, by decide⟩
  have hnot : ¬ ∀ f ∈ c.sent, c.accepted.count f.wire ≤ 1 := by
    rw [hi.count_le_one_iff, hi.nodup_iff Plain.aeadLaws (by omega)]
    exact not_not.2 (harr.symm ▸ hreplay)
  push Not at hnot
  obtain ⟨f, hf, hcount⟩ := hnot
  exact ⟨es, c, f, hrun, harr, hlen, hf, hcount⟩

end Channel

end VibeVpn

import VibeVpn.Go.Map
import VibeVpn.Session.ServerRun
import VibeVpn.Transport.Carrier

/-!
# Admission of first messages

A first message costs the server a Diffie-Hellman computation, so `handshake1` limits the rate of
first messages from one address: beyond `handshakeRateLimit` of them within `handshakeRateWindow`
(`Manager.requireCookie`), a peer has to echo a cookie first.  The address comes from
`serverSession.peerIP`, which finds it only if the transport has the method `RemoteAddr`.

* `ServerSession.handshake1_eq` : `handshake1` takes one of three decisions (`Decision`) and acts on
  it; Noise is run exactly in the decision `noise`.
* `admission_iff` : **the rate limit is independent of the carrier and of the jitter only where
  there is nothing to depend on**: on a UDP endpoint without a zone and without jitter.
* `admission_bypassed` : with jitter, or over TLS, 21 first messages at once are all answered.
-/

namespace VibeVpn

/-! ### The rate limit -/

/-- `handshakeRateLimit`. -/
def handshakeRateLimit : ℕ := 20

/-- `handshakeRateWindow`, in nanoseconds. -/
def handshakeRateWindow : ℤ := 10 * 10 ^ 9

/-- `rateBucket`. -/
structure RateBucket where
  /-- `count`, a `uint32`. -/
  count : ℕ
  /-- `reset`. -/
  reset : ℤ
  deriving DecidableEq, Repr

/-- `Manager.cookieRate`. -/
abbrev CookieRate := GoMap Bytes RateBucket

/-- `requireCookie(ip)`; the clock is read once to compare and once to set a new limit. -/
def requireCookie (r : CookieRate) (now now' : ℤ) (ip : Bytes) : CookieRate × Bool :=
  let fresh := (r.insert ip { count := 1, reset := now' + handshakeRateWindow }, false)
  match r.lookup ip with
  | none => fresh
  | some b =>
    -- the bucket of a past window is overwritten
    if b.reset < now then fresh
    else
      let count := (b.count + 1) % 2 ^ 32
      (r.insert ip { b with count }, decide (handshakeRateLimit < count))

/-! ### The decision -/

/-- What `handshake1` decides about a message. -/
inductive Decision where
  /-- The message is no first message. -/
  | malformed
  /-- Answer with a cookie. -/
  | challenge (cookie : Bytes)
  /-- Run the Noise handshake on the message. -/
  | noise (m : Bytes)
  deriving DecidableEq, Repr

namespace ServerSession

variable {S : Suite}

/-- The decision of `handshake1`. -/
def decision (env : ServerEnv S) (s : ServerSession S) (data : Bytes) : Go Decision := do
  match ← splitCookie data with
  | none => pure .malformed
  | some (m, cookie) =>
    match challenge env s cookie with
    | some c => pure (.challenge c)
    | none => pure (.noise m)

/-- `handshake1` acts on its decision. -/
theorem handshake1_eq (cfg : ServerConfig) (env : ServerEnv S) {s : ServerSession S}
    (hk : s.keys = none) (hh : s.hs = none) (data : Bytes) :
    s.handshake1 cfg env data = (decision env s data).map fun
      | .malformed => (s, {}, some .fatal)
      | .challenge c => (s, sendRaw env c)
      | .noise m => respond cfg env s m := by
  obtain ⟨r, hr, -⟩ := splitCookie_eq data
  simp only [handshake1, decision, hk, hh, Option.isSome_none, Bool.or_self, Bool.false_eq_true,
    ↓reduceIte, hr, Go.ok_bind]
  cases r with
  | none => rfl
  | some mc =>
    dsimp only
    cases challenge env s mc.2 with
    | none => rfl
    | some c => rfl

end ServerSession

/-! ### Sequences of first messages -/

/-- A first message for a session that has not begun its handshake. -/
structure First (S : Suite) where
  /-- The session, but for its transport. -/
  session : ServerSession S
  /-- The rest of the outside, with the clock at the comparison. -/
  env : ServerEnv S
  /-- The clock when a new limit is set. -/
  now' : ℤ
  /-- The message. -/
  data : Bytes
  unkeyed : session.keys = none
  unanswered : session.hs = none

namespace First

variable {S : Suite}

/-- The session over a transport. -/
def sessionOver (i : First S) (t : Transport) : ServerSession S :=
  { i.session with peerIP := t.peerIP }

/-- The outside, with the manager's rate limit. -/
def gated (i : First S) (r : CookieRate) : ServerEnv S :=
  { i.env with requireCookie := fun ip => (requireCookie r i.env.now i.now' ip).2 }

/-- The decision about the message over a transport. -/
def decision (i : First S) (t : Transport) (r : CookieRate) : Go Decision :=
  (i.sessionOver t).decision (i.gated r) i.data

/-- The rate limit afterwards: messages without a cookie count. -/
def counted (i : First S) (t : Transport) (r : CookieRate) : CookieRate :=
  match t.peerIP with
  | none => r
  | some ip =>
    if i.data.length = ServerSession.hs1Len then (requireCookie r i.env.now i.now' ip).1 else r

/-- `handshake1` on the message. -/
theorem handshake1_over (i : First S) (cfg : ServerConfig) (t : Transport) (r : CookieRate) :
    (i.sessionOver t).handshake1 cfg (i.gated r) i.data = (i.decision t r).map fun
      | .malformed => (i.sessionOver t, {}, some .fatal)
      | .challenge c => (i.sessionOver t, ServerSession.sendRaw (i.gated r) c)
      | .noise m => ServerSession.respond cfg (i.gated r) (i.sessionOver t) m :=
  ServerSession.handshake1_eq (s := i.sessionOver t) cfg (i.gated r) i.unkeyed i.unanswered i.data

end First

/-- The decisions about a sequence of first messages over one transport. -/
def decisions {S : Suite} (t : Transport) : CookieRate → List (First S) → Go (List Decision)
  | _, [] => pure []
  | r, i :: is => do
    let d ← i.decision t r
    let ds ← decisions t (i.counted t r) is
    pure (d :: ds)

/-- A UDP endpoint whose address has no zone. -/
def Transport.IsPlainUdp (t : Transport) : Prop :=
  ∃ remote, t = .endpoint remote ∧ remote.addr.zone = ""

section Admission

variable {S : Suite} {t : Transport} {r : CookieRate} {i : First S}

theorem splitCookie_of_length {data : Bytes} (h : data.length = ServerSession.hs1Len) :
    ServerSession.splitCookie data = .ok (some (data, none)) := by
  have hne : data.length ≠ ServerSession.hs1Len + cookieLen := by
    rw [h]
    decide
  rw [ServerSession.splitCookie, if_neg hne, if_pos h]
  rfl

/-- Without an address there is no rate limit. -/
theorem First.decision_of_hidden (ht : t.peerIP = none)
    (hd : i.data.length = ServerSession.hs1Len) :
    i.decision t r = .ok (.noise i.data) := by
  have hpeer : (i.sessionOver t).peerIP = none := ht
  simp only [First.decision, ServerSession.decision, splitCookie_of_length hd, Go.ok_bind,
    ServerSession.challenge, hpeer]
  rfl

/-- With an address, a message without a cookie counts. -/
theorem First.decision_of_known {ip : Bytes} (ht : t.peerIP = some ip)
    (hd : i.data.length = ServerSession.hs1Len)
    (hr : (requireCookie r i.env.now i.now' ip).2 = true) :
    i.decision t r = .ok (.challenge (i.env.cookieFor ip)) := by
  have hpeer : (i.sessionOver t).peerIP = some ip := ht
  simp only [First.decision, ServerSession.decision, splitCookie_of_length hd, Go.ok_bind,
    ServerSession.challenge, hpeer, First.gated, hr, if_true]
  rfl

/-- A transport tells the address of its peer exactly when it is a UDP endpoint without a zone. -/
theorem Transport.peerIP_eq_some {ip : Bytes} :
    t.peerIP = some ip ↔ t.IsPlainUdp ∧ t.peer.addr.as16 = ip := by
  cases t with
  | endpoint remote =>
    by_cases hz : remote.addr.zone = "" <;>
      simp [peerIP, remoteAddr, AddrPort.parseHost, IsPlainUdp, peer, hz]
  | conn stream remote => simp [peerIP, remoteAddr, IsPlainUdp]
  | jitter max t => simp [peerIP, remoteAddr, IsPlainUdp]

/-- Jitter hides the address. -/
theorem Transport.peerIP_withJitter_eq_none {max : ℤ} (h : ¬ (t.IsPlainUdp ∧ max ≤ 0)) :
    (t.withJitter max).peerIP = none := by
  by_cases hmax : max ≤ 0
  · rw [t.withJitter_of_nonpos hmax]
    refine Option.eq_none_iff_forall_ne_some.2 fun ip hip => h ⟨?_, hmax⟩
    exact (Transport.peerIP_eq_some.1 hip).1
  · exact t.peerIP_withJitter_of_pos (Int.not_le.1 hmax)

/-- A rate limit that is exhausted for an address. -/
def exhausted (ip : Bytes) : CookieRate :=
  (∅ : CookieRate).insert ip { count := handshakeRateLimit, reset := 0 }

theorem requireCookie_exhausted (ip : Bytes) : (requireCookie (exhausted ip) 0 0 ip).2 = true := by
  have hb : (exhausted ip).lookup ip = some { count := handshakeRateLimit, reset := 0 } :=
    AList.lookup_insert _
  simp only [requireCookie, hb]
  rfl

/-- A first message without a cookie, at time 0. -/
def bareFirst (env : ServerEnv S) : First S where
  session := .new S 0 none 0
  env := { env with now := 0 }
  now' := 0
  data := List.replicate ServerSession.hs1Len 0
  unkeyed := rfl
  unanswered := rfl

/-- **The admission of first messages depends on the carrier and on its decorator**, unless the
carrier is a UDP endpoint whose address has no zone and there is no jitter: only then does jitter
change no decision, and only then is every message without a cookie kept from Noise while
`requireCookie` asks for one. -/
theorem admission_iff [Nonempty (ServerEnv S)] (t : Transport) (max : ℤ) :
    ((∀ (r : CookieRate) (is : List (First S)),
        decisions (t.withJitter max) r is = decisions t r is) ∧
      ∀ (r : CookieRate) (i : First S), i.data.length = ServerSession.hs1Len →
        (requireCookie r i.env.now i.now' t.peer.addr.as16).2 = true →
        ∀ m, i.decision (t.withJitter max) r ≠ .ok (.noise m)) ↔
      t.IsPlainUdp ∧ max ≤ 0 := by
  constructor
  · rintro ⟨-, hgate⟩
    by_contra hcond
    obtain ⟨env⟩ := ‹Nonempty (ServerEnv S)›
    -- without an address, even a message of an exhausted peer is let through
    have hhidden := Transport.peerIP_withJitter_eq_none hcond
    have hd : (bareFirst env).data.length = ServerSession.hs1Len := List.length_replicate
    exact hgate (exhausted t.peer.addr.as16) (bareFirst env) hd (requireCookie_exhausted _) _
      (First.decision_of_hidden hhidden hd)
  · rintro ⟨hplain, hmax⟩
    rw [t.withJitter_of_nonpos hmax]
    refine ⟨fun _ _ => rfl, fun r i hd hr m hnoise => ?_⟩
    have hpeer := Transport.peerIP_eq_some.2 ⟨hplain, rfl⟩
    rw [First.decision_of_known hpeer hd hr] at hnoise
    cases hnoise

end Admission

/-- The address 192.0.2.1:443. -/
def plainPeer : AddrPort where
  addr :=
    { as16 := [0, 0, 0, 0, 0, 0, 0, 0, 0, 0, 255, 255, 192, 0, 2, 1], is4 := true, zone := "" }
  port := 443

/-- Over UDP without jitter, a message without a cookie of a peer that has used up its limit does
not reach Noise. -/
theorem admission_iff_udp : (Transport.endpoint plainPeer).IsPlainUdp ∧
    (bareFirst (ServerSession.plainEnv 0 7)).decision (.endpoint plainPeer)
      (exhausted plainPeer.addr.as16) ≠ .ok (.noise (List.replicate 52 0)) := by
  have : Nonempty (ServerEnv plain) := ⟨ServerSession.plainEnv 0 7⟩
  have hplain : (Transport.endpoint plainPeer).IsPlainUdp := ⟨plainPeer, rfl, rfl⟩
  have hall := (admission_iff (S := plain) (.endpoint plainPeer) 0).2 ⟨hplain, Int.le_refl 0⟩
  exact ⟨hplain, hall.2 _ (bareFirst (ServerSession.plainEnv 0 7)) List.length_replicate
    (requireCookie_exhausted _) _⟩

/-- Of 21 first messages at once from one address, the last one is challenged over UDP and reaches
Noise over UDP with a jitter of 20 ms.  Where these have used up the limit, so does one over TLS,
although `requireCookie` asks for a cookie. -/
theorem admission_bypassed :
    let i := bareFirst (ServerSession.plainEnv 0 7)
    let is := List.replicate 21 i
    let noise := Decision.noise (List.replicate 52 0)
    let r := exhausted plainPeer.addr.as16
    decisions (.endpoint plainPeer) ∅ is = .ok (List.replicate 20 noise ++ [.challenge []]) ∧
    decisions (Transport.withJitter (.endpoint plainPeer) 20000000) ∅ is =
      .ok (List.replicate 21 noise) ∧
    (requireCookie r 0 0 plainPeer.addr.as16).2 = true ∧
    i.decision (.conn .tls plainPeer) r = .ok noise := by
  decide +kernel

end VibeVpn

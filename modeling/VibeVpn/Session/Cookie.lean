import VibeVpn.Session.Admission
import VibeVpn.Session.ClientSpec

/-!
# The cookie challenge

A client that sends too many first messages is challenged: `handshake1` answers with a *cookie*, an
HMAC over the client's address and the current time window, and goes on only when the client sends
its first message again with the cookie appended.  The format is not framed: the two kinds of first
message are told apart by their length.

`MakeCookie` and `CheckCookie` are those of `internal/crypto`, on an HMAC that is a parameter
(`Mac`).  The windows are made by Go's division, which truncates; so the window at the epoch has
twice the length of the others, and the formula with rounding down is that of clocks that show a
time after it.

* `Cookie.check_iff` : a cookie is accepted for one address and one window;
* `cookie_challenge` : **the challenge is answered, split and accepted as it was issued**: in its
  window and the next one, from the address it was issued for, and otherwise not.
-/

namespace VibeVpn

/-- HMAC-SHA256: the sum of a message under a secret. -/
structure Mac where
  /-- `hmac.New(sha256.New, secret)`, `Write` and `Sum(nil)`. -/
  sum : Bytes → Bytes → Bytes
  length_sum : ∀ secret m, (sum secret m).length = 32

/-- `time.Now().Unix()`, an `int64`. -/
structure UnixTime where
  /-- The seconds since the epoch. -/
  sec : ℤ
  ge : -2 ^ 63 ≤ sec
  lt : sec < 2 ^ 63

/-- `cookieWindowSeconds`. -/
def cookieWindowSeconds : ℤ := 3600

/-- `time.Now().Unix() / cookieWindowSeconds`. -/
def UnixTime.window (t : UnixTime) : ℤ := t.sec.tdiv cookieWindowSeconds

namespace Cookie

/-- What `MakeCookie` sums: the window as a `uint64`, and the address. -/
def input (clientIP : Bytes) (window : ℤ) : Bytes := be64 (window % 2 ^ 64).toNat ++ clientIP

/-- `MakeCookie(secret, clientIP, window)`. -/
def make (H : Mac) (secret clientIP : Bytes) (window : ℤ) : Bytes :=
  H.sum secret (input clientIP window)

/-- `CheckCookie(secret, clientIP, cookie, window)`. -/
def check (H : Mac) (secret clientIP cookie : Bytes) (window : ℤ) : Bool :=
  make H secret clientIP window == cookie

/-- The length of a `net.IP`. -/
def IsIP (ip : Bytes) : Prop := ip.length = 4 ∨ ip.length = 16

end Cookie

/-- The part of `Manager` that issues and checks cookies. -/
structure CookieOffice where
  /-- HMAC-SHA256. -/
  mac : Mac
  /-- `cookieSecret`. -/
  secret : Bytes

namespace CookieOffice

/-- `cookieFor(ip)`, at a time. -/
def cookieFor (m : CookieOffice) (now : UnixTime) (ip : Bytes) : Bytes :=
  Cookie.make m.mac m.secret ip now.window

/-- `validCookie(ip, cookie)`, at a time: the current window, or the one before. -/
def validCookie (m : CookieOffice) (now : UnixTime) (ip cookie : Bytes) : Bool :=
  if Cookie.check m.mac m.secret ip cookie now.window then true
  else Cookie.check m.mac m.secret ip cookie (now.window - 1)

/-- The HMAC is injective for the secret, on what cookies are made of. -/
def Injective (m : CookieOffice) : Prop :=
  ∀ ip ip' w w', Cookie.IsIP ip → Cookie.IsIP ip' →
    Cookie.make m.mac m.secret ip w = Cookie.make m.mac m.secret ip' w' →
    Cookie.input ip w = Cookie.input ip' w'

end CookieOffice

/-! ### Windows -/

namespace UnixTime

variable (t : UnixTime)

/-- A window fits an `int64`, and so does the one before. -/
theorem window_bounds : -2 ^ 62 ≤ t.window ∧ t.window < 2 ^ 62 := by
  have hge := t.ge
  have hlt := t.lt
  unfold window cookieWindowSeconds
  rcases Int.le_total 0 t.sec with h | h
  · rw [Int.tdiv_eq_ediv_of_nonneg h]
    omega
  · obtain ⟨s, hs⟩ : ∃ s, t.sec = -s := ⟨-t.sec, by omega⟩
    rw [hs, Int.neg_tdiv, Int.tdiv_eq_ediv_of_nonneg (by omega)]
    omega

/-- After the epoch, Go's division rounds down. -/
theorem window_eq (h : 0 ≤ t.sec) : t.window = t.sec / 3600 := Int.tdiv_eq_ediv_of_nonneg h

end UnixTime

/-! ### Cookies -/

namespace Cookie

variable {H : Mac} {secret ip ip' : Bytes} {w w' : ℤ}

theorem input_inj (hw : -2 ^ 63 ≤ w ∧ w < 2 ^ 63) (hw' : -2 ^ 63 ≤ w' ∧ w' < 2 ^ 63)
    (h : input ip w = input ip' w') : ip = ip' ∧ w = w' := by
  obtain ⟨hwin, hip⟩ := List.append_inj h (by simp)
  obtain ⟨hhigh, hlow⟩ := List.append_inj hwin (by simp)
  have hh := congrArg beVal hhigh
  have hl := congrArg beVal hlow
  rw [beVal_be32, beVal_be32] at hh hl
  exact ⟨hip, by omega⟩

end Cookie

namespace CookieOffice

variable {m : CookieOffice} {ip ip' : Bytes} {w w' : ℤ} {t t' : UnixTime}

/-- A cookie is accepted for the address and the window it was made for. -/
theorem check_iff (hm : m.Injective) (hip : Cookie.IsIP ip) (hip' : Cookie.IsIP ip')
    (hw : -2 ^ 63 ≤ w ∧ w < 2 ^ 63) (hw' : -2 ^ 63 ≤ w' ∧ w' < 2 ^ 63) :
    Cookie.check m.mac m.secret ip' (Cookie.make m.mac m.secret ip w) w' = true ↔
      ip' = ip ∧ w' = w := by
  unfold Cookie.check
  rw [beq_iff_eq]
  constructor
  · intro h
    exact Cookie.input_inj hw' hw (hm _ _ _ _ hip' hip h)
  · rintro ⟨rfl, rfl⟩
    rfl

theorem length_cookieFor (m : CookieOffice) (t : UnixTime) (ip : Bytes) :
    (m.cookieFor t ip).length = cookieLen := m.mac.length_sum _ _

/-- When a cookie is accepted. -/
theorem validCookie_iff (hm : m.Injective) (hip : Cookie.IsIP ip) (hip' : Cookie.IsIP ip') :
    m.validCookie t' ip' (m.cookieFor t ip) = true ↔
      ip' = ip ∧ (t'.window - t.window = 0 ∨ t'.window - t.window = 1) := by
  have hw := t.window_bounds
  have hw' := t'.window_bounds
  have hnow : Cookie.check m.mac m.secret ip' (m.cookieFor t ip) t'.window = true ↔
      ip' = ip ∧ t'.window = t.window := check_iff hm hip hip' (by omega) (by omega)
  have hlast : Cookie.check m.mac m.secret ip' (m.cookieFor t ip) (t'.window - 1) = true ↔
      ip' = ip ∧ t'.window - 1 = t.window := check_iff hm hip hip' (by omega) (by omega)
  unfold validCookie
  by_cases hc : Cookie.check m.mac m.secret ip' (m.cookieFor t ip) t'.window = true
  · obtain ⟨heq, hwin⟩ := hnow.1 hc
    rw [if_pos hc]
    exact ⟨fun _ => ⟨heq, .inl (by omega)⟩, fun _ => rfl⟩
  · rw [if_neg hc, hlast]
    rw [hnow] at hc
    constructor
    · rintro ⟨heq, hwin⟩
      exact ⟨heq, by omega⟩
    · rintro ⟨heq, hwin | hwin⟩
      · exact absurd ⟨heq, by omega⟩ hc
      · exact ⟨heq, by omega⟩

end CookieOffice

/-! ### The challenge -/

section Challenge

variable {S : Suite}

/-- A first message with a cookie is split where it was put together. -/
theorem splitCookie_append {m₁ cookie : Bytes} (hm : m₁.length = ServerSession.hs1Len)
    (hc : cookie.length = cookieLen) :
    ServerSession.splitCookie (m₁ ++ cookie) = .ok (some (m₁, some cookie)) := by
  have hlen : (m₁ ++ cookie).length = m₁.length + cookieLen := by rw [List.length_append, hc]
  unfold ServerSession.splitCookie
  rw [if_pos (by rw [hlen, hm]), slice_ok (Nat.sub_le _ _) (Nat.le_refl _),
    slice_ok (Nat.zero_le _) (Nat.sub_le _ _), List.take_length, hlen, Nat.add_sub_cancel,
    List.drop_left, List.take_left]
  rfl

/-- The outside of a server session at a time, with the cookies of the manager. -/
def ServerEnv.withCookies (env : ServerEnv S) (m : CookieOffice) (now : UnixTime) : ServerEnv S :=
  { env with cookieFor := m.cookieFor now, validCookie := m.validCookie now }

/-- A challenged client sends its first message again, with the cookie. -/
theorem Client.step_challenged {c : Client S} {hs : S.HS} {m₁ cookie : Bytes} {tag : Byte4}
    {start since : ℤ} (hp : c.phase = .waitReply hs m₁ false tag start since) (ht : c.t = true)
    (hm : m₁.length = ServerSession.hs1Len) (hlen : cookie.length = cookieLen)
    (hread : S.read hs cookie = none) (cfg : ClientConfig) (env : ClientEnv S) :
    ∃ c', c.step cfg env (.recv (some cookie)) =
      .ok (c', { raw := [(m₁ ++ cookie, env.send.ok)] }) := by
  have hfits : ¬ ((m₁ ++ cookie).length = 0 ∨ maxPayload < (m₁ ++ cookie).length) := by
    rw [List.length_append, hm, hlen]
    decide
  have hsend : c.sendRaw env.send (m₁ ++ cookie) =
      .ok ({ raw := [(m₁ ++ cookie, env.send.ok)] }, env.send.ok) := by
    rw [sendRaw, if_neg hfits, ht]
    rfl
  have hstep : c.step cfg env (.recv (some cookie)) =
      c.recvReply env hs m₁ false tag start since cookie := by
    unfold step
    rw [hp]
  rw [hstep, recvReply, hread]
  dsimp only
  rw [if_pos ⟨hlen, rfl⟩, hsend, Go.ok_bind]
  cases env.send.ok with
  | true => exact ⟨_, rfl⟩
  | false => exact ⟨_, rfl⟩

/-- `handshake1` on a first message with a cookie. -/
theorem ServerSession.decision_cookie {s : ServerSession S} {ip m₁ cookie : Bytes}
    (hip : s.peerIP = some ip) (hm : m₁.length = ServerSession.hs1Len)
    (hlen : cookie.length = cookieLen) (env : ServerEnv S) :
    s.decision env (m₁ ++ cookie) = .ok (if env.validCookie ip cookie then .noise m₁
      else .challenge (env.cookieFor ip)) := by
  simp only [decision, splitCookie_append hm hlen, Go.ok_bind, challenge, hip]
  cases env.validCookie ip cookie with
  | true => rfl
  | false => rfl

/-- **The cookie challenge.**  A client waits for the reply to its first message of 52 bytes and
gets a challenge that was issued for its address at the time `t`, which it cannot read as a reply:
it sends the message with the cookie appended.  `handshake1` splits that into the message and the
cookie, and at a time `t'` from `t` on it runs the handshake, for the address, exactly in the window
of the challenge and the next one; after the epoch that is when `t' / 3600 - t / 3600` is 0 or 1, so
always within 3600 seconds and never from 7200 seconds on.  From another address the cookie is not
accepted. -/
theorem cookie_challenge {m : CookieOffice} (hm : m.Injective) {ip : Bytes} (hip : Cookie.IsIP ip)
    {t t' : UnixTime} (hle : t.sec ≤ t'.sec)
    {c : Client S} {hs : S.HS} {m₁ : Bytes} {tag : Byte4} {start since : ℤ}
    (hp : c.phase = .waitReply hs m₁ false tag start since) (ht : c.t = true)
    (hm₁ : m₁.length = 52) (hread : S.read hs (m.cookieFor t ip) = none)
    {s : ServerSession S} (hpeer : s.peerIP = some ip)
    (cfg : ClientConfig) (env : ClientEnv S) (senv : ServerEnv S) :
    (∃ c', c.step cfg env (.recv (some (m.cookieFor t ip))) =
      .ok (c', { raw := [(m₁ ++ m.cookieFor t ip, env.send.ok)] })) ∧
    ServerSession.splitCookie (m₁ ++ m.cookieFor t ip) =
      .ok (some (m₁, some (m.cookieFor t ip))) ∧
    s.decision (senv.withCookies m t') (m₁ ++ m.cookieFor t ip) =
      .ok (if m.validCookie t' ip (m.cookieFor t ip) then .noise m₁
        else .challenge (m.cookieFor t' ip)) ∧
    (m.validCookie t' ip (m.cookieFor t ip) = true ↔
      t'.window - t.window = 0 ∨ t'.window - t.window = 1) ∧
    (0 ≤ t.sec →
      (m.validCookie t' ip (m.cookieFor t ip) = true ↔
        t'.sec / 3600 - t.sec / 3600 = 0 ∨ t'.sec / 3600 - t.sec / 3600 = 1) ∧
      (t'.sec ≤ t.sec + 3600 → m.validCookie t' ip (m.cookieFor t ip) = true) ∧
      (t.sec + 7200 ≤ t'.sec → m.validCookie t' ip (m.cookieFor t ip) = false)) ∧
    ∀ ip', Cookie.IsIP ip' → ip' ≠ ip → m.validCookie t' ip' (m.cookieFor t ip) = false := by
  have hlen := m.length_cookieFor t ip
  have hvalid : m.validCookie t' ip (m.cookieFor t ip) = true ↔
      t'.window - t.window = 0 ∨ t'.window - t.window = 1 := by
    rw [CookieOffice.validCookie_iff hm hip hip]
    simp
  refine ⟨Client.step_challenged hp ht hm₁ hlen hread cfg env, splitCookie_append hm₁ hlen,
    ServerSession.decision_cookie hpeer hm₁ hlen _, hvalid, fun hepoch => ?_,
    fun ip' hip' hne => ?_⟩
  · rw [t.window_eq hepoch, t'.window_eq (by omega)] at hvalid
    refine ⟨hvalid, fun hwithin => hvalid.2 (by omega), fun hafter => ?_⟩
    rw [← Bool.not_eq_true, hvalid]
    omega
  · rw [← Bool.not_eq_true, CookieOffice.validCookie_iff hm hip hip']
    exact fun h => hne h.1

end Challenge

/-! ### An HMAC that hides nothing -/

/-- The message in 31 bytes, followed by its length. -/
def plainMac : Mac where
  sum _ m := (m ++ List.replicate 31 0).take 31 ++ [UInt8.ofNat m.length]
  length_sum _ m := by simp

theorem plainMac_injective : (CookieOffice.mk plainMac []).Injective := by
  intro ip ip' w w' hip hip' h
  obtain ⟨htake, hlen⟩ := List.append_inj h (by simp)
  have hlen' : (Cookie.input ip w).length = (Cookie.input ip' w').length := by
    have := congrArg UInt8.toNat (List.cons.inj hlen).1
    simp only [UInt8.toNat_ofNat', Cookie.input, List.length_append, length_be64] at this ⊢
    unfold Cookie.IsIP at hip hip'
    omega
  have hshort : ∀ {ip : Bytes} {w : ℤ}, Cookie.IsIP ip → (Cookie.input ip w).length ≤ 31 := by
    intro ip w hip
    simp only [Cookie.input, List.length_append, length_be64]
    unfold Cookie.IsIP at hip
    omega
  have hprefix := congrArg (List.take (Cookie.input ip w).length) htake
  rw [List.take_take, List.take_take, Nat.min_eq_left (hshort hip), List.take_left, hlen',
    List.take_left] at hprefix
  exact hprefix

/-- A client of the plain suite that was challenged at 3599 s sends its message with the cookie;
that is accepted one second later, in the next window, and not at 7200 s. -/
theorem cookie_challenge_next :
    let m := CookieOffice.mk plainMac []
    let ip : Bytes := [192, 0, 2, 1]
    let t : UnixTime := ⟨3599, by decide, by decide⟩
    let t₁ : UnixTime := ⟨3600, by decide, by decide⟩
    let t₂ : UnixTime := ⟨7200, by decide, by decide⟩
    (m.cookieFor t ip).length = 32 ∧ m.validCookie t₁ ip (m.cookieFor t ip) = true ∧
    m.validCookie t₂ ip (m.cookieFor t ip) = false := by
  intro m ip t t₁ t₂
  obtain ⟨c, o, -, hp, ht⟩ : ∃ c o, (Client.new plain).step Client.plainConfig
      (Client.plainEnv 0 7) .retry = .ok (c, o) ∧
      c.phase = .waitReply (.sent1 ⟨[41], [42]⟩ 7) (Plain.message [1, 7] [1, 2, 3, 4]) false
        ⟨1, 2, 3, 4⟩ 0 0 ∧ c.t = true := ⟨_, _, rfl, rfl, rfl⟩
  have hchallenge : ∀ t' : UnixTime, t.sec ≤ t'.sec →
      (m.validCookie t' ip (m.cookieFor t ip) = true ↔
        t'.sec / 3600 - t.sec / 3600 = 0 ∨ t'.sec / 3600 - t.sec / 3600 = 1) := fun t' hle =>
    ((cookie_challenge (s := .new plain 0 (some ip) 0) plainMac_injective (.inl rfl) hle hp ht
      (by decide) (by decide) rfl Client.plainConfig (Client.plainEnv 0 7)
      (ServerSession.plainEnv 0 7)).2.2.2.2.1 (by decide)).1
  refine ⟨m.length_cookieFor t ip, (hchallenge t₁ (by decide)).2 (by decide), ?_⟩
  rw [← Bool.not_eq_true, hchallenge t₂ (by decide)]
  decide

end VibeVpn

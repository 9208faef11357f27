import VibeVpn.Session.Endpoint
import VibeVpn.Net.Ippkt

/-!
# The server's side of a session

`serverSession` of `internal/session/server.go`: the run loop (`step`), which hands each datagram
to `handle`, and the handlers of the handshake, of rekeys and of data.  All that the session asks
of the outside in one event is in a `ServerEnv`: the clock, what is drawn at random, the outcome of
`Send` and `WritePacket`, and the answers of the `Manager` (cookies, allowlist, address pool).

* `ServerSession.handle_spec` : what handling a datagram does, case by case (`Handles`).
-/

namespace VibeVpn

/-- The part of `ServerConfig` and `Manager` that a session reads. -/
structure ServerConfig where
  /-- `Keypair`. -/
  keypair : Keypair
  /-- `MTU`. -/
  mtu : ℤ
  /-- `SessionTimeout`, in nanoseconds. -/
  sessionTimeout : ℤ
  /-- `HandshakeTimeout`, in nanoseconds. -/
  handshakeTimeout : ℤ
  /-- `Shaping`. -/
  shaping : Shaping
  /-- `Manager.prefix`. -/
  prefixLen : ℕ
  /-- `Manager.gw`. -/
  gw : Byte4

/-- The outside's part in one event of a server session. -/
structure ServerEnv (S : Suite) where
  /-- The clock. -/
  now : ℤ
  /-- What `Handshake.Write` draws. -/
  seed : S.Seed
  /-- The frame or message sent. -/
  send : SendEnv
  /-- The frame sent when the run loop ends. -/
  last : SendEnv
  /-- `TUN.WritePacket` returned `nil`. -/
  tunOk : Bool
  /-- `Manager.requireCookie`, for a client address. -/
  requireCookie : Bytes → Bool
  /-- `Manager.validCookie`, for a client address and a cookie. -/
  validCookie : Bytes → Bytes → Bool
  /-- `Manager.cookieFor`, for a client address. -/
  cookieFor : Bytes → Bytes
  /-- `Manager.allowPeer`, for a static key. -/
  allowPeer : Bytes → Bool
  /-- The address `Manager.adopt` gives a session with this static key, `none` when it fails; it may
  also panic. -/
  adopt : Bytes → Go (Option Byte4)
  /-- The eight bytes `cryptoRandInt` reads for the size of a decoy. -/
  decoyLen : UInt64
  /-- The bytes of a decoy. -/
  decoyFill : ℕ → UInt8

/-- `serverSession`. -/
structure ServerSession (S : Suite) extends Endpoint S where
  /-- `sid`. -/
  sid : ℕ
  /-- `created`. -/
  created : ℤ
  /-- `peerIP()`, a constant of the transport. -/
  peerIP : Option Bytes
  /-- `hs`. -/
  hs : Option S.HS
  /-- `clientKey`. -/
  clientKey : Option Bytes
  /-- `ip`. -/
  ip : Option Byte4
  /-- `rekeyStart`. -/
  rekeyStart : ℤ

/-- The errors a handler of the session returns. -/
inductive SessionErr where
  /-- `errFatal`: "session: fatal". -/
  | fatal
  /-- "session: payload too large". -/
  | tooLarge
  /-- An error of the transport's `Send`. -/
  | send
  deriving DecidableEq, Repr

/-- `cryptoRandInt(n)` on the drawn bytes `u`. -/
def cryptoRandInt (n : ℤ) (u : UInt64) : ℤ :=
  let v := Int.bmod u.toNat (2 ^ 64)
  let v := if v < 0 then Int.bmod (-v) (2 ^ 64) else v
  v.tmod n

/-- The payload of a decoy: `16 + cryptoRandInt(64)` random bytes. -/
def decoyPayload (len : UInt64) (fill : ℕ → UInt8) : Bytes :=
  (List.range (16 + cryptoRandInt 64 len).toNat).map fill

/-- `assignPayload(prefix, ip, gw)`. -/
def assignPayload (prefixLen : ℕ) (ip gw : Byte4) : Bytes :=
  UInt8.ofNat prefixLen :: (ip.toBytes ++ gw.toBytes)

@[simp] theorem length_assignPayload (n : ℕ) (ip gw : Byte4) :
    (assignPayload n ip gw).length = 9 := by
  simp [assignPayload]

namespace ServerSession

variable {S : Suite}

/-- A session right after `HandleTransport` has registered it. -/
def new (S : Suite) (sid : ℕ) (peerIP : Option Bytes) (now : ℤ) : ServerSession S where
  keys := none
  tag := default
  rekeying := false
  rekeyHs := none
  stats := {}
  lastRecv := now
  lastDataSend := 0
  sid := sid
  created := now
  peerIP := peerIP
  hs := none
  clientKey := none
  ip := none
  rekeyStart := 0

/-- What a handler returns: the session afterwards, the output and the error. -/
abbrev Res (S : Suite) := ServerSession S × Out S × Option SessionErr

/-- `encryptSend(typ, pt)`. -/
def encryptSend (cfg : ServerConfig) (now : ℤ) (e : SendEnv) (s : ServerSession S) (typ : UInt8)
    (pt : Bytes) : Go (ServerSession S × Out S) := do
  let (ep, frames, _) ← s.toEndpoint.encryptSend cfg.shaping true now e typ pt
  pure ({ s with toEndpoint := ep }, { frames })

/-- `sendRaw(b)`. -/
def sendRaw (env : ServerEnv S) (b : Bytes) : Out S × Option SessionErr :=
  if b.length = 0 ∨ maxPayload < b.length then ({}, some .tooLarge)
  else ({ raw := [(b, env.send.ok)] }, if env.send.ok then none else some .send)

/-- The size of a first message without and with a cookie. -/
def hs1Len : ℕ := 52

/-- Split a first message into the Noise message and the cookie. -/
def splitCookie (data : Bytes) : Go (Option (Bytes × Option Bytes)) :=
  if data.length = hs1Len + cookieLen then do
    let cookie ← slice data (data.length - cookieLen) data.length
    let m ← slice data 0 (data.length - cookieLen)
    pure (some (m, some cookie))
  else if data.length = hs1Len then pure (some (data, none))
  else pure none

/-- The cookie to answer with instead of running the handshake, if any. -/
def challenge (env : ServerEnv S) (s : ServerSession S) (cookie : Option Bytes) : Option Bytes :=
  match s.peerIP, cookie with
  -- a transport without `RemoteAddr`: nothing to hold the rate or a cookie against
  | none, _ => none
  | some ip, none => if env.requireCookie ip then some (env.cookieFor ip) else none
  | some ip, some c => if env.validCookie ip c then none else some (env.cookieFor ip)

/-- The Noise part of `handshake1`. -/
def respond (cfg : ServerConfig) (env : ServerEnv S) (s : ServerSession S) (m : Bytes) : Res S :=
  match S.newServerHandshake cfg.keypair with
  | none => (s, {}, some .fatal)
  | some r =>
    match S.read r m with
    | none => (s, {}, some .fatal)
    | some st =>
      if st.out.length ≠ 4 then (s, {}, some .fatal)
      else
        let s := { s with tag := Byte4.copyOf st.out }
        match S.write st.hs env.seed [] with
        -- the tag stays, and the next datagram is taken for a first message again
        | none => (s, {}, none)
        | some st₂ => ({ s with hs := some st₂.hs }, sendRaw env st₂.out)

/-- `handshake1(data)`: the first message. -/
def handshake1 (cfg : ServerConfig) (env : ServerEnv S) (s : ServerSession S) (data : Bytes) :
    Go (Res S) :=
  if s.hs.isSome || s.keys.isSome then pure (s, {}, none)
  else do
    match ← splitCookie data with
    | none => pure (s, {}, some .fatal)
    | some (m, cookie) =>
      match challenge env s cookie with
      | some c => pure (s, sendRaw env c)
      | none => pure (respond cfg env s m)

/-- `handshake3(data)`: the third message. -/
def handshake3 (cfg : ServerConfig) (env : ServerEnv S) (s : ServerSession S) (data : Bytes) :
    Go (Res S) :=
  match s.hs with
  | none => pure (s, {}, none)
  | some h =>
    match S.read h data with
    | none => pure (s, {}, some .fatal)
    | some st =>
      let key := S.peerStatic st.hs
      -- the key is stored before it is looked up in the list
      let s := { s with hs := some st.hs, clientKey := some key }
      if !env.allowPeer key then pure (s, {}, some .fatal)
      else do
        match ← env.adopt key with
        | none => pure (s, {}, some .fatal)
        | some ip =>
          match st.keys with
          -- `newKeys` dereferences the cipher states unchecked
          | none => throw .nilDeref
          | some ks =>
            let s := { s with ip := some ip, keys := some (newKeys S false ks), hs := none }
            let (s, o) ← s.encryptSend cfg env.now env.send msgAssign
              (assignPayload cfg.prefixLen ip cfg.gw)
            pure (s, { o with installed := [ks] }, none)

/-- `rekey1(noiseMsg)`. -/
def rekey1 (cfg : ServerConfig) (env : ServerEnv S) (s : ServerSession S) (noiseMsg : Bytes) :
    Go (Res S) :=
  if s.keys.isNone || s.rekeying then pure (s, {}, none)
  else match S.newServerHandshake cfg.keypair with
    | none => pure (s, {}, none)
    | some r =>
      match S.read r noiseMsg with
      | none => pure (s, {}, none)
      | some st =>
        match S.write st.hs env.seed [] with
        | none => pure (s, {}, none)
        | some st₂ => do
          let s := { s with rekeyHs := some st₂.hs, rekeying := true, rekeyStart := env.now }
          let (s, o) ← s.encryptSend cfg env.now env.send msgRekey2 st₂.out
          pure (s, o, none)

/-- Give up a rekey; the old keys stay. -/
def abortRekey (s : ServerSession S) : ServerSession S :=
  { s with rekeying := false, rekeyHs := none }

/-- `rekey3(noiseMsg)`. -/
def rekey3 (s : ServerSession S) (noiseMsg : Bytes) : Go (Res S) :=
  match s.rekeying, s.rekeyHs with
  | true, some h =>
    match S.read h noiseMsg with
    | none => pure (s.abortRekey, {}, none)
    | some st =>
      if S.peerStatic st.hs ≠ s.clientKey.getD [] then pure (s.abortRekey, {}, none)
      else match st.keys with
        | none => throw .nilDeref
        | some ks => pure
            ({ s with
              keys := some (newKeys S false ks)
              rekeying := false
              rekeyHs := none
              stats := { s.stats with rekeys := s.stats.rekeys + 1 } }, { installed := [ks] }, none)
  | _, _ => pure (s, {}, none)

/-- Count a dropped packet. -/
def drop (s : ServerSession S) : ServerSession S := { s with stats := s.stats.dropped }

/-- `handleData(pt)`. -/
def handleData (cfg : ServerConfig) (env : ServerEnv S) (s : ServerSession S) (pt : Bytes) :
    Go (Res S) :=
  if s.keys.isNone then pure (s, {}, none)
  else match s.ip with
    | none => pure (s.drop, {}, none)
    | some ip =>
      if cfg.mtu < pt.length then pure (s.drop, {}, none)
      else do
        match ← Header.parse pt with
        | none => pure (s.drop, {}, none)
        | some h =>
          -- against the session's own address; the registry is not asked
          if h.src ≠ ip then pure (s.drop, {}, none)
          else if !env.tunOk then pure (s, { tun := [(pt, false)] }, none)
          else pure ({ s with stats := s.stats.received pt.length }, { tun := [(pt, true)] }, none)

/-- `handleKeepalive(pt)`: echo the payload. -/
def handleKeepalive (cfg : ServerConfig) (env : ServerEnv S) (s : ServerSession S) (pt : Bytes) :
    Go (Res S) := do
  let (s, o) ← s.encryptSend cfg env.now env.send msgKeepalive pt
  pure (s, o, none)

/-- The dispatch of `handle` on an accepted frame. -/
def dispatch (cfg : ServerConfig) (env : ServerEnv S) (s : ServerSession S) (f : Frame) :
    Go (Res S) :=
  if f.typ = msgData then s.handleData cfg env f.payload
  else if f.typ = msgKeepalive then s.handleKeepalive cfg env f.payload
  else if f.typ = msgClose then pure (s, {}, some .fatal)
  else if f.typ = msgDecoy then pure (s, {}, none)
  else if f.typ = msgRekey1 then s.rekey1 cfg env f.payload
  else if f.typ = msgRekey3 then s.rekey3 f.payload
  else pure (s, {}, none)

/-- `handle(data)`: a raw Noise message before the handshake completes, a session frame
afterwards. -/
def handle (cfg : ServerConfig) (env : ServerEnv S) (s : ServerSession S) (data : Bytes) :
    Go (Res S) :=
  match s.keys with
  | none => if s.hs.isNone then s.handshake1 cfg env data else s.handshake3 cfg env data
  | some k => do
    let (k, r) ← k.open data
    let s := { s with keys := some k }
    match r with
    | .error _ => pure (s.drop, {}, none)
    | .ok f => if f.tag ≠ s.tag then pure (s.drop, {}, none) else s.dispatch cfg env f

/-! ### The run loop -/

/-- What the run loop of a session can be woken by. -/
inductive Event where
  /-- `ctx` is done. -/
  | cancel
  /-- A datagram arrived, or the transport failed. -/
  | recv (data : Option Bytes)
  /-- A packet for the client. -/
  | reply (pkt : Bytes)
  /-- The one-second ticker. -/
  | tick
  /-- The decoy timer. -/
  | decoy
  deriving DecidableEq

/-- A datagram arrives. -/
def Event.isDatagram : Event → Bool
  | .recv (some _) => true
  | _ => false

/-- `drainRecv`: handle one datagram; the flag says whether to keep running. -/
def drainRecv (cfg : ServerConfig) (env : ServerEnv S) (s : ServerSession S) :
    Option Bytes → Go (ServerSession S × Out S × Bool)
  | none => pure (s, {}, false)
  | some data => do
    -- whatever arrives counts as a sign of life, authentic or not
    let (s, o, err) ← { s with lastRecv := env.now }.handle cfg env data
    pure (s, o, err ≠ some .fatal)

/-- `sendClose`. -/
def sendClose (cfg : ServerConfig) (now : ℤ) (e : SendEnv) (s : ServerSession S) :
    Go (ServerSession S × Out S) :=
  s.encryptSend cfg now e msgClose []

/-- The one-second ticker: the handshake timeout, the idle timeout and the rekey timeout. -/
def tick (cfg : ServerConfig) (env : ServerEnv S) (s : ServerSession S) :
    Go (ServerSession S × Out S × Bool) :=
  if s.keys.isNone ∧ cfg.handshakeTimeout < env.now - s.created then pure (s, {}, false)
  -- `finish` then says goodbye a second time
  else if cfg.sessionTimeout < env.now - s.lastRecv then do
    let (s, o) ← s.sendClose cfg env.now env.send
    pure (s, o, false)
  else if s.rekeying ∧ cfg.handshakeTimeout < env.now - s.rekeyStart then
    pure (s.abortRekey, {}, true)
  else pure (s, {}, true)

/-- One iteration of the run loop. -/
def loop (cfg : ServerConfig) (env : ServerEnv S) (s : ServerSession S) :
    Event → Go (ServerSession S × Out S × Bool)
  | .cancel => pure (s, {}, false)
  | .recv data => s.drainRecv cfg env data
  | .reply pkt =>
    if s.keys.isSome ∧ s.ip.isSome then do
      let (s, o) ← s.encryptSend cfg env.now env.send msgData pkt
      pure (s, o, true)
    else pure (s, {}, true)
  | .tick => s.tick cfg env
  | .decoy =>
    if s.keys.isSome ∧ !s.rekeying ∧ cfg.shaping.decoyInterval ≤ env.now - s.lastDataSend then do
      let (s, o) ← s.encryptSend cfg env.now env.send msgDecoy
        (decoyPayload env.decoyLen env.decoyFill)
      pure (s, o, true)
    else pure (s, {}, true)

/-- `sendCloseQuiet`, which `finish` runs when the loop has ended. -/
def sendCloseQuiet (cfg : ServerConfig) (env : ServerEnv S) (s : ServerSession S) :
    Go (ServerSession S × Out S) :=
  if s.keys.isSome ∧ !s.rekeying then s.encryptSend cfg env.now env.last msgClose []
  else pure (s, {})

/-- One event of a session: an iteration of the run loop, and `finish` when it was the last. -/
def step (cfg : ServerConfig) (env : ServerEnv S) (s : ServerSession S) (e : Event) :
    Go (ServerSession S × Out S × Bool) := do
  let (s, o, running) ← s.loop cfg env e
  if running then pure (s, o, true)
  else do
    let (s, o') ← s.sendCloseQuiet cfg env
    pure (s, o.append o', false)

end ServerSession

end VibeVpn

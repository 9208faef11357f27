import VibeVpn.Session.Endpoint
import VibeVpn.Session.Server

/-!
# The client

`Client` of `internal/session/client.go`.  `Client.Run` is a loop nested in which are the waits of
a connection attempt; the model makes the place where it waits explicit (`Phase`), so that every
wake-up is one `step`: a retry timer, a datagram or a transport error, a handshake timeout, a TUN
packet, the keepalive ticker, the decoy timer, or the cancelled context.
-/

namespace VibeVpn

/-- The part of `ClientConfig` the run loop reads. -/
structure ClientConfig where
  /-- `Keypair`. -/
  keypair : Keypair
  /-- `ServerPublic`. -/
  serverPublic : Bytes
  /-- `MTU`. -/
  mtu : ℤ
  /-- `SessionTimeout`, in nanoseconds. -/
  sessionTimeout : ℤ
  /-- `HandshakeTimeout`, in nanoseconds. -/
  handshakeTimeout : ℤ
  /-- `RekeyAfterPackets`. -/
  rekeyAfterPackets : ℕ
  /-- `RekeyAfterTime`, in nanoseconds. -/
  rekeyAfterTime : ℤ
  /-- `Shaping`. -/
  shaping : Shaping

/-- The outside's part in one event of the client. -/
structure ClientEnv (S : Suite) where
  /-- The clock. -/
  now : ℤ
  /-- `Dial` succeeded. -/
  dialOk : Bool
  /-- `randomTag()`. -/
  tag : Byte4
  /-- What `Handshake.Write` draws. -/
  seed : S.Seed
  /-- The first frame or message sent. -/
  send : SendEnv
  /-- The second frame sent: the first message of a rekey, after a keepalive. -/
  send₂ : SendEnv
  /-- `TUN.WritePacket` returned `nil`. -/
  tunOk : Bool
  /-- The eight bytes `cryptoRandInt` reads for the size of a decoy. -/
  decoyLen : UInt64
  /-- The bytes of a decoy. -/
  decoyFill : ℕ → UInt8

/-- Where the client waits. -/
inductive Phase (S : Suite) where
  /-- For the retry timer, in `Run` or in `reconnect`. -/
  | backoff
  /-- In `waitHandshakeReply`, with the handshake, the first message as sent last, whether it
  carried a cookie, the tag, the start of the handshake and of the wait. -/
  | waitReply (hs : S.HS) (m₁ : Bytes) (cookie : Bool) (tag : Byte4) (start since : ℤ)
  /-- In `waitAssign`, with the start of the handshake and of the wait. -/
  | waitAssign (start since : ℤ)
  /-- In the main loop. -/
  | running
  /-- `Run` has returned. -/
  | stopped

/-- `Client`. -/
structure Client (S : Suite) extends Endpoint S where
  /-- `t != nil`. -/
  t : Bool
  /-- `ip`. -/
  ip : Option Byte4
  /-- `gw`. -/
  gw : Option Byte4
  /-- `prefix`. -/
  prefixLen : ℕ
  /-- `connected`. -/
  connected : Bool
  /-- `lastRekey`. -/
  lastRekey : ℤ
  /-- The main loop has been entered. -/
  started : Bool
  /-- Where the client waits. -/
  phase : Phase S

/-- `maxWireSeq`. -/
def maxWireSeq : ℕ := 2 ^ 32 - 1024

/-- The send counter at which `maybeRekey` starts a rekey: `RekeyAfterPackets`, and `maxWireSeq` at
the latest. -/
def ClientConfig.rekeyThreshold (cfg : ClientConfig) : ℕ :=
  if 0 < cfg.rekeyAfterPackets then min cfg.rekeyAfterPackets maxWireSeq else maxWireSeq

/-- The errors of the client's frame handlers. -/
inductive ClientErr where
  /-- `ErrPeerClosed`: "session: peer closed". -/
  | peerClosed
  /-- `errRekeyFailed`: "session: rekey failed". -/
  | rekeyFailed
  deriving DecidableEq, Repr

/-- `parseAssign`: the prefix length, the address and the gateway. -/
def parseAssign (b : Bytes) : Go (Option (ℕ × Byte4 × Byte4)) :=
  if b.length ≠ 9 then pure none
  else do
    let n ← index b 0
    let ip ← slice b 1 5
    let gw ← slice b 5 9
    pure (some (n.toNat, Byte4.copyOf ip, Byte4.copyOf gw))

namespace Client

variable {S : Suite}

/-- `NewClient`, before the first attempt to connect. -/
def new (S : Suite) : Client S where
  keys := none
  tag := default
  rekeying := false
  rekeyHs := none
  stats := {}
  lastRecv := 0
  lastDataSend := 0
  t := false
  ip := none
  gw := none
  prefixLen := 0
  connected := false
  lastRekey := 0
  started := false
  phase := .backoff

/-- What an event leaves: the client and the output. -/
abbrev Res (S : Suite) := Client S × Out S

/-- `encryptSend(typ, pt)`. -/
def encryptSend (cfg : ClientConfig) (now : ℤ) (e : SendEnv) (c : Client S) (typ : UInt8)
    (pt : Bytes) : Go (Client S × Out S × Bool) := do
  let (ep, frames, sent) ← c.toEndpoint.encryptSend cfg.shaping c.t now e typ pt
  pure ({ c with toEndpoint := ep }, { frames }, sent)

/-- `sendRaw(b)`; the flag says whether it succeeded. -/
def sendRaw (e : SendEnv) (c : Client S) (b : Bytes) : Go (Out S × Bool) :=
  if b.length = 0 ∨ maxPayload < b.length then pure ({}, false)
  else if !c.t then throw .nilDeref
  else pure ({ raw := [(b, e.ok)] }, e.ok)

/-- `teardownTransport`. -/
def teardownTransport (c : Client S) : Client S :=
  { c with connected := false, rekeying := false, rekeyHs := none, t := false, keys := none }

/-- `reconnect`, up to its first wait. -/
def reconnect (c : Client S) : Client S :=
  { c.teardownTransport with
    stats := { c.stats with reconnects := c.stats.reconnects + 1 }, phase := .backoff }

/-- A failed attempt to connect: back to the retry timer. -/
def failConnect (c : Client S) : Client S :=
  { c with
    stats := if c.started then { c.stats with reconnects := c.stats.reconnects + 1 } else c.stats
    phase := .backoff }

/-! ### Connecting -/

/-- `connect` and the start of `handshake`, up to the wait for the reply. -/
def connect (cfg : ClientConfig) (env : ClientEnv S) (c : Client S) : Go (Res S) :=
  let c := c.teardownTransport
  if !env.dialOk then pure (c.failConnect, {})
  else
    let c := { c with t := true }
    match S.newClientHandshake cfg.keypair cfg.serverPublic with
    | none => pure (c.failConnect, {})
    | some hs =>
      match S.write hs env.seed env.tag.toBytes with
      | none => pure (c.failConnect, {})
      | some st => do
        let (o, ok) ← c.sendRaw env.send st.out
        if !ok then pure (c.failConnect, o)
        else pure ({ c with phase := .waitReply st.hs st.out false env.tag env.now env.now }, o)

/-- The rest of `handshake` after the reply was read, up to the wait for the address. -/
def finishHandshake (env : ClientEnv S) (c : Client S) (hs : S.HS) (tag : Byte4) (start : ℤ) :
    Go (Res S) :=
  match S.write hs env.seed [] with
  | none => pure (c.failConnect, {})
  | some st =>
    match st.keys with
    | none => pure (c.failConnect, {})
    | some ks => do
      let (o, ok) ← c.sendRaw env.send st.out
      if !ok then pure (c.failConnect, o)
      else
        let c := { c with
          tag := tag
          keys := some (newKeys S true ks)
          phase := .waitAssign start env.now }
        pure (c, { o with installed := [ks] })

/-- One datagram in `waitHandshakeReply`. -/
def recvReply (env : ClientEnv S) (c : Client S) (hs : S.HS) (m₁ : Bytes) (cookie : Bool)
    (tag : Byte4) (start since : ℤ) (data : Bytes) : Go (Res S) :=
  match S.read hs data with
  | some st => c.finishHandshake env st.hs tag start
  | none =>
    -- what is no second message but has the length of a cookie is taken for one, once
    if data.length = cookieLen ∧ !cookie then do
      let m₁ := m₁ ++ data
      let (o, ok) ← c.sendRaw env.send m₁
      if !ok then pure (c.failConnect, o)
      else pure ({ c with phase := .waitReply hs m₁ true tag start since }, o)
    else pure (c, {})

/-- Give up the wait for the address. -/
def failAssign (c : Client S) : Client S := { c with keys := none }.failConnect

/-- The end of `handshake`, and the start of the main loop. -/
def assigned (env : ClientEnv S) (c : Client S) (start : ℤ) (prefixLen : ℕ) (ip gw : Byte4) :
    Client S :=
  { c with
    ip := some ip
    gw := some gw
    prefixLen := prefixLen
    connected := true
    lastRekey := env.now
    lastRecv := env.now
    stats := { c.stats with
      handshakes := c.stats.handshakes + 1, handshakeNanos := env.now - start }
    started := true
    phase := .running }

/-- One datagram in `waitAssign`. -/
def recvAssign (env : ClientEnv S) (c : Client S) (start : ℤ) (data : Bytes) : Go (Res S) :=
  match c.keys with
  | none => throw .nilDeref
  | some k => do
    let (k, r) ← k.open data
    let c := { c with keys := some k }
    match r with
    | .error _ => pure (c, {})
    | .ok f =>
      if f.tag ≠ c.tag then pure (c, {})
      else if f.typ ≠ msgAssign then pure (c, {})
      else match ← parseAssign f.payload with
        | none => pure (c.failAssign, {})
        | some (prefixLen, ip, gw) => pure (c.assigned env start prefixLen ip gw, {})

/-! ### Rekeying -/

/-- `startRekey`. -/
def startRekey (cfg : ClientConfig) (env : ClientEnv S) (c : Client S) : Go (Res S) :=
  match S.newClientHandshake cfg.keypair cfg.serverPublic with
  | none => pure (c, {})
  | some hs =>
    match S.write hs env.seed [] with
    | none => pure (c, {})
    | some st => do
      let (c, o, sent) ← c.encryptSend cfg env.now env.send₂ msgRekey1 st.out
      if !sent then pure (c, o)
      else pure ({ c with rekeyHs := some st.hs, rekeying := true }, o)

/-- `maybeRekey`. -/
def maybeRekey (cfg : ClientConfig) (env : ClientEnv S) (c : Client S) : Go (Res S) :=
  let seq := c.keys.elim 0 Keys.sendSeq
  -- the counter is looked at nowhere else, and here on a keepalive tick only
  if c.keys.isSome ∧ maxWireSeq ≤ seq then c.startRekey cfg env
  else if 0 < cfg.rekeyAfterPackets ∧ c.keys.isSome ∧ cfg.rekeyAfterPackets ≤ seq then
    c.startRekey cfg env
  else if !c.rekeying ∧ 0 < cfg.rekeyAfterTime ∧ cfg.rekeyAfterTime ≤ env.now - c.lastRekey then
    c.startRekey cfg env
  else pure (c, {})

/-- The swap at the end of `continueRekey`. -/
def rekeyed (env : ClientEnv S) (c : Client S) (ks : S.Key × S.Key) : Client S :=
  { c with
    keys := some (newKeys S true ks)
    rekeying := false
    rekeyHs := none
    lastRekey := env.now
    stats := { c.stats with rekeys := c.stats.rekeys + 1 } }

/-- `continueRekey(noiseMsg)`: a failure leaves the client rekeying, with the handshake as far as
it got. -/
def continueRekey (cfg : ClientConfig) (env : ClientEnv S) (c : Client S) (noiseMsg : Bytes) :
    Go (Client S × Out S × Option ClientErr) :=
  match c.rekeyHs with
  | none => throw .nilDeref
  | some hs =>
    match S.read hs noiseMsg with
    | none => pure (c, {}, some .rekeyFailed)
    | some st =>
      match S.write st.hs env.seed [] with
      | none => pure ({ c with rekeyHs := some st.hs }, {}, some .rekeyFailed)
      | some st₃ =>
        let c := { c with rekeyHs := some st₃.hs }
        match st₃.keys with
        | none => pure (c, {}, some .rekeyFailed)
        | some ks => do
          let (c, o, sent) ← c.encryptSend cfg env.now env.send msgRekey3 st₃.out
          if !sent then pure (c, o, some .rekeyFailed)
          else pure (c.rekeyed env ks, { o with installed := [ks] }, none)

/-! ### Frames -/

/-- Count a dropped packet. -/
def drop (c : Client S) : Client S := { c with stats := c.stats.dropped }

/-- `handleData(pt, tun)`. -/
def handleData (cfg : ClientConfig) (env : ClientEnv S) (c : Client S) (pt : Bytes) : Res S :=
  if cfg.mtu < pt.length ∨ !isIPv4 pt then (c.drop, {})
  else if !env.tunOk then (c, { tun := [(pt, false)] })
  else ({ c with stats := c.stats.received pt.length }, { tun := [(pt, true)] })

/-- The keepalive branch of `handleFrame`: an echo of eight bytes is a timestamp. -/
def handleEcho (env : ClientEnv S) (c : Client S) (payload : Bytes) : Client S :=
  -- the eight bytes are read as an `int64`
  let rtt := env.now - Int.bmod (beVal payload) (2 ^ 64)
  if payload.length = 8 ∧ 0 < rtt ∧ rtt < 60 * 10 ^ 9 then
    { c with stats := c.stats.recordRTT rtt }
  else c

/-- The dispatch of `handleFrame` on an accepted frame. -/
def dispatch (cfg : ClientConfig) (env : ClientEnv S) (c : Client S) (f : Frame) :
    Go (Client S × Out S × Option ClientErr) :=
  if f.typ = msgData then
    let (c, o) := c.handleData cfg env f.payload
    pure (c, o, none)
  else if f.typ = msgKeepalive then pure (c.handleEcho env f.payload, {}, none)
  else if f.typ = msgClose then pure (c, {}, some .peerClosed)
  else if f.typ = msgDecoy then pure (c, {}, none)
  else if f.typ = msgRekey2 then
    if c.rekeying then c.continueRekey cfg env f.payload else pure (c, {}, none)
  else pure (c, {}, none)

/-- `handleFrame(data, tun)`. -/
def handleFrame (cfg : ClientConfig) (env : ClientEnv S) (c : Client S) (data : Bytes) :
    Go (Client S × Out S × Option ClientErr) :=
  match c.keys with
  | none => pure (c.drop, {}, none)
  | some k => do
    let (k, r) ← k.open data
    let c := { c with keys := some k }
    match r with
    | .error _ => pure (c.drop, {}, none)
    | .ok f => if f.tag ≠ c.tag then pure (c.drop, {}, none) else c.dispatch cfg env f

/-- `drainRecv`: handle one datagram; reconnect when the transport or the peer is gone. -/
def drainRecv (cfg : ClientConfig) (env : ClientEnv S) (c : Client S) :
    Option Bytes → Go (Res S)
  | none => pure (c.reconnect, {})
  | some data => do
    let (c, o, err) ← { c with lastRecv := env.now }.handleFrame cfg env data
    if err = some .peerClosed then pure (c.reconnect, o) else pure (c, o)

/-- `sendPacket(pkt)`. -/
def sendPacket (cfg : ClientConfig) (env : ClientEnv S) (c : Client S) (pkt : Bytes) :
    Go (Res S) :=
  if cfg.mtu < pkt.length ∨ !isIPv4 pkt then pure (c.drop, {})
  else do
    let (c, o, sent) ← c.encryptSend cfg env.now env.send msgData pkt
    if !sent then pure (c.drop, o) else pure (c, o)

/-- The keepalive ticker. -/
def keepalive (cfg : ClientConfig) (env : ClientEnv S) (c : Client S) : Go (Res S) :=
  if cfg.sessionTimeout < env.now - c.lastRecv then pure (c.reconnect, {})
  -- a client that waits for the end of a rekey sends no keepalive and gives the rekey no deadline
  else if c.connected ∧ !c.rekeying then do
    let (c, o, _) ← c.encryptSend cfg env.now env.send msgKeepalive
      (be64 (env.now % 2 ^ 64).toNat)
    let (c, o') ← c.maybeRekey cfg env
    pure (c, o.append o')
  else pure (c, {})

/-- The decoy timer. -/
def decoy (cfg : ClientConfig) (env : ClientEnv S) (c : Client S) : Go (Res S) :=
  if c.connected ∧ !c.rekeying ∧ cfg.shaping.decoyInterval ≤ env.now - c.lastDataSend then do
    let (c, o, _) ← c.encryptSend cfg env.now env.send msgDecoy
      (decoyPayload env.decoyLen env.decoyFill)
    pure (c, o)
  else pure (c, {})

/-- `sendClose`. -/
def sendClose (cfg : ClientConfig) (env : ClientEnv S) (c : Client S) : Go (Res S) :=
  if c.keys.isSome ∧ !c.rekeying then do
    let (c, o, _) ← c.encryptSend cfg env.now env.send msgClose []
    pure (c, o)
  else pure (c, {})

/-! ### The run loop -/

/-- What the client can be woken by. -/
inductive Event where
  /-- `ctx` is done. -/
  | cancel
  /-- The retry timer, or the first attempt. -/
  | retry
  /-- A datagram arrived, or the transport failed. -/
  | recv (data : Option Bytes)
  /-- The timer of the wait in a handshake. -/
  | timeout
  /-- A packet from the TUN. -/
  | tun (pkt : Bytes)
  /-- The keepalive ticker. -/
  | keepalive
  /-- The decoy timer. -/
  | decoy
  deriving DecidableEq

/-- A datagram arrives. -/
def Event.isDatagram : Event → Bool
  | .recv (some _) => true
  | _ => false

/-- One wake-up of the client; an event that the client does not wait for changes nothing. -/
def step (cfg : ClientConfig) (env : ClientEnv S) (c : Client S) (e : Event) : Go (Res S) :=
  match c.phase, e with
  -- cancelled while it reconnects, `Run` goes back to its loop, which sees the cancellation next
  | .backoff, .cancel => pure ({ c with phase := if c.started then .running else .stopped }, {})
  | .backoff, .retry => c.connect cfg env
  | .waitReply .., .cancel => pure (c.failConnect, {})
  | .waitReply .., .recv none => pure (c.failConnect, {})
  | .waitReply hs m₁ cookie tag start since, .recv (some data) =>
    c.recvReply env hs m₁ cookie tag start since data
  | .waitReply _ _ _ _ _ since, .timeout =>
    if cfg.handshakeTimeout ≤ env.now - since then pure (c.failConnect, {}) else pure (c, {})
  | .waitAssign .., .cancel => pure (c.failAssign, {})
  | .waitAssign .., .recv none => pure (c.failAssign, {})
  | .waitAssign start _, .recv (some data) => c.recvAssign env start data
  | .waitAssign _ since, .timeout =>
    if cfg.handshakeTimeout ≤ env.now - since then pure (c.failAssign, {}) else pure (c, {})
  | .running, .cancel => do
    let (c, o) ← c.sendClose cfg env
    pure ({ c.teardownTransport with phase := .stopped }, o)
  | .running, .recv data => c.drainRecv cfg env data
  | .running, .tun pkt => c.sendPacket cfg env pkt
  | .running, .keepalive => c.keepalive cfg env
  | .running, .decoy => c.decoy cfg env
  | _, _ => pure (c, {})

end Client

end VibeVpn

import VibeVpn.Session.Client

/-!
# The client's configuration

`Client` of `internal/config/config.go`: its defaults (`ApplyDefaults`), its checks (`Validate`),
and how `cmd/vpn` turns it into the configuration of a session.

The library functions the checks call are a parameter (`Host`).  The fields that neither function
reads are left out.
-/

namespace VibeVpn

namespace Config

/-- What `Validate` asks of the standard library and the file system. -/
structure Host where
  /-- `net.SplitHostPort`: the host and the port, or the text of the error. -/
  splitHostPort : String → Except String (String × String)
  /-- `net.ParseIP` yields an address, and it is a loopback address. -/
  isLoopback : String → Bool
  /-- `os.Stat`: whether the path is a directory, or the text of the error. -/
  stat : String → Except String Bool
  /-- The verb `%q`. -/
  quote : String → String

/-- `DefaultMTU`. -/
def defaultMTU : ℤ := 1280

/-- `DefaultKeepalive`, in seconds. -/
def defaultKeepalive : ℤ := 20

/-- `DefaultSessionTimeout`, in seconds. -/
def defaultSessionTimeout : ℤ := 300

/-- `DefaultHandshakeTimeout`, in seconds. -/
def defaultHandshakeTimeout : ℤ := 10

/-- `DefaultStatsInterval`, in seconds. -/
def defaultStatsInterval : ℤ := 15

/-- `DefaultRekeySeconds`. -/
def defaultRekeySeconds : ℤ := 120

/-- `Shaping`. -/
structure Shaping where
  /-- `Padding`. -/
  padding : String := ""
  /-- `PadTo`. -/
  padTo : ℤ := 0
  /-- `Bucket`. -/
  bucket : ℤ := 0
  /-- `RandMax`. -/
  randMax : ℤ := 0
  /-- `DecoyIntervalS`. -/
  decoyIntervalS : ℤ := 0

/-- `Desync`, the fields `ApplyDefaults` sets. -/
structure Desync where
  /-- `DPIDesync`. -/
  dpiDesync : String
  /-- `SplitPos`. -/
  splitPos : String

/-- `ClientTLS`, the fields `Validate` reads. -/
structure ClientTLS where
  /-- `CA`. -/
  ca : String
  /-- `Insecure`. -/
  insecure : Bool

/-- `Client`. -/
structure Client where
  /-- `Server`. -/
  server : String
  /-- `Transport`. -/
  transport : String := ""
  /-- `PrivateKey`. -/
  privateKey : String := ""
  /-- `PrivateKeyEncrypted`. -/
  privateKeyEncrypted : String := ""
  /-- `ServerPublicKey`. -/
  serverPublicKey : String
  /-- `MTU`. -/
  mtu : ℤ := 0
  /-- `Keepalive`, in seconds. -/
  keepalive : ℤ := 0
  /-- `SessionTimeout`, in seconds. -/
  sessionTimeout : ℤ := 0
  /-- `RekeyAfterPackets`. -/
  rekeyAfterPackets : UInt64 := 0
  /-- `RekeyAfterSeconds`. -/
  rekeyAfterSeconds : ℤ := 0
  /-- `RawServer`. -/
  rawServer : String := ""
  /-- `Metrics`. -/
  metrics : String := ""
  /-- `TLS`. -/
  tls : Option ClientTLS := none
  /-- `Desync`. -/
  desync : Option Desync := none
  /-- `Shaping`. -/
  shaping : Shaping := {}
  /-- `StatsInterval`, in seconds. -/
  statsInterval : ℤ := 0

/-! ### Defaults -/

/-- A zero value is replaced by the default. -/
def orDefault {α : Type} [DecidableEq α] (zero dflt v : α) : α := if v = zero then dflt else v

/-- `Desync.ApplyDefaults`. -/
def Desync.applyDefaults (d : Desync) : Desync where
  dpiDesync := orDefault "" "split2" d.dpiDesync
  splitPos := orDefault "" "2" d.splitPos

/-- `Client.ApplyDefaults`. -/
def Client.applyDefaults (c : Client) : Client :=
  { c with
    mtu := orDefault 0 defaultMTU c.mtu
    keepalive := orDefault 0 defaultKeepalive c.keepalive
    sessionTimeout := orDefault 0 defaultSessionTimeout c.sessionTimeout
    rekeyAfterPackets := orDefault 0 ((1 : UInt64) <<< 28) c.rekeyAfterPackets
    rekeyAfterSeconds := orDefault 0 defaultRekeySeconds c.rekeyAfterSeconds
    statsInterval := orDefault 0 defaultStatsInterval c.statsInterval
    desync := c.desync.map Desync.applyDefaults }

/-! ### Checks -/

/-- Fail with the message when the condition holds. -/
def failIf (cond : Bool) (msg : String) : Except String Unit :=
  if cond then .error msg else .ok ()

/-- `validateMetrics(addr)`. -/
def validateMetrics (h : Host) (addr : String) : Except String Unit :=
  if addr = "" then .ok ()
  else match h.splitHostPort addr with
    | .error e => .error ("metrics: " ++ e)
    | .ok (host, _) => failIf (!h.isLoopback host)
      ("metrics: address must be a loopback IP (e.g. 127.0.0.1:9090), got " ++ h.quote addr)

/-- `validateTransport(sel, tlsPresent)`. -/
def validateTransport (h : Host) (sel : String) (tlsPresent : Bool) : Except String Unit := do
  failIf (sel ∉ ["", "udp", "tls", "raw"])
    ("transport: unknown " ++ h.quote sel ++ " (use udp|tls|raw)")
  failIf (sel = "tls" && !tlsPresent) "transport: tls requires a tls section"

/-- `Shaping.Validate`. -/
def Shaping.validate (h : Host) (s : Shaping) : Except String Unit := do
  failIf (s.padding ∉ ["", "none", "pad", "bucket", "random", "web"])
    ("shaping: unknown padding " ++ h.quote s.padding ++ " (use none|pad|bucket|random|web)")
  failIf (s.padding = "pad" && s.padTo ≤ 0) "shaping: pad mode requires pad_to > 0"
  failIf (s.padding = "bucket" && s.bucket ≤ 0) "shaping: bucket mode requires bucket > 0"
  failIf (s.padding = "random" && s.randMax < 0) "shaping: rand_max must be >= 0"

/-- The check of an address `host:port`, called `field` in the message. -/
def validateAddr (h : Host) (field addr : String) : Except String Unit :=
  match h.splitHostPort addr with
  | .error e => .error ("client: " ++ field ++ " " ++ h.quote addr ++ ": " ++ e)
  | .ok _ => .ok ()

/-- The check of a file that must exist and not be a directory. -/
def validateFile (h : Host) (field path : String) : Except String Unit :=
  match h.stat path with
  | .error e => .error (field ++ " " ++ h.quote path ++ ": " ++ e)
  | .ok isDir => failIf isDir (field ++ " " ++ h.quote path ++ ": %!w(<nil>)")

/-- The check of the TLS section. -/
def ClientTLS.validate (h : Host) (t : ClientTLS) : Except String Unit := do
  failIf (t.ca = "" && !t.insecure)
    "client: tls requires ca (path to the server certificate) or insecure=true"
  if t.ca = "" then .ok () else validateFile h "client: tls.ca" t.ca

/-- `Client.Validate`. -/
def Client.validate (h : Host) (c : Client) : Except String Unit := do
  failIf (c.server = "") "client: server address is required"
  validateAddr h "server" c.server
  failIf ((c.privateKey = "") == (c.privateKeyEncrypted = ""))
    "client: exactly one of private_key or private_key_encrypted is required"
  failIf (c.serverPublicKey = "") "client: server_public_key is required"
  failIf (c.mtu < 576 || 65535 < c.mtu)
    ("client: mtu " ++ toString c.mtu ++ " out of range [576, 65535]")
  failIf (0 < c.sessionTimeout && c.sessionTimeout ≤ c.keepalive)
    ("client: keepalive_interval (" ++ toString c.keepalive ++
      "s) must be smaller than session_timeout (" ++ toString c.sessionTimeout ++ "s)")
  match c.tls with
  | none => .ok ()
  | some t => t.validate h
  if c.rawServer = "" then .ok () else validateAddr h "raw_server" c.rawServer
  validateTransport h c.transport c.tls.isSome
  validateMetrics h c.metrics
  c.shaping.validate h

/-- **The defaults pass the checks**: a configuration with nothing but an address and keys is
accepted. -/
theorem Client.validate_applyDefaults (h : Host) {server key pub host port : String}
    (hserver : server ≠ "") (hsplit : h.splitHostPort server = .ok (host, port)) (hkey : key ≠ "")
    (hpub : pub ≠ "") :
    ({ server, privateKey := key, serverPublicKey := pub } : Client).applyDefaults.validate h =
      .ok () := by
  simp [validate, applyDefaults, validateAddr, failIf, hserver, hsplit, hkey, hpub, orDefault,
    defaultMTU, defaultKeepalive, defaultSessionTimeout, validateTransport, validateMetrics,
    Shaping.validate]
  rfl

/-! ### The configuration of a session -/

/-- `time.Duration(n) * time.Second`. -/
def seconds (n : ℤ) : ℤ := Int.bmod (n * 10 ^ 9) (2 ^ 64)

/-- What `PaddingFor` takes the padding string for. -/
def paddingOf (s : String) : Padding :=
  if s = "pad" then .pad
  else if s = "bucket" then .bucket
  else if s = "random" then .random
  else if s = "web" then .web
  else .none

/-- `shaping(c)` of `cmd/vpn/main.go`. -/
def Shaping.policy (s : Shaping) : VibeVpn.Shaping where
  padding := paddingOf s.padding
  padTo := s.padTo
  bucket := s.bucket
  randMax := s.randMax
  decoyInterval := seconds s.decoyIntervalS

/-- The `session.ClientConfig` that `cmd/vpn/client.go` builds, with the decoded keys. -/
def Client.session (c : Client) (keypair : Keypair) (serverPublic : Bytes) : ClientConfig where
  keypair := keypair
  serverPublic := serverPublic
  mtu := c.mtu
  sessionTimeout := seconds c.sessionTimeout
  handshakeTimeout := seconds defaultHandshakeTimeout
  rekeyAfterPackets := c.rekeyAfterPackets.toNat
  rekeyAfterTime := seconds c.rekeyAfterSeconds
  shaping := c.shaping.policy

end Config

end VibeVpn

import VibeVpn.Config.Client
import VibeVpn.Session.Manager
import VibeVpn.Session.Server

/-!
# The server's configuration

`Server` of `internal/config/config.go`: its defaults (`ApplyDefaults`), its checks (`Validate`),
and how `cmd/vpn` turns it into the configuration of the sessions.  The checks it shares with the
client are those of `Config.Client`.  The fields that neither function reads are left out.
-/

namespace VibeVpn

namespace Config

/-- What `Server.Validate` asks of the standard library and the file system. -/
structure ServerHost extends Host where
  /-- `net.ParseCIDR`: the text of the error, if any. -/
  parseCIDR : String → Except String Unit

/-- `ServerTLS`. -/
structure ServerTLS where
  /-- `Listen`. -/
  listen : String
  /-- `Cert`. -/
  cert : String
  /-- `Key`. -/
  key : String

/-- `ServerRaw`. -/
structure ServerRaw where
  /-- `Listen`. -/
  listen : String

/-- `Server`. -/
structure Server where
  /-- `Listen`. -/
  listen : String := ""
  /-- `Transport`. -/
  transport : String := ""
  /-- `PrivateKey`. -/
  privateKey : String := ""
  /-- `PrivateKeyEncrypted`. -/
  privateKeyEncrypted : String := ""
  /-- `Interface`. -/
  interface : String := ""
  /-- `Subnet`. -/
  subnet : String := ""
  /-- `OutboundInterface`. -/
  outboundInterface : String := ""
  /-- `MTU`. -/
  mtu : ℤ := 0
  /-- `Keepalive`, in seconds. -/
  keepalive : ℤ := 0
  /-- `SessionTimeout`, in seconds. -/
  sessionTimeout : ℤ := 0
  /-- `Metrics`. -/
  metrics : String := ""
  /-- `MaxSessions`. -/
  maxSessions : ℤ := 0
  /-- `TLS`. -/
  tls : Option ServerTLS := none
  /-- `Raw`. -/
  raw : Option ServerRaw := none
  /-- `Shaping`. -/
  shaping : Shaping := {}
  /-- `StatsInterval`, in seconds. -/
  statsInterval : ℤ := 0

/-- `Server.ApplyDefaults`. -/
def Server.applyDefaults (s : Server) : Server :=
  { s with
    listen := orDefault "" "0.0.0.0:4433" s.listen
    interface := orDefault "" "vpn0" s.interface
    subnet := orDefault "" "10.77.0.0/24" s.subnet
    outboundInterface := orDefault "" "eth0" s.outboundInterface
    mtu := orDefault 0 defaultMTU s.mtu
    keepalive := orDefault 0 defaultKeepalive s.keepalive
    sessionTimeout := orDefault 0 defaultSessionTimeout s.sessionTimeout
    statsInterval := orDefault 0 defaultStatsInterval s.statsInterval
    maxSessions := orDefault 0 defaultMaxSessions s.maxSessions }

/-- The check of the subnet. -/
def validateSubnet (h : ServerHost) (subnet : String) : Except String Unit :=
  match h.parseCIDR subnet with
  | .error e => .error ("server: subnet " ++ h.quote subnet ++ ": " ++ e)
  | .ok () => .ok ()

/-- The check of the TLS section. -/
def ServerTLS.validate (h : Host) (t : ServerTLS) : Except String Unit := do
  failIf (t.listen = "" || t.cert = "" || t.key = "") "server: tls requires listen, cert and key"
  validateFile h "server: tls.cert" t.cert
  validateFile h "server: tls.key" t.key

/-- `Server.Validate`. -/
def Server.validate (h : ServerHost) (s : Server) : Except String Unit := do
  failIf ((s.privateKey = "") == (s.privateKeyEncrypted = ""))
    "server: exactly one of private_key or private_key_encrypted is required"
  validateSubnet h s.subnet
  failIf (s.mtu < 576 || 65535 < s.mtu)
    ("server: mtu " ++ toString s.mtu ++ " out of range [576, 65535]")
  failIf (0 < s.sessionTimeout && s.sessionTimeout ≤ s.keepalive)
    ("server: keepalive_interval (" ++ toString s.keepalive ++
      "s) must be smaller than session_timeout (" ++ toString s.sessionTimeout ++ "s)")
  failIf (s.maxSessions < 0)
    ("server: max_sessions " ++ toString s.maxSessions ++ " must be non-negative")
  match s.tls with
  | none => .ok ()
  | some t => t.validate h.toHost
  match s.raw with
  | none => .ok ()
  | some r => failIf (r.listen = "") "server: raw requires listen"
  validateTransport h.toHost s.transport s.tls.isSome
  validateMetrics h.toHost s.metrics
  s.shaping.validate h.toHost

/-- **The defaults pass the checks**: a configuration with nothing but a key is accepted. -/
theorem Server.validate_applyDefaults (h : ServerHost) {key : String} (hkey : key ≠ "")
    (hcidr : h.parseCIDR "10.77.0.0/24" = .ok ()) :
    ({ privateKey := key } : Server).applyDefaults.validate h = .ok () := by
  simp [validate, applyDefaults, validateSubnet, failIf, hkey, hcidr, orDefault, defaultMTU,
    defaultKeepalive, defaultSessionTimeout, defaultMaxSessions, validateTransport,
    validateMetrics, Shaping.validate]
  rfl

end Config

end VibeVpn

import VibeVpn.LTS.Basic
import VibeVpn.Go.Basic
import VibeVpn.Go.Bitmap
import VibeVpn.Protocol.Replay
import VibeVpn.Protocol.Wire
import VibeVpn.Protocol.Window
import VibeVpn.Crypto.Suite
import VibeVpn.Framing.Frame
import VibeVpn.Framing.Shaping
import VibeVpn.Net.Ippkt
import VibeVpn.Session.Keys
import VibeVpn.Crypto.Plain
import VibeVpn.Session.Delivery
import VibeVpn.Session.Endpoint
import VibeVpn.Session.Server
import VibeVpn.Session.ServerSpec
import VibeVpn.Session.ServerRun
import VibeVpn.Session.ServerPanics
import VibeVpn.Session.Client
import VibeVpn.Session.ClientSpec
import VibeVpn.Session.Idle
import VibeVpn.LTS.Channel
import VibeVpn.Session.Connection
import VibeVpn.Session.KeyLag
import VibeVpn.Session.RekeyAgreement
import VibeVpn.Session.RekeyAbandon
import VibeVpn.LTS.Numbering
import VibeVpn.Config.Client
import VibeVpn.Session.SeqNumbers
import VibeVpn.Go.Lists
import VibeVpn.Go.Map
import VibeVpn.Session.Manager
import VibeVpn.Session.Registry
import VibeVpn.Session.Capacity
import VibeVpn.Session.Daemon
import VibeVpn.Session.Uplink
import VibeVpn.Session.Downlink
import VibeVpn.Config.Fit
import VibeVpn.LTS.Inert
import VibeVpn.Session.Inert
import VibeVpn.LTS.Feed
import VibeVpn.Session.Admission
import VibeVpn.Session.Reader
import VibeVpn.Transport.Udp
import VibeVpn.Transport.UdpClose
import VibeVpn.Session.Agreement
import VibeVpn.Go.Avoids
import VibeVpn.Session.Pool
import VibeVpn.Session.RateBound
import VibeVpn.Session.Shape
import VibeVpn.Go.Base64
import VibeVpn.Session.Allowlist
import VibeVpn.Session.Cookie
import VibeVpn.Config.Runtime
import VibeVpn.Go.Bufio
import VibeVpn.Transport.Framed
import VibeVpn.Go.FreeList
import VibeVpn.Transport.Buffers
import VibeVpn.Session.Buffers
import VibeVpn.Session.Jitter
import VibeVpn.Session.Lengths
import VibeVpn.Crypto.KeyEncrypt
import VibeVpn.Transport.UdpClient
import VibeVpn.LTS.Runs
import VibeVpn.Session.Journal
import VibeVpn.Session.Ordered
import VibeVpn.Session.Tunnel
import VibeVpn.Session.Traffic
import VibeVpn.Session.RekeyProgress
import VibeVpn.LTS.Refinement
import VibeVpn.Session.Lease
import VibeVpn.Session.Opening
import VibeVpn.Session.Accounts
import VibeVpn.Session.Metrics
import VibeVpn.Session.Reload
import VibeVpn.Session.RoundTrip
import VibeVpn.Session.Flood
import VibeVpn.Session.Strangers

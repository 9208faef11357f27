import VibeVpn.Go.Basic
import Mathlib.Data.Int.Basic

/-!
# Carriers

The transports of `internal/transport` as the session layer sees them: the endpoints of the UDP
server, the length-prefixed connections of the TLS and raw listeners (`framed.Conn`), and the
decorator `framing.Jitter`.  A `Transport` is described by what the code reads of it: the largest
message its `Send` takes, and whether it has the optional interface `transport.RemoteAddr`, which
`serverSession.peerIP` looks for by a type assertion.

A decorator hides the optional interfaces of what it wraps: `jitterTransport` has the three methods
of `Transport` and no others.
-/

namespace VibeVpn

/-- `netip.Addr`, a valid one. -/
structure Addr where
  /-- `As16()`: an IPv4 address is mapped. -/
  as16 : Bytes
  /-- `Is4()`. -/
  is4 : Bool
  /-- `Zone()`, of an IPv6 address. -/
  zone : String
  deriving DecidableEq, Repr

/-- `netip.AddrPort`. -/
structure AddrPort where
  /-- `Addr()`. -/
  addr : Addr
  /-- `Port()`. -/
  port : UInt16
  deriving DecidableEq, Repr

/-- `net.ParseIP` of the host that `net.SplitHostPort` finds in `String()`.  An address with a zone
prints it, and `ParseIP` accepts no zone. -/
def AddrPort.parseHost (a : AddrPort) : Option Bytes :=
  if a.addr.zone = "" then some a.addr.as16 else none

/-- The listeners that hand out a `framed.Conn`. -/
inductive Stream where
  /-- `tlsx.Server`. -/
  | tls
  /-- `rawtcp.Server`. -/
  | raw
  deriving DecidableEq, Repr

/-- A `transport.Transport` of the server, with the address of its peer. -/
inductive Transport where
  /-- `endpointTransport`: a peer of the UDP server. -/
  | endpoint (remote : AddrPort)
  /-- `framed.Conn`. -/
  | conn (stream : Stream) (remote : AddrPort)
  /-- `jitterTransport`. -/
  | jitter (max : ℤ) (t : Transport)
  deriving DecidableEq, Repr

/-- `udp.MaxDatagram`. -/
def maxDatagram : ℕ := 65507

/-- `framed.MaxFrame`. -/
def maxFrame : ℕ := 65535

namespace Transport

/-- `framing.Jitter(t, max)`. -/
def withJitter (t : Transport) (max : ℤ) : Transport := if max ≤ 0 then t else .jitter max t

/-- The largest message `Send` takes. -/
def limit : Transport → ℕ
  | endpoint _ => maxDatagram
  | conn _ _ => maxFrame
  | jitter _ t => t.limit

/-- `Send` does not refuse a message of this length as empty or too large. -/
def takes (t : Transport) (len : ℕ) : Bool := len != 0 && len ≤ t.limit

/-- `RemoteAddr()`, if the transport has that method. -/
def remoteAddr : Transport → Option AddrPort
  | endpoint remote => some remote
  | conn _ _ => none
  | jitter _ _ => none

/-- `serverSession.peerIP()` on this transport. -/
def peerIP (t : Transport) : Option Bytes := t.remoteAddr.bind AddrPort.parseHost

/-- The address of the peer at the other end, whether or not the transport tells it. -/
def peer : Transport → AddrPort
  | endpoint remote => remote
  | conn _ remote => remote
  | jitter _ t => t.peer

theorem withJitter_of_nonpos (t : Transport) {max : ℤ} (h : max ≤ 0) : t.withJitter max = t :=
  if_pos h

theorem peerIP_withJitter_of_pos (t : Transport) {max : ℤ} (h : 0 < max) :
    (t.withJitter max).peerIP = none := by
  rw [withJitter, if_neg (Int.not_le.2 h)]
  rfl

/-- What a UDP endpoint takes, every carrier takes. -/
theorem maxDatagram_le_limit (t : Transport) : maxDatagram ≤ t.limit := by
  induction t with
  | endpoint => exact Nat.le_refl _
  | conn =>
    unfold limit maxDatagram maxFrame
    omega
  | jitter _ _ ih => exact ih

end Transport

end VibeVpn

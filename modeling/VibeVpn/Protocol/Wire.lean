import VibeVpn.Go.Basic

/-!
# Message types and size limits

The constants of `internal/protocol/wire.go` and the size constants of `internal/framing`.  The
type of a session message is one byte of the encrypted inner header, so any byte can arrive; the
named values are the ones the state machines act on.
-/

namespace VibeVpn

/-- `MsgData`: an encrypted IP packet. -/
def msgData : UInt8 := 0x04
/-- `MsgKeepalive`: an RTT cookie or its echo. -/
def msgKeepalive : UInt8 := 0x05
/-- `MsgClose`: a close notification. -/
def msgClose : UInt8 := 0x06
/-- `MsgRekey1`: first message of the in-session handshake, client to server. -/
def msgRekey1 : UInt8 := 0x07
/-- `MsgRekey2`: second message of the in-session handshake, server to client. -/
def msgRekey2 : UInt8 := 0x08
/-- `MsgRekey3`: third message of the in-session handshake, client to server. -/
def msgRekey3 : UInt8 := 0x09
/-- `MsgAssign`: the address assignment, server to client. -/
def msgAssign : UInt8 := 0x0A
/-- `MsgDecoy`: cover traffic, discarded by the receiver. -/
def msgDecoy : UInt8 := 0x0B

/-- `IsRekey`: the messages that may flow while a rekey is in progress. -/
def isRekey (t : UInt8) : Bool := t == msgRekey1 || t == msgRekey2 || t == msgRekey3

/-- `CookieLen`: the size of an anti-DoS handshake cookie. -/
def cookieLen : ℕ := 32
/-- `MaxPayload`: the largest raw message. -/
def maxPayload : ℕ := 65535
/-- `MaxWire`: the largest datagram, and the capacity of the pooled seal buffers. -/
def maxWire : ℕ := 65507
/-- `NonceLen`: the size of the per-frame random nonce. -/
def nonceLen : ℕ := 12
/-- `TagLen`: the size of the AEAD authentication tag. -/
def tagLen : ℕ := 16
/-- `InnerHeaderLen`: the size of the encrypted metadata header. -/
def innerHeaderLen : ℕ := 11
/-- `MaxInner`: the largest inner plaintext. -/
def maxInner : ℕ := maxWire - nonceLen - tagLen

end VibeVpn

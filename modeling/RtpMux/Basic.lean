import Mathlib.Data.List.Basic

/-!
# Shared vocabulary of the RTP mux

Addresses, lane classes, the tokens two lanes of one session present to each
other, and the limits of `shared.rs`. `PairingNonce` and `GroupToken` are opaque
tokens of the `mux` crate: only their equality is ever used. Instants are counted
in nanoseconds.
-/

namespace RtpMux

/-- `mux::LaneClass`: the two lanes of a session. -/
inductive LaneClass where
  | interactive
  | bulk
  deriving DecidableEq, Repr

/-- `std::net::IpAddr`. -/
inductive IpAddr where
  | v4 (octets : BitVec 32)
  | v6 (segments : BitVec 128)
  deriving DecidableEq, Repr

/-- `std::net::SocketAddr`. -/
inductive SocketAddr where
  | v4 (ip : BitVec 32) (port : UInt16)
  | v6 (ip : BitVec 128) (port : UInt16) (flowinfo scopeId : UInt32)
  deriving DecidableEq, Repr

/-- `SocketAddr::ip`. -/
def SocketAddr.ip : SocketAddr → IpAddr
  | .v4 ip _ => .v4 ip
  | .v6 ip _ _ _ => .v6 ip

/-- `mux::PairingNonce`: what the two lanes of one session present to be paired. -/
structure PairingNonce where
  bits : Nat
  deriving DecidableEq, Repr

/-- `mux::GroupToken`: what every session of one client address group presents. -/
structure GroupToken where
  bits : Nat
  deriving DecidableEq, Repr

/-- `std::time::Instant`, in nanoseconds. -/
abbrev Instant : Type := Nat

/-- `PAIRING_DEADLINE`: ten seconds. -/
def pairingDeadline : Nat := 10 * 1000000000

/-- `MAX_PENDING_LANES`. -/
def maxPendingLanes : Nat := 1024

/-- `MAX_PENDING_LANES_PER_PEER`. -/
def maxPendingLanesPerPeer : Nat := 32

/-- `MAX_CONCURRENT_DUAL_DIALS`. -/
def maxConcurrentDualDials : Nat := 32

/-- `MAX_DIAL_WAITERS_PER_ADDR`. -/
def maxDialWaitersPerAddr : Nat := 256

end RtpMux

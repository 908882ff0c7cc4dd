import RtpMux.Basic
import RtpMux.HashMap

/-!
# The pending-lane registry (`admission.rs`)

A session consists of two lanes that arrive as separate connections. The
registry keeps the lane that came first under its pairing nonce until the second
one arrives. An entry is `building` while its lane still writes its birth
heartbeat, and `ready` once the lane has been confirmed; only a ready lane is
handed out. Every lane between admission and pairing holds a permit, and permits
are what the capacity limits count.

Every definition below is the critical section of one method: the part between
taking the state lock and releasing it. What a method does after releasing the
lock (send on the watch channel, drop a sender, drop a permit) is a step of its
own in `RtpMux.LaneAccept`, where other parties can run in between.

Two things the source gets from Rust are explicit here. A permit carries the lane
it was issued to, so that two permits for one peer can be told apart. The watch
channel of a reservation is named by the lane that made the reservation.
-/

namespace RtpMux

/-- Identity of an accepted lane: its RTP session (`SessionHandle`). -/
abbrev LaneId : Type := Nat

/-- `PendingLanePermit`: one unit of pending-lane capacity, charged to `peer`. -/
structure PendingLanePermit where
  peer : IpAddr
  /-- the lane the permit was issued to -/
  lane : LaneId
  deriving DecidableEq, Repr

/-- `mux::UnpairedLane`, with what the lane presented in its hello. -/
structure UnpairedLane where
  laneClass : LaneClass
  nonce : PairingNonce
  group : GroupToken
  deriving DecidableEq, Repr

/-- `PreparedLane`: a lane whose mux is running, before it claims its reservation. -/
structure PreparedLane where
  pending : UnpairedLane
  peer : SocketAddr
  localAddr : SocketAddr
  supervisor : LaneId
  deriving DecidableEq, Repr

/-- `PendingLane`: a confirmed lane that waits for its partner. -/
structure PendingLane where
  pending : UnpairedLane
  peer : SocketAddr
  localAddr : SocketAddr
  group : GroupToken
  permit : PendingLanePermit
  supervisor : LaneId
  deriving DecidableEq, Repr

/-- `PendingLaneEntry`. -/
inductive PendingLaneEntry where
  | building (peer localAddr : SocketAddr) (laneClass : LaneClass) (group : GroupToken)
      (expiresAt : Instant) (changed : LaneId) (permit : PendingLanePermit)
  | ready (lane : PendingLane) (expiresAt : Instant)
  deriving DecidableEq, Repr

namespace PendingLaneEntry

/-- The address of the lane that made the entry. -/
def peer : PendingLaneEntry → SocketAddr
  | building peer _ _ _ _ _ _ => peer
  | ready lane _ => lane.peer

/-- The class of that lane. -/
def laneClass : PendingLaneEntry → LaneClass
  | building _ _ laneClass _ _ _ _ => laneClass
  | ready lane _ => lane.pending.laneClass

/-- When the entry is reaped. -/
def expiresAt : PendingLaneEntry → Instant
  | building _ _ _ _ expiresAt _ _ => expiresAt
  | ready _ expiresAt => expiresAt

/-- The session group that lane asked for. -/
def group : PendingLaneEntry → GroupToken
  | building _ _ _ group _ _ _ => group
  | ready lane _ => lane.group

/-- The permit an entry keeps. -/
def permit : PendingLaneEntry → PendingLanePermit
  | building _ _ _ _ _ _ permit => permit
  | ready lane _ => lane.permit

end PendingLaneEntry

/-- `PendingLaneAdmission`: the answer of `register_admitted`. -/
inductive PendingLaneAdmission where
  | reserved
  | wait (changed : LaneId) (expiresAt : Instant)
  | pair (lane : PendingLane) (expiresAt : Instant)
  | reject (reason : String)
  deriving DecidableEq, Repr

/-- `ExpiredPendingLane`: what `expire` hands to the expiry worker. -/
inductive ExpiredPendingLane where
  | building (nonce : PairingNonce) (peer localAddr : SocketAddr) (laneClass : LaneClass)
      (permit : PendingLanePermit)
  | ready (nonce : PairingNonce) (lane : PendingLane)
  deriving DecidableEq, Repr

/-- The permit an expired record keeps until the worker drops the record. -/
def ExpiredPendingLane.permit : ExpiredPendingLane → PendingLanePermit
  | building _ _ _ _ permit => permit
  | ready _ lane => lane.permit

/-- `PendingLaneWait`: how `wait_for_pair` ends. -/
inductive PendingLaneWait where
  | pair (lane : PendingLane)
  | timeout
  | reservationLost (reason : String)
  deriving DecidableEq, Repr

/-- `PairingPoll`: one turn of the waiter. -/
inductive PairingPoll where
  | done (result : PendingLaneWait)
  | wait
  deriving DecidableEq, Repr

/-- `PendingLaneRegistryState`: what the registry's lock protects. -/
structure PendingLaneRegistry where
  entries : HashMap PairingNonce PendingLaneEntry
  admitted : Nat
  perPeer : HashMap IpAddr Nat

namespace PendingLaneRegistry

/-- `PendingLaneRegistryState::default`. -/
def empty : PendingLaneRegistry := ⟨∅, 0, ∅⟩

/-- `try_admit`: charge one lane of `peer` against both limits. -/
def tryAdmit (reg : PendingLaneRegistry) (peer : IpAddr) (lane : LaneId) :
    Except String (PendingLanePermit × PendingLaneRegistry) :=
  if reg.admitted ≥ maxPendingLanes then
    .error "total pending lane capacity exhausted"
  else
    let count := (reg.perPeer.lookup peer).getD 0
    if count ≥ maxPendingLanesPerPeer then
      .error "per-peer pending lane capacity exhausted"
    else
      .ok (⟨peer, lane⟩,
        { reg with admitted := reg.admitted + 1, perPeer := reg.perPeer.insert peer (count + 1) })

/-- `PendingLanePermit::drop`. Subtraction on `Nat` is `saturating_sub`. -/
def dropPermit (reg : PendingLaneRegistry) (permit : PendingLanePermit) : PendingLaneRegistry :=
  let reg := { reg with admitted := reg.admitted - 1 }
  match reg.perPeer.lookup permit.peer with
  | some count =>
    if count - 1 = 0 then
      { reg with perPeer := reg.perPeer.erase permit.peer }
    else
      { reg with perPeer := reg.perPeer.insert permit.peer (count - 1) }
  | none => reg

/-- `register_admitted`. The lane `lane` registers at time `now` and passes its
permit as `&mut Option`: the second component is what is left of it afterwards. The
error is the panic of `expect` on a missing permit. -/
def registerAdmitted (reg : PendingLaneRegistry) (nonce : PairingNonce) (laneClass : LaneClass)
    (peer localAddr : SocketAddr) (group : GroupToken) (permit : Option PendingLanePermit)
    (now : Instant) (lane : LaneId) :
    Except String (PendingLaneAdmission × Option PendingLanePermit × PendingLaneRegistry) :=
  match reg.entries.lookup nonce with
  | some entry =>
    if entry.peer.ip ≠ peer.ip then
      .ok (.reject "pairing nonce peer mismatch", permit, reg)
    else if entry.laneClass = laneClass then
      .ok (.reject "duplicate lane class for pairing nonce", permit, reg)
    else if entry.group ≠ group then
      .ok (.reject "group token mismatch between lanes", permit, reg)
    else
      match entry with
      | .building _ _ _ _ expiresAt changed _ => .ok (.wait changed expiresAt, permit, reg)
      | .ready other expiresAt =>
        .ok (.pair other expiresAt, permit, { reg with entries := reg.entries.erase nonce })
  | none =>
    match permit with
    | none => .error "accepted RTP mux lane must retain its admission permit"
    | some permit =>
      .ok (.reserved, none,
        { reg with
          entries := reg.entries.insert nonce
            (.building peer localAddr laneClass group (now + pairingDeadline) lane permit) })

/-- `confirm_reservation`. On success the result is the watch sender of the
reservation, which the caller still has to signal and drop; on failure the lane
comes back to the caller. -/
def confirmReservation (reg : PendingLaneRegistry) (nonce : PairingNonce) (lane : PreparedLane) :
    Except PreparedLane LaneId × PendingLaneRegistry :=
  match reg.entries.lookup nonce with
  | none => (.error lane, reg)
  | some entry =>
    let removed := reg.entries.erase nonce
    match entry with
    | .ready _ _ => (.error lane, { reg with entries := removed.insert nonce entry })
    | .building peer localAddr laneClass group expiresAt changed permit =>
      if peer ≠ lane.peer ∨ laneClass ≠ lane.pending.laneClass then
        (.error lane,
          { reg with
            entries := removed.insert nonce
              (.building peer localAddr laneClass group expiresAt changed permit) })
      else
        (.ok changed,
          { reg with
            entries := removed.insert nonce
              (.ready ⟨lane.pending, lane.peer, lane.localAddr, group, permit, lane.supervisor⟩
                expiresAt) })

/-- `pair_wait_step`: one look of a parked waiter at its nonce. -/
def pairWaitStep (reg : PendingLaneRegistry) (nonce : PairingNonce) (laneClass : LaneClass)
    (peer : SocketAddr) (expiresAt now : Instant) : PairingPoll × PendingLaneRegistry :=
  match reg.entries.lookup nonce with
  | none => (.done (.reservationLost "pairing reservation disappeared"), reg)
  | some entry =>
    if entry.peer.ip ≠ peer.ip then
      (.done (.reservationLost "pairing nonce peer mismatch"), reg)
    else if entry.laneClass = laneClass then
      (.done (.reservationLost "duplicate lane class for pairing nonce"), reg)
    else
      match entry with
      | .ready lane _ => (.done (.pair lane), { reg with entries := reg.entries.erase nonce })
      | .building _ _ _ _ _ _ _ => if now ≥ expiresAt then (.done .timeout, reg) else (.wait, reg)

/-- `reinsert_ready_lane`: put a lane back that was handed out but not paired. -/
def reinsertReadyLane (reg : PendingLaneRegistry) (nonce : PairingNonce) (lane : PendingLane)
    (expiresAt : Instant) : Except PendingLane Unit × PendingLaneRegistry :=
  if nonce ∈ reg.entries then
    (.error lane, reg)
  else
    (.ok (), { reg with entries := reg.entries.insert nonce (.ready lane expiresAt) })

/-- `cancel_reservation`: take a building entry out, if it is the caller's. The
entry is dropped by the caller after the lock is released. -/
def cancelReservation (reg : PendingLaneRegistry) (nonce : PairingNonce) (peer : SocketAddr)
    (laneClass : LaneClass) : Option PendingLaneEntry × PendingLaneRegistry :=
  match reg.entries.lookup nonce with
  | some (.building peer' localAddr laneClass' group expiresAt changed permit) =>
    if peer' = peer ∧ laneClass' = laneClass then
      (some (.building peer' localAddr laneClass' group expiresAt changed permit),
        { reg with entries := reg.entries.erase nonce })
    else (none, reg)
  | _ => (none, reg)

/-- The body of the loop of `expire`: remove one expired nonce and sort its entry
into the records to return and the watch senders to drop. -/
def expireOne (acc : List ExpiredPendingLane × List LaneId × PendingLaneRegistry)
    (nonce : PairingNonce) : List ExpiredPendingLane × List LaneId × PendingLaneRegistry :=
  match acc.2.2.entries.lookup nonce with
  | none => acc
  | some (.building peer localAddr laneClass _ _ changed permit) =>
    (acc.1 ++ [ExpiredPendingLane.building nonce peer localAddr laneClass permit],
      acc.2.1 ++ [changed],
      { acc.2.2 with entries := acc.2.2.entries.erase nonce })
  | some (.ready lane _) =>
    (acc.1 ++ [ExpiredPendingLane.ready nonce lane], acc.2.1,
      { acc.2.2 with entries := acc.2.2.entries.erase nonce })

/-- The nonces whose entries are due at `now`. -/
def expiredNonces (reg : PendingLaneRegistry) (now : Instant) : List PairingNonce :=
  (reg.entries.entries.filter fun e => e.2.expiresAt ≤ now).map Sigma.fst

/-- `expire`: take out every entry whose deadline is at or before `now`. -/
def expire (reg : PendingLaneRegistry) (now : Instant) :
    List ExpiredPendingLane × List LaneId × PendingLaneRegistry :=
  (reg.expiredNonces now).foldl expireOne ([], [], reg)

/-- `next_expiry`: the earliest deadline of any entry. -/
def nextExpiry (reg : PendingLaneRegistry) : Option Instant :=
  (reg.entries.entries.map fun e => e.2.expiresAt).min?

end PendingLaneRegistry

end RtpMux

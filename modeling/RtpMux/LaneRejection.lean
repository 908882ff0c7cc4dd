import RtpMux.LaneAccept

/-!
# Lanes and their outcomes (`server.rs`, `lane_rejection.rs`)

A lane ends in one of two ways: `pair_lanes_inner` gets it, or it is recorded in the
`LaneRejectionLog`. `LaneServer.disposal` says which lanes a step of the lane server decides
about, and with what record, at every place where the source does so: `handle_lane_accept`
for a lane over capacity, the accept tasks, and the expiry worker.

`LaneOutcomes` is the lane server together with the outcomes so far, and with the records a
task still has to make: between the decision to reject a lane and its record lies the kill
frame, which may take arbitrarily long.
-/

namespace RtpMux

open PendingLaneRegistry LaneServer

/-! ## Rejections -/

/-- `LaneRejectionClass`. -/
inductive LaneRejectionClass where
  | capacity
  | helloTimeout
  | helloParse
  | classMismatch
  | admission
  | groupFull
  | pairingTimeout
  | birthHeartbeat
  | reservationLost
  deriving DecidableEq, Repr

/-- `RejectedLaneContext`. -/
structure RejectedLaneContext where
  laneClass : LaneRejectionClass
  peer : SocketAddr
  localAddr : SocketAddr
  expectedClass : Option LaneClass
  reason : String
  deriving DecidableEq, Repr

/-- What the program learns from outside when a step fails: that a deadline elapsed, or
the text that an error (or, for the expiry worker, a nonce) prints as. -/
inductive Detail where
  | deadline
  | text (text : String)
  deriving DecidableEq, Repr

/-- `BirthHeartbeatFailure`, as `reject_birth_heartbeat` appends it to the reason. -/
def Detail.suffix : Detail → String
  | deadline => ": deadline elapsed"
  | text t => ": " ++ t

/-- The text inside a reason. -/
def Detail.print : Detail → String
  | deadline => ""
  | text t => t

/-- `Debug` of `mux::LaneClass`. -/
def LaneClass.debug : LaneClass → String
  | interactive => "Interactive"
  | bulk => "Bulk"

/-- The context of a lane that its own task rejects. -/
def LaneTask.rejected (t : LaneTask) (laneClass : LaneRejectionClass) (reason : String) :
    RejectedLaneContext :=
  ⟨laneClass, t.peer, t.localAddr, some t.expectedClass, reason⟩

/-- `record_rejected_lane` adds the elapsed time to the reason. -/
def RejectedLaneContext.timed (context : RejectedLaneContext) (elapsedMs : Nat) :
    RejectedLaneContext :=
  { context with reason := context.reason ++ "; elapsed_ms=" ++ toString elapsedMs }

/-- The lane of an expired record: the one the reservation was made for, or the one that
was confirmed. -/
def ExpiredPendingLane.lane : ExpiredPendingLane → LaneId
  | building _ _ _ _ permit => permit.lane
  | ready _ lane => lane.supervisor

/-- What the expiry worker records for an expired entry. -/
def ExpiredPendingLane.rejected (nonce : String) : ExpiredPendingLane → RejectedLaneContext
  | building _ peer localAddr laneClass _ =>
    ⟨.pairingTimeout, peer, localAddr, some laneClass,
      "pairing deadline expired while preparing lane; nonce=" ++ nonce⟩
  | ready _ lane =>
    ⟨.pairingTimeout, lane.peer, lane.localAddr, some lane.pending.laneClass,
      "pairing deadline expired; nonce=" ++ nonce⟩

/-! ## What each step decides -/

/-- A record that the accept task of `task` still has to make about `lane`. -/
structure OwedRecord where
  task : LaneId
  lane : LaneId
  context : RejectedLaneContext
  deriving DecidableEq, Repr

/-- The lanes a step decides about: records its task now owes, records made at once, and
pairs handed to `pair_lanes_inner`. -/
structure Disposal where
  owes : List OwedRecord
  records : List (LaneId × RejectedLaneContext)
  pairs : List (LaneId × LaneId)
  deriving DecidableEq, Repr

namespace Disposal

/-- Nothing is decided. -/
def none : Disposal := ⟨[], [], []⟩

/-- A task rejects its own lane. -/
def reject (lane : LaneId) (context : RejectedLaneContext) : Disposal :=
  ⟨[⟨lane, lane, context⟩], [], []⟩

/-- A record made without delay. -/
def record (lane : LaneId) (context : RejectedLaneContext) : Disposal :=
  ⟨[], [(lane, context)], []⟩

/-- Two lanes are paired. -/
def pair (lane other : LaneId) : Disposal := ⟨[], [], [(lane, other)]⟩

end Disposal

namespace LaneServer

/-- What the waiter of a lane does with the answer of `pair_wait_step`; `last` is the call
after the timeout, where `Wait` counts as a timeout. -/
def pollDisposal (lane : LaneId) (t : LaneTask) (last : Bool) : PairingPoll → Disposal
  | .done (.pair other) => .pair lane other.supervisor
  | .done .timeout =>
    .reject lane (t.rejected .pairingTimeout "pairing deadline expired while waiting")
  | .done (.reservationLost reason) => .reject lane (t.rejected .reservationLost reason)
  | .wait =>
    if last then
      .reject lane (t.rejected .pairingTimeout "pairing deadline expired while waiting")
    else .none

/-- `reinsert_ready_lane_or_reject`, then `reject_birth_heartbeat`: the partner's record,
when there is one, comes before the lane's own. -/
def reinsertDisposal (lane : LaneId) (t : LaneTask) (detail : Detail) :
    Except PendingLane Unit → Disposal
  | .ok () => ⟨[⟨lane, lane, own⟩], [], []⟩
  | .error other =>
    ⟨[⟨lane, other.supervisor,
        ⟨.reservationLost, other.peer, other.localAddr, some other.pending.laneClass,
          "pairing slot was reclaimed before the partner could be restored"⟩⟩,
      ⟨lane, lane, own⟩], [], []⟩
where
  own : RejectedLaneContext :=
    t.rejected .birthHeartbeat ("birth heartbeat failed before pairing" ++ detail.suffix)

/-- What the accept task of a lane decides in a step. -/
def taskDisposal (s : LaneServer) (lane : LaneId) (t : LaneTask) (detail : Detail) :
    LaneEvent → Disposal
  | .helloFailed _ =>
    match detail with
    | .deadline => .reject lane (t.rejected .helloTimeout "hello deadline elapsed")
    | .text error => .reject lane (t.rejected .helloParse ("hello read/parse error: " ++ error))
  | .hello _ h =>
    if h.laneClass ≠ t.expectedClass then
      .reject lane (t.rejected .classMismatch ("lane class mismatch: got " ++ h.laneClass.debug))
    else .none
  | .groupFull _ => .reject lane (t.rejected .groupFull "session group is full")
  | .register _ now =>
    match t.phase, t.hello with
    | .admitted permit, some h =>
      match s.registry.registerAdmitted h.nonce h.laneClass t.peer t.localAddr h.group
          (some permit) now lane with
      | .ok (.reject reason, _, _) => .reject lane (t.rejected .admission reason)
      | _ => .none
    | _, _ => .none
  | .heartbeat _ ok =>
    match t.phase, ok with
    | .waiting _ _ _ _ _, false =>
      .reject lane
        (t.rejected .birthHeartbeat ("birth heartbeat failed while waiting" ++ detail.suffix))
    | .offered _ other _, true => .pair lane other.supervisor
    | _, _ => .none
  | .cancel _ =>
    .reject lane
      (t.rejected .birthHeartbeat ("birth heartbeat failed after reservation" ++ detail.suffix))
  | .confirm _ =>
    match t.hello with
    | some h =>
      match s.registry.confirmReservation h.nonce
          ⟨⟨h.laneClass, h.nonce, h.group⟩, t.peer, t.localAddr, lane⟩ with
      | (.ok _, _) => .none
      | (.error _, _) =>
        .reject lane (t.rejected .reservationLost
          "reservation vanished before the built lane could claim it")
    | none => .none
  | .poll _ now =>
    match t.phase, t.hello with
    | .waiting _ _ _ expiresAt pc, some h =>
      pollDisposal lane t (pc = .lastPoll)
        (s.registry.pairWaitStep h.nonce h.laneClass t.peer expiresAt now).1
    | _, _ => .none
  | .reinsert _ =>
    match t.phase, t.hello with
    | .restoring _ other expiresAt, some h =>
      reinsertDisposal lane t detail (s.registry.reinsertReadyLane h.nonce other expiresAt).1
    | _, _ => .none
  | _ => .none

/-- What the task of `lane` decides, if there is one. -/
def disposalOf (s : LaneServer) (lane : LaneId) (detail : Detail) (e : LaneEvent) : Disposal :=
  match s.tasks.lookup lane with
  | some t => s.taskDisposal lane t detail e
  | none => .none

/-- What a step decides. The serve loop records a lane that is over capacity, the worker
records an expired lane when it is done with it, and the rest is up to the tasks. -/
def disposal (s : LaneServer) (detail : Detail) : LaneEvent → Disposal
  | .accept lane expectedClass peer localAddr =>
    match s.registry.tryAdmit peer.ip lane with
    | .ok _ => .none
    | .error reason => .record lane ⟨.capacity, peer, localAddr, some expectedClass, reason⟩
  | .helloFailed lane => s.disposalOf lane detail (.helloFailed lane)
  | .hello lane h => s.disposalOf lane detail (.hello lane h)
  | .groupFull lane => s.disposalOf lane detail (.groupFull lane)
  | .register lane now => s.disposalOf lane detail (.register lane now)
  | .heartbeat lane ok => s.disposalOf lane detail (.heartbeat lane ok)
  | .cancel lane => s.disposalOf lane detail (.cancel lane)
  | .confirm lane => s.disposalOf lane detail (.confirm lane)
  | .poll lane now => s.disposalOf lane detail (.poll lane now)
  | .reinsert lane => s.disposalOf lane detail (.reinsert lane)
  | .reap =>
    match s.worker.removed with
    | expired :: _ => .record expired.lane (expired.rejected detail.print)
    | [] => .none
  | _ => .none

end LaneServer

/-! ## The server with its outcomes -/

/-- The lane server, the records its tasks still have to make, and the outcomes so far:
what `LaneRejectionLog::record` was called with, and what `pair_lanes_inner` was given.
The lane beside a record is bookkeeping; the log itself keeps contexts only. -/
structure LaneOutcomes where
  server : LaneServer
  owed : List OwedRecord
  rejections : List (LaneId × RejectedLaneContext)
  pairs : List (LaneId × LaneId)

/-- A step of the lane server, or a task that has sent its kill frame makes a record. -/
inductive OutcomeEvent where
  | lane (e : LaneEvent) (detail : Detail)
  | record (task : LaneId) (elapsedMs : Nat)
  deriving DecidableEq, Repr

namespace LaneOutcomes

/-- The server before its first connection. -/
def init : LaneOutcomes := ⟨.init, [], [], []⟩

/-- `record_rejected_lane`, for the first record the task owes. -/
def recordRejectedLane (o : LaneOutcomes) (task : LaneId) (elapsedMs : Nat) :
    Option LaneOutcomes :=
  match o.owed.find? fun r => r.task = task with
  | some r => some { o with
      owed := o.owed.erase r
      rejections := (r.lane, r.context.timed elapsedMs) :: o.rejections }
  | none => none

/-- One step. -/
def step (o : LaneOutcomes) : OutcomeEvent → Option LaneOutcomes
  | .lane e detail =>
    (o.server.step e).map fun server =>
      let d := o.server.disposal detail e
      ⟨server, o.owed ++ d.owes, d.records ++ o.rejections, d.pairs ++ o.pairs⟩
  | .record task elapsedMs => o.recordRejectedLane task elapsedMs

end LaneOutcomes

/-- The server with its outcomes as a machine. -/
def laneOutcomes : Machine LaneOutcomes OutcomeEvent := ⟨LaneOutcomes.init, LaneOutcomes.step⟩

end RtpMux

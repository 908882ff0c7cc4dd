import RtpMux.Admission
import RtpMux.Machine

/-!
# Lane accept tasks over the registry (`server.rs`)

The server runs one task per accepted lane (`handle_lane_accept`,
`spawn_lane_accept`) and one expiry worker (`run_pending_lane_expiry`). All of
them share the pending-lane registry. `LaneServer` is the state of this whole
system, `LaneEvent` is one step of one party, and `LaneServer.step` performs it.
A run is any interleaving of such steps: every `await` (hello, heartbeat, waiting
for a change, the kill frame) may take arbitrarily long and may fail, and a step
holds the registry lock at most once.

The waiter of `wait_for_pair` is split at its suspension points (`WaitPc`): it
polls the registry, blocks on its watch receiver, wakes up when the channel
changed *or its sender is gone*, and polls one last time when the deadline passes
first.

Three lists are bookkeeping that the program does not have: the permits issued so
far, the permits dropped so far, and the log of confirmations, hand-outs and
reinsertions. No step reads them.
-/

namespace RtpMux

/-- What a lane presents in its hello frame. -/
structure Hello where
  laneClass : LaneClass
  nonce : PairingNonce
  group : GroupToken
  deriving DecidableEq, Repr

/-- A `tokio::sync::watch` channel: how often it was modified, and whether its
sender is gone. -/
structure Watch where
  version : Nat
  closed : Bool
  deriving DecidableEq, Repr

/-- Where `wait_for_pair` stands; `heartbeat` is the birth heartbeat before it. -/
inductive WaitPc where
  | heartbeat
  | polling
  | blocked
  | lastPoll
  deriving DecidableEq, Repr

/-- Where the accept task of a lane stands, with everything it owns there. -/
inductive LanePhase where
  /-- admitted, reading the hello -/
  | greeting (permit : PendingLanePermit)
  /-- hello read and checked, about to register -/
  | admitted (permit : PendingLanePermit)
  /-- told `Reserved`, writing the birth heartbeat -/
  | reserved
  /-- the heartbeat failed, about to cancel the reservation -/
  | cancelling
  /-- the entry was taken out of the registry and is about to be dropped -/
  | cancelled (entry : PendingLaneEntry)
  /-- the mux runs, about to confirm -/
  | built
  /-- confirmed, about to signal the waiters of the reservation -/
  | announcing (changed : LaneId)
  /-- waiters signalled, about to drop the watch sender -/
  | announced (changed : LaneId)
  /-- the task is over and its lane is the registry's -/
  | settled
  /-- told `Wait`: holds a watch receiver that has seen version `seen` -/
  | waiting (permit : PendingLanePermit) (changed : LaneId) (seen : Nat) (expiresAt : Instant)
      (pc : WaitPc)
  /-- told `Pair`: holds the other lane, writing the birth heartbeat -/
  | offered (permit : PendingLanePermit) (other : PendingLane) (expiresAt : Instant)
  /-- the heartbeat failed, about to put the other lane back -/
  | restoring (permit : PendingLanePermit) (other : PendingLane) (expiresAt : Instant)
  /-- `pair_lanes_inner` has the two lanes; their permits are about to be dropped -/
  | paired (permits : List PendingLanePermit)
  /-- the lane is being rejected; what it still holds is about to be dropped -/
  | rejecting (permits : List PendingLanePermit)
  deriving DecidableEq, Repr

/-- One accepted lane and its accept task. -/
structure LaneTask where
  expectedClass : LaneClass
  peer : SocketAddr
  localAddr : SocketAddr
  hello : Option Hello
  phase : LanePhase
  deriving DecidableEq, Repr

/-- The log of what happened to ready lanes. -/
inductive PairingEvent where
  /-- `lane` became a ready entry through `confirm_reservation` -/
  | confirmed (lane : LaneId)
  /-- the registry handed `lane` to the task of `receiver` -/
  | handed (receiver lane : LaneId)
  /-- the task of `receiver` put `lane` back -/
  | reinserted (receiver lane : LaneId)
  deriving DecidableEq, Repr

/-- The lane an event of the log is about. -/
def PairingEvent.lane : PairingEvent → LaneId
  | confirmed lane => lane
  | handed _ lane => lane
  | reinserted _ lane => lane

/-- What the expiry worker holds between `expire` and the end of its loop: records
still to be processed, and watch senders still to be dropped. -/
structure ExpiryWorker where
  removed : List ExpiredPendingLane
  changed : List LaneId

/-- The accept tasks, the expiry worker and the registry they share. -/
structure LaneServer where
  registry : PendingLaneRegistry
  watches : HashMap LaneId Watch
  tasks : HashMap LaneId LaneTask
  worker : ExpiryWorker
  issued : List PendingLanePermit
  released : List PendingLanePermit
  log : List PairingEvent

/-- One step of one party. -/
inductive LaneEvent where
  | accept (lane : LaneId) (expectedClass : LaneClass) (peer localAddr : SocketAddr)
  | helloFailed (lane : LaneId)
  | hello (lane : LaneId) (hello : Hello)
  | groupFull (lane : LaneId)
  | register (lane : LaneId) (now : Instant)
  | heartbeat (lane : LaneId) (ok : Bool)
  | cancel (lane : LaneId)
  | dropEntry (lane : LaneId)
  | confirm (lane : LaneId)
  | announce (lane : LaneId)
  | dropSender (lane : LaneId)
  | poll (lane : LaneId) (now : Instant)
  | wake (lane : LaneId)
  | timeout (lane : LaneId) (now : Instant)
  | reinsert (lane : LaneId)
  | dropPermit (lane : LaneId)
  | expire (now : Instant)
  | dropSenders
  | reap
  deriving DecidableEq, Repr

namespace LaneServer

/-- The server before its first connection. -/
def init : LaneServer := ⟨.empty, ∅, ∅, ⟨[], []⟩, [], [], []⟩

/-- Move the task of a lane to another phase. -/
def setPhase (s : LaneServer) (lane : LaneId) (t : LaneTask) (phase : LanePhase) : LaneServer :=
  { s with tasks := s.tasks.insert lane { t with phase := phase } }

/-- Close the watch channel `changed`: its sender is dropped. -/
def closeWatch (watches : HashMap LaneId Watch) (changed : LaneId) : HashMap LaneId Watch :=
  match watches.lookup changed with
  | some w => watches.insert changed { w with closed := true }
  | none => watches

/-- `changed.changed()` is ready: the receiver has not seen the current version, or
the sender is gone. -/
def changedReady (s : LaneServer) (changed : LaneId) (seen : Nat) : Bool :=
  match s.watches.lookup changed with
  | some w => w.version ≠ seen || w.closed
  | none => false

/-- The version of a watch channel. -/
def watchVersion (s : LaneServer) (changed : LaneId) : Nat :=
  (s.watches.lookup changed).elim 0 Watch.version

/-- A permit is dropped: the registry is credited. -/
def releasePermit (s : LaneServer) (permit : PendingLanePermit) : LaneServer :=
  { s with registry := s.registry.dropPermit permit, released := permit :: s.released }

/-- `handle_lane_accept`: a new connection asks for a permit. -/
def handleLaneAccept (s : LaneServer) (lane : LaneId) (expectedClass : LaneClass)
    (peer localAddr : SocketAddr) : Option LaneServer :=
  if lane ∈ s.tasks then none
  else
    match s.registry.tryAdmit peer.ip lane with
    | .ok (permit, reg) =>
      some { s with
        registry := reg
        tasks := s.tasks.insert lane ⟨expectedClass, peer, localAddr, none, .greeting permit⟩
        issued := permit :: s.issued }
    | .error _ =>
      some { s with
        tasks := s.tasks.insert lane ⟨expectedClass, peer, localAddr, none, .rejecting []⟩ }

/-- `read_lane_hello`, and the class check that follows it. `none` is a hello that
timed out or did not parse. -/
def readLaneHello (s : LaneServer) (lane : LaneId) (hello : Option Hello) : Option LaneServer :=
  match s.tasks.lookup lane with
  | some t =>
    match t.phase, hello with
    | .greeting permit, some h =>
      if h.laneClass ≠ t.expectedClass then
        some (s.setPhase lane { t with hello := some h } (.rejecting [permit]))
      else some (s.setPhase lane { t with hello := some h } (.admitted permit))
    | .greeting permit, none => some (s.setPhase lane t (.rejecting [permit]))
    | _, _ => none
  | none => none

/-- The session group of the lane is full: it is rejected before it registers. -/
def rejectGroupFull (s : LaneServer) (lane : LaneId) : Option LaneServer :=
  match s.tasks.lookup lane with
  | some t =>
    match t.phase with
    | .admitted permit => some (s.setPhase lane t (.rejecting [permit]))
    | _ => none
  | none => none

/-- The call of `register_admitted`. A reservation opens a watch channel; `Wait`
subscribes to the channel of the reservation it found. -/
def register (s : LaneServer) (lane : LaneId) (now : Instant) : Option LaneServer :=
  match s.tasks.lookup lane with
  | some t =>
    match t.phase, t.hello with
    | .admitted permit, some h =>
      match s.registry.registerAdmitted h.nonce h.laneClass t.peer t.localAddr h.group
          (some permit) now lane with
      | .ok (.reserved, _, reg) =>
        some (setPhase { s with registry := reg, watches := s.watches.insert lane ⟨0, false⟩ }
          lane t .reserved)
      | .ok (.wait changed expiresAt, _, reg) =>
        some (setPhase { s with registry := reg } lane t
          (.waiting permit changed (s.watchVersion changed) expiresAt .heartbeat))
      | .ok (.pair other expiresAt, _, reg) =>
        some (setPhase { s with registry := reg, log := .handed lane other.supervisor :: s.log }
          lane t (.offered permit other expiresAt))
      | .ok (.reject _, _, reg) =>
        some (setPhase { s with registry := reg } lane t (.rejecting [permit]))
      | .error _ => none
    | _, _ => none
  | none => none

/-- `write_birth_heartbeat_result`, with its outcome. -/
def writeBirthHeartbeat (s : LaneServer) (lane : LaneId) (ok : Bool) : Option LaneServer :=
  match s.tasks.lookup lane with
  | some t =>
    match t.phase with
    | .reserved => some (s.setPhase lane t (if ok then .built else .cancelling))
    | .waiting permit changed seen expiresAt .heartbeat =>
      some (s.setPhase lane t
        (if ok then .waiting permit changed seen expiresAt .polling else .rejecting [permit]))
    | .offered permit other expiresAt =>
      some (s.setPhase lane t
        (if ok then .paired [permit, other.permit] else .restoring permit other expiresAt))
    | _ => none
  | none => none

/-- The call of `cancel_reservation`. -/
def cancel (s : LaneServer) (lane : LaneId) : Option LaneServer :=
  match s.tasks.lookup lane with
  | some t =>
    match t.phase, t.hello with
    | .cancelling, some h =>
      match s.registry.cancelReservation h.nonce t.peer h.laneClass with
      | (some entry, reg) => some (setPhase { s with registry := reg } lane t (.cancelled entry))
      | (none, reg) => some (setPhase { s with registry := reg } lane t (.rejecting []))
    | _, _ => none
  | none => none

/-- The cancelled entry is dropped: first its watch sender, then its permit. -/
def dropEntry (s : LaneServer) (lane : LaneId) : Option LaneServer :=
  match s.tasks.lookup lane with
  | some t =>
    match t.phase with
    | .cancelled (.building _ _ _ _ _ changed permit) =>
      some (setPhase { s with watches := closeWatch s.watches changed } lane t
        (.rejecting [permit]))
    | _ => none
  | none => none

/-- The call of `confirm_reservation`. A lane that is turned away is dropped. -/
def confirm (s : LaneServer) (lane : LaneId) : Option LaneServer :=
  match s.tasks.lookup lane with
  | some t =>
    match t.phase, t.hello with
    | .built, some h =>
      match s.registry.confirmReservation h.nonce
          ⟨⟨h.laneClass, h.nonce, h.group⟩, t.peer, t.localAddr, lane⟩ with
      | (.ok changed, reg) =>
        some (setPhase { s with registry := reg, log := .confirmed lane :: s.log } lane t
          (.announcing changed))
      | (.error _, reg) => some (setPhase { s with registry := reg } lane t (.rejecting []))
    | _, _ => none
  | none => none

/-- `changed.send_modify(..)` at the end of `confirm_reservation`. -/
def announce (s : LaneServer) (lane : LaneId) : Option LaneServer :=
  match s.tasks.lookup lane with
  | some t =>
    match t.phase with
    | .announcing changed =>
      match s.watches.lookup changed with
      | some w =>
        some (setPhase { s with watches := s.watches.insert changed ⟨w.version + 1, w.closed⟩ }
          lane t (.announced changed))
      | none => none
    | _ => none
  | none => none

/-- `confirm_reservation` returns: the watch sender goes out of scope. -/
def dropSender (s : LaneServer) (lane : LaneId) : Option LaneServer :=
  match s.tasks.lookup lane with
  | some t =>
    match t.phase with
    | .announced changed =>
      some (setPhase { s with watches := closeWatch s.watches changed } lane t .settled)
    | _ => none
  | none => none

/-- What the waiter does with the answer of `pair_wait_step`: a pair goes to
`pair_lanes_inner`, everything else that ends the wait rejects the lane. -/
def afterPoll (s : LaneServer) (lane : LaneId) (t : LaneTask) (permit : PendingLanePermit)
    (again : LanePhase) : PairingPoll × PendingLaneRegistry → LaneServer
  | (.done (.pair other), reg) =>
    setPhase { s with registry := reg, log := .handed lane other.supervisor :: s.log } lane t
      (.paired [permit, other.permit])
  | (.done .timeout, reg) => setPhase { s with registry := reg } lane t (.rejecting [permit])
  | (.done (.reservationLost _), reg) =>
    setPhase { s with registry := reg } lane t (.rejecting [permit])
  | (.wait, reg) => setPhase { s with registry := reg } lane t again

/-- One call of `pair_wait_step` by `wait_for_pair`, at the head of its loop or, after
the timeout, for the last time. -/
def poll (s : LaneServer) (lane : LaneId) (now : Instant) : Option LaneServer :=
  match s.tasks.lookup lane with
  | some t =>
    match t.phase, t.hello with
    | .waiting permit changed seen expiresAt .polling, some h =>
      some (s.afterPoll lane t permit (.waiting permit changed seen expiresAt .blocked)
        (s.registry.pairWaitStep h.nonce h.laneClass t.peer expiresAt now))
    | .waiting permit _ _ expiresAt .lastPoll, some h =>
      some (s.afterPoll lane t permit (.rejecting [permit])
        (s.registry.pairWaitStep h.nonce h.laneClass t.peer expiresAt now))
    | _, _ => none
  | none => none

/-- `changed.changed()` completes before the deadline. The code looks only at the
timeout: an error of the channel leads back to the loop like a change. -/
def wake (s : LaneServer) (lane : LaneId) : Option LaneServer :=
  match s.tasks.lookup lane with
  | some t =>
    match t.phase with
    | .waiting permit changed seen expiresAt .blocked =>
      if s.changedReady changed seen then
        some (s.setPhase lane t
          (.waiting permit changed (s.watchVersion changed) expiresAt .polling))
      else none
    | _ => none
  | none => none

/-- `timeout_at` fires: nothing changed and the deadline has passed. -/
def timeout (s : LaneServer) (lane : LaneId) (now : Instant) : Option LaneServer :=
  match s.tasks.lookup lane with
  | some t =>
    match t.phase with
    | .waiting permit changed seen expiresAt .blocked =>
      if s.changedReady changed seen = false ∧ expiresAt ≤ now then
        some (s.setPhase lane t (.waiting permit changed seen expiresAt .lastPoll))
      else none
    | _ => none
  | none => none

/-- `reinsert_ready_lane_or_reject`: the other lane goes back under the receiver's
nonce, or is dropped when the nonce is taken. -/
def reinsert (s : LaneServer) (lane : LaneId) : Option LaneServer :=
  match s.tasks.lookup lane with
  | some t =>
    match t.phase, t.hello with
    | .restoring permit other expiresAt, some h =>
      match s.registry.reinsertReadyLane h.nonce other expiresAt with
      | (.ok (), reg) =>
        some (setPhase { s with registry := reg, log := .reinserted lane other.supervisor :: s.log }
          lane t (.rejecting [permit]))
      | (.error other, reg) =>
        some (setPhase { s with registry := reg } lane t (.rejecting [permit, other.permit]))
    | _, _ => none
  | none => none

/-- A task that is done with its lane drops one of the permits it still holds. -/
def dropPermit (s : LaneServer) (lane : LaneId) : Option LaneServer :=
  match s.tasks.lookup lane with
  | some t =>
    match t.phase with
    | .paired (permit :: permits) =>
      some ((s.releasePermit permit).setPhase lane t (.paired permits))
    | .rejecting (permit :: permits) =>
      some ((s.releasePermit permit).setPhase lane t (.rejecting permits))
    | _ => none
  | none => none

/-- The worker calls `expire`. -/
def expire (s : LaneServer) (now : Instant) : Option LaneServer :=
  match s.worker with
  | ⟨[], []⟩ =>
    let (removed, changed, reg) := s.registry.expire now
    some { s with registry := reg, worker := ⟨removed, changed⟩ }
  | _ => none

/-- `drop(changed)` at the end of `expire`. -/
def dropSenders (s : LaneServer) : Option LaneServer :=
  match s.worker.changed with
  | [] => none
  | changed => some { s with
      watches := changed.foldl closeWatch s.watches
      worker := { s.worker with changed := [] } }

/-- The worker is done with one expired record and drops it. -/
def reap (s : LaneServer) : Option LaneServer :=
  match s.worker with
  | ⟨expired :: removed, []⟩ =>
    some { s.releasePermit expired.permit with worker := ⟨removed, []⟩ }
  | _ => none

/-- One step of the system. -/
def step (s : LaneServer) : LaneEvent → Option LaneServer
  | .accept lane expectedClass peer localAddr =>
    s.handleLaneAccept lane expectedClass peer localAddr
  | .helloFailed lane => s.readLaneHello lane none
  | .hello lane h => s.readLaneHello lane (some h)
  | .groupFull lane => s.rejectGroupFull lane
  | .register lane now => s.register lane now
  | .heartbeat lane ok => s.writeBirthHeartbeat lane ok
  | .cancel lane => s.cancel lane
  | .dropEntry lane => s.dropEntry lane
  | .confirm lane => s.confirm lane
  | .announce lane => s.announce lane
  | .dropSender lane => s.dropSender lane
  | .poll lane now => s.poll lane now
  | .wake lane => s.wake lane
  | .timeout lane now => s.timeout lane now
  | .reinsert lane => s.reinsert lane
  | .dropPermit lane => s.dropPermit lane
  | .expire now => s.expire now
  | .dropSenders => s.dropSenders
  | .reap => s.reap

end LaneServer

/-- The server as a machine: its runs are all interleavings of its parties. -/
def laneServer : Machine LaneServer LaneEvent := ⟨LaneServer.init, LaneServer.step⟩

/-- A lane of the client host arrives and gets as far as its registration; all its
lanes present the nonce 7. The concrete runs below are built from such arrivals. -/
def arrival (lane : LaneId) (laneClass : LaneClass) (group : GroupToken) : List LaneEvent :=
  [.accept lane laneClass (.v4 0x0a000001#32 (.ofNat (50000 + lane))) (.v4 0x0a0000fe#32 443),
    .hello lane ⟨laneClass, ⟨7⟩, group⟩, .register lane 0]

end RtpMux

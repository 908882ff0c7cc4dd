import RtpMux.LaneOutcome

/-!
# The serve loop (`serve_with_handler` in `server.rs`, `accept_error.rs`)

The loop selects among its arms: a finished lane task, group drivers, the rejection log's ticker, a
finished handshake, the two listeners and the shutdown future; the task of the expiry worker, which
it would join too, never ends. A listener that has a connection yields an accept future; the loop
spawns it into a task set of its own, because awaiting the handshake inline would stop the
listeners. The accept tasks of the lanes and the expiry worker (`RtpMux.LaneOutcome`) run beside the
loop.

A listener that fails and a connection whose handshake fails look the same from here on:
`spawn_frame_delivery_accept` puts both into the task set as an `io::Result`, and
`handle_lane_accept` gives the error to `AcceptErrorBackoff::failed_dispatching`. A
retryable error costs a pause of at most `RETRY_BACKOFF_MAX`. An error of a fatal kind ends
the loop, whoever it came from: one peer whose handshake fails with `InvalidData` stops the
server (`handshake_stops_the_server`). As long as no handshake fails with a fatal kind, the
loop ends only on shutdown (`only_shutdown_ends_the_loop`).
-/

namespace RtpMux

/-! ## Accept errors -/

/-- `std::io::ErrorKind`. -/
inductive ErrorKind where
  | notFound | permissionDenied | connectionRefused | connectionReset | hostUnreachable
  | networkUnreachable | connectionAborted | notConnected | addrInUse | addrNotAvailable
  | networkDown | brokenPipe | alreadyExists | wouldBlock | notADirectory | isADirectory
  | directoryNotEmpty | readOnlyFilesystem | filesystemLoop | staleNetworkFileHandle
  | invalidInput | invalidData | timedOut | writeZero | storageFull | notSeekable
  | quotaExceeded | fileTooLarge | resourceBusy | executableFileBusy | deadlock
  | crossesDevices | tooManyLinks | invalidFilename | argumentListTooLong | interrupted
  | unsupported | unexpectedEof | outOfMemory | inProgress | other | uncategorized
  deriving DecidableEq, Repr

/-- `is_fatal`. -/
def ErrorKind.isFatal : ErrorKind → Bool
  | invalidInput => true
  | invalidData => true
  | permissionDenied => true
  | addrNotAvailable => true
  | notConnected => true
  | unsupported => true
  | _ => false

/-- The `std::io::Error` of a failed accept: its kind and what it prints as. -/
structure AcceptError where
  kind : ErrorKind
  message : String
  deriving DecidableEq, Repr

/-- `WARN_AFTER_CONSECUTIVE`. -/
def warnAfterConsecutive : Nat := 3

/-- `RETRY_BACKOFF_BASE`: one millisecond. -/
def retryBackoffBase : Nat := 1000000

/-- `RETRY_BACKOFF_MAX`: a hundred milliseconds. -/
def retryBackoffMax : Nat := 100 * 1000000

/-- `AcceptErrorBackoff`: the current streak of accept errors on one listener. -/
structure AcceptErrorBackoff where
  errorCount : Nat
  firstError : Option String
  lastError : Option String
  startedAt : Option Instant
  logged : Bool
  deriving DecidableEq, Repr

namespace AcceptErrorBackoff

/-- `AcceptErrorBackoff::default`. -/
def default : AcceptErrorBackoff := ⟨0, none, none, none, false⟩

/-- `failed_dispatching`: count the error, and give it back if its kind is fatal. The
counter is a `u64`. -/
def failedDispatching (b : AcceptErrorBackoff) (error : AcceptError) (now : Instant) :
    Except AcceptError Unit × AcceptErrorBackoff :=
  let fatal := error.kind.isFatal
  let errorCount := (b.errorCount + 1) % 2 ^ 64
  let b : AcceptErrorBackoff :=
    { errorCount
      startedAt := some (b.startedAt.getD now)
      firstError := some (b.firstError.getD error.message)
      lastError := some error.message
      logged := b.logged || fatal || errorCount ≥ warnAfterConsecutive }
  (if fatal then .error error else .ok (), b)

/-- `retry_delay`: nothing until the warning threshold, then doubling up to the cap. -/
def retryDelay (b : AcceptErrorBackoff) : Nat :=
  if b.errorCount < warnAfterConsecutive then 0
  else
    let beyond := b.errorCount - warnAfterConsecutive
    min (retryBackoffBase * 2 ^ min beyond 16) retryBackoffMax

/-- `accepted`: a connection ends the streak. -/
def accepted (_ : AcceptErrorBackoff) : AcceptErrorBackoff := default

/-- The pause is bounded. -/
theorem retryDelay_le (b : AcceptErrorBackoff) : b.retryDelay ≤ retryBackoffMax := by
  simp only [retryDelay]
  split
  · exact Nat.zero_le _
  · exact Nat.min_le_right _ _

example : ({ default with errorCount := 9 } : AcceptErrorBackoff).retryDelay = 64 * 1000000 := by
  decide

/-- An error that is not fatal does not end the loop. -/
theorem failedDispatching_retryable {b : AcceptErrorBackoff} {error : AcceptError} {now : Instant}
    (h : error.kind.isFatal = false) : (b.failedDispatching error now).1 = .ok () := by
  simp only [failedDispatching, h]
  rfl

end AcceptErrorBackoff

/-! ## The loop -/

/-- `ServeError`. Its `ExpiryWorkerStopped` is not here: `run_pending_lane_expiry` is a loop that
nothing breaks (`RtpMux.ExpiryWorker`), so the arm that joins its task is never ready. -/
inductive ServeError where
  | accept (source : AcceptError) (addr : SocketAddr)
  deriving DecidableEq, Repr

/-- A task of `rtp_accepts`: what the listener yielded, and the lane class it came in on. -/
structure AcceptTask where
  accept : Except AcceptError Unit
  lane : LaneClass

/-- The loop is inside `AcceptErrorBackoff::pause`. -/
structure Pause where
  since : Instant
  delay : Nat
  deriving DecidableEq, Repr

/-- The `watch` channel of the shutdown signal: its value, and whether its sender is gone. -/
structure ShutdownWatch where
  value : Bool
  dropped : Bool
  deriving DecidableEq, Repr

/-- What `serve_with_handler` holds. `ended` is the value the loop broke with. -/
structure ServeLoop where
  addr : SocketAddr
  bulkAddr : SocketAddr
  lanes : LaneOutcomes
  rtpAccepts : HashMap Nat AcceptTask
  interactiveBackoff : AcceptErrorBackoff
  bulkBackoff : AcceptErrorBackoff
  paused : Option Pause
  shutdown : Option ShutdownWatch
  ended : Option (Except ServeError Unit)

/-- The arms of the loop that log, or look after the group drivers. -/
inductive UpkeepArm where
  | muxJoined
  | driverSubmitted
  | driverReaped
  | rejectionTick
  deriving DecidableEq, Repr

/-- One step of the loop, of a task beside it, or of the caller. -/
inductive ServeEvent where
  /-- a listener yields a connection or fails -/
  | polled (task : Nat) (lane : LaneClass) (accept : Except AcceptError Unit)
  /-- an accept task is joined; `handshake` is what the connection's accept future
  resolved to -/
  | joined (task : Nat) (handshake : Except AcceptError (LaneId × SocketAddr)) (now : Instant)
  | upkeep (arm : UpkeepArm)
  | shutdown
  /-- the pause after a failed accept is over -/
  | resume (now : Instant)
  /-- a step of the lanes' accept tasks or of the expiry worker -/
  | lane (e : OutcomeEvent)
  /-- the caller sends on the shutdown channel -/
  | signal (value : Bool)
  /-- the caller drops the sender of the shutdown channel -/
  | dropSignal

namespace ServeLoop

/-- The loop before its first turn. -/
def start (addr bulkAddr : SocketAddr) (shutdown : Option ShutdownWatch) : ServeLoop :=
  ⟨addr, bulkAddr, .init, ∅, .default, .default, none, shutdown, none⟩

/-- The listener address of a lane class. -/
def localAddr (s : ServeLoop) : LaneClass → SocketAddr
  | .interactive => s.addr
  | .bulk => s.bulkAddr

/-- The backoff of a lane class's listener. -/
def backoff (s : ServeLoop) : LaneClass → AcceptErrorBackoff
  | .interactive => s.interactiveBackoff
  | .bulk => s.bulkBackoff

/-- Put a listener's backoff back. -/
def setBackoff (s : ServeLoop) (lane : LaneClass) (b : AcceptErrorBackoff) : ServeLoop :=
  match lane with
  | .interactive => { s with interactiveBackoff := b }
  | .bulk => { s with bulkBackoff := b }

/-- `wait_for_shutdown` is ready: the value is `true`, or the sender is gone. Without a
channel the future is pending forever. -/
def shutdownReady (s : ServeLoop) : Bool :=
  match s.shutdown with
  | some w => w.value || w.dropped
  | none => false

/-- `finish_frame_delivery_accept`: `accept?.await`. -/
def finishFrameDeliveryAccept (accept : Except AcceptError Unit)
    (handshake : Except AcceptError (LaneId × SocketAddr)) :
    Except AcceptError (LaneId × SocketAddr) :=
  match accept with
  | .ok () => handshake
  | .error error => .error error

/-- `spawn_frame_delivery_accept`. -/
def spawnFrameDeliveryAccept (s : ServeLoop) (task : Nat) (lane : LaneClass)
    (accept : Except AcceptError Unit) : Option ServeLoop :=
  if task ∈ s.rtpAccepts then none
  else some { s with rtpAccepts := s.rtpAccepts.insert task ⟨accept, lane⟩ }

/-- `handle_lane_accept`, up to its pause. A connection becomes a lane of the lane server;
an error goes to the backoff of its listener. -/
def handleLaneAccept (s : ServeLoop) (accept : Except AcceptError (LaneId × SocketAddr))
    (lane : LaneClass) (now : Instant) : Option ServeLoop :=
  match accept with
  | .ok (id, peer) =>
    (s.lanes.step (.lane (.accept id lane peer (s.localAddr lane)) .deadline)).map fun lanes =>
      { s.setBackoff lane (s.backoff lane).accepted with lanes := lanes }
  | .error error =>
    match (s.backoff lane).failedDispatching error now with
    | (.ok (), b) => some { s.setBackoff lane b with paused := some ⟨now, b.retryDelay⟩ }
    | (.error source, b) => some { s.setBackoff lane b with
        ended := some (.error (.accept source (s.localAddr lane))) }

/-- The arm of `rtp_accepts.join_next()`. -/
def joinAccept (s : ServeLoop) (task : Nat) (handshake : Except AcceptError (LaneId × SocketAddr))
    (now : Instant) : Option ServeLoop :=
  match s.rtpAccepts.lookup task with
  | some t =>
    handleLaneAccept { s with rtpAccepts := s.rtpAccepts.erase task }
      (finishFrameDeliveryAccept t.accept handshake) t.lane now
  | none => none

/-- One turn of the select loop, over its arms that can be ready. -/
def select (s : ServeLoop) : ServeEvent → Option ServeLoop
  | .polled task lane accept => s.spawnFrameDeliveryAccept task lane accept
  | .joined task handshake now => s.joinAccept task handshake now
  | .upkeep _ => some s
  | .shutdown => if s.shutdownReady then some { s with ended := some (.ok ()) } else none
  | _ => none

/-- A step of a task beside the loop. Lanes are accepted by the loop alone. -/
def laneStep (s : ServeLoop) : OutcomeEvent → Option ServeLoop
  | .lane (.accept _ _ _ _) _ => none
  | e => (s.lanes.step e).map fun lanes => { s with lanes := lanes }

/-- One step. The loop takes no turn while it pauses, and nothing happens once it has
ended; the tasks beside it and the caller do not wait for it. -/
def step (s : ServeLoop) (e : ServeEvent) : Option ServeLoop :=
  if s.ended.isSome then none
  else
    match e with
    | .lane e => s.laneStep e
    | .signal value =>
      match s.shutdown with
      | some ⟨_, false⟩ => some { s with shutdown := some ⟨value, false⟩ }
      | _ => none
    | .dropSignal =>
      match s.shutdown with
      | some ⟨value, false⟩ => some { s with shutdown := some ⟨value, true⟩ }
      | _ => none
    | .resume now =>
      match s.paused with
      | some p => if p.since + p.delay ≤ now then some { s with paused := none } else none
      | none => none
    | e => if s.paused.isSome then none else s.select e

end ServeLoop

/-- The serve loop as a machine, for given listener addresses and shutdown channel. -/
def serveLoop (addr bulkAddr : SocketAddr) (shutdown : Option ShutdownWatch) :
    Machine ServeLoop ServeEvent := ⟨ServeLoop.start addr bulkAddr shutdown, ServeLoop.step⟩

/-- Polling a listener yields a connection. -/
def ServeEvent.yieldsConnection : ServeEvent → Bool
  | .polled _ _ (.error _) => false
  | _ => true

/-- No connection's accept future resolves to an error of a fatal kind. -/
def ServeEvent.retryable : ServeEvent → Bool
  | .joined _ (.error error) _ => !error.kind.isFatal
  | _ => true

/-! ## What the loop promises -/

/-- The loop serves until it is told to shut down. -/
structure KeepsServing (s : ServeLoop) : Prop where
  /-- it ends only because of the shutdown signal -/
  ended : ∀ result, s.ended = some result → result = .ok () ∧ s.shutdownReady = true
  /-- a failed connection costs a bounded pause -/
  pause : ∀ p, s.paused = some p → p.delay ≤ retryBackoffMax
  /-- after which the loop goes on -/
  resumes : ∀ p, s.ended = none → s.paused = some p →
    s.step (.resume (p.since + p.delay)) = some { s with paused := none }
  /-- and a loop that does not pause takes the next connection -/
  listens : s.ended = none → s.paused = none → ∀ task lane, task ∉ s.rtpAccepts →
    s.step (.polled task lane (.ok ())) =
      some { s with rtpAccepts := s.rtpAccepts.insert task ⟨.ok (), lane⟩ }

/-- What a run maintains whose listeners yield connections and whose handshakes fail with
retryable kinds only. -/
structure ServeInv (s : ServeLoop) : Prop where
  /-- every accept task has a connection -/
  connected : ∀ task t, s.rtpAccepts.lookup task = some t → t.accept = .ok ()
  ended : ∀ result, s.ended = some result → result = .ok () ∧ s.shutdownReady = true
  pause : ∀ p, s.paused = some p → p.delay ≤ retryBackoffMax

/-- The loop starts without errors. -/
theorem ServeInv.start (addr bulkAddr : SocketAddr) (shutdown : Option ShutdownWatch) :
    ServeInv (.start addr bulkAddr shutdown) := by
  refine ⟨?_, ?_, ?_⟩
  · intro task t ht
    cases ht
  · intro result hend
    cases hend
  · intro p hp
    cases hp

/-- A step that does not touch the accept tasks, while the loop runs. -/
theorem ServeInv.frame {s s' : ServeLoop} (hinv : ServeInv s)
    (haccepts : s'.rtpAccepts = s.rtpAccepts)
    (hended : s'.ended = none) (hpause : ∀ p, s'.paused = some p → p.delay ≤ retryBackoffMax) :
    ServeInv s' := by
  refine ⟨?_, ?_, hpause⟩
  · rw [haccepts]
    exact hinv.connected
  · intro result hend
    rw [hended] at hend
    cases hend

/-- Setting a lane's backoff changes nothing else. -/
theorem setBackoff_frame (s : ServeLoop) (lane : LaneClass) (b : AcceptErrorBackoff) :
    (s.setBackoff lane b).rtpAccepts = s.rtpAccepts ∧
      (s.setBackoff lane b).ended = s.ended ∧ (s.setBackoff lane b).paused = s.paused := by
  cases lane
  · exact ⟨rfl, rfl, rfl⟩
  · exact ⟨rfl, rfl, rfl⟩

/-- A handshake that succeeded or failed with a retryable kind is handled without ending
the loop. -/
theorem ServeInv.handleLaneAccept {s s' : ServeLoop}
    {accept : Except AcceptError (LaneId × SocketAddr)} {lane : LaneClass} {now : Instant}
    (hinv : ServeInv s) (hrun : s.ended = none)
    (hretry : ∀ error, accept = .error error → error.kind.isFatal = false)
    (h : s.handleLaneAccept accept lane now = some s') : ServeInv s' := by
  simp only [ServeLoop.handleLaneAccept] at h
  split at h
  · rename_i id peer
    obtain ⟨lanes, -, rfl⟩ := Option.map_eq_some_iff.mp h
    obtain ⟨haccepts, hended, hpaused⟩ :=
      setBackoff_frame s lane (s.backoff lane).accepted
    refine hinv.frame haccepts (hended.trans hrun) ?_
    simp only [hpaused]
    exact hinv.pause
  · rename_i error
    have hok : ((s.backoff lane).failedDispatching error now).1 = .ok () :=
      AcceptErrorBackoff.failedDispatching_retryable (hretry error rfl)
    split at h
    · rename_i b _
      cases h
      obtain ⟨haccepts, hended, -⟩ := setBackoff_frame s lane b
      refine hinv.frame haccepts (hended.trans hrun) ?_
      rintro p hp
      obtain rfl := Option.some.inj hp
      exact b.retryDelay_le
    · rename_i source b hfailed
      rw [hfailed] at hok
      cases hok

/-- One turn of the loop. -/
theorem ServeInv.select {s s' : ServeLoop} {e : ServeEvent} (hinv : ServeInv s)
    (hrun : s.ended = none) (hyields : e.yieldsConnection = true) (hretry : e.retryable = true)
    (h : s.select e = some s') : ServeInv s' := by
  cases e with
  | polled task lane accept =>
    cases accept with
    | error error => cases hyields
    | ok =>
      simp only [ServeLoop.select, ServeLoop.spawnFrameDeliveryAccept] at h
      split at h
      · cases h
      cases h
      refine ⟨?_, hinv.ended, hinv.pause⟩
      intro task' t ht
      simp only [HashMap.lookup_insert_eq] at ht
      split at ht
      · obtain rfl := Option.some.inj ht
        rfl
      · exact hinv.connected task' t ht
  | joined task handshake now =>
    simp only [ServeLoop.select, ServeLoop.joinAccept] at h
    split at h
    · rename_i t ht
      have hjoin : ServeInv { s with rtpAccepts := s.rtpAccepts.erase task } := by
        refine ⟨?_, hinv.ended, hinv.pause⟩
        intro task' t' ht'
        simp only [HashMap.lookup_erase_eq] at ht'
        split at ht'
        · cases ht'
        · exact hinv.connected task' t' ht'
      refine hjoin.handleLaneAccept hrun ?_ h
      -- the task had a connection, so the error is the handshake's
      intro error herror
      rw [hinv.connected task t ht] at herror
      simp only [ServeLoop.finishFrameDeliveryAccept] at herror
      rw [herror] at hretry
      simpa [ServeEvent.retryable] using hretry
    · cases h
  | upkeep arm =>
    cases h
    exact hinv
  | shutdown =>
    simp only [ServeLoop.select] at h
    split at h
    · rename_i hready
      cases h
      refine ⟨hinv.connected, ?_, hinv.pause⟩
      rintro result hend
      exact ⟨(Option.some.inj hend).symm, hready⟩
    · cases h
  | _ => cases h

/-- Every step keeps the invariant. -/
theorem ServeInv.step {s s' : ServeLoop} {e : ServeEvent} (hinv : ServeInv s)
    (hyields : e.yieldsConnection = true) (hretry : e.retryable = true)
    (h : s.step e = some s') : ServeInv s' := by
  simp only [ServeLoop.step] at h
  split at h
  · cases h
  rename_i hrun
  replace hrun : s.ended = none := by simpa using hrun
  split at h
  · rename_i e
    simp only [ServeLoop.laneStep] at h
    split at h
    · cases h
    · obtain ⟨lanes, -, rfl⟩ := Option.map_eq_some_iff.mp h
      exact hinv.frame rfl hrun hinv.pause
  · split at h
    · cases h
      exact hinv.frame rfl hrun hinv.pause
    · cases h
  · split at h
    · cases h
      exact hinv.frame rfl hrun hinv.pause
    · cases h
  · split at h
    · split at h
      · cases h
        refine hinv.frame rfl hrun ?_
        intro p hp
        cases hp
      · cases h
    · cases h
  · split at h
    · cases h
    · exact hinv.select hrun hyields hretry h

/-- **Only shutdown ends the loop**, in every run in which the listeners yield connections
and no handshake fails with a fatal kind: whatever else fails, in any number and order, the
loop pauses for a bounded time and goes on. -/
theorem only_shutdown_ends_the_loop (addr bulkAddr : SocketAddr)
    (shutdown : Option ShutdownWatch) {s : ServeLoop}
    (h : (serveLoop addr bulkAddr shutdown).ReachesWhere
      (fun _ e => e.yieldsConnection = true ∧ e.retryable = true) s) : KeepsServing s := by
  have hinv : ServeInv s :=
    h.invariant (ServeInv.start addr bulkAddr shutdown) fun _ _ _ hs hC hst =>
      hs.step hC.1 hC.2 hst
  refine ⟨hinv.ended, hinv.pause, ?_, ?_⟩
  · intro p hrun hpaused
    simp [ServeLoop.step, hrun, hpaused]
  · intro hrun hpaused task lane hfree
    simp [ServeLoop.step, ServeLoop.select, ServeLoop.spawnFrameDeliveryAccept, hrun, hpaused,
      hfree]

/-- A handshake is reset by its peer: the loop pauses, resumes, and is shut down by its
caller. -/
theorem reset_handshake_is_survived :
    ∃ s, (serveLoop (.v4 0x0a0000fe#32 443) (.v4 0x0a0000fe#32 444)
        (some ⟨false, false⟩)).ReachesWhere
      (fun _ e => e.yieldsConnection = true ∧ e.retryable = true) s ∧
      s.ended = some (.ok ()) ∧ s.interactiveBackoff.errorCount = 1 ∧ s.shutdownReady = true := by
  have hrun : ∃ s, (serveLoop (.v4 0x0a0000fe#32 443) (.v4 0x0a0000fe#32 444)
        (some ⟨false, false⟩)).ReachesWhere
      (fun _ e => e.yieldsConnection = true ∧ e.retryable = true) s ∧
      s.ended = some (.ok ()) ∧ s.interactiveBackoff.errorCount = 1 :=
    ⟨_, ⟨[.polled 0 .interactive (.ok ()),
      .joined 0 (.error ⟨.connectionReset, "connection reset by peer"⟩) 5, .resume 5,
      .polled 1 .bulk (.ok ()), .joined 1 (.ok (1, .v4 0x0a000001#32 50001)) 7, .signal true,
      .shutdown], Machine.run_of_exec rfl⟩, rfl, rfl⟩
  obtain ⟨s, hs, hend, hcount⟩ := hrun
  exact ⟨s, hs, hend, hcount, ((only_shutdown_ends_the_loop _ _ _ hs).ended _ hend).2⟩

/-- One connection's handshake fails with `InvalidData`: the loop ends with its error, and
nobody asked it to shut down. -/
theorem handshake_stops_the_server :
    ∃ s, (serveLoop (.v4 0x0a0000fe#32 443) (.v4 0x0a0000fe#32 444) none).ReachesWhere
        (fun _ e => e.yieldsConnection = true) s ∧
      s.ended = some (.error (.accept ⟨.invalidData, "malformed handshake"⟩
        (.v4 0x0a0000fe#32 443))) ∧ s.shutdown = none ∧ ¬ KeepsServing s := by
  have hrun : ∃ s, (serveLoop (.v4 0x0a0000fe#32 443) (.v4 0x0a0000fe#32 444)
        none).ReachesWhere (fun _ e => e.yieldsConnection = true) s ∧
      s.ended = some (.error (.accept ⟨.invalidData, "malformed handshake"⟩
        (.v4 0x0a0000fe#32 443))) ∧ s.shutdown = none :=
    ⟨_, ⟨[.polled 0 .interactive (.ok ()),
      .joined 0 (.error ⟨.invalidData, "malformed handshake"⟩) 5], Machine.run_of_exec rfl⟩,
      rfl, rfl⟩
  obtain ⟨s, hs, hend, hnone⟩ := hrun
  refine ⟨s, hs, hend, hnone, ?_⟩
  intro hserves
  cases (hserves.ended _ hend).1

/-! ## The lanes under the loop -/

/-- A step of the loop is a step of the lane server with its outcomes, or leaves it alone. -/
theorem lanes_of_step {s s' : ServeLoop} {e : ServeEvent} (h : s.step e = some s') :
    s'.lanes = s.lanes ∨ ∃ e', s.lanes.step e' = some s'.lanes := by
  have hhandle : ∀ {s₀ s₁ : ServeLoop} {accept lane now},
      s₀.handleLaneAccept accept lane now = some s₁ →
      s₁.lanes = s₀.lanes ∨ ∃ e', s₀.lanes.step e' = some s₁.lanes := by
    intro s₀ s₁ accept lane now hs
    simp only [ServeLoop.handleLaneAccept] at hs
    split at hs
    · obtain ⟨lanes, hst, rfl⟩ := Option.map_eq_some_iff.mp hs
      exact .inr ⟨_, hst⟩
    · split at hs
      · cases hs
        cases lane <;> exact .inl rfl
      · cases hs
        cases lane <;> exact .inl rfl
  simp only [ServeLoop.step] at h
  split at h
  · cases h
  split at h
  · simp only [ServeLoop.laneStep] at h
    split at h
    · cases h
    · obtain ⟨lanes, hst, rfl⟩ := Option.map_eq_some_iff.mp h
      exact .inr ⟨_, hst⟩
  · split at h <;> cases h
    exact .inl rfl
  · split at h <;> cases h
    exact .inl rfl
  · split at h
    · split at h <;> cases h
      exact .inl rfl
    · cases h
  · split at h
    · cases h
    cases e with
    | polled task lane accept =>
      simp only [ServeLoop.select, ServeLoop.spawnFrameDeliveryAccept] at h
      split at h <;> cases h
      exact .inl rfl
    | joined task handshake now =>
      simp only [ServeLoop.select, ServeLoop.joinAccept] at h
      split at h
      · have hlanes := hhandle h
        exact hlanes
      · cases h
    | upkeep arm =>
      cases h
      exact .inl rfl
    | shutdown =>
      simp only [ServeLoop.select] at h
      split at h <;> cases h
      exact .inl rfl
    | _ => cases h

/-- **The serve loop runs the lane server.** Whatever holds of every run of the lanes' tasks
and the expiry worker holds under the serve loop. -/
theorem lanes_reaches (addr bulkAddr : SocketAddr) (shutdown : Option ShutdownWatch)
    {s : ServeLoop} (h : (serveLoop addr bulkAddr shutdown).Reaches s) :
    laneOutcomes.Reaches s.lanes := by
  refine h.invariant (I := fun s => laneOutcomes.Reaches s.lanes) ⟨[], .nil _⟩ ?_
  intro s e s' hs hst
  obtain hsame | ⟨e', hstep⟩ := lanes_of_step hst
  · rw [hsame]
    exact hs
  · exact hs.tail trivial hstep

end RtpMux

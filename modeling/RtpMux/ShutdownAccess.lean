import RtpMux.WriteStep
import RtpMux.WriteStream

/-!
# Shutdown, one access at a time

The state of a shutdown is spread over the half (`pending_control`, `shutdown_started`,
`shutdown_complete`, `shutdown_result`), the error the background writer stores, the channel and
the reply, and the answer may be picked up by a write or a flush. `ShutInv` says how these fit
together.

`ShutdownAccess` lists what one access of a poll can do to the shutdown. Most accesses do nothing;
the others send the command, pick up its answer, find an error before anything was sent, or
report.
-/

namespace RtpMux

open WriteSystem

/-! ## The history of a shutdown -/

/-- The result with which a `poll_shutdown` returned `Ready`. -/
def WriteLog.shutdownReady : WriteLog → Option (Except IoError Unit)
  | pollShutdown (.ready result) => some result
  | _ => none

/-- No `poll_write` and no `poll_flush` that succeeded. -/
def WriteLog.refused : WriteLog → Bool
  | pollWrite _ (.ready (.ok _)) => false
  | pollFlush (.ready (.ok _)) => false
  | _ => true

/-- The results with which `poll_shutdown` returned `Ready`, newest first. -/
def readyShutdowns (log : List WriteLog) : List (Except IoError Unit) :=
  log.filterMap WriteLog.shutdownReady

/-- The command is `Shutdown`. -/
def WriteCommand.isShutdown : WriteCommand → Bool
  | shutdown _ => true
  | _ => false

/-- What happened to the channel and to the shutdown command. -/
structure ShutdownHistory where
  /-- the commands that were put on the channel, newest first -/
  sent : List WriteCommand
  /-- the log when the `Shutdown` command was put there -/
  sentAt : Option (List WriteLog)
  /-- the outcome of `finalize` for that command -/
  finalized : Option (Except BackgroundWriteError Unit)

namespace ShutdownHistory

/-- Nothing is on the channel yet. -/
def start : ShutdownHistory := ⟨[], none, none⟩

/-- An access puts `commands` on the channel. -/
def send (past : ShutdownHistory) (log : List WriteLog) (commands : List WriteCommand) :
    ShutdownHistory :=
  { past with
    sent := commands.reverse ++ past.sent
    sentAt := if commands.any (·.isShutdown) then some log else past.sentAt }

/-- What event `e`, taken in `s`, adds to the history. -/
def record (s : WriteSystem) (e : WriteEvent) (past : ShutdownHistory) : ShutdownHistory :=
  match e with
  | .advance =>
    match s.advance with
    | some s' => past.send s.log (s'.queue.drop s.queue.length)
    | none => past
  | .writerResult result =>
    match s.background with
    | .finalizing (some _) => { past with finalized := some result }
    | _ => past
  | .finalizeTimeout =>
    match s.background with
    | .finalizing (some _) => { past with finalized := some (.error finalizeTimedOut) }
    | _ => past
  | _ => past

end ShutdownHistory

/-- The write system with the history of its shutdown. -/
def writeSystemWithShutdown : Machine (WriteSystem × ShutdownHistory) WriteEvent :=
  writeSystem.withHistory .start ShutdownHistory.record

/-- The outcome of `finalize`, or the background error that prevented it. -/
def ShutdownOutcome (s : WriteSystem) (past : ShutdownHistory) (result : Except IoError Unit) :
    Prop :=
  (∃ outcome, past.finalized = some outcome ∧
    result = outcome.mapError BackgroundWriteError.toIo) ∨
  past.finalized = none ∧ ∃ error, s.backgroundError = some error ∧ result = .error error.toIo

/-- The background writer does not drop its receivers while a `poll_shutdown` that has seen no
error is about to send. -/
def WriteSystem.keepsReceivers (s : WriteSystem) : WriteEvent → Bool
  | .background =>
    match s.background, s.poll with
    | .returning, .shutdownReserve => false
    | .returning, .shutdownSend => false
    | _, _ => true
  | _ => true

/-! ## The invariant -/

/-- The background writer has left its loop. -/
def BackgroundPc.stopping : BackgroundPc → Bool
  | leaving => true
  | finalizing none => true
  | replying _ _ stop => stop
  | returning => true
  | closedDown => true
  | ended => true
  | _ => false

/-- The background writer finalizes for the shutdown command, or is about to send an answer. -/
def BackgroundPc.finishing : BackgroundPc → Bool
  | finalizing (some _) => true
  | replying _ _ _ => true
  | _ => false

/-- The poll is a `poll_shutdown` behind its first checks. -/
def HalfPc.shutting : HalfPc → Bool
  | shutdownReserve => true
  | shutdownSend => true
  | shutdownControl => true
  | shutdownEpilog => true
  | _ => false

/-- What a `poll_shutdown` knows at each of its points. -/
structure ShutdownPoint (s : WriteSystem) : Prop where
  incomplete : s.poll.shutting = true → s.half.shutdownComplete = false
  usable : s.poll = .shutdownReserve → s.half.writeTx.state ≠ .closed
  receiving : s.poll = .shutdownReserve ∨ s.poll = .shutdownSend →
    s.background.receiving = true ∧ s.half.shutdownResult = none
  started : s.poll = .shutdownControl → s.half.shutdownStarted = true
  stored : s.poll = .shutdownEpilog → s.half.shutdownResult ≠ none

/-- Where the answer to the shutdown command is. -/
inductive ReplyPlace (s : WriteSystem) (past : ShutdownHistory) (reply : ReplyId) : Prop where
  | queued (unanswered : s.replies.lookup reply = some .waiting)
      (receiving : s.background.receiving = true) (mem : WriteCommand.shutdown reply ∈ s.queue)
  | serving (unanswered : s.replies.lookup reply = some .waiting)
      (pc : s.background = .finalizing (some reply))
  | answering {result stop} (unanswered : s.replies.lookup reply = some .waiting)
      (pc : s.background = .replying reply result stop)
  | sent {result} (answer : s.replies.lookup reply = some (.sent result))
      (outcome : past.finalized = some result)
  | closed (answer : s.replies.lookup reply = some .closed) (none : past.finalized = none)
      (failed : s.backgroundError ≠ Option.none)

/-- The invariant of the shutdown protocol. -/
structure ShutInv (s : WriteSystem) (past : ShutdownHistory) : Prop where
  idle : s.dropped = true → s.poll = .idle
  point : ShutdownPoint s
  /-- what is pending after the start is the shutdown -/
  pending : ∀ pending, s.half.pendingControl = some pending →
    (pending.kind = .shutdown ↔ s.half.shutdownStarted = true)
  kept : s.half.shutdownStarted = true → s.half.shutdownComplete = true ∨
    s.half.shutdownResult ≠ none ∨ s.half.pendingControl ≠ none
  fresh : s.half.shutdownStarted = true → s.half.pendingControl ≠ none →
    s.half.shutdownComplete = false ∧ s.half.shutdownResult = none
  complete : s.half.shutdownComplete = true →
    s.half.shutdownResult = none ∧ s.background = .ended
  /-- why a sender is closed -/
  sender : s.dropped = false → s.half.writeTx.state = .closed ∨ s.half.writeTx.alive = false →
    s.half.shutdownStarted = true ∨ s.backgroundError ≠ none
  alive : s.dropped = false → s.half.writeTx.alive = false → s.background.stopping = true
  /-- why a background writer stops -/
  stops : s.background.stopping = true →
    s.dropped = true ∨ s.backgroundError ≠ none ∨ past.finalized ≠ none
  failed : s.backgroundError ≠ none → s.background.stopping = true
  finalized : past.finalized ≠ none →
    s.background.stopping = true ∧ s.half.shutdownStarted = true
  serving : ∀ reply, s.background = .finalizing (some reply) →
    s.half.shutdownStarted = true ∧ past.finalized = none
  queued : ∀ reply, WriteCommand.shutdown reply ∈ s.queue → s.half.shutdownStarted = true ∧
    past.finalized = none ∧ ∀ r, s.background ≠ .finalizing (some r)
  answering : ∀ reply result stop, s.background = .replying reply result stop →
    reply.kind = .flush ∨ past.finalized = some result
  reply : s.dropped = false → ∀ reply, s.half.pendingControl = some ⟨.shutdown, reply⟩ →
    ReplyPlace s past reply
  result : ∀ result, s.half.shutdownResult = some result → ShutdownOutcome s past result
  unreturned : s.half.shutdownComplete = false → readyShutdowns s.log = []
  returned : s.half.shutdownComplete = true → ∃ n result,
    readyShutdowns s.log = List.replicate n (.ok ()) ++ [result] ∧ ShutdownOutcome s past result
  last : ∀ later reply earlier, past.sent = later ++ .shutdown reply :: earlier →
    s.half.shutdownStarted = true ∧ later = [] ∧ ∀ r, WriteCommand.shutdown r ∉ earlier
  sentAt : ∀ log, past.sentAt = some log → s.half.shutdownStarted = true ∧
    ∃ later, s.log = later ++ log ∧ ∀ ev ∈ later, ev.refused = true

/-- No shutdown has begun. -/
theorem shutInv_init : ShutInv WriteSystem.init .start where
  idle := fun _ => rfl
  point := ⟨nofun, nofun, by simp [WriteSystem.init], nofun, nofun⟩
  pending := nofun
  kept := nofun
  fresh := nofun
  complete := nofun
  sender := by simp [WriteSystem.init]
  alive := nofun
  stops := nofun
  failed := by simp [WriteSystem.init]
  finalized := by simp [ShutdownHistory.start]
  serving := nofun
  queued := by simp [WriteSystem.init]
  answering := nofun
  reply := nofun
  result := nofun
  unreturned := fun _ => rfl
  returned := nofun
  last := by simp [ShutdownHistory.start]
  sentAt := nofun

/-! ## The accesses of a poll -/

/-- The half changes in what the shutdown does not depend on: a flush is answered, or the sender
is found closed because the receiver is gone. -/
structure KeepsShutdown (s : WriteSystem) (half : MigratingWriteHalf) : Prop where
  started : half.shutdownStarted = s.half.shutdownStarted
  complete : half.shutdownComplete = s.half.shutdownComplete
  result : half.shutdownResult = s.half.shutdownResult
  alive : half.writeTx.alive = s.half.writeTx.alive
  closed : half.writeTx.state = .closed →
    s.half.writeTx.state = .closed ∨ s.background.receiving = false
  pending : half.pendingControl = s.half.pendingControl ∨
    half.pendingControl = none ∧ s.half.shutdownStarted = false

theorem KeepsShutdown.refl (s : WriteSystem) : KeepsShutdown s s.half :=
  ⟨rfl, rfl, rfl, rfl, .inl, .inl rfl⟩

/-- An access, as far as the shutdown is concerned. -/
inductive ShutdownAccess (s : WriteSystem) : WriteSystem → Prop where
  | quiet {half poll log} (keeps : KeepsShutdown s half)
      (point : ShutdownPoint { s with half := half, poll := poll })
      (logged : log = s.log ∨ ∃ ev, log = ev :: s.log ∧ ev.shutdownReady = none ∧
        (s.half.shutdownStarted = true → ev.refused = true)) :
      ShutdownAccess s { s with half := half, poll := poll, log := log }
  /-- data or a flush goes onto the channel -/
  | sends {command half replies nextReply ev} (kind : command.isShutdown = false)
      (unstarted : s.half.shutdownStarted = false)
      (keeps : half.shutdownStarted = s.half.shutdownStarted ∧
        half.shutdownComplete = s.half.shutdownComplete ∧
        half.shutdownResult = s.half.shutdownResult ∧
        half.writeTx.alive = s.half.writeTx.alive ∧
        (half.writeTx.state = .closed → half.writeTx.alive = false))
      (pending : ∀ pending, half.pendingControl = some pending → pending.kind = .flush)
      (logged : ev.shutdownReady = none) :
      ShutdownAccess s { s with
        half := half, poll := .idle, queue := s.queue ++ [command], replies := replies,
        nextReply := nextReply, log := ev :: s.log }
  /-- the shutdown command goes onto the channel -/
  | sendsShutdown {state nextReply} (poll : s.poll = .shutdownSend)
      (unstarted : s.half.shutdownStarted = false) :
      ShutdownAccess s { s with
        half := { s.half with
          writeTx := { s.half.writeTx with state := state }
          shutdownStarted := true
          pendingControl := some ⟨.shutdown, ⟨.shutdown, s.nextReply⟩⟩ }
        poll := .shutdownControl
        queue := s.queue ++ [WriteCommand.shutdown ⟨.shutdown, s.nextReply⟩]
        replies := s.replies.insert ⟨.shutdown, s.nextReply⟩ .waiting
        nextReply := nextReply }
  /-- the answer to the shutdown command is picked up -/
  | answered {reply result poll log}
      (control : s.half.pendingControl = some ⟨.shutdown, reply⟩)
      (outcome : (∃ outcome, s.replies.lookup reply = some (.sent outcome) ∧
          result = outcome.mapError BackgroundWriteError.toIo) ∨
        s.replies.lookup reply = some .closed ∧
          result = .error (s.backgroundIoError "RTP mux background writer stopped"))
      (next : (poll = .idle ∧ ∃ ev, log = ev :: s.log ∧ ev.shutdownReady = none ∧
        ev.refused = true) ∨ poll = .shutdownEpilog ∧ log = s.log) :
      ShutdownAccess s { s with
        half := { s.half with
          pendingControl := none
          writeTx := s.half.writeTx.close
          shutdownResult := some result }
        poll := poll
        log := log }
  /-- `poll_shutdown` finds an error of the background writer -/
  | fails {error} (unstarted : s.half.shutdownStarted = false)
      (incomplete : s.half.shutdownComplete = false) (failed : s.backgroundError = some error) :
      ShutdownAccess s (s.failShutdown error.toIo)
  /-- `poll_shutdown` has reported before -/
  | repeats (complete : s.half.shutdownComplete = true) :
      ShutdownAccess s (s.ret (.pollShutdown (.ready (.ok ()))))
  /-- `poll_shutdown` reports -/
  | reports {result} (poll : s.poll = .shutdownEpilog) (ended : s.background = .ended)
      (stored : s.half.shutdownResult = some result) :
      ShutdownAccess s (ret { s with
        half := { s.half with shutdownComplete := true, shutdownResult := none } }
        (.pollShutdown (.ready result)))

/-- A poll that is not inside a shutdown. -/
theorem ShutdownPoint.of_other {s : WriteSystem} (h : s.poll.shutting = false) :
    ShutdownPoint s := by
  have hne : ∀ {poll : HalfPc}, poll.shutting = true → s.poll ≠ poll := by
    rintro _ hpoll rfl
    rw [h] at hpoll
    cases hpoll
  refine ⟨?_, ?_, ?_, ?_, ?_⟩
  · intro hpoll
    rw [h] at hpoll
    cases hpoll
  · exact fun hpoll => absurd hpoll (hne rfl)
  · rintro (hpoll | hpoll)
    · exact absurd hpoll (hne rfl)
    · exact absurd hpoll (hne rfl)
  · exact fun hpoll => absurd hpoll (hne rfl)
  · exact fun hpoll => absurd hpoll (hne rfl)

namespace ShutdownAccess

variable {s : WriteSystem} {half : MigratingWriteHalf}

/-- Moving to another point outside of a shutdown keeps the shutdown state. -/
theorem goto (keeps : KeepsShutdown s half) {poll : HalfPc} (h : poll.shutting = false) :
    ShutdownAccess s (WriteSystem.goto { s with half := half } poll) :=
  .quiet keeps (.of_other h) (.inl rfl)

/-- Returning without a shutdown's answer keeps the shutdown state. -/
theorem ret (keeps : KeepsShutdown s half) {ev : WriteLog} (hready : ev.shutdownReady = none)
    (hrefused : s.half.shutdownStarted = true → ev.refused = true) :
    ShutdownAccess s (WriteSystem.ret { s with half := half } ev) :=
  .quiet keeps (.of_other rfl) (.inr ⟨ev, rfl, hready, hrefused⟩)

end ShutdownAccess

/-- The sender of a background writer that runs on is not closed. -/
theorem ShutInv.usable {s : WriteSystem} {past : ShutdownHistory} (hi : ShutInv s past)
    (hkept : s.dropped = false) (hunstarted : s.half.shutdownStarted = false)
    (herror : s.backgroundError = none) :
    s.background.receiving = true ∧ s.half.writeTx.state ≠ .closed ∧
      s.half.shutdownResult = none := by
  have hfinal : past.finalized = none := by
    by_contra h
    have := (hi.finalized h).2
    simp [hunstarted] at this
  refine ⟨?_, ?_, ?_⟩
  · by_contra h
    have hstop : s.background.stopping = true := by
      cases hpc : s.background <;> simp_all [BackgroundPc.receiving, BackgroundPc.stopping]
    rcases hi.stops hstop with h | h | h
    · simp [hkept] at h
    · exact h herror
    · exact h hfinal
  · intro hclosed
    rcases hi.sender hkept (.inl hclosed) with h | h
    · simp [hunstarted] at h
    · exact h herror
  · by_contra h
    obtain ⟨result, hresult⟩ := Option.ne_none_iff_exists'.mp h
    rcases hi.result result hresult with ⟨_, hsome, _⟩ | ⟨-, error, hsome, -⟩
    · rw [hfinal] at hsome
      cases hsome
    · rw [herror] at hsome
      cases hsome

/-- Reserving a slot keeps the shutdown state. -/
theorem KeepsShutdown.reserve {s s₁ : WriteSystem} {answer : Poll (Except Unit Unit)}
    (h : ReserveAnswer s (answer, s₁)) :
    ∃ half, s₁ = { s with half := half } ∧ KeepsShutdown s half := by
  cases h with
  | ready | full => exact ⟨_, rfl, rfl, rfl, rfl, rfl, nofun, .inl rfl⟩
  | closed gone => exact ⟨_, rfl, rfl, rfl, rfl, rfl, fun _ => gone.symm, .inl rfl⟩

/-- A flush is pending only before the start. -/
theorem ShutInv.unstarted_of_flush {s : WriteSystem} {past : ShutdownHistory} (hi : ShutInv s past)
    {reply : ReplyId} (hp : s.half.pendingControl = some ⟨.flush, reply⟩) :
    s.half.shutdownStarted = false := by
  cases hstarted : s.half.shutdownStarted with
  | false => rfl
  | true => cases (hi.pending _ hp).mpr hstarted

/-- No answer to a shutdown is picked up. -/
theorem ShutInv.keeps_control {s s₁ : WriteSystem} {past : ShutdownHistory} (hi : ShutInv s past)
    {answer : Poll (Except IoError (Option ControlKind))} (h : ControlAnswer s (answer, s₁))
    (hother : answer ≠ .ready (.ok (some .shutdown))) :
    ∃ half, s₁ = { s with half := half } ∧ KeepsShutdown s half := by
  cases h with
  | none | waiting => exact ⟨s.half, rfl, .refl s⟩
  | flushed control | flushFails control =>
    exact ⟨_, rfl, rfl, rfl, rfl, rfl, .inl, .inr ⟨rfl, hi.unstarted_of_flush control⟩⟩
  | shutDown => exact absurd rfl hother

/-- **Inversion.** What an access does to the shutdown. -/
theorem ShutdownAccess.of_access {s s' : WriteSystem} {past : ShutdownHistory}
    (hinv : WriteInv s) (hi : ShutInv s past) (hst : AccessStep s s') : ShutdownAccess s s' := by
  have hsame := KeepsShutdown.refl s
  have hkept : s.poll ≠ .idle → s.dropped = false := by
    intro hpoll
    cases hdropped : s.dropped with
    | false => rfl
    | true => exact absurd (hi.idle hdropped) hpoll
  cases hst with
  | writeShut pc control | flushShut pc control =>
    cases control with
    | shutDown control answer => exact .answered control answer (.inl ⟨rfl, _, rfl, rfl, rfl⟩)
  | writeFails pc control | writeWaits pc control | flushFails pc control | flushWaits pc control
  | shutdownWaits pc control =>
    obtain ⟨half, rfl, hkeeps⟩ := hi.keeps_control control nofun
    exact ret hkeeps rfl fun _ => rfl
  | flushDone pc control =>
    obtain ⟨half, rfl, hkeeps⟩ := hi.keeps_control control nofun
    refine ret hkeeps rfl fun hstarted => ?_
    cases control with
    | flushed control sent => cases (hi.pending _ control).mpr hstarted
  | writeGoes pc control other =>
    obtain ⟨half, rfl, hkeeps⟩ := hi.keeps_control control (by simpa using other)
    exact goto hkeeps rfl
  | flushGoes pc control =>
    obtain ⟨half, rfl, hkeeps⟩ := hi.keeps_control control nofun
    exact goto hkeeps rfl
  | writeReserved pc reserve | flushReserved pc reserve =>
    obtain ⟨half, rfl, hkeeps⟩ := KeepsShutdown.reserve reserve
    exact goto hkeeps rfl
  | writeNothing pc reserve =>
    obtain ⟨half, rfl, hkeeps⟩ := KeepsShutdown.reserve reserve
    refine ret hkeeps rfl fun hstarted => ?_
    rw [hinv.unstarted (by rw [pc]; rfl)] at hstarted
    cases hstarted
  | writeClosed pc reserve | writeFull pc reserve | flushClosed pc reserve
  | flushFull pc reserve | shutdownFull pc reserve =>
    obtain ⟨half, rfl, hkeeps⟩ := KeepsShutdown.reserve reserve
    exact ret hkeeps rfl fun _ => rfl
  | writeRefused | flushRefused | shutdownJoins =>
    refine ret ?_ rfl fun _ => rfl
    exact hsame
  | writeChecked | flushChecked =>
    refine goto ?_ rfl
    exact hsame
  | writeSends pc =>
    rename_i bufs
    obtain ⟨state, hstate, hsend⟩ :=
      advanceWriteSend_permit (hinv.permit (by rw [pc]; rfl)) bufs
    have hunstarted := hinv.unstarted (by rw [pc]; rfl)
    rw [hsend]
    refine .sends rfl hunstarted ⟨rfl, rfl, rfl, rfl, hstate⟩ ?_ rfl
    intro pending hp
    have hkind := hi.pending pending hp
    cases hk : pending.kind with
    | flush => rfl
    | shutdown =>
      rw [hunstarted] at hkind
      cases hkind.mp hk
  | flushSends pc =>
    obtain ⟨state, hstate, hsend⟩ := advanceFlushSend_permit (hinv.permit (by rw [pc]; rfl))
    rw [hsend]
    refine .sends rfl (hinv.unstarted (by rw [pc]; rfl)) ⟨rfl, rfl, rfl, rfl, hstate⟩ ?_ rfl
    intro pending hp
    cases hp
    rfl
  | shutdownRepeats pc complete => exact .repeats complete
  | shutdownResumes pc incomplete started =>
    exact .quiet hsame ⟨fun _ => incomplete, nofun, by simp, fun _ => started, nofun⟩ (.inl rfl)
  | shutdownErrs pc incomplete unstarted failed => exact .fails unstarted incomplete failed
  | shutdownChecked pc incomplete unstarted healthy =>
    obtain ⟨hreceiving, husable, hnone⟩ := hi.usable (hkept (by simp [pc])) unstarted healthy
    exact .quiet hsame
      ⟨fun _ => incomplete, fun _ => husable, fun _ => ⟨hreceiving, hnone⟩, nofun, nofun⟩ (.inl rfl)
  | shutdownReserved pc reserve =>
    obtain ⟨half, rfl, hkeeps⟩ := KeepsShutdown.reserve reserve
    have hincomplete := hi.point.incomplete (by rw [pc]; rfl)
    obtain ⟨hreceiving, hnone⟩ := hi.point.receiving (.inl pc)
    exact .quiet hkeeps ⟨fun _ => hkeeps.complete.trans hincomplete, nofun,
      fun _ => ⟨hreceiving, hkeeps.result.trans hnone⟩, nofun, nofun⟩ (.inl rfl)
  | shutdownClosed pc reserve =>
    -- the receivers are there and the sender has not been closed
    exfalso
    cases reserve with
    | closed gone =>
      rcases gone with hgone | hgone
      · rw [(hi.point.receiving (.inl pc)).1] at hgone
        cases hgone
      · exact hi.point.usable pc hgone
  | shutdownSends pc =>
    obtain ⟨state, -, hsend⟩ := advanceShutdownSend_permit (hinv.permit (by rw [pc]; rfl))
    rw [hsend]
    exact .sendsShutdown pc (hinv.unstarted (by rw [pc]; rfl))
  | shutdownAnswered pc control =>
    have hstarted := hi.point.started pc
    cases control with
    | none nothing =>
      -- a write or a flush has picked up the answer
      have hincomplete := hi.point.incomplete (by rw [pc]; rfl)
      refine .quiet hsame ⟨fun _ => hincomplete, nofun, by simp, nofun, fun _ => ?_⟩ (.inl rfl)
      rcases hi.kept hstarted with hk | hk | hk
      · rw [hincomplete] at hk
        cases hk
      · exact hk
      · exact absurd nothing hk
    | flushed control sent => cases (hi.pending _ control).mpr hstarted
    | shutDown control answer => exact .answered control answer (.inr ⟨rfl, rfl⟩)
  | shutdownFails pc control =>
    cases control with
    | flushFails control => cases (hi.pending _ control).mpr (hi.point.started pc)
  | shutdownReports pc ended stored => exact .reports pc ended stored

end RtpMux

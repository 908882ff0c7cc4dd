import RtpMux.WriteHalf

/-!
# What one step of the write system can do

`WriterStep s e s'` lists the transitions of the background writer once, guards included,
`AccessStep s s'` the accesses of a poll, each with what `poll_pending_control` or
`poll_reserve` answered it, and `WriteStep s e s'` the steps of the whole system.
`WriteStep.of_step` and `AccessStep.of_advance` derive them from the step function. The
invariants of the byte stream, of the mailbox, of the flush barrier and of the shutdown
protocol are proved by cases on them.

Whatever an access does to the half, the channel and the replies, it leaves the mailbox and
the background writer alone (`advance_frame`).
-/

namespace RtpMux

open WriteSystem

/-! ## The background writer -/

/-- The transitions of the background writer, by the event that takes them: an access of its
own, or the return of the call it awaits. -/
inductive WriterStep (s : WriteSystem) : WriteEvent → WriteSystem → Prop where
  | woken (pc : s.background = .pollWake) (isOpen : s.rebindOpen = true) (wake : s.wake = true) :
      WriterStep s .background (resume { s with wake := false } .takeLatest)
  | wakeEnds (pc : s.background = .pollWake) (isOpen : s.rebindOpen = true)
      (wake : s.wake = false) (closed : s.wakeClosed = true) :
      WriterStep s .background (resume { s with rebindOpen := false } .pollWake)
  | noWake (pc : s.background = .pollWake)
      (quiet : s.rebindOpen = false ∨ s.wake = false ∧ s.wakeClosed = false) :
      WriterStep s .background (s.resume .pollCommands)
  | take {opener} (pc : s.background = .takeLatest) (latest : s.latest = some opener) :
      WriterStep s .background (resume { s with latest := none } (.rebinding opener))
  | takeNothing (pc : s.background = .takeLatest) (latest : s.latest = none) :
      WriterStep s .background (s.resume .pollWake)
  | data {buf queue} (pc : s.background = .pollCommands) (head : s.queue = .data buf :: queue) :
      WriterStep s .background
        (resume { s with queue := queue, log := .writeAll buf :: s.log } (.writing buf))
  | flush {reply queue} (pc : s.background = .pollCommands)
      (head : s.queue = .flush reply :: queue) :
      WriterStep s .background (resume { s with queue := queue } (.flushing reply))
  | shutdown {reply queue} (pc : s.background = .pollCommands)
      (head : s.queue = .shutdown reply :: queue) :
      WriterStep s .background (resume { s with queue := queue, log := .finalize :: s.log }
        (.finalizing (some reply)))
  | channelEnds (pc : s.background = .pollCommands) (empty : s.queue = [])
      (gone : s.half.writeTx.gone = true) : WriterStep s .background (s.resume .leaving)
  | noCommand (pc : s.background = .pollCommands) (empty : s.queue = []) :
      WriterStep s .background (s.resume .pollWake)
  | rebound {opener} (pc : s.background = .rebinding opener) :
      WriterStep s (.writerResult (.ok ())) (s.resume .pollWake)
  | rebindFails {opener error} (pc : s.background = .rebinding opener) :
      WriterStep s (.writerResult (.error error))
        (resume { s with backgroundError := some error } .leaving)
  | wrote {buf} (pc : s.background = .writing buf) :
      WriterStep s (.writerResult (.ok ()))
        (resume { s with log := .writeAllOk buf :: s.log } .pollWake)
  | writeFails {buf error} (pc : s.background = .writing buf) :
      WriterStep s (.writerResult (.error error))
        (resume { s with backgroundError := some error } .returning)
  | flushed {reply} (pc : s.background = .flushing reply) :
      WriterStep s (.writerResult (.ok ())) (s.resume (.replying reply (.ok ()) false))
  | flushFails {reply error} (pc : s.background = .flushing reply) :
      WriterStep s (.writerResult (.error error))
        (resume { s with backgroundError := some error } (.replying reply (.error error) true))
  | finalized {e reply result} (pc : s.background = .finalizing (some reply))
      (event : e = .writerResult result ∨
        e = .finalizeTimeout ∧ result = .error finalizeTimedOut) :
      WriterStep s e ((s.storeError result).resume (.replying reply result true))
  | finalizedEnd {e} (pc : s.background = .finalizing none)
      (event : (∃ result, e = .writerResult result) ∨ e = .finalizeTimeout) :
      WriterStep s e (s.resume .returning)
  | reply {reply result stop} (pc : s.background = .replying reply result stop) :
      WriterStep s .background (resume { s with replies := s.replies.insert reply (.sent result) }
        (if stop then .returning else .pollWake))
  | leave (pc : s.background = .leaving) :
      WriterStep s .background (resume { s with log := .finalize :: s.log } (.finalizing none))
  | returns (pc : s.background = .returning) : WriterStep s .background s.dropReceivers
  | ends (pc : s.background = .closedDown) : WriterStep s .background (s.resume .ended)

/-- What a step of the background writer can do. -/
theorem WriterStep.of_background {s s' : WriteSystem} (h : s.stepBackground = some s') :
    WriterStep s .background s' := by
  simp only [stepBackground] at h
  split at h
  · rename_i hpc
    split at h
    · rename_i hopen
      split at h
      · rename_i hwake
        cases h
        exact .woken hpc hopen hwake
      rename_i hwake
      simp only [Bool.not_eq_true] at hwake
      split at h
      · rename_i hclosed
        cases h
        exact .wakeEnds hpc hopen hwake hclosed
      · rename_i hclosed
        simp only [Bool.not_eq_true] at hclosed
        cases h
        exact .noWake hpc (.inr ⟨hwake, hclosed⟩)
    · rename_i hopen
      simp only [Bool.not_eq_true] at hopen
      cases h
      exact .noWake hpc (.inl hopen)
  · rename_i hpc
    split at h
    · rename_i hlatest
      cases h
      exact .take hpc hlatest
    · rename_i hlatest
      cases h
      exact .takeNothing hpc hlatest
  · rename_i hpc
    split at h
    · rename_i command queue hqueue
      cases h
      cases command with
      | data buf => exact .data hpc hqueue
      | flush reply => exact .flush hpc hqueue
      | shutdown reply => exact .shutdown hpc hqueue
    · rename_i hqueue
      split at h
      · rename_i hgone
        cases h
        exact .channelEnds hpc hqueue hgone
      · cases h
        exact .noCommand hpc hqueue
  · rename_i hpc
    cases h
    exact .reply hpc
  · rename_i hpc
    cases h
    exact .leave hpc
  · rename_i hpc
    cases h
    exact .returns hpc
  · rename_i hpc
    cases h
    exact .ends hpc
  · cases h

/-- A call of the writer returns, or `FINALIZE_TIMEOUT` passes. -/
theorem WriterStep.of_writerReturns {s s' : WriteSystem}
    {result : Except BackgroundWriteError Unit} {e : WriteEvent}
    (h : s.writerReturns result = some s')
    (he : e = .writerResult result ∨ (e = .finalizeTimeout ∧ result = .error finalizeTimedOut) ∧
      ∃ reply, s.background = .finalizing reply) :
    WriterStep s e s' := by
  -- only `finalize` has a time limit
  have hcall : (∀ reply, s.background ≠ .finalizing reply) → e = .writerResult result := by
    intro hno
    rcases he with rfl | ⟨-, reply, hpc⟩
    · rfl
    · exact absurd hpc (hno reply)
  simp only [writerReturns] at h
  split at h
  · rename_i hpc
    cases h
    cases hcall (by simp [hpc])
    exact .rebound hpc
  · rename_i hpc
    cases h
    cases hcall (by simp [hpc])
    exact .rebindFails hpc
  · rename_i hpc
    cases h
    cases hcall (by simp [hpc])
    exact .wrote hpc
  · rename_i hpc
    cases h
    cases hcall (by simp [hpc])
    exact .writeFails hpc
  · rename_i hpc
    cases h
    cases hcall (by simp [hpc])
    exact .flushed hpc
  · rename_i hpc
    cases h
    cases hcall (by simp [hpc])
    exact .flushFails hpc
  · rename_i hpc
    cases h
    exact .finalized hpc (he.imp_right And.left)
  · rename_i hpc
    cases h
    exact .finalizedEnd hpc (he.imp (fun h => ⟨_, h⟩) fun h => h.1.1)
  · cases h

/-- What the writer does when it is about to take `latest`. -/
theorem WriterStep.of_takeLatest {s s' : WriteSystem} {e : WriteEvent} (h : WriterStep s e s')
    (hpc : s.background = .takeLatest) : e = .background ∧
      ((∃ opener, s.latest = some opener ∧
        s' = resume { s with latest := none } (.rebinding opener)) ∨
      (s.latest = none ∧ s' = s.resume .pollWake)) := by
  cases h with
  | take pc latest => exact ⟨rfl, .inl ⟨_, latest, rfl⟩⟩
  | takeNothing pc latest => exact ⟨rfl, .inr ⟨latest, rfl⟩⟩
  | _ => simp_all

/-! ## The accesses of a poll -/

/-- What `poll_pending_control` can find. -/
inductive ControlAnswer (s : WriteSystem) :
    Poll (Except IoError (Option ControlKind)) × WriteSystem → Prop where
  | none (nothing : s.half.pendingControl = none) : ControlAnswer s (.ready (.ok none), s)
  | waiting {pending} (control : s.half.pendingControl = some pending)
      (unsent : ∀ result, s.replies.lookup pending.reply ≠ some (.sent result))
      (unclosed : s.replies.lookup pending.reply ≠ some .closed) : ControlAnswer s (.pending, s)
  | flushed {reply} (control : s.half.pendingControl = some ⟨.flush, reply⟩)
      (sent : s.replies.lookup reply = some (.sent (.ok ()))) :
      ControlAnswer s (.ready (.ok (some .flush)),
        { s with half := { s.half with pendingControl := none } })
  | flushFails {reply error} (control : s.half.pendingControl = some ⟨.flush, reply⟩) :
      ControlAnswer s (.ready (.error error),
        { s with half := { s.half with pendingControl := none } })
  | shutDown {reply result} (control : s.half.pendingControl = some ⟨.shutdown, reply⟩)
      (answer : (∃ sent, s.replies.lookup reply = some (.sent sent) ∧
          result = sent.mapError BackgroundWriteError.toIo) ∨
        s.replies.lookup reply = some .closed ∧
          result = .error (s.backgroundIoError "RTP mux background writer stopped")) :
      ControlAnswer s (.ready (.ok (some .shutdown)), { s with
        half := { s.half with
          pendingControl := none
          writeTx := s.half.writeTx.close
          shutdownResult := some result } })

/-- What a control poll can answer. -/
theorem ControlAnswer.of (s : WriteSystem) : ControlAnswer s s.pollPendingControl := by
  simp only [pollPendingControl]
  split
  · rename_i hnone
    exact .none hnone
  · rename_i pending hpending
    obtain ⟨kind, reply⟩ := pending
    split
    · rename_i result hsent
      cases kind with
      | flush =>
        cases result with
        | ok u => exact .flushed hpending hsent
        | error error => exact .flushFails hpending
      | shutdown => exact .shutDown hpending (.inl ⟨result, hsent, rfl⟩)
    · rename_i hclosed
      cases kind with
      | flush => exact .flushFails hpending
      | shutdown => exact .shutDown hpending (.inr ⟨hclosed, rfl⟩)
    · rename_i hsent hclosed
      exact .waiting hpending hsent hclosed

/-- What `poll_reserve` can answer. -/
inductive ReserveAnswer (s : WriteSystem) : Poll (Except Unit Unit) × WriteSystem → Prop where
  | ready (usable : s.half.writeTx.state ≠ .closed) : ReserveAnswer s (.ready (.ok ()),
      { s with half := { s.half with writeTx := { s.half.writeTx with state := .readyToSend } } })
  | closed (gone : s.background.receiving = false ∨ s.half.writeTx.state = .closed) :
      ReserveAnswer s (.ready (.error ()),
        { s with half := { s.half with writeTx := { s.half.writeTx with state := .closed } } })
  | full (usable : s.half.writeTx.state ≠ .closed) (running : s.background.receiving = true) :
      ReserveAnswer s (.pending,
        { s with half := { s.half with writeTx := { s.half.writeTx with state := .acquiring } } })

/-- What a reservation can answer. -/
theorem ReserveAnswer.of (s : WriteSystem) : ReserveAnswer s s.pollReserve := by
  simp only [pollReserve]
  split
  · rename_i hstate
    have hsame : { s with half := { s.half with
        writeTx := { s.half.writeTx with state := .readyToSend } } } = s := by
      rw [← hstate]
    have hready := ReserveAnswer.ready (s := s) (by rw [hstate]; exact nofun)
    rw [hsame] at hready
    exact hready
  · rename_i hstate
    have hsame : { s with half := { s.half with
        writeTx := { s.half.writeTx with state := .closed } } } = s := by
      rw [← hstate]
    have hclosed := ReserveAnswer.closed (s := s) (.inr hstate)
    rw [hsame] at hclosed
    exact hclosed
  · rename_i hready hclosed
    split
    · rename_i hgone
      exact .closed (.inl hgone)
    rename_i hrunning
    split
    · exact .ready hclosed
    · exact .full hclosed (by simpa using hrunning)

/-- With a reserved slot the command is sent, and only a sender that was closed is closed
then. -/
theorem WriteSystem.sendItem_permit {s : WriteSystem} (command : WriteCommand)
    (hstate : s.half.writeTx.state = .readyToSend) :
    ∃ state, (state = .closed → s.half.writeTx.alive = false) ∧
      s.sendItem command = (.ok (), { s with
        half := { s.half with writeTx := { s.half.writeTx with state := state } }
        queue := s.queue ++ [command] }) := by
  simp only [sendItem, hstate]
  refine ⟨_, ?_, rfl⟩
  intro hclosed
  cases halive : s.half.writeTx.alive with
  | false => rfl
  | true => simp [halive] at hclosed

section Permit

variable {s : WriteSystem} (hstate : s.half.writeTx.state = .readyToSend)
include hstate

/-- With a permit, a write's chunk is queued whole and the poll is ready. -/
theorem WriteSystem.advanceWriteSend_permit (bufs : List (List UInt8)) :
    ∃ state, (state = .closed → s.half.writeTx.alive = false) ∧
      s.advanceWriteSend bufs = { s with
        half := { s.half with writeTx := { s.half.writeTx with state := state } }
        poll := .idle
        queue := s.queue ++ [WriteCommand.data (fillChunk (chunkLen bufs) [] bufs)]
        log := .pollWrite bufs (.ready (.ok (chunkLen bufs))) :: s.log } := by
  obtain ⟨state, hclosed, hsend⟩ :=
    sendItem_permit (.data (fillChunk (chunkLen bufs) [] bufs)) hstate
  refine ⟨state, hclosed, ?_⟩
  simp only [advanceWriteSend, hsend]
  rfl

/-- The flush is on the channel and pending. -/
theorem WriteSystem.advanceFlushSend_permit :
    ∃ state, (state = .closed → s.half.writeTx.alive = false) ∧
      s.advanceFlushSend = { s with
        half := { s.half with
          writeTx := { s.half.writeTx with state := state }
          pendingControl := some ⟨.flush, ⟨.flush, s.nextReply⟩⟩ }
        poll := .idle
        queue := s.queue ++ [WriteCommand.flush ⟨.flush, s.nextReply⟩]
        replies := s.replies.insert ⟨.flush, s.nextReply⟩ .waiting
        nextReply := s.nextReply + 1
        log := .pollFlush .pending :: s.log } := by
  obtain ⟨state, hclosed, hsend⟩ := sendItem_permit (s := { s with
    replies := s.replies.insert ⟨.flush, s.nextReply⟩ .waiting
    nextReply := s.nextReply + 1 }) (.flush ⟨.flush, s.nextReply⟩) hstate
  refine ⟨state, hclosed, ?_⟩
  simp only [advanceFlushSend, hsend]
  rfl

/-- The shutdown is on the channel and counts as started. -/
theorem WriteSystem.advanceShutdownSend_permit :
    ∃ state, (state = .closed → s.half.writeTx.alive = false) ∧
      s.advanceShutdownSend = { s with
        half := { s.half with
          writeTx := { s.half.writeTx with state := state }
          shutdownStarted := true
          pendingControl := some ⟨.shutdown, ⟨.shutdown, s.nextReply⟩⟩ }
        poll := .shutdownControl
        queue := s.queue ++ [WriteCommand.shutdown ⟨.shutdown, s.nextReply⟩]
        replies := s.replies.insert ⟨.shutdown, s.nextReply⟩ .waiting
        nextReply := s.nextReply + 1 } := by
  obtain ⟨state, hclosed, hsend⟩ := sendItem_permit (s := { s with
    replies := s.replies.insert ⟨.shutdown, s.nextReply⟩ .waiting
    nextReply := s.nextReply + 1 }) (.shutdown ⟨.shutdown, s.nextReply⟩) hstate
  refine ⟨state, hclosed, ?_⟩
  simp only [advanceShutdownSend, hsend]
  rfl

end Permit

/-- The accesses of a poll, each with what it finds. The steps that send a command are given
as the functions themselves. -/
inductive AccessStep (s : WriteSystem) : WriteSystem → Prop where
  | writeShut {bufs s₁} (pc : s.poll = .writeControl bufs)
      (control : ControlAnswer s (.ready (.ok (some .shutdown)), s₁)) :
      AccessStep s (s₁.ret (.pollWrite bufs (.ready (.error streamShutDown))))
  | writeGoes {bufs kind s₁} (pc : s.poll = .writeControl bufs)
      (control : ControlAnswer s (.ready (.ok kind), s₁)) (other : kind ≠ some .shutdown) :
      AccessStep s (s₁.goto (.writeCheck bufs))
  | writeFails {bufs error s₁} (pc : s.poll = .writeControl bufs)
      (control : ControlAnswer s (.ready (.error error), s₁)) :
      AccessStep s (s₁.ret (.pollWrite bufs (.ready (.error error))))
  | writeWaits {bufs s₁} (pc : s.poll = .writeControl bufs)
      (control : ControlAnswer s (.pending, s₁)) :
      AccessStep s (s₁.ret (.pollWrite bufs .pending))
  | writeRefused {bufs error} (pc : s.poll = .writeCheck bufs) :
      AccessStep s (s.ret (.pollWrite bufs (.ready (.error error))))
  | writeChecked {bufs} (pc : s.poll = .writeCheck bufs)
      (unstarted : s.half.shutdownStarted = false) (healthy : s.backgroundError = none) :
      AccessStep s (s.goto (.writeReserve bufs))
  | writeReserved {bufs s₁} (pc : s.poll = .writeReserve bufs)
      (reserve : ReserveAnswer s (.ready (.ok ()), s₁)) :
      AccessStep s (s₁.goto (.writeSend bufs))
  | writeNothing {bufs s₁} (pc : s.poll = .writeReserve bufs)
      (reserve : ReserveAnswer s (.ready (.ok ()), s₁)) :
      AccessStep s (s₁.ret (.pollWrite bufs (.ready (.ok 0))))
  | writeClosed {bufs error s₁} (pc : s.poll = .writeReserve bufs)
      (reserve : ReserveAnswer s (.ready (.error ()), s₁)) :
      AccessStep s (s₁.ret (.pollWrite bufs (.ready (.error error))))
  | writeFull {bufs s₁} (pc : s.poll = .writeReserve bufs)
      (reserve : ReserveAnswer s (.pending, s₁)) :
      AccessStep s (s₁.ret (.pollWrite bufs .pending))
  | writeSends {bufs} (pc : s.poll = .writeSend bufs) : AccessStep s (s.advanceWriteSend bufs)
  | flushShut {s₁} (pc : s.poll = .flushControl)
      (control : ControlAnswer s (.ready (.ok (some .shutdown)), s₁)) :
      AccessStep s (s₁.ret (.pollFlush (.ready (.error streamShutDown))))
  | flushDone {s₁} (pc : s.poll = .flushControl)
      (control : ControlAnswer s (.ready (.ok (some .flush)), s₁)) :
      AccessStep s (s₁.ret (.pollFlush (.ready (.ok ()))))
  | flushGoes {s₁} (pc : s.poll = .flushControl)
      (control : ControlAnswer s (.ready (.ok none), s₁)) : AccessStep s (s₁.goto .flushCheck)
  | flushFails {error s₁} (pc : s.poll = .flushControl)
      (control : ControlAnswer s (.ready (.error error), s₁)) :
      AccessStep s (s₁.ret (.pollFlush (.ready (.error error))))
  | flushWaits {s₁} (pc : s.poll = .flushControl) (control : ControlAnswer s (.pending, s₁)) :
      AccessStep s (s₁.ret (.pollFlush .pending))
  | flushRefused {error} (pc : s.poll = .flushCheck) :
      AccessStep s (s.ret (.pollFlush (.ready (.error error))))
  | flushChecked (pc : s.poll = .flushCheck) (unstarted : s.half.shutdownStarted = false)
      (healthy : s.backgroundError = none) : AccessStep s (s.goto .flushReserve)
  | flushReserved {s₁} (pc : s.poll = .flushReserve)
      (reserve : ReserveAnswer s (.ready (.ok ()), s₁)) : AccessStep s (s₁.goto .flushSend)
  | flushClosed {error s₁} (pc : s.poll = .flushReserve)
      (reserve : ReserveAnswer s (.ready (.error ()), s₁)) :
      AccessStep s (s₁.ret (.pollFlush (.ready (.error error))))
  | flushFull {s₁} (pc : s.poll = .flushReserve) (reserve : ReserveAnswer s (.pending, s₁)) :
      AccessStep s (s₁.ret (.pollFlush .pending))
  | flushSends (pc : s.poll = .flushSend) : AccessStep s s.advanceFlushSend
  | shutdownRepeats (pc : s.poll = .shutdownCheck) (complete : s.half.shutdownComplete = true) :
      AccessStep s (s.ret (.pollShutdown (.ready (.ok ()))))
  | shutdownResumes (pc : s.poll = .shutdownCheck)
      (incomplete : s.half.shutdownComplete = false) (started : s.half.shutdownStarted = true) :
      AccessStep s (s.goto .shutdownControl)
  | shutdownErrs {error} (pc : s.poll = .shutdownCheck)
      (incomplete : s.half.shutdownComplete = false) (unstarted : s.half.shutdownStarted = false)
      (failed : s.backgroundError = some error) : AccessStep s (s.failShutdown error.toIo)
  | shutdownChecked (pc : s.poll = .shutdownCheck)
      (incomplete : s.half.shutdownComplete = false) (unstarted : s.half.shutdownStarted = false)
      (healthy : s.backgroundError = none) : AccessStep s (s.goto .shutdownReserve)
  | shutdownReserved {s₁} (pc : s.poll = .shutdownReserve)
      (reserve : ReserveAnswer s (.ready (.ok ()), s₁)) : AccessStep s (s₁.goto .shutdownSend)
  | shutdownClosed {error s₁} (pc : s.poll = .shutdownReserve)
      (reserve : ReserveAnswer s (.ready (.error ()), s₁)) :
      AccessStep s (s₁.failShutdown error)
  | shutdownFull {s₁} (pc : s.poll = .shutdownReserve)
      (reserve : ReserveAnswer s (.pending, s₁)) : AccessStep s (s₁.ret (.pollShutdown .pending))
  | shutdownSends (pc : s.poll = .shutdownSend) : AccessStep s s.advanceShutdownSend
  | shutdownAnswered {kind s₁} (pc : s.poll = .shutdownControl)
      (control : ControlAnswer s (.ready (.ok kind), s₁)) :
      AccessStep s (s₁.goto .shutdownEpilog)
  | shutdownFails {error s₁} (pc : s.poll = .shutdownControl)
      (control : ControlAnswer s (.ready (.error error), s₁)) :
      AccessStep s (s₁.failShutdown error)
  | shutdownWaits {s₁} (pc : s.poll = .shutdownControl)
      (control : ControlAnswer s (.pending, s₁)) : AccessStep s (s₁.ret (.pollShutdown .pending))
  | shutdownReports {result} (pc : s.poll = .shutdownEpilog) (ended : s.background = .ended)
      (stored : s.half.shutdownResult = some result) :
      AccessStep s (ret { s with
        half := { s.half with shutdownComplete := true, shutdownResult := none } }
        (.pollShutdown (.ready result)))
  | shutdownJoins (pc : s.poll = .shutdownEpilog) (running : s.background ≠ .ended) :
      AccessStep s (s.ret (.pollShutdown .pending))

/-- **Inversion.** Every access of a poll is one of these. -/
theorem AccessStep.of_advance {s s' : WriteSystem} (h : s.advance = some s') :
    AccessStep s s' := by
  have hctl := ControlAnswer.of s
  have hres := ReserveAnswer.of s
  simp only [WriteSystem.advance] at h
  split at h
  · cases h
  · rename_i bufs hpc
    cases h
    simp only [advanceWriteControl]
    split <;> rename_i heq <;> rw [heq] at hctl
    · exact .writeShut hpc hctl
    · rename_i hother
      exact .writeGoes hpc hctl hother
    · exact .writeFails hpc hctl
    · exact .writeWaits hpc hctl
  · rename_i bufs hpc
    cases h
    simp only [advanceWriteCheck]
    split
    · exact .writeRefused hpc
    rename_i hflags
    simp only [Bool.or_eq_true, not_or, Bool.not_eq_true] at hflags
    split
    · exact .writeRefused hpc
    · rename_i hnone
      exact .writeChecked hpc hflags.2 hnone
  · rename_i bufs hpc
    cases h
    simp only [advanceWriteReserve]
    split <;> rename_i heq <;> rw [heq] at hres
    · split
      · exact .writeReserved hpc hres
      · exact .writeNothing hpc hres
    · exact .writeClosed hpc hres
    · exact .writeFull hpc hres
  · rename_i bufs hpc
    cases h
    exact .writeSends hpc
  · rename_i hpc
    cases h
    simp only [advanceFlushControl]
    split <;> rename_i heq <;> rw [heq] at hctl
    · exact .flushShut hpc hctl
    · exact .flushDone hpc hctl
    · exact .flushGoes hpc hctl
    · exact .flushFails hpc hctl
    · exact .flushWaits hpc hctl
  · rename_i hpc
    cases h
    simp only [advanceFlushCheck]
    split
    · exact .flushRefused hpc
    rename_i hflags
    simp only [Bool.or_eq_true, not_or, Bool.not_eq_true] at hflags
    split
    · exact .flushRefused hpc
    · rename_i hnone
      exact .flushChecked hpc hflags.2 hnone
  · rename_i hpc
    cases h
    simp only [advanceFlushReserve]
    split <;> rename_i heq <;> rw [heq] at hres
    · exact .flushReserved hpc hres
    · exact .flushClosed hpc hres
    · exact .flushFull hpc hres
  · rename_i hpc
    cases h
    exact .flushSends hpc
  · rename_i hpc
    cases h
    simp only [advanceShutdownCheck]
    split
    · rename_i hcomplete
      exact .shutdownRepeats hpc hcomplete
    rename_i hcomplete
    simp only [Bool.not_eq_true] at hcomplete
    split
    · rename_i hstarted
      exact .shutdownResumes hpc hcomplete hstarted
    rename_i hstarted
    simp only [Bool.not_eq_true] at hstarted
    split
    · rename_i herror
      obtain ⟨error, herror⟩ := Option.isSome_iff_exists.mp herror
      have hio : s.backgroundIoError "background write error" = error.toIo := by
        simp only [backgroundIoError, herror]
        rfl
      rw [hio]
      exact .shutdownErrs hpc hcomplete hstarted herror
    · rename_i herror
      exact .shutdownChecked hpc hcomplete hstarted (by simpa using herror)
  · rename_i hpc
    cases h
    simp only [advanceShutdownReserve]
    split <;> rename_i heq <;> rw [heq] at hres
    · exact .shutdownReserved hpc hres
    · exact .shutdownClosed hpc hres
    · exact .shutdownFull hpc hres
  · rename_i hpc
    cases h
    exact .shutdownSends hpc
  · rename_i hpc
    cases h
    simp only [advanceShutdownControl]
    split <;> rename_i heq <;> rw [heq] at hctl
    · exact .shutdownAnswered hpc hctl
    · exact .shutdownFails hpc hctl
    · exact .shutdownWaits hpc hctl
  · rename_i hpc
    simp only [advanceShutdownEpilog] at h
    split at h
    · rename_i hended
      split at h
      · rename_i result hresult
        cases h
        exact .shutdownReports hpc hended hresult
      · cases h
    · rename_i hrunning
      cases h
      exact .shutdownJoins hpc hrunning

/-- An access of a poll changes the half, the poll, the channel, the replies and the log. -/
def AccessFrame (s s' : WriteSystem) : Prop :=
  ∃ half poll queue replies nextReply log, s' = { s with
    half := half, poll := poll, queue := queue, replies := replies, nextReply := nextReply,
    log := log }

section AccessFrame

variable {s s₁ : WriteSystem}

theorem AccessFrame.refl (s : WriteSystem) : AccessFrame s s := ⟨_, _, _, _, _, _, rfl⟩

/-- Moving to another point is inside the frame. -/
theorem AccessFrame.goto (h : AccessFrame s s₁) (poll : HalfPc) :
    AccessFrame s (s₁.goto poll) := by
  obtain ⟨half, _, queue, replies, nextReply, log, rfl⟩ := h
  exact ⟨half, poll, queue, replies, nextReply, log, rfl⟩

/-- Returning is inside the frame. -/
theorem AccessFrame.ret (h : AccessFrame s s₁) (ev : WriteLog) : AccessFrame s (s₁.ret ev) := by
  obtain ⟨half, _, queue, replies, nextReply, log, rfl⟩ := h
  exact ⟨half, .idle, queue, replies, nextReply, ev :: log, rfl⟩

/-- A change of the half is inside the frame. -/
theorem AccessFrame.half (h : AccessFrame s s₁) (half : MigratingWriteHalf) :
    AccessFrame s { s₁ with half := half } := by
  obtain ⟨_, poll, queue, replies, nextReply, log, rfl⟩ := h
  exact ⟨half, poll, queue, replies, nextReply, log, rfl⟩

/-- A shutdown that fails is inside the frame. -/
theorem AccessFrame.failShutdown (h : AccessFrame s s₁) (error : IoError) :
    AccessFrame s (s₁.failShutdown error) :=
  (h.half _).goto _

/-- A control poll is inside the frame. -/
theorem AccessFrame.control {answer : Poll (Except IoError (Option ControlKind))}
    (h : ControlAnswer s (answer, s₁)) : AccessFrame s s₁ := by
  cases h with
  | none | waiting => exact .refl s
  | flushed | flushFails | shutDown => exact (AccessFrame.refl s).half _

/-- A reservation is inside the frame. -/
theorem AccessFrame.reserve {answer : Poll (Except Unit Unit)}
    (h : ReserveAnswer s (answer, s₁)) : AccessFrame s s₁ := by
  cases h with
  | ready | closed | full => exact (AccessFrame.refl s).half _

/-- Sending a command is inside the frame. -/
theorem AccessFrame.send (h : AccessFrame s s₁) (command : WriteCommand) :
    AccessFrame s (s₁.sendItem command).2 := by
  obtain ⟨half, poll, queue, replies, nextReply, log, rfl⟩ := h
  simp only [sendItem]
  split
  · exact ⟨_, poll, _, replies, nextReply, log, rfl⟩
  · exact ⟨half, poll, queue, replies, nextReply, log, rfl⟩

/-- Opening a reply is inside the frame. -/
theorem AccessFrame.open (s : WriteSystem) (reply : ReplyId) :
    AccessFrame s { s with
      replies := s.replies.insert reply .waiting
      nextReply := s.nextReply + 1 } :=
  ⟨_, _, _, _, _, _, rfl⟩

end AccessFrame

/-- **Frame.** An access of a poll leaves the mailbox and the background writer alone. -/
theorem advance_frame {s s' : WriteSystem} (h : s.advance = some s') : AccessFrame s s' := by
  cases AccessStep.of_advance h with
  | writeShut pc control | writeFails pc control | writeWaits pc control | flushShut pc control
  | flushDone pc control | flushFails pc control | flushWaits pc control
  | shutdownWaits pc control => exact (AccessFrame.control control).ret _
  | writeGoes pc control | flushGoes pc control | shutdownAnswered pc control =>
    exact (AccessFrame.control control).goto _
  | shutdownFails pc control => exact (AccessFrame.control control).failShutdown _
  | writeReserved pc reserve | flushReserved pc reserve | shutdownReserved pc reserve =>
    exact (AccessFrame.reserve reserve).goto _
  | writeNothing pc reserve | writeClosed pc reserve | writeFull pc reserve
  | flushClosed pc reserve | flushFull pc reserve | shutdownFull pc reserve =>
    exact (AccessFrame.reserve reserve).ret _
  | shutdownClosed pc reserve => exact (AccessFrame.reserve reserve).failShutdown _
  | writeRefused | flushRefused | shutdownRepeats | shutdownJoins =>
    exact (AccessFrame.refl s).ret _
  | writeChecked | flushChecked | shutdownResumes | shutdownChecked =>
    exact (AccessFrame.refl s).goto _
  | shutdownErrs => exact (AccessFrame.refl s).failShutdown _
  | shutdownReports => exact ((AccessFrame.refl s).half _).ret _
  | writeSends => exact ((AccessFrame.refl s).send _).ret _
  | flushSends => exact (((AccessFrame.open s _).send _).half _).ret _
  | shutdownSends =>
    have hsend := (AccessFrame.open s ⟨.shutdown, s.nextReply⟩).send
      (.shutdown ⟨.shutdown, s.nextReply⟩)
    simp only [advanceShutdownSend]
    split <;> rename_i heq <;> rw [heq] at hsend
    · exact (hsend.half _).goto _
    · exact hsend.failShutdown _

/-! ## The whole system -/

/-- The poll that an event begins, and the access it starts with. -/
def WriteEvent.entry : WriteEvent → Option HalfPc
  | pollWrite bufs => some (.writeControl bufs)
  | pollFlush => some .flushControl
  | pollShutdown => some .shutdownCheck
  | _ => none

/-- The transitions of the write system. -/
inductive WriteStep (s : WriteSystem) : WriteEvent → WriteSystem → Prop where
  | begins {e poll} (entry : e.entry = some poll) (idle : s.poll = .idle)
      (kept : s.dropped = false) : WriteStep s e (s.goto poll)
  | access {s'} (h : s.advance = some s') : WriteStep s .advance s'
  | drop (idle : s.poll = .idle) (kept : s.dropped = false) :
      WriteStep s .drop { s with
        dropped := true, half := { s.half with writeTx := ⟨false, .closed⟩ } }
  | rebindRefused (closed : s.wakeClosed = true) : WriteStep s .rebindUpgrade s
  | rebindUpgrades (isOpen : s.wakeClosed = false) :
      WriteStep s .rebindUpgrade { s with upgraded := s.upgraded + 1 }
  | rebindStores {opener upgraded} (call : s.upgraded = upgraded + 1) :
      WriteStep s (.rebindStore opener)
        { s with latest := some opener, upgraded := upgraded, rebinds := s.rebinds + 1 }
  | rebindSends {rebinds} (call : s.rebinds = rebinds + 1) :
      WriteStep s .rebindSend
        { s with wake := s.wake || s.background.receiving, rebinds := rebinds }
  | writer {e s'} (h : WriterStep s e s') : WriteStep s e s'
  | abort (gone : s.dropped = true) (running : s.background.receiving = true) :
      WriteStep s .abort s.dropReceivers

/-- **Inversion.** -/
theorem WriteStep.of_step {s s' : WriteSystem} {e : WriteEvent} (h : s.step e = some s') :
    WriteStep s e s' := by
  have hbegin : ∀ {poll : HalfPc}, e.entry = some poll → s.begin poll = some s' →
      WriteStep s e s' := by
    intro poll hentry hb
    simp only [WriteSystem.begin] at hb
    split at hb
    · rename_i hidle hkept
      cases hb
      exact .begins hentry hidle hkept
    · cases hb
  cases e with
  | pollWrite bufs => exact hbegin rfl h
  | pollFlush => exact hbegin rfl h
  | pollShutdown => exact hbegin rfl h
  | advance => exact .access h
  | drop =>
    simp only [WriteSystem.step, WriteSystem.drop] at h
    split at h
    · rename_i hidle hkept
      cases h
      exact .drop hidle hkept
    · cases h
  | rebindUpgrade =>
    simp only [WriteSystem.step, rebindUpgrade, Option.some.injEq] at h
    split at h
    · rename_i hclosed
      subst h
      exact .rebindRefused hclosed
    · rename_i hclosed
      subst h
      exact .rebindUpgrades (by simpa using hclosed)
  | rebindStore opener =>
    simp only [WriteSystem.step, rebindStore] at h
    split at h
    · cases h
    · rename_i hcall
      cases h
      exact .rebindStores hcall
  | rebindSend =>
    simp only [WriteSystem.step, rebindSend] at h
    split at h
    · cases h
    · rename_i hcall
      cases h
      exact .rebindSends hcall
  | background => exact .writer (.of_background h)
  | writerResult result => exact .writer (.of_writerReturns h (.inl rfl))
  | finalizeTimeout =>
    simp only [WriteSystem.step, timeOut] at h
    split at h
    · rename_i reply hpc
      exact .writer (.of_writerReturns h (.inr ⟨⟨rfl, rfl⟩, reply, hpc⟩))
    · cases h
  | abort =>
    simp only [WriteSystem.step, WriteSystem.abort] at h
    split at h
    · rename_i hguard
      cases h
      obtain ⟨hgone, hrunning⟩ := Bool.and_eq_true_iff.mp hguard
      exact .abort hgone hrunning
    · cases h

end RtpMux

import RtpMux.WriteStep
import RtpMux.WriteStream

/-!
# No clean end over a truncated stream

`finalize` tells the peer that the stream is complete. The background loop has five
exits: the channel is closed, a write fails, a flush fails, a shutdown command arrives, a
rebind fails. Writes and flushes that fail `return` without finalizing. A rebind that
fails `break`s out of the loop, and the code after the loop finalizes the stream. Rebinds
are served before queued commands, so data can be waiting in the queue at that point: the
peer then sees a clean end of a stream that lost its tail (`rebind_failure_truncates`).

`rebindFailsClean` excludes exactly that step: a rebind fails only when no data is queued
and no write is between its look at `background_error` and its `send_item`. In every run
that keeps to it, `finalize` is called at most once, and only when everything accepted
has been written (`clean_end`).
-/

namespace RtpMux

open WriteSystem

/-- The entry is a call of `finalize`. -/
def WriteLog.isFinalize : WriteLog → Bool
  | finalize => true
  | _ => false

/-- `finalize` is called at most once, and only after every accepted byte was passed to a
`write_all` that succeeded. -/
structure CleanEnd (s : WriteSystem) : Prop where
  once : s.log.countP WriteLog.isFinalize ≤ 1
  complete : ∀ later earlier, s.log = later ++ .finalize :: earlier →
    writtenBytes earlier = acceptedBytes earlier

/-! ## The condition on runs -/

/-- A write that has looked at `background_error` and not sent its command yet. -/
def HalfPc.committed : HalfPc → Bool
  | writeReserve _ => true
  | writeSend _ => true
  | _ => false

/-- A rebind fails only when no data is queued and no write is about to queue some. -/
def WriteSystem.rebindFailsClean (s : WriteSystem) : WriteEvent → Bool
  | .writerResult (.error _) =>
    match s.background with
    | .rebinding _ => queuedBytes s.queue = [] && !s.poll.committed
    | _ => true
  | _ => true

/-! ## The invariant -/

/-- What was passed was written, apart from the call in progress; a background task that is
about to return may have failed to write. -/
def WriteSystem.Wrote (s : WriteSystem) : Prop :=
  match s.background with
  | .writing buf => passedBytes s.log = writtenBytes s.log ++ buf
  | .returning => True
  | .closedDown => True
  | .ended => True
  | _ => passedBytes s.log = writtenBytes s.log

/-- The background writer is past its call of `finalize`, if it makes one. -/
def BackgroundPc.pastLoop : BackgroundPc → Bool
  | finalizing _ => true
  | replying _ _ stop => stop
  | returning => true
  | closedDown => true
  | ended => true
  | _ => false

/-- The invariant behind a clean end. -/
structure CleanInv (s : WriteSystem) : Prop where
  wrote : s.Wrote
  /-- a loop that was left has no data in its queue, and none can arrive -/
  leaving : s.background = .leaving → queuedBytes s.queue = [] ∧
    (s.half.writeTx.gone = true ∨ s.backgroundError ≠ none ∧ s.poll.committed = false)
  once : s.log.countP WriteLog.isFinalize ≤ 1
  past : 0 < s.log.countP WriteLog.isFinalize → s.background.pastLoop = true
  complete : ∀ later earlier, s.log = later ++ .finalize :: earlier →
    writtenBytes earlier = acceptedBytes earlier

theorem cleanInv_init : CleanInv WriteSystem.init where
  wrote := rfl
  leaving := nofun
  once := Nat.zero_le 1
  past := nofun
  complete := by simp [WriteSystem.init]

/-! ## Steps of the half -/

/-- Only the half's own fields change, and a sender that is gone stays gone. -/
def OnlyHalf (s s' : WriteSystem) : Prop :=
  ∃ half, s' = { s with half := half } ∧ (s.half.writeTx.gone = true → half.writeTx.gone = true)

theorem PollSender.gone_close {tx : PollSender} (h : tx.gone = true) : tx.close.gone = true := by
  obtain ⟨alive, state⟩ := tx
  cases alive <;> cases state <;> first | rfl | cases h

theorem OnlyHalf.refl (s : WriteSystem) : OnlyHalf s s := ⟨s.half, rfl, id⟩

/-- The answer to a control command touches only the half. -/
theorem OnlyHalf.control {s s₁ : WriteSystem} {answer : Poll (Except IoError (Option ControlKind))}
    (h : ControlAnswer s (answer, s₁)) : OnlyHalf s s₁ := by
  cases h with
  | none | waiting => exact .refl s
  | flushed | flushFails => exact ⟨_, rfl, id⟩
  | shutDown => exact ⟨_, rfl, PollSender.gone_close⟩

/-- Reserving touches only the half. -/
theorem OnlyHalf.reserve {s s₁ : WriteSystem} {answer : Poll (Except Unit Unit)}
    (h : ReserveAnswer s (answer, s₁)) : OnlyHalf s s₁ := by
  -- a sender that is gone is closed
  have hclosed : s.half.writeTx.gone = true →
      s.half.writeTx.alive = false ∧ s.half.writeTx.state = .closed := by
    intro hgone
    simpa [PollSender.gone] using hgone
  cases h with
  | ready usable => exact ⟨_, rfl, fun hgone => absurd (hclosed hgone).2 usable⟩
  | closed => exact ⟨_, rfl, fun hgone => by simp [PollSender.gone, (hclosed hgone).1]⟩
  | full usable => exact ⟨_, rfl, fun hgone => absurd (hclosed hgone).2 usable⟩

/-- What an access of a poll does, as far as the end of the stream is concerned. -/
structure HalfStep (s s' : WriteSystem) : Prop where
  background : s'.background = s.background
  error : s'.backgroundError = s.backgroundError
  log : s'.log = s.log ∨ ∃ ev : WriteLog, s'.log = ev :: s.log ∧ ev.passed = [] ∧
    ev.written = [] ∧ ev.isFinalize = false
  queue : queuedBytes s'.queue = queuedBytes s.queue ∨ ∃ bufs, s.poll = .writeSend bufs
  gone : s.half.writeTx.gone = true → s'.half.writeTx.gone = true
  committed : s'.poll.committed = true → s.poll.committed = true ∨ s.backgroundError = none

/-- The half goes on to its next access. -/
theorem OnlyHalf.goto {s s₁ : WriteSystem} (h : OnlyHalf s s₁) {poll : HalfPc}
    (hpoll : poll.committed = true → s.poll.committed = true ∨ s.backgroundError = none) :
    HalfStep s (s₁.goto poll) := by
  obtain ⟨half, rfl, hgone⟩ := h
  exact ⟨rfl, rfl, .inl rfl, .inl rfl, hgone, hpoll⟩

/-- A poll returns without a byte taken or written. -/
theorem OnlyHalf.ret {s s₁ : WriteSystem} (h : OnlyHalf s s₁) {ev : WriteLog}
    (hpassed : ev.passed = []) (hwritten : ev.written = []) (hfin : ev.isFinalize = false) :
    HalfStep s (s₁.ret ev) := by
  obtain ⟨half, rfl, hgone⟩ := h
  exact ⟨rfl, rfl, .inr ⟨ev, rfl, hpassed, hwritten, hfin⟩, .inl rfl, hgone, nofun⟩

/-- A failed shutdown closes the channel and goes to the epilog. -/
theorem OnlyHalf.failShutdown {s s₁ : WriteSystem} (h : OnlyHalf s s₁) (error : IoError) :
    HalfStep s (s₁.failShutdown error) := by
  obtain ⟨half, rfl, hgone⟩ := h
  exact ⟨rfl, rfl, .inl rfl, .inl rfl, fun hg => PollSender.gone_close (hgone hg), nofun⟩

/-- `send_item` appends its command or does nothing; a sender that is gone sends nothing. -/
theorem WriteSystem.sendItem_cases (s : WriteSystem) (command : WriteCommand) :
    s.sendItem command = (.error (), s) ∨
    ∃ state, s.sendItem command = (.ok (), { s with
        half := { s.half with writeTx := { s.half.writeTx with state := state } }
        queue := s.queue ++ [command] }) ∧ s.half.writeTx.gone = false := by
  simp only [sendItem]
  split
  · rename_i hstate
    exact .inr ⟨_, rfl, by simp [PollSender.gone, hstate]⟩
  · exact .inl rfl

theorem queuedBytes_concat_flush (queue : List WriteCommand) (reply : ReplyId) :
    queuedBytes (queue ++ [WriteCommand.flush reply]) = queuedBytes queue := by
  rw [queuedBytes_append]
  exact List.append_nil _

theorem queuedBytes_concat_shutdown (queue : List WriteCommand) (reply : ReplyId) :
    queuedBytes (queue ++ [WriteCommand.shutdown reply]) = queuedBytes queue := by
  rw [queuedBytes_append]
  exact List.append_nil _

/-- The flush command carries no bytes. -/
theorem HalfStep.flushSend (s : WriteSystem) : HalfStep s s.advanceFlushSend := by
  simp only [advanceFlushSend]
  rcases sendItem_cases { s with
    replies := s.replies.insert ⟨.flush, s.nextReply⟩ .waiting
    nextReply := s.nextReply + 1 } (.flush ⟨.flush, s.nextReply⟩) with hsend | ⟨state, hsend, hgone⟩
  · simp only [hsend]
    exact ⟨rfl, rfl, .inr ⟨_, rfl, rfl, rfl, rfl⟩, .inl rfl, id, fun h => by cases h⟩
  · simp only [hsend]
    refine ⟨rfl, rfl, .inr ⟨_, rfl, rfl, rfl, rfl⟩, .inl (queuedBytes_concat_flush ..), ?_,
      fun h => by cases h⟩
    intro hg
    rw [show s.half.writeTx.gone = false from hgone] at hg
    cases hg

/-- The shutdown command carries no bytes. -/
theorem HalfStep.shutdownSend (s : WriteSystem) : HalfStep s s.advanceShutdownSend := by
  simp only [advanceShutdownSend]
  rcases sendItem_cases { s with
    replies := s.replies.insert ⟨.shutdown, s.nextReply⟩ .waiting
    nextReply := s.nextReply + 1 } (.shutdown ⟨.shutdown, s.nextReply⟩)
    with hsend | ⟨state, hsend, hgone⟩
  · simp only [hsend]
    exact ⟨rfl, rfl, .inl rfl, .inl rfl, PollSender.gone_close, fun h => by cases h⟩
  · simp only [hsend]
    refine ⟨rfl, rfl, .inl rfl, .inl (queuedBytes_concat_shutdown ..), ?_, fun h => by cases h⟩
    intro hg
    rw [show s.half.writeTx.gone = false from hgone] at hg
    cases hg

/-- The bytes of a write are accepted and queued at once. -/
theorem HalfStep.writeSend {s : WriteSystem} {bufs : List (List UInt8)}
    (hpoll : s.poll = .writeSend bufs) : HalfStep s (s.advanceWriteSend bufs) := by
  simp only [advanceWriteSend]
  rcases s.sendItem_cases (.data (fillChunk (chunkLen bufs) [] bufs)) with
    hsend | ⟨state, hsend, hgone⟩
  · simp only [hsend]
    exact ⟨rfl, rfl, .inr ⟨_, rfl, rfl, rfl, rfl⟩, .inl rfl, id, fun h => by cases h⟩
  · simp only [hsend]
    refine ⟨rfl, rfl, .inr ⟨_, rfl, rfl, rfl, rfl⟩, .inr ⟨bufs, hpoll⟩, ?_, fun h => by cases h⟩
    intro hg
    rw [hgone] at hg
    cases hg

/-- Every access of a poll is such a step. -/
theorem HalfStep.of_access {s s' : WriteSystem} (hst : AccessStep s s') : HalfStep s s' := by
  cases hst with
  | writeShut pc control | writeFails pc control | writeWaits pc control | flushShut pc control
  | flushDone pc control | flushFails pc control | flushWaits pc control
  | shutdownWaits pc control => exact (OnlyHalf.control control).ret rfl rfl rfl
  | writeGoes pc control | flushGoes pc control | shutdownAnswered pc control =>
    exact (OnlyHalf.control control).goto nofun
  | shutdownFails pc control => exact (OnlyHalf.control control).failShutdown _
  | writeReserved pc reserve =>
    exact (OnlyHalf.reserve reserve).goto fun _ => .inl (by rw [pc]; rfl)
  | flushReserved pc reserve | shutdownReserved pc reserve =>
    exact (OnlyHalf.reserve reserve).goto nofun
  | writeNothing pc reserve | writeClosed pc reserve | writeFull pc reserve
  | flushClosed pc reserve | flushFull pc reserve | shutdownFull pc reserve =>
    exact (OnlyHalf.reserve reserve).ret rfl rfl rfl
  | shutdownClosed pc reserve => exact (OnlyHalf.reserve reserve).failShutdown _
  | writeRefused | flushRefused | shutdownRepeats | shutdownJoins =>
    exact (OnlyHalf.refl s).ret rfl rfl rfl
  | writeChecked pc unstarted healthy =>
    -- the write goes on only when it saw no error
    exact (OnlyHalf.refl s).goto fun _ => .inr healthy
  | flushChecked | shutdownResumes | shutdownChecked => exact (OnlyHalf.refl s).goto nofun
  | shutdownErrs => exact (OnlyHalf.refl s).failShutdown _
  | shutdownReports =>
    have hhalf : OnlyHalf s { s with
        half := { s.half with shutdownComplete := true, shutdownResult := none } } :=
      ⟨_, rfl, id⟩
    exact hhalf.ret rfl rfl rfl
  | writeSends pc => exact .writeSend pc
  | flushSends => exact .flushSend s
  | shutdownSends => exact .shutdownSend s

theorem WriteSystem.Wrote.of_eq {s s' : WriteSystem} (h : s.Wrote)
    (hpc : s'.background = s.background) (hpassed : passedBytes s'.log = passedBytes s.log)
    (hwritten : writtenBytes s'.log = writtenBytes s.log) : s'.Wrote := by
  simp only [WriteSystem.Wrote, hpc, hpassed, hwritten] at h ⊢
  exact h

/-- **The half.** An access of a poll keeps the invariant: once the loop has been left, no
write gets as far as queueing data. -/
theorem CleanInv.half {s s' : WriteSystem} (h : CleanInv s) (hinv : WriteInv s)
    (hstep : HalfStep s s') : CleanInv s' := by
  have hleaving : s'.background = .leaving → queuedBytes s'.queue = [] ∧
      (s'.half.writeTx.gone = true ∨ s'.backgroundError ≠ none ∧ s'.poll.committed = false) := by
    intro hbg
    obtain ⟨hq, hend⟩ := h.leaving (hstep.background ▸ hbg)
    refine ⟨?_, ?_⟩
    · rcases hstep.queue with heq | ⟨bufs, hpoll⟩
      · rw [heq, hq]
      · -- a write that is sending contradicts both reasons
        exfalso
        rcases hend with hgone | ⟨-, hcommitted⟩
        · have hready := hinv.permit (by rw [hpoll]; rfl)
          simp [PollSender.gone, hready] at hgone
        · rw [hpoll] at hcommitted
          cases hcommitted
    · rcases hend with hgone | ⟨herror, hcommitted⟩
      · exact .inl (hstep.gone hgone)
      · refine .inr ⟨hstep.error ▸ herror, ?_⟩
        by_contra hc
        rcases hstep.committed (by simpa using hc) with hold | hnone
        · rw [hcommitted] at hold
          cases hold
        · exact herror hnone
  rcases hstep.log with heq | ⟨ev, heq, hpassed, hwritten, hfin⟩
  · exact ⟨h.wrote.of_eq hstep.background (by rw [heq]) (by rw [heq]), hleaving, heq ▸ h.once,
      by rw [heq, hstep.background]; exact h.past, heq ▸ h.complete⟩
  · refine ⟨h.wrote.of_eq hstep.background ?_ ?_, hleaving, ?_, ?_, ?_⟩
    · rw [heq, passedBytes, hpassed, List.append_nil]
    · rw [heq, writtenBytes, hwritten, List.append_nil]
    · rw [heq, List.countP_cons_of_neg (by simp [hfin])]
      exact h.once
    · rw [heq, List.countP_cons_of_neg (by simp [hfin]), hstep.background]
      exact h.past
    · intro later earlier hlog
      rw [heq] at hlog
      cases later with
      | nil =>
        obtain ⟨rfl, -⟩ := List.cons.inj hlog
        cases hfin
      | cons ev' later => exact h.complete later earlier (List.cons.inj hlog).2

/-! ## Steps of the background writer -/

/-- A step that leaves the log alone. -/
theorem CleanInv.move {s s' : WriteSystem} (h : CleanInv s) (hlog : s'.log = s.log)
    (hwrote : s'.Wrote)
    (hleaving : s'.background = .leaving → queuedBytes s'.queue = [] ∧
      (s'.half.writeTx.gone = true ∨ s'.backgroundError ≠ none ∧ s'.poll.committed = false))
    (hpast : s.background.pastLoop = true → s'.background.pastLoop = true) : CleanInv s' :=
  ⟨hwrote, hleaving, hlog ▸ h.once, fun hc => hpast (h.past (hlog ▸ hc)), hlog ▸ h.complete⟩

/-- Inside the loop `finalize` has not been called. -/
theorem CleanInv.not_finalized {s : WriteSystem} (h : CleanInv s)
    (hbg : s.background.pastLoop = false) : s.log.countP WriteLog.isFinalize = 0 := by
  by_contra hne
  have hpast := h.past (Nat.pos_of_ne_zero hne)
  rw [hbg] at hpast
  cases hpast

/-- A call of the writer other than `finalize` is recorded. -/
theorem CleanInv.record {s s' : WriteSystem} (h : CleanInv s) (ev : WriteLog)
    (hbg : s.background.pastLoop = false) (hlog : s'.log = ev :: s.log)
    (hfin : ev.isFinalize = false) (hwrote : s'.Wrote) (hleaving : s'.background ≠ .leaving) :
    CleanInv s' := by
  have hcount : s'.log.countP WriteLog.isFinalize = 0 := by
    rw [hlog, List.countP_cons_of_neg (by simp [hfin])]
    exact h.not_finalized hbg
  refine ⟨hwrote, fun hl => absurd hl hleaving, by omega, fun hc => by omega, ?_⟩
  intro later earlier heq
  rw [hlog] at heq
  cases later with
  | nil =>
    obtain ⟨rfl, -⟩ := List.cons.inj heq
    cases hfin
  | cons ev' later => exact h.complete later earlier (List.cons.inj heq).2

/-- `finalize` is called from inside the loop, with everything written. -/
theorem CleanInv.finalize {s s' : WriteSystem} (h : CleanInv s)
    (hbg : s.background.pastLoop = false) (hlog : s'.log = .finalize :: s.log)
    {reply : Option ReplyId} (hbg' : s'.background = .finalizing reply)
    (hpassed : passedBytes s.log = writtenBytes s.log)
    (hall : acceptedBytes s.log = passedBytes s.log) : CleanInv s' := by
  have hcount := h.not_finalized hbg
  refine ⟨?_, fun hl => ?_, ?_, fun _ => ?_, ?_⟩
  · unfold WriteSystem.Wrote
    rw [hbg', hlog]
    simp only [passedBytes, writtenBytes, WriteLog.passed, WriteLog.written, List.append_nil]
    exact hpassed
  · rw [hbg'] at hl
    cases hl
  · rw [hlog, List.countP_cons_of_pos rfl, hcount]
  · rw [hbg']
    rfl
  · intro later earlier heq
    rw [hlog] at heq
    cases later with
    | nil =>
      obtain ⟨-, rfl⟩ := List.cons.inj heq
      rw [hall, hpassed]
    | cons ev' later => exact h.complete later earlier (List.cons.inj heq).2

/-- What the background writer passes on it has written when it goes on. -/
theorem WriteSystem.Wrote.writer {s s' : WriteSystem} {e : WriteEvent} (h : s.Wrote)
    (hst : WriterStep s e s') : s'.Wrote := by
  simp only [WriteSystem.Wrote] at h
  cases hst with
  | data pc head =>
    rw [pc] at h
    simpa [WriteSystem.Wrote, resume, passedBytes, writtenBytes, WriteLog.passed,
      WriteLog.written] using h
  | shutdown pc head =>
    rw [pc] at h
    simpa [WriteSystem.Wrote, resume, passedBytes, writtenBytes, WriteLog.passed,
      WriteLog.written] using h
  | wrote pc =>
    rw [pc] at h
    simpa [WriteSystem.Wrote, resume, passedBytes, writtenBytes, WriteLog.passed,
      WriteLog.written] using h
  | leave pc =>
    rw [pc] at h
    simpa [WriteSystem.Wrote, resume, passedBytes, writtenBytes, WriteLog.passed,
      WriteLog.written] using h
  | reply pc =>
    rename_i reply result stop
    rw [pc] at h
    cases stop with
    | false => exact h
    | true => exact trivial
  | finalized pc event =>
    rw [pc] at h
    simpa [WriteSystem.Wrote, resume] using h
  | finalizedEnd pc event => exact trivial
  | writeFails pc => exact trivial
  | returns pc => exact trivial
  | ends pc => exact trivial
  | _ =>
    rename_i pc
    simp_all [WriteSystem.Wrote, resume]

/-- **The background writer.** Only a failed rebind leads out of the loop and on to `finalize`
with data behind, and by the condition nothing is queued then. -/
theorem CleanInv.writer {s s' : WriteSystem} {e : WriteEvent} (h : CleanInv s) (hinv : WriteInv s)
    (hC : s.rebindFailsClean e = true) (hst : WriterStep s e s') : CleanInv s' := by
  have hw := h.wrote
  simp only [WriteSystem.Wrote] at hw
  have hwrote := h.wrote.writer hst
  -- a step inside the loop that calls nothing
  have hloop : s'.log = s.log → s'.background ≠ .leaving → s.background.pastLoop = false →
      CleanInv s' := by
    intro hlog hleaving hfrom
    refine h.move hlog hwrote (fun hbg => absurd hbg hleaving) fun hpast => ?_
    rw [hfrom] at hpast
    cases hpast
  -- a step past the loop
  have hpast : s'.log = s.log → s'.background ≠ .leaving → s'.background.pastLoop = true →
      CleanInv s' :=
    fun hlog hleaving hto => h.move hlog hwrote (fun hbg => absurd hbg hleaving) fun _ => hto
  cases hst with
  | woken pc => exact hloop rfl (fun h => by cases h) (by rw [pc]; rfl)
  | wakeEnds pc => exact hloop rfl (fun h => by cases h) (by rw [pc]; rfl)
  | noWake pc => exact hloop rfl (fun h => by cases h) (by rw [pc]; rfl)
  | take pc => exact hloop rfl (fun h => by cases h) (by rw [pc]; rfl)
  | takeNothing pc => exact hloop rfl (fun h => by cases h) (by rw [pc]; rfl)
  | data pc => exact h.record _ (by rw [pc]; rfl) rfl rfl hwrote (fun h => by cases h)
  | flush pc => exact hloop rfl (fun h => by cases h) (by rw [pc]; rfl)
  | shutdown pc head =>
    rename_i reply queue
    obtain ⟨rfl, -⟩ := hinv.last [] reply queue head
    have hbal := hinv.balance (by rw [pc]; rfl)
    rw [head] at hbal
    rw [pc] at hw
    exact h.finalize (by rw [pc]; rfl) rfl rfl hw (hbal.trans (List.append_nil _))
  | channelEnds pc empty gone =>
    -- nothing is queued and nobody can send
    refine h.move rfl hwrote (fun _ => ⟨?_, .inl gone⟩) ?_
    · simp only [WriteSystem.resume, empty]
      rfl
    · rw [pc]
      rintro ⟨⟩
  | noCommand pc => exact hloop rfl (fun h => by cases h) (by rw [pc]; rfl)
  | rebound pc => exact hloop rfl (fun h => by cases h) (by rw [pc]; rfl)
  | rebindFails pc =>
    simp only [rebindFailsClean, pc, Bool.and_eq_true, decide_eq_true_eq, Bool.not_eq_true'] at hC
    refine h.move rfl hwrote (fun _ => ⟨hC.1, .inr ⟨(fun h => by cases h), hC.2⟩⟩) ?_
    rw [pc]
    rintro ⟨⟩
  | wrote pc => exact h.record _ (by rw [pc]; rfl) rfl rfl hwrote (fun h => by cases h)
  | writeFails pc => exact hpast rfl (fun h => by cases h) rfl
  | flushed pc => exact hloop rfl (fun h => by cases h) (by rw [pc]; rfl)
  | flushFails pc => exact hpast rfl (fun h => by cases h) rfl
  | finalized pc => exact hpast (by simp [WriteSystem.resume]) (fun h => by cases h) rfl
  | finalizedEnd pc => exact hpast rfl (fun h => by cases h) rfl
  | reply pc =>
    rename_i reply result stop
    cases stop with
    | false => exact hloop rfl (fun h => by cases h) (by rw [pc]; rfl)
    | true => exact hpast rfl (fun h => by cases h) rfl
  | leave pc =>
    obtain ⟨hq, -⟩ := h.leaving pc
    have hbal := hinv.balance (by rw [pc]; rfl)
    rw [hq, List.append_nil] at hbal
    rw [pc] at hw
    exact h.finalize (by rw [pc]; rfl) rfl rfl hw hbal
  | returns pc => exact hpast rfl (fun h => by cases h) rfl
  | ends pc => exact hpast rfl (fun h => by cases h) rfl

/-- **Step lemma.** A step in which a rebind does not fail over queued data keeps the
invariant. -/
theorem CleanInv.step {s s' : WriteSystem} {e : WriteEvent} (h : CleanInv s) (hinv : WriteInv s)
    (hC : s.rebindFailsClean e = true) (hst : WriteStep s e s') : CleanInv s' := by
  have hsame : ∀ {s' : WriteSystem}, s'.half = s.half → s'.poll = s.poll → s'.queue = s.queue →
      s'.background = s.background → s'.backgroundError = s.backgroundError → s'.log = s.log →
      CleanInv s' := by
    intro s' hhalf hpoll hqueue hbg herror hlog
    exact h.half hinv ⟨hbg, herror, .inl hlog, .inl (by rw [hqueue]), hhalf ▸ id,
      fun hc => .inl (hpoll ▸ hc)⟩
  cases hst with
  | begins entry idle kept =>
    rename_i poll
    have hpoll : poll.committed = false := by
      cases e <;> cases entry <;> rfl
    refine h.half hinv ((OnlyHalf.refl s).goto fun hc => ?_)
    rw [hpoll] at hc
    cases hc
  | access hadv => exact h.half hinv (.of_access (.of_advance hadv))
  | drop => exact h.half hinv ⟨rfl, rfl, .inl rfl, .inl rfl, fun _ => rfl, fun hc => .inl hc⟩
  | rebindRefused => exact h
  | rebindUpgrades => exact hsame rfl rfl rfl rfl rfl rfl
  | rebindStores => exact hsame rfl rfl rfl rfl rfl rfl
  | rebindSends => exact hsame rfl rfl rfl rfl rfl rfl
  | writer hst => exact h.writer hinv hC hst
  | abort => exact h.move rfl trivial nofun fun _ => rfl

/-- **No clean end over a truncated stream.** In every run in which a rebind fails only when
no data is queued or about to be, `finalize` is called at most once, and only after every
accepted byte was written. -/
theorem clean_end (s : WriteSystem)
    (h : writeSystem.ReachesWhere (fun s e => s.rebindFailsClean e = true) s) : CleanEnd s := by
  have hinv : WriteInv s ∧ CleanInv s :=
    h.invariant (I := fun s => WriteInv s ∧ CleanInv s) ⟨writeInv_init, cleanInv_init⟩
      fun _ _ _ hs hC hst => ⟨hs.1.step hst, hs.2.step hs.1 hC (.of_step hst)⟩
  exact ⟨hinv.2.once, hinv.2.complete⟩

/-- A rebind fails while nothing is queued: the stream is finalized after the byte that was
written. -/
def rebindFailsRun : List WriteEvent :=
  [.pollWrite [[7]], .advance, .advance, .advance, .advance,
    .background, .background, .writerResult (.ok ()),
    .rebindUpgrade, .rebindStore 1, .rebindSend, .background, .background,
    .writerResult (.error ⟨"gone"⟩), .background]

/-- A rebind fails after the shutdown began: the stream is finalized once, with its bytes
written. -/
theorem clean_end_rebindFails :
    ∃ s, writeSystem.ReachesWhere (fun s e => s.rebindFailsClean e = true) s ∧
      s.log.countP WriteLog.isFinalize = 1 ∧ writtenBytes s.log = [7] ∧ CleanEnd s := by
  have hrun : ∃ s, writeSystem.ReachesWhere (fun s e => s.rebindFailsClean e = true) s ∧
      s.log.countP WriteLog.isFinalize = 1 ∧ writtenBytes s.log = [7] :=
    ⟨_, ⟨rebindFailsRun, Machine.run_of_exec rfl⟩, rfl, rfl⟩
  obtain ⟨s, hs, hcount, hwritten⟩ := hrun
  exact ⟨s, hs, hcount, hwritten, clean_end s hs⟩

/-- A byte is accepted into the queue, and a rebind fails before it is served. -/
def truncatedRun : List WriteEvent :=
  [.pollWrite [[7]], .advance, .advance, .advance, .advance,
    .rebindUpgrade, .rebindStore 1, .rebindSend, .background, .background,
      .writerResult (.error ⟨"gone"⟩), .background]

/-- The stream is finalized although the byte was never passed to the writer. -/
theorem rebind_failure_truncates : ∃ s, writeSystem.Reaches s ∧ ¬ CleanEnd s := by
  refine ⟨_, ⟨truncatedRun, Machine.run_of_exec rfl⟩, fun h => ?_⟩
  have heq := h.complete [] _ rfl
  revert heq
  exact nofun

end RtpMux

import RtpMux.WriteStream

/-!
# Vectored and plain writes (`migrating_write_half.rs`)

`poll_write` hands its buffer to `poll_write_vectored_inner` as the only slice, so both calls are
one function, and the question is whether that function sees its slices through anything but their
concatenation. It computes the count it returns by a saturating sum and then fills the command by a
loop of its own; both only depend on the concatenation (`chunkLen_eq`, `fillChunk_eq`).

A poll is a sequence of accesses with steps of other parties between them. `plain` forgets how the
slices of a write were cut, in the poll that is in progress and in the record of those that have
returned, and touches nothing else. It commutes with every step, whoever takes it.
-/

namespace RtpMux

/-- The slices of a write as one slice. -/
def HalfPc.plain : HalfPc → HalfPc
  | .writeControl bufs => .writeControl [bufs.flatten]
  | .writeCheck bufs => .writeCheck [bufs.flatten]
  | .writeReserve bufs => .writeReserve [bufs.flatten]
  | .writeSend bufs => .writeSend [bufs.flatten]
  | pc => pc

/-- An entry of the log without the cuts between slices. -/
def WriteLog.plain : WriteLog → WriteLog
  | .pollWrite bufs result => .pollWrite [bufs.flatten] result
  | entry => entry

/-- An event without the cuts between slices. -/
def WriteEvent.plain : WriteEvent → WriteEvent
  | .pollWrite bufs => .pollWrite [bufs.flatten]
  | e => e

namespace WriteSystem

/-- The state without the cuts between slices. -/
def plain (s : WriteSystem) : WriteSystem :=
  { s with poll := s.poll.plain, log := s.log.map WriteLog.plain }

section

variable (s : WriteSystem)

@[simp] theorem plain_half : s.plain.half = s.half := rfl

@[simp] theorem plain_background : s.plain.background = s.background := rfl

@[simp] theorem plain_queue : s.plain.queue = s.queue := rfl

@[simp] theorem plain_backgroundError : s.plain.backgroundError = s.backgroundError := rfl

theorem plain_poll : s.plain.poll = s.poll.plain := rfl

@[simp] theorem plain_goto (pc : HalfPc) : (s.goto pc).plain = s.plain.goto pc.plain := rfl

@[simp] theorem plain_ret (entry : WriteLog) :
    (s.ret entry).plain = s.plain.ret entry.plain := rfl

@[simp] theorem plain_resume (pc : BackgroundPc) : (s.resume pc).plain = s.plain.resume pc := rfl

/-- Storing an error commutes with flattening the buffers. -/
@[simp] theorem plain_storeError (result : Except BackgroundWriteError Unit) :
    (s.storeError result).plain = s.plain.storeError result := by
  cases result <;> rfl

@[simp] theorem plain_failShutdown (error : IoError) :
    (s.failShutdown error).plain = s.plain.failShutdown error := rfl

/-- `poll_pending_control` reads no slice. -/
theorem pollPendingControl_plain :
    s.plain.pollPendingControl = (s.pollPendingControl.1, s.pollPendingControl.2.plain) := by
  simp only [pollPendingControl, plain]
  split
  · rfl
  · rename_i pending _
    obtain ⟨kind, reply⟩ := pending
    split <;> cases kind <;> rfl

/-- Reserving a slot does not see the buffers. -/
theorem pollReserve_plain :
    s.plain.pollReserve = (s.pollReserve.1, s.pollReserve.2.plain) := by
  unfold pollReserve
  simp only [plain_half]
  cases s.half.writeTx.state with
  | readyToSend => rfl
  | closed => rfl
  | _ =>
    by_cases hgone : s.background.receiving = false
    · have hgone' : s.plain.background.receiving = false := hgone
      simp only [if_pos hgone, if_pos hgone']
      rfl
    · have hgone' : ¬ s.plain.background.receiving = false := hgone
      by_cases hroom : s.queue.length < writeQueueCapacity
      · have hroom' : s.plain.queue.length < writeQueueCapacity := hroom
        simp only [if_neg hgone, if_neg hgone', if_pos hroom, if_pos hroom']
        rfl
      · have hroom' : ¬ s.plain.queue.length < writeQueueCapacity := hroom
        simp only [if_neg hgone, if_neg hgone', if_neg hroom, if_neg hroom']
        rfl

/-- Sending a command does not see the buffers. -/
theorem sendItem_plain (command : WriteCommand) :
    s.plain.sendItem command = ((s.sendItem command).1, (s.sendItem command).2.plain) := by
  simp only [sendItem, plain]
  split <;> rfl

end

/-- The count and the command depend on the concatenation only. -/
theorem chunkLen_flatten (bufs : List (List UInt8)) : chunkLen [bufs.flatten] = chunkLen bufs := by
  rw [chunkLen_eq, chunkLen_eq, List.flatten_singleton]

/-- A chunk is filled from the buffers as from their concatenation. -/
theorem fillChunk_flatten (chunk : Nat) (bufs : List (List UInt8)) :
    fillChunk chunk [] [bufs.flatten] = fillChunk chunk [] bufs := by
  rw [fillChunk_eq, fillChunk_eq, List.flatten_singleton]

/-! ## One access -/

section

variable (s : WriteSystem) (bufs : List (List UInt8))

/-- A write's control poll commutes with flattening. -/
theorem plain_advanceWriteControl :
    (s.advanceWriteControl bufs).plain = s.plain.advanceWriteControl [bufs.flatten] := by
  unfold advanceWriteControl
  rw [pollPendingControl_plain]
  obtain ⟨answer, s₁⟩ := s.pollPendingControl
  cases answer with
  | pending => rfl
  | ready result =>
    cases result with
    | error error => rfl
    | ok kind =>
      cases kind with
      | none => rfl
      | some kind => cases kind <;> rfl

/-- A write's check commutes with flattening. -/
theorem plain_advanceWriteCheck :
    (s.advanceWriteCheck bufs).plain = s.plain.advanceWriteCheck [bufs.flatten] := by
  obtain ⟨⟨_, _, started, complete, _⟩, _, _, _, _, _, error, _⟩ := s
  cases complete with
  | true => rfl
  | false =>
    cases started with
    | true => rfl
    | false => cases error <;> rfl

/-- A write's reservation commutes with flattening. -/
theorem plain_advanceWriteReserve :
    (s.advanceWriteReserve bufs).plain = s.plain.advanceWriteReserve [bufs.flatten] := by
  unfold advanceWriteReserve
  rw [pollReserve_plain, chunkLen_flatten]
  obtain ⟨answer, s₁⟩ := s.pollReserve
  cases answer with
  | pending => rfl
  | ready result =>
    cases result with
    | error u => rfl
    | ok u =>
      by_cases hempty : 0 < chunkLen bufs
      · simp only [if_pos hempty]
        rfl
      · simp only [if_neg hempty]
        rfl

/-- A write's sending commutes with flattening. -/
theorem plain_advanceWriteSend :
    (s.advanceWriteSend bufs).plain = s.plain.advanceWriteSend [bufs.flatten] := by
  simp only [advanceWriteSend, plain_ret, sendItem_plain, chunkLen_flatten, fillChunk_flatten,
    WriteLog.plain]

theorem plain_advanceFlushControl : s.advanceFlushControl.plain = s.plain.advanceFlushControl := by
  unfold advanceFlushControl
  rw [pollPendingControl_plain]
  obtain ⟨answer, s₁⟩ := s.pollPendingControl
  cases answer with
  | pending => rfl
  | ready result =>
    cases result with
    | error error => rfl
    | ok kind =>
      cases kind with
      | none => rfl
      | some kind => cases kind <;> rfl

theorem plain_advanceFlushCheck : s.advanceFlushCheck.plain = s.plain.advanceFlushCheck := by
  obtain ⟨⟨_, _, started, complete, _⟩, _, _, _, _, _, error, _⟩ := s
  cases complete with
  | true => rfl
  | false =>
    cases started with
    | true => rfl
    | false => cases error <;> rfl

theorem plain_advanceFlushReserve : s.advanceFlushReserve.plain = s.plain.advanceFlushReserve := by
  unfold advanceFlushReserve
  rw [pollReserve_plain]
  obtain ⟨answer, s₁⟩ := s.pollReserve
  cases answer with
  | pending => rfl
  | ready result => cases result <;> rfl

theorem plain_advanceFlushSend : s.advanceFlushSend.plain = s.plain.advanceFlushSend := by
  obtain ⟨⟨⟨_, state⟩, _⟩, _⟩ := s
  cases state <;> rfl

theorem plain_advanceShutdownCheck :
    s.advanceShutdownCheck.plain = s.plain.advanceShutdownCheck := by
  obtain ⟨⟨_, _, started, complete, _⟩, _, _, _, _, _, error, _⟩ := s
  cases complete with
  | true => rfl
  | false =>
    cases started with
    | true => rfl
    | false => cases error <;> rfl

theorem plain_advanceShutdownReserve :
    s.advanceShutdownReserve.plain = s.plain.advanceShutdownReserve := by
  unfold advanceShutdownReserve
  rw [pollReserve_plain]
  obtain ⟨answer, s₁⟩ := s.pollReserve
  cases answer with
  | pending => rfl
  | ready result => cases result <;> rfl

theorem plain_advanceShutdownSend :
    s.advanceShutdownSend.plain = s.plain.advanceShutdownSend := by
  obtain ⟨⟨⟨_, state⟩, _⟩, _⟩ := s
  cases state <;> rfl

theorem plain_advanceShutdownControl :
    s.advanceShutdownControl.plain = s.plain.advanceShutdownControl := by
  unfold advanceShutdownControl
  rw [pollPendingControl_plain]
  obtain ⟨answer, s₁⟩ := s.pollPendingControl
  cases answer with
  | pending => rfl
  | ready result => cases result <;> rfl

theorem plain_advanceShutdownEpilog :
    s.advanceShutdownEpilog.map plain = s.plain.advanceShutdownEpilog := by
  unfold advanceShutdownEpilog
  simp only [plain_half, plain_background]
  cases s.background with
  | ended => cases s.half.shutdownResult <;> rfl
  | _ => rfl

/-- A step of the current poll commutes with flattening. -/
theorem plain_advance : s.advance.map plain = s.plain.advance := by
  unfold advance
  cases hpoll : s.poll with
  | idle => simp [plain_poll, hpoll, HalfPc.plain]
  | writeControl bufs =>
    simp [plain_poll, hpoll, HalfPc.plain, plain_advanceWriteControl]
  | writeCheck bufs => simp [plain_poll, hpoll, HalfPc.plain, plain_advanceWriteCheck]
  | writeReserve bufs => simp [plain_poll, hpoll, HalfPc.plain, plain_advanceWriteReserve]
  | writeSend bufs => simp [plain_poll, hpoll, HalfPc.plain, plain_advanceWriteSend]
  | flushControl => simp [plain_poll, hpoll, HalfPc.plain, plain_advanceFlushControl]
  | flushCheck => simp [plain_poll, hpoll, HalfPc.plain, plain_advanceFlushCheck]
  | flushReserve => simp [plain_poll, hpoll, HalfPc.plain, plain_advanceFlushReserve]
  | flushSend => simp [plain_poll, hpoll, HalfPc.plain, plain_advanceFlushSend]
  | shutdownCheck => simp [plain_poll, hpoll, HalfPc.plain, plain_advanceShutdownCheck]
  | shutdownReserve => simp [plain_poll, hpoll, HalfPc.plain, plain_advanceShutdownReserve]
  | shutdownSend => simp [plain_poll, hpoll, HalfPc.plain, plain_advanceShutdownSend]
  | shutdownControl => simp [plain_poll, hpoll, HalfPc.plain, plain_advanceShutdownControl]
  | shutdownEpilog => simp [plain_poll, hpoll, HalfPc.plain, plain_advanceShutdownEpilog]

end

/-! ## Every step -/

section

variable (s : WriteSystem)

/-- A step of the background writer commutes with flattening. -/
theorem plain_stepBackground : s.stepBackground.map plain = s.plain.stepBackground := by
  unfold stepBackground
  simp only [plain_background]
  cases s.background with
  | pollWake =>
    obtain ⟨_, _, dropped, _, _, _, _, _, wake, upgraded, rebinds, isOpen, _⟩ := s
    cases isOpen with
    | false => rfl
    | true =>
      cases wake with
      | true => rfl
      | false => cases dropped <;> cases upgraded <;> cases rebinds <;> rfl
  | takeLatest =>
    obtain ⟨_, _, _, _, _, _, _, latest, _⟩ := s
    cases latest <;> rfl
  | pollCommands =>
    obtain ⟨⟨⟨alive, state⟩, _⟩, _, _, queue, _⟩ := s
    cases queue with
    | nil => cases alive <;> cases state <;> rfl
    | cons command queue => cases command <;> rfl
  | _ => rfl

/-- The writer's return commutes with flattening. -/
theorem plain_writerReturns (result : Except BackgroundWriteError Unit) :
    (s.writerReturns result).map plain = s.plain.writerReturns result := by
  unfold writerReturns
  simp only [plain_background]
  cases s.background with
  | rebinding opener => cases result <;> rfl
  | writing buf => cases result <;> rfl
  | flushing reply => cases result <;> rfl
  | finalizing reply =>
    cases reply with
    | none => rfl
    | some reply => cases result <;> rfl
  | _ => rfl

/-- The beginning of a poll commutes with flattening. -/
theorem plain_begin (pc : HalfPc) : (s.begin pc).map plain = s.plain.begin pc.plain := by
  obtain ⟨_, poll, dropped, _⟩ := s
  cases dropped <;> cases poll <;> rfl

/-- **One step.** How the slices are cut makes no difference to a step of any party. -/
theorem plain_step (e : WriteEvent) : (s.step e).map plain = s.plain.step e.plain := by
  cases e with
  | advance => exact plain_advance s
  | background => exact plain_stepBackground s
  | writerResult result => exact plain_writerReturns s result
  | pollWrite bufs => exact plain_begin s _
  | pollFlush => exact plain_begin s _
  | pollShutdown => exact plain_begin s _
  | drop =>
    obtain ⟨_, poll, dropped, _⟩ := s
    cases dropped <;> cases poll <;> rfl
  | rebindUpgrade =>
    obtain ⟨_, _, dropped, _, _, _, _, _, _, upgraded, rebinds, _⟩ := s
    cases dropped <;> cases upgraded <;> cases rebinds <;> rfl
  | rebindStore opener =>
    obtain ⟨_, _, _, _, _, _, _, _, _, upgraded, _⟩ := s
    cases upgraded <;> rfl
  | rebindSend =>
    obtain ⟨_, _, _, _, _, _, _, _, _, _, rebinds, _⟩ := s
    cases rebinds <;> rfl
  | finalizeTimeout =>
    have hreturns := plain_writerReturns s (.error finalizeTimedOut)
    simp only [step, timeOut, WriteEvent.plain, plain_background]
    split
    · exact hreturns
    · rfl
  | abort =>
    simp only [step, WriteSystem.abort, WriteEvent.plain, plain_background]
    obtain ⟨_, _, dropped, _, _, _, _, _, _, _, _, _, background, _⟩ := s
    cases dropped with
    | false => rfl
    | true => cases background <;> rfl

end

/-! ## What an accepted write stages -/

/-- A write that is about to send has a reserved slot and something to send. -/
def WriteReady (s : WriteSystem) : Prop :=
  ∀ bufs, s.poll = .writeSend bufs → s.half.writeTx.state = .readyToSend ∧ 0 < chunkLen bufs

/-- A half that is not about to send is ready. -/
theorem WriteReady.of_poll {s : WriteSystem} (h : ∀ bufs, s.poll ≠ .writeSend bufs) :
    WriteReady s := fun bufs hpoll => absurd hpoll (h bufs)

/-- What the access that reserves the slot does. -/
theorem advance_of_writeReserve {s s' : WriteSystem} {bufs : List (List UInt8)}
    (hpoll : s.poll = .writeReserve bufs) (h : s.advance = some s') :
    s'.poll = (if 0 < chunkLen bufs then .writeSend bufs else .idle) ∨ s'.poll = .idle ∧
      ∀ n, s'.log.head? ≠ some (.pollWrite bufs (.ready (.ok n))) := by
  simp only [advance, hpoll, advanceWriteReserve] at h
  split at h
  · left
    split at h <;> rename_i hempty <;> obtain rfl := Option.some.inj h
    · rw [if_pos hempty]
      rfl
    · rw [if_neg hempty]
      rfl
  · right
    obtain rfl := Option.some.inj h
    exact ⟨rfl, by simp [ret]⟩
  · right
    obtain rfl := Option.some.inj h
    exact ⟨rfl, by simp [ret]⟩

/-- A control poll logs nothing. -/
theorem ControlAnswer.log_eq {s s₁ : WriteSystem}
    {answer : Poll (Except IoError (Option ControlKind))} (h : ControlAnswer s (answer, s₁)) :
    s₁.log = s.log := by
  cases h <;> rfl

/-- A reservation logs nothing and queues nothing. -/
theorem ReserveAnswer.log_eq {s s₁ : WriteSystem} {answer : Poll (Except Unit Unit)}
    (h : ReserveAnswer s (answer, s₁)) : s₁.log = s.log ∧ s₁.queue = s.queue := by
  cases h <;> exact ⟨rfl, rfl⟩

/-- Only the access that reserves the slot leads to the one that sends. -/
theorem WriteReady.advance {s s' : WriteSystem} (h : s.advance = some s') : WriteReady s' := by
  cases AccessStep.of_advance h with
  | writeReserved pc reserve =>
    rename_i bufs s₁
    intro bufs' hpoll
    obtain rfl : bufs = bufs' := HalfPc.writeSend.inj hpoll
    refine ⟨by cases reserve; rfl, ?_⟩
    rcases advance_of_writeReserve pc h with hnext | ⟨hnext, -⟩
    · rw [hpoll] at hnext
      split at hnext
      · assumption
      · cases hnext
    · cases hnext
  | shutdownSends pc =>
    refine .of_poll fun bufs => ?_
    unfold advanceShutdownSend
    dsimp only
    split <;> exact nofun
  | _ => exact .of_poll nofun

/-- A step keeps the half ready. -/
theorem WriteReady.step {s s' : WriteSystem} {e : WriteEvent} (h : WriteReady s)
    (hstep : s.step e = some s') : WriteReady s' := by
  cases WriteStep.of_step hstep with
  | begins entry idle kept =>
    rename_i poll
    refine .of_poll fun bufs hpoll => ?_
    obtain rfl : poll = .writeSend bufs := hpoll
    cases e <;> cases entry
  | access hadvance => exact .advance hadvance
  | drop idle kept => exact .of_poll fun bufs hpoll => by rw [idle] at hpoll; cases hpoll
  | writer hwriter =>
    have hsame : s'.poll = s.poll ∧ s'.half = s.half := by
      cases hwriter <;> simp [resume, dropReceivers]
    intro bufs hpoll
    rw [hsame.1] at hpoll
    rw [hsame.2]
    exact h bufs hpoll
  | abort => exact h
  | rebindRefused => exact h
  | rebindUpgrades => exact h
  | rebindStores => exact h
  | rebindSends => exact h

/-- Sending the shutdown logs nothing. -/
theorem advanceShutdownSend_log (s : WriteSystem) : s.advanceShutdownSend.log = s.log := by
  obtain ⟨⟨⟨_, state⟩, _⟩, _⟩ := s
  cases state <;> rfl

/-- **An accepted write.** The access that returns a count has staged that many bytes, or nothing if
there were none. -/
theorem WriteReady.accepts {s s' : WriteSystem} {bufs : List (List UInt8)} {n : Nat}
    (h : WriteReady s) (hadvance : s.advance = some s')
    (hlog : s'.log = .pollWrite bufs (.ready (.ok n)) :: s.log) :
    n = min bufs.flatten.length writeMaxChunk ∧
      s'.queue = s.queue ++ (if n = 0 then [] else [.data (bufs.flatten.take n)]) := by
  -- an access that goes on records nothing
  have hgoes : s'.log ≠ s.log := by
    rw [hlog]
    exact List.cons_ne_self _ _
  have hreturns : ∀ {s₁ : WriteSystem} {entry : WriteLog}, s' = s₁.ret entry →
      entry = .pollWrite bufs (.ready (.ok n)) := by
    rintro s₁ entry rfl
    exact (List.cons.inj hlog).1
  cases AccessStep.of_advance hadvance with
  | writeNothing pc reserve =>
    rename_i bufs' s₁
    obtain ⟨rfl, hn⟩ := WriteLog.pollWrite.inj (hreturns rfl)
    obtain rfl : 0 = n := Except.ok.inj (Poll.ready.inj hn)
    have hzero : chunkLen bufs' = 0 := by
      rcases advance_of_writeReserve pc hadvance with hnext | ⟨-, hnext⟩
      · by_contra hpos
        rw [if_pos (Nat.pos_of_ne_zero hpos)] at hnext
        cases hnext
      · exact absurd rfl (hnext 0)
    rw [chunkLen_eq] at hzero
    exact ⟨hzero.symm, (ReserveAnswer.log_eq reserve).2.trans (List.append_nil _).symm⟩
  | writeSends pc =>
    rename_i bufs'
    obtain ⟨hstate, hpos⟩ := h bufs' pc
    obtain ⟨state, -, hsent⟩ := WriteSystem.advanceWriteSend_permit hstate bufs'
    rw [hsent] at hlog ⊢
    obtain ⟨rfl, hn⟩ := WriteLog.pollWrite.inj (List.cons.inj hlog).1
    obtain rfl : chunkLen bufs' = n := Except.ok.inj (Poll.ready.inj hn)
    rw [if_neg (Nat.ne_of_gt hpos), fillChunk_eq, chunkLen_eq]
    exact ⟨rfl, rfl⟩
  | writeGoes pc control => exact absurd (ControlAnswer.log_eq control) hgoes
  | flushGoes pc control => exact absurd (ControlAnswer.log_eq control) hgoes
  | shutdownAnswered pc control => exact absurd (ControlAnswer.log_eq control) hgoes
  | shutdownFails pc control => exact absurd (ControlAnswer.log_eq control) hgoes
  | writeReserved pc reserve => exact absurd (ReserveAnswer.log_eq reserve).1 hgoes
  | flushReserved pc reserve => exact absurd (ReserveAnswer.log_eq reserve).1 hgoes
  | shutdownReserved pc reserve => exact absurd (ReserveAnswer.log_eq reserve).1 hgoes
  | shutdownClosed pc reserve => exact absurd (ReserveAnswer.log_eq reserve).1 hgoes
  | writeChecked | flushChecked | shutdownResumes | shutdownChecked | shutdownErrs =>
    exact absurd rfl hgoes
  | shutdownSends pc => exact absurd (advanceShutdownSend_log s) hgoes
  | _ => cases hreturns rfl

end WriteSystem

open WriteSystem

/-- Run a list of events from any state. -/
def WriteSystem.runs (s : WriteSystem) (es : List WriteEvent) : Option WriteSystem :=
  writeSystem.exec (fun _ _ => True) s es

/-- A vectored write against a plain one, from one state, with the same steps of the half and of the
other parties after it. -/
structure VectoredAsPlain (s : WriteSystem) (bufs : List (List UInt8)) : Prop where
  /-- both are enabled, return the same results and leave the same state -/
  same : ∀ es, (s.runs (.pollWrite bufs :: es)).map plain =
    (s.runs (.pollWrite [bufs.flatten] :: es)).map plain
  /-- what an accepted write returns and stages -/
  accepts : ∀ es s₁ s₂ n, s.runs (.pollWrite bufs :: es) = some s₁ → s₁.step .advance = some s₂ →
    s₂.log = .pollWrite bufs (.ready (.ok n)) :: s₁.log →
    n = min bufs.flatten.length writeMaxChunk ∧ (bufs.flatten.take n).length = n ∧
      s₂.queue = s₁.queue ++ (if n = 0 then [] else [.data (bufs.flatten.take n)])

/-- **Vectored writes are plain writes.** -/
theorem vectored_write_is_plain_write (s : WriteSystem) (bufs : List (List UInt8)) :
    VectoredAsPlain s bufs where
  same := by
    intro es
    have hplain : ∀ es, (s.runs es).map plain = s.plain.runs (es.map WriteEvent.plain) := fun es =>
      Machine.exec_map plain_step es s
    rw [hplain, hplain]
    simp [WriteEvent.plain]
  accepts := by
    intro es s₁ s₂ n hrun hstep hlog
    have hready : WriteReady s₁ := by
      cases Machine.run_of_exec hrun with
      | @cons _ s₀ _ _ _ _ hbegin hrest =>
        have hbegins : s.begin (.writeControl bufs) = some s₀ := hbegin
        refine hrest.preserves (fun _ _ _ hs _ hst => hs.step hst) (.of_poll fun bufs' hpoll => ?_)
        unfold WriteSystem.begin at hbegins
        split at hbegins
        · obtain rfl := Option.some.inj hbegins
          cases hpoll
        · cases hbegins
    obtain ⟨hn, hqueue⟩ := hready.accepts hstep hlog
    refine ⟨hn, ?_, hqueue⟩
    rw [List.length_take, hn]
    omega

end RtpMux

import RtpMux.CleanEnd
import RtpMux.WriteStep

/-!
# Flush is a barrier

`poll_flush` sends a flush command and returns `Pending`; the answer is picked up by a later
poll, which may be a flush, a write or a shutdown. When a `poll_flush` does return
`Ready(Ok(()))`, the flush it reports is one that started after everything accepted so far had
been written.

What makes this work is that nothing is accepted between the moment a flush is sent and the
moment its answer is consumed: every poll looks at the pending answer first, and a write goes on
only when there is none (`FlushInv.clear`). The queue is first in, first out, so a flush that is
still pending is the last command of the queue (`FlushInv.queued`), and when the background writer
gets to it all data has been written.

The starts and ends of `writer.flush` are not in the log of the system; they are its history here
(`FlushHistory`), each with the log as it was at that moment.
-/

namespace RtpMux

open WriteSystem

/-- A call of `writer.flush` that returned `Ok`, with the log at its start and at its end. -/
structure FlushRun where
  started : List WriteLog
  ended : List WriteLog

/-- The calls of `writer.flush`. -/
structure FlushHistory where
  /-- the log at the start of the call in progress -/
  current : Option (List WriteLog)
  /-- the calls that returned `Ok`, newest first -/
  completed : List FlushRun

namespace FlushHistory

/-- No call has begun. -/
def start : FlushHistory := ⟨none, []⟩

/-- What event `e`, taken in `s`, adds to the history of flushes. -/
def record (s : WriteSystem) (e : WriteEvent) (past : FlushHistory) : FlushHistory :=
  match e with
  | .background =>
    match s.background, s.queue with
    | .pollCommands, .flush _ :: _ => { past with current := some s.log }
    | _, _ => past
  | .writerResult (.ok _) =>
    match s.background, past.current with
    | .flushing _, some started =>
      { current := none, completed := ⟨started, s.log⟩ :: past.completed }
    | _, _ => past
  | _ => past

/-- Some flush that returned `Ok` before the end of `log` started when every byte that `log`
accepts had been accepted and written. -/
def Covers (past : FlushHistory) (log : List WriteLog) : Prop :=
  ∃ run ∈ past.completed, run.started <:+ run.ended ∧ run.ended <:+ log ∧
    acceptedBytes run.started = acceptedBytes log ∧ writtenBytes run.started = acceptedBytes log

/-- An event that accepts no bytes leaves a flush complete. -/
theorem Covers.cons {past : FlushHistory} {log : List WriteLog} (h : past.Covers log)
    {ev : WriteLog} (hev : ev.accepted = []) : past.Covers (ev :: log) := by
  obtain ⟨run, hrun, hstart, hend, hacc, hwritten⟩ := h
  refine ⟨run, hrun, hstart, hend.trans (List.suffix_cons ev log), ?_, ?_⟩
  · rw [acceptedBytes, hev, List.append_nil, hacc]
  · rw [acceptedBytes, hev, List.append_nil, hwritten]

end FlushHistory

/-- The write system with the history of its flushes. -/
def writeSystemWithFlushes : Machine (WriteSystem × FlushHistory) WriteEvent :=
  writeSystem.withHistory .start FlushHistory.record

/-! ## What an access of a poll does to a pending flush -/

/-- The poll has found no pending answer and may go on. -/
def HalfPc.admitted : HalfPc → Bool
  | writeCheck _ => true
  | writeReserve _ => true
  | writeSend _ => true
  | flushCheck => true
  | flushReserve => true
  | flushSend => true
  | _ => false

/-- An access, as far as the flush barrier is concerned. -/
structure FlushAccess (s s' : WriteSystem) : Prop where
  /-- a flush is reported only on its answer -/
  log : s'.log = s.log ∨ ∃ ev, s'.log = ev :: s.log ∧ (ev = .pollFlush (.ready (.ok ())) →
    ∃ reply, s.half.pendingControl = some ⟨.flush, reply⟩ ∧
      s.replies.lookup reply = some (.sent (.ok ())))
  /-- a flush that is pending afterwards was pending before, with nothing accepted or queued
  since, or is sent right now -/
  pending : ∀ reply, s'.half.pendingControl = some ⟨.flush, reply⟩ →
    (s.half.pendingControl = some ⟨.flush, reply⟩ ∧ s'.queue = s.queue ∧
      s'.replies = s.replies ∧ acceptedBytes s'.log = acceptedBytes s.log) ∨
    (reply = ⟨.flush, s.nextReply⟩ ∧ s'.queue = s.queue ++ [WriteCommand.flush reply] ∧
      s'.replies = s.replies.insert reply .waiting)
  clear : s'.poll.admitted = true → s'.half.pendingControl = none
  next : s.nextReply ≤ s'.nextReply
  /-- a command that is sent opens a channel of its own kind -/
  queue : ∀ command ∈ s'.queue, command ∈ s.queue ∨
    ∀ reply, command.reply = some reply → reply.index < s'.nextReply ∧
      (command = .shutdown reply → reply.kind = .shutdown)

/-- The half changes without a flush becoming pending. -/
def KeepsFlush (s : WriteSystem) (half : MigratingWriteHalf) : Prop :=
  ∀ reply, half.pendingControl = some ⟨.flush, reply⟩ →
    s.half.pendingControl = some ⟨.flush, reply⟩

section KeepsFlush

variable {s s₁ : WriteSystem} {half : MigratingWriteHalf}

theorem KeepsFlush.of_eq (h : half.pendingControl = s.half.pendingControl) : KeepsFlush s half := by
  intro reply hreply
  rwa [h] at hreply

theorem KeepsFlush.of_none (h : half.pendingControl = none) : KeepsFlush s half := by
  intro reply hreply
  rw [h] at hreply
  cases hreply

/-- The answer to a command is taken from the half that waited for it. -/
theorem KeepsFlush.control {answer : Poll (Except IoError (Option ControlKind))}
    (h : ControlAnswer s (answer, s₁)) :
    ∃ half, s₁ = { s with half := half } ∧ KeepsFlush s half := by
  cases h with
  | none | waiting => exact ⟨s.half, rfl, .of_eq rfl⟩
  | flushed | flushFails | shutDown => exact ⟨_, rfl, .of_none rfl⟩

theorem KeepsFlush.reserve {answer : Poll (Except Unit Unit)} (h : ReserveAnswer s (answer, s₁)) :
    ∃ half, s₁ = { s with half := half } ∧ half.pendingControl = s.half.pendingControl := by
  cases h with
  | ready | closed | full => exact ⟨_, rfl, rfl⟩

end KeepsFlush

namespace FlushAccess

variable {s : WriteSystem} {half : MigratingWriteHalf}

/-- The half goes on with the flush it waits for. -/
theorem goto (hk : KeepsFlush s half) {poll : HalfPc}
    (hclear : poll.admitted = true → half.pendingControl = none) :
    FlushAccess s (WriteSystem.goto { s with half := half } poll) :=
  ⟨.inl rfl, fun reply h => .inl ⟨hk reply h, rfl, rfl, rfl⟩, hclear, le_rfl, fun _ h => .inl h⟩

/-- A poll of a flush returns `Ok` only with the answer to it. -/
theorem ret (hk : KeepsFlush s half) {ev : WriteLog} (hacc : ev.accepted = [])
    (hok : ev = .pollFlush (.ready (.ok ())) →
      ∃ reply, s.half.pendingControl = some ⟨.flush, reply⟩ ∧
        s.replies.lookup reply = some (.sent (.ok ()))) :
    FlushAccess s (WriteSystem.ret { s with half := half } ev) := by
  refine ⟨.inr ⟨ev, rfl, hok⟩, fun reply h => .inl ⟨hk reply h, rfl, rfl, ?_⟩, nofun, le_rfl,
    fun _ h => .inl h⟩
  simp [WriteSystem.ret, acceptedBytes, hacc]

theorem failShutdown (hk : KeepsFlush s half) (error : IoError) :
    FlushAccess s (WriteSystem.failShutdown { s with half := half } error) := by
  have hk' : KeepsFlush s { half with
      writeTx := half.writeTx.close, shutdownResult := some (.error error) } := hk
  exact goto hk' nofun

/-- A command is sent while no flush is pending afterwards. -/
theorem send {s' : WriteSystem} {command : WriteCommand} (hpending : ∀ reply,
      s'.half.pendingControl ≠ some ⟨.flush, reply⟩)
    (hqueue : s'.queue = s.queue ++ [command]) (hnext : s.nextReply ≤ s'.nextReply)
    (hreply : ∀ reply, command.reply = some reply → reply.index < s'.nextReply ∧
      (command = .shutdown reply → reply.kind = .shutdown))
    (hlog : s'.log = s.log ∨ ∃ ev, s'.log = ev :: s.log ∧ ev ≠ .pollFlush (.ready (.ok ())))
    (hpoll : s'.poll.admitted = false) : FlushAccess s s' := by
  refine ⟨?_, fun reply h => absurd h (hpending reply), fun h => ?_, hnext, ?_⟩
  · rcases hlog with h | ⟨ev, h, hne⟩
    · exact .inl h
    · exact .inr ⟨ev, h, fun heq => absurd heq hne⟩
  · rw [hpoll] at h
    cases h
  · intro c hc
    rw [hqueue] at hc
    rcases List.mem_append.mp hc with hc | hc
    · exact .inl hc
    · obtain rfl := List.mem_singleton.mp hc
      exact .inr hreply

/-- Every access of a poll keeps the flush barrier. -/
theorem of_access {s s' : WriteSystem} (hinv : WriteInv s)
    (hclear : s.poll.admitted = true → s.half.pendingControl = none)
    (hst : AccessStep s s') : FlushAccess s s' := by
  have hsame : KeepsFlush s s.half := .of_eq rfl
  cases hst with
  | writeShut pc control | writeFails pc control | writeWaits pc control | flushShut pc control
  | flushFails pc control | flushWaits pc control | shutdownWaits pc control =>
    obtain ⟨half, rfl, hkeeps⟩ := KeepsFlush.control control
    exact ret hkeeps rfl (fun h => by cases h)
  | flushDone pc control =>
    cases control with
    | flushed control sent => exact ret (.of_none rfl) rfl fun _ => ⟨_, control, sent⟩
  | writeGoes pc control other =>
    cases control with
    | none nothing =>
      refine goto ?_ fun _ => nothing
      exact hsame
    | flushed control sent => exact goto (.of_none rfl) fun _ => rfl
    | shutDown control answer => exact absurd rfl other
  | flushGoes pc control =>
    cases control with
    | none nothing =>
      refine goto ?_ fun _ => nothing
      exact hsame
  | shutdownAnswered pc control =>
    obtain ⟨half, rfl, hkeeps⟩ := KeepsFlush.control control
    exact goto hkeeps (fun h => by cases h)
  | shutdownFails pc control =>
    obtain ⟨half, rfl, hkeeps⟩ := KeepsFlush.control control
    exact failShutdown hkeeps _
  | writeReserved pc reserve | flushReserved pc reserve =>
    obtain ⟨half, rfl, heq⟩ := KeepsFlush.reserve reserve
    exact goto (.of_eq heq) fun _ => heq.trans (hclear (by rw [pc]; rfl))
  | shutdownReserved pc reserve =>
    obtain ⟨half, rfl, heq⟩ := KeepsFlush.reserve reserve
    exact goto (.of_eq heq) (fun h => by cases h)
  | writeNothing pc reserve =>
    obtain ⟨half, rfl, heq⟩ := KeepsFlush.reserve reserve
    exact ret (.of_eq heq) (by simp [WriteLog.accepted]) (fun h => by cases h)
  | writeClosed pc reserve | writeFull pc reserve | flushClosed pc reserve
  | flushFull pc reserve | shutdownFull pc reserve =>
    obtain ⟨half, rfl, heq⟩ := KeepsFlush.reserve reserve
    exact ret (.of_eq heq) rfl (fun h => by cases h)
  | shutdownClosed pc reserve =>
    obtain ⟨half, rfl, heq⟩ := KeepsFlush.reserve reserve
    exact failShutdown (.of_eq heq) _
  | writeRefused | flushRefused | shutdownRepeats | shutdownJoins =>
    refine ret ?_ rfl (fun h => by cases h)
    exact hsame
  | writeChecked pc | flushChecked pc =>
    refine goto ?_ fun _ => hclear (by rw [pc]; rfl)
    exact hsame
  | shutdownResumes | shutdownChecked =>
    refine goto ?_ (fun h => by cases h)
    exact hsame
  | shutdownErrs =>
    refine failShutdown ?_ _
    exact hsame
  | shutdownReports =>
    have hkeeps : KeepsFlush s { s.half with shutdownComplete := true, shutdownResult := none } :=
      .of_eq rfl
    exact ret hkeeps rfl (fun h => by cases h)
  | writeSends pc =>
    rename_i bufs
    have hnone := hclear (by rw [pc]; rfl)
    obtain ⟨state, -, hsend⟩ :=
      advanceWriteSend_permit (hinv.permit (by rw [pc]; rfl)) bufs
    rw [hsend]
    refine send (fun reply h => ?_) rfl le_rfl (fun _ h => by cases h)
      (.inr ⟨_, rfl, fun h => by cases h⟩) rfl
    rw [show s.half.pendingControl = some _ from h] at hnone
    cases hnone
  | flushSends pc =>
    -- the flush is pending from now on
    obtain ⟨state, -, hsend⟩ := advanceFlushSend_permit (hinv.permit (by rw [pc]; rfl))
    rw [hsend]
    refine ⟨.inr ⟨_, rfl, fun h => by cases h⟩, ?_, (fun h => by cases h), Nat.le_succ _, ?_⟩
    · intro reply hreply
      cases hreply
      exact .inr ⟨rfl, rfl, rfl⟩
    · intro command hcommand
      rcases List.mem_append.mp hcommand with hc | hc
      · exact .inl hc
      · obtain rfl := List.mem_singleton.mp hc
        refine .inr fun reply hreply => ?_
        cases hreply
        exact ⟨Nat.lt_succ_self _, fun h => by cases h⟩
  | shutdownSends pc =>
    obtain ⟨state, -, hsend⟩ := advanceShutdownSend_permit (hinv.permit (by rw [pc]; rfl))
    rw [hsend]
    refine send (fun reply h => by cases h) rfl (Nat.le_succ _) ?_ (.inl rfl) rfl
    intro reply hreply
    cases hreply
    exact ⟨Nat.lt_succ_self _, fun _ => rfl⟩

end FlushAccess

/-! ## Everything passed before a command is looked at has been written -/

/-- No step loses a byte between the queue and the stream. -/
theorem WriteSystem.Wrote.step {s s' : WriteSystem} {e : WriteEvent} (h : s.Wrote)
    (hst : WriteStep s e s') : s'.Wrote := by
  cases hst with
  | access hadv =>
    have hhalf := HalfStep.of_access (.of_advance hadv)
    rcases hhalf.log with heq | ⟨ev, heq, hpassed, hwritten, -⟩
    · exact h.of_eq hhalf.background (by rw [heq]) (by rw [heq])
    · exact h.of_eq hhalf.background (by rw [heq, passedBytes, hpassed, List.append_nil])
        (by rw [heq, writtenBytes, hwritten, List.append_nil])
  | writer hst => exact h.writer hst
  | abort gone running => exact trivial
  | _ => exact h

/-! ## The invariant -/

/-- The reply sender the background writer holds. -/
def BackgroundPc.reply : BackgroundPc → Option ReplyId
  | flushing reply => some reply
  | finalizing reply => reply
  | replying reply _ _ => some reply
  | _ => none

/-- The invariant behind the flush barrier. -/
structure FlushInv (s : WriteSystem) (past : FlushHistory) : Prop where
  /-- a poll goes on only when nothing is pending -/
  clear : s.poll.admitted = true → s.half.pendingControl = none
  /-- reply channels that are in use have been opened -/
  opened : (∀ command ∈ s.queue, ∀ reply, command.reply = some reply →
      reply.index < s.nextReply) ∧
    ∀ reply, s.background.reply = some reply → reply.index < s.nextReply
  kinds : ∀ reply, WriteCommand.shutdown reply ∈ s.queue ∨ s.background = .finalizing (some reply) →
    reply.kind = .shutdown
  /-- a pending flush that has not been served is the last command -/
  queued : ∀ reply, s.half.pendingControl = some ⟨.flush, reply⟩ →
    ∀ before after, s.queue = before ++ .flush reply :: after → after = []
  /-- the flush in progress started in the past -/
  current : ∀ reply, s.background = .flushing reply →
    ∃ started, past.current = some started ∧ started <:+ s.log
  /-- if it is the pending one, everything had been written by then -/
  flushing : ∀ reply, s.half.pendingControl = some ⟨.flush, reply⟩ →
    s.background = .flushing reply → ∃ started, past.current = some started ∧
      acceptedBytes started = acceptedBytes s.log ∧ writtenBytes started = acceptedBytes s.log
  /-- wherever the pending flush's success is, the flush covers everything accepted -/
  answered : ∀ reply, s.half.pendingControl = some ⟨.flush, reply⟩ →
    (∃ stop, s.background = .replying reply (.ok ()) stop) ∨
      s.replies.lookup reply = some (.sent (.ok ())) → past.Covers s.log
  /-- a flush that was reported covered everything accepted before the report -/
  reported : ∀ later earlier, s.log = later ++ .pollFlush (.ready (.ok ())) :: earlier →
    past.Covers earlier

theorem flushInv_init : FlushInv WriteSystem.init .start where
  clear := nofun
  opened := by simp [WriteSystem.init, BackgroundPc.reply]
  kinds := by simp [WriteSystem.init]
  queued := by simp [WriteSystem.init]
  current := nofun
  flushing := nofun
  answered := nofun
  reported := by simp [WriteSystem.init]

/-- **The half.** -/
theorem FlushInv.access {s s' : WriteSystem} {past : FlushHistory} (hi : FlushInv s past)
    (hbg : s'.background = s.background) (ha : FlushAccess s s') : FlushInv s' past where
  clear := ha.clear
  opened := by
    rw [hbg]
    refine ⟨?_, fun reply h => lt_of_lt_of_le (hi.opened.2 reply h) ha.next⟩
    intro command hc reply hr
    rcases ha.queue command hc with hold | hnew
    · exact lt_of_lt_of_le (hi.opened.1 command hold reply hr) ha.next
    · exact (hnew reply hr).1
  kinds := by
    rw [hbg]
    rintro reply (hq | hpc)
    · rcases ha.queue _ hq with hold | hnew
      · exact hi.kinds reply (.inl hold)
      · exact (hnew reply rfl).2 rfl
    · exact hi.kinds reply (.inr hpc)
  queued := by
    intro reply hp before after hq
    rcases ha.pending reply hp with ⟨hp, hqueue, -, -⟩ | ⟨rfl, hqueue, -⟩
    · exact hi.queued reply hp before after (hqueue.symm.trans hq)
    · -- it has just been appended, and its channel was not open before
      rcases List.eq_nil_or_concat after with hnil | ⟨rest, last, rfl⟩
      · exact hnil
      · exfalso
        rw [hqueue, List.concat_eq_append, ← List.cons_append, ← List.append_assoc] at hq
        obtain ⟨hold, -⟩ := List.append_inj' hq rfl
        have hmem : WriteCommand.flush ⟨.flush, s.nextReply⟩ ∈ s.queue := by
          rw [hold]
          simp
        exact absurd (hi.opened.1 _ hmem _ rfl) (Nat.lt_irrefl _)
  current := by
    intro reply h
    rw [hbg] at h
    obtain ⟨started, hcurrent, hsuffix⟩ := hi.current reply h
    refine ⟨started, hcurrent, ?_⟩
    rcases ha.log with heq | ⟨ev, heq, -⟩
    · rwa [heq]
    · rw [heq]
      exact hsuffix.trans (List.suffix_cons ev s.log)
  flushing := by
    intro reply hp h
    rw [hbg] at h
    rcases ha.pending reply hp with ⟨hp, -, -, hacc⟩ | ⟨rfl, -, -⟩
    · rw [hacc]
      exact hi.flushing reply hp h
    · exact absurd (hi.opened.2 _ (by rw [h]; rfl)) (Nat.lt_irrefl _)
  answered := by
    intro reply hp h
    rw [hbg] at h
    rcases ha.pending reply hp with ⟨hp, -, hreplies, hacc⟩ | ⟨rfl, -, hreplies⟩
    · rw [hreplies] at h
      obtain ⟨run, hrun, hstart, hend, hacc', hwritten⟩ := hi.answered reply hp h
      refine ⟨run, hrun, hstart, ?_, hacc'.trans hacc.symm, hwritten.trans hacc.symm⟩
      rcases ha.log with heq | ⟨ev, heq, -⟩
      · rwa [heq]
      · rw [heq]
        exact hend.trans (List.suffix_cons ev s.log)
    · -- a new channel has no answer yet
      exfalso
      rcases h with ⟨stop, h⟩ | h
      · exact absurd (hi.opened.2 _ (by rw [h]; rfl)) (Nat.lt_irrefl _)
      · rw [hreplies, HashMap.lookup_insert_eq, if_pos rfl] at h
        cases h
  reported := by
    intro later earlier hlog
    rcases ha.log with heq | ⟨ev, heq, hok⟩
    · exact hi.reported later earlier (heq.symm.trans hlog)
    · rw [heq] at hlog
      cases later with
      | nil =>
        obtain ⟨rfl, rfl⟩ := List.cons.inj hlog
        obtain ⟨reply, hp, hsent⟩ := hok rfl
        exact hi.answered reply hp (.inr hsent)
      | cons ev' later => exact hi.reported later earlier (List.cons.inj hlog).2

/-- A step of the background writer that is not about the pending flush. -/
theorem FlushInv.move {s s' : WriteSystem} {past : FlushHistory} (hi : FlushInv s past)
    (hsame : s'.half = s.half ∧ s'.poll = s.poll ∧ s'.nextReply = s.nextReply ∧
      s'.replies = s.replies)
    (hqueue : s'.queue = s.queue ∨ ∃ command, s.queue = command :: s'.queue)
    (hlog : s'.log = s.log ∨ ∃ ev, s'.log = ev :: s.log ∧ ev.accepted = [] ∧
      ev ≠ .pollFlush (.ready (.ok ())))
    (hopened : ∀ reply, s'.background.reply = some reply → reply.index < s.nextReply)
    (hkinds : ∀ reply, s'.background = .finalizing (some reply) → reply.kind = .shutdown)
    (hflushing : ∀ reply, s'.background ≠ .flushing reply)
    (hreplying : ∀ reply stop, s'.background = .replying reply (.ok ()) stop →
      s.half.pendingControl ≠ some ⟨.flush, reply⟩) : FlushInv s' past := by
  obtain ⟨hhalf, hpoll, hnext, hreplies⟩ := hsame
  have hsub : ∀ command ∈ s'.queue, command ∈ s.queue := by
    intro command hc
    rcases hqueue with heq | ⟨_, heq⟩
    · rwa [heq] at hc
    · rw [heq]
      exact List.mem_cons_of_mem _ hc
  refine ⟨?_, ⟨?_, ?_⟩, ?_, ?_, ?_, ?_, ?_, ?_⟩
  · rw [hpoll, hhalf]
    exact hi.clear
  · rw [hnext]
    exact fun command hc => hi.opened.1 command (hsub command hc)
  · rw [hnext]
    exact hopened
  · rintro reply (hq | hpc)
    · exact hi.kinds reply (.inl (hsub _ hq))
    · exact hkinds reply hpc
  · intro reply hp before after hq
    rw [hhalf] at hp
    rcases hqueue with heq | ⟨command, heq⟩
    · exact hi.queued reply hp before after (heq ▸ hq)
    · exact hi.queued reply hp (command :: before) after (by rw [heq, hq]; rfl)
  · exact fun reply hpc => absurd hpc (hflushing reply)
  · exact fun reply _ hpc => absurd hpc (hflushing reply)
  · intro reply hp h
    rw [hhalf] at hp
    have hcovers : past.Covers s.log := by
      rcases h with ⟨stop, hpc⟩ | hsent
      · exact absurd hp (hreplying reply stop hpc)
      · exact hi.answered reply hp (.inr (hreplies ▸ hsent))
    rcases hlog with heq | ⟨ev, heq, hacc, -⟩
    · rwa [heq]
    · rw [heq]
      exact hcovers.cons hacc
  · intro later earlier heq
    rcases hlog with hlog | ⟨ev, hlog, -, hne⟩
    · exact hi.reported later earlier (hlog ▸ heq)
    · rw [hlog] at heq
      cases later with
      | nil => exact absurd (List.cons.inj heq).1 hne
      | cons ev' later => exact hi.reported later earlier (List.cons.inj heq).2

/-- The background writer starts a flush. If it is the pending one, it was the last command, so
everything accepted has been passed, and what was passed has been written. -/
theorem FlushInv.flushStarts {s : WriteSystem} {past : FlushHistory} (hi : FlushInv s past)
    (hinv : WriteInv s) (hw : s.Wrote) {reply : ReplyId} {queue : List WriteCommand}
    (hpc : s.background = .pollCommands) (hhead : s.queue = .flush reply :: queue) :
    FlushInv (resume { s with queue := queue } (.flushing reply))
      { past with current := some s.log } := by
  have hsub : ∀ command ∈ queue, command ∈ s.queue := by
    intro command hc
    rw [hhead]
    exact List.mem_cons_of_mem _ hc
  refine ⟨hi.clear, ⟨fun c hc => hi.opened.1 c (hsub c hc), ?_⟩, ?_, ?_, ?_, ?_, ?_, hi.reported⟩
  · intro r hr
    cases hr
    exact hi.opened.1 (.flush reply) (by rw [hhead]; simp) reply rfl
  · rintro r (hq | hpc)
    · exact hi.kinds r (.inl (hsub _ hq))
    · cases hpc
  · intro r hp before after hq
    exact hi.queued r hp (.flush reply :: before) after (by rw [hhead, show queue = _ from hq]; rfl)
  · intro r _
    exact ⟨s.log, rfl, List.suffix_refl _⟩
  · intro r hp hflushing
    cases hflushing
    have hnil : queue = [] := hi.queued reply hp [] queue hhead
    have hbal := hinv.balance (by rw [hpc]; rfl)
    have hpassed : passedBytes s.log = writtenBytes s.log := by
      simpa only [WriteSystem.Wrote, hpc] using hw
    rw [hhead, hnil, hpassed] at hbal
    have hall : writtenBytes s.log = acceptedBytes s.log := by
      simpa [queuedBytes] using hbal.symm
    exact ⟨s.log, rfl, rfl, hall⟩
  · intro r hp h
    rcases h with ⟨stop, h⟩ | h
    · cases h
    · exact hi.answered r hp (.inr h)

/-- A flush returns `Ok`. -/
theorem FlushInv.flushEnds {s : WriteSystem} {past : FlushHistory} (hi : FlushInv s past)
    {reply : ReplyId} {started : List WriteLog} (hpc : s.background = .flushing reply)
    (hcurrent : past.current = some started) :
    FlushInv (s.resume (.replying reply (.ok ()) false))
      { current := none, completed := ⟨started, s.log⟩ :: past.completed } := by
  have hmono : ∀ {log}, past.Covers log → FlushHistory.Covers
      { current := none, completed := ⟨started, s.log⟩ :: past.completed } log := by
    rintro log ⟨run, hrun, h⟩
    exact ⟨run, List.mem_cons_of_mem _ hrun, h⟩
  refine ⟨hi.clear, ⟨hi.opened.1, ?_⟩, ?_, hi.queued, nofun, nofun, ?_, ?_⟩
  · intro r hr
    cases hr
    exact hi.opened.2 reply (by rw [hpc]; rfl)
  · rintro r (hq | h)
    · exact hi.kinds r (.inl hq)
    · cases h
  · rintro r hp (⟨stop, h⟩ | h)
    · cases h
      obtain ⟨_, hcur, hsuffix⟩ := hi.current reply hpc
      obtain ⟨_, hcur', hacc, hwritten⟩ := hi.flushing reply hp hpc
      rw [hcurrent] at hcur hcur'
      cases hcur
      cases hcur'
      exact ⟨_, List.mem_cons_self, hsuffix, List.suffix_refl _, hacc, hwritten⟩
    · exact hmono (hi.answered r hp (.inr h))
  · exact fun later earlier hlog => hmono (hi.reported later earlier hlog)

/-- The answer is sent. -/
theorem FlushInv.reply {s : WriteSystem} {past : FlushHistory} (hi : FlushInv s past)
    {reply : ReplyId} {result : Except BackgroundWriteError Unit} {stop : Bool}
    (hpc : s.background = .replying reply result stop) {pc : BackgroundPc}
    (hnone : pc.reply = none) :
    FlushInv (resume { s with replies := s.replies.insert reply (.sent result) } pc) past := by
  have hno : ∀ {r : ReplyId}, pc.reply ≠ some r := by
    intro r h
    rw [hnone] at h
    cases h
  refine ⟨hi.clear, ⟨hi.opened.1, fun r h => absurd h hno⟩, ?_, hi.queued,
    fun r h => absurd (by rw [show pc = _ from h]; rfl) (hno (r := r)),
    fun r _ h => absurd (by rw [show pc = _ from h]; rfl) (hno (r := r)), ?_, hi.reported⟩
  · rintro r (hq | h)
    · exact hi.kinds r (.inl hq)
    · exact absurd (by rw [show pc = _ from h]; rfl) (hno (r := r))
  · rintro r hp (⟨stop, h⟩ | h)
    · exact absurd (by rw [show pc = _ from h]; rfl) (hno (r := r))
    · simp only [resume, HashMap.lookup_insert_eq] at h
      split at h
      · rename_i heq
        subst heq
        cases h
        exact hi.answered r hp (.inl ⟨_, hpc⟩)
      · exact hi.answered r hp (.inr h)

/-- The receivers are dropped: no answer appears. -/
theorem FlushInv.dropReceivers {s : WriteSystem} {past : FlushHistory} (hi : FlushInv s past) :
    FlushInv s.dropReceivers past := by
  refine ⟨hi.clear, ⟨nofun, nofun⟩, ?_, ?_, nofun, nofun, ?_, hi.reported⟩
  · rintro r (hq | h)
    · cases hq
    · cases h
  · intro r _ before after hq
    simp [WriteSystem.dropReceivers] at hq
  · rintro r hp (⟨stop, h⟩ | h)
    · cases h
    · exact hi.answered r hp (.inr (lookup_closeReplies_sent h))

/-- A step that the barrier does not see. -/
theorem FlushInv.frame {s s' : WriteSystem} {past : FlushHistory} (hi : FlushInv s past)
    (hclear : s'.poll.admitted = true → s.poll.admitted = true)
    (hsame : s'.half.pendingControl = s.half.pendingControl ∧ s'.queue = s.queue ∧
      s'.background = s.background ∧ s'.replies = s.replies ∧ s'.nextReply = s.nextReply ∧
      s'.log = s.log) : FlushInv s' past := by
  obtain ⟨hcontrol, hqueue, hbg, hreplies, hnext, hlog⟩ := hsame
  refine ⟨?_, ?_, ?_, ?_, ?_, ?_, ?_, ?_⟩
  · rw [hcontrol]
    exact fun h => hi.clear (hclear h)
  · rw [hqueue, hbg, hnext]
    exact hi.opened
  · rw [hqueue, hbg]
    exact hi.kinds
  · rw [hcontrol, hqueue]
    exact hi.queued
  · rw [hbg, hlog]
    exact hi.current
  · rw [hcontrol, hbg, hlog]
    exact hi.flushing
  · rw [hcontrol, hbg, hreplies, hlog]
    exact hi.answered
  · rw [hlog]
    exact hi.reported

/-- The background writer goes on at a point where it holds no reply sender. -/
theorem FlushInv.resume {s s' : WriteSystem} {past : FlushHistory} (hi : FlushInv s past)
    (hsame : s'.half = s.half ∧ s'.poll = s.poll ∧ s'.nextReply = s.nextReply ∧
      s'.replies = s.replies)
    (hqueue : s'.queue = s.queue ∨ ∃ command, s.queue = command :: s'.queue)
    (hlog : s'.log = s.log ∨ ∃ ev, s'.log = ev :: s.log ∧ ev.accepted = [] ∧
      ev ≠ .pollFlush (.ready (.ok ())))
    (hnone : s'.background.reply = none) : FlushInv s' past := by
  refine hi.move hsame hqueue hlog ?_ ?_ ?_ ?_
  · intro reply h
    rw [hnone] at h
    cases h
  · intro reply h
    rw [h] at hnone
    cases hnone
  · intro reply h
    rw [h] at hnone
    cases hnone
  · intro reply stop h
    rw [h] at hnone
    cases hnone

/-- **The background writer.** -/
theorem FlushInv.writer {s s' : WriteSystem} {e : WriteEvent} {past : FlushHistory}
    (hi : FlushInv s past) (hinv : WriteInv s) (hw : s.Wrote) (hst : WriterStep s e s') :
    FlushInv s' (FlushHistory.record s e past) := by
  -- only the steps that serve a command or end the loop touch a promise; the others resume
  cases hst with
  | woken pc isOpen wake =>
    simp only [FlushHistory.record, pc]
    exact hi.resume ⟨rfl, rfl, rfl, rfl⟩ (.inl rfl) (.inl rfl) rfl
  | wakeEnds pc isOpen wake closed =>
    simp only [FlushHistory.record, pc]
    exact hi.resume ⟨rfl, rfl, rfl, rfl⟩ (.inl rfl) (.inl rfl) rfl
  | noWake pc quiet =>
    simp only [FlushHistory.record, pc]
    exact hi.resume ⟨rfl, rfl, rfl, rfl⟩ (.inl rfl) (.inl rfl) rfl
  | take pc latest =>
    simp only [FlushHistory.record, pc]
    exact hi.resume ⟨rfl, rfl, rfl, rfl⟩ (.inl rfl) (.inl rfl) rfl
  | takeNothing pc latest =>
    simp only [FlushHistory.record, pc]
    exact hi.resume ⟨rfl, rfl, rfl, rfl⟩ (.inl rfl) (.inl rfl) rfl
  | data pc head =>
    simp only [FlushHistory.record, pc, head]
    exact hi.resume ⟨rfl, rfl, rfl, rfl⟩ (.inr ⟨_, head⟩) (.inr ⟨_, rfl, rfl, nofun⟩) rfl
  | flush pc head =>
    simp only [FlushHistory.record, pc, head]
    exact hi.flushStarts hinv hw pc head
  | shutdown pc head =>
    rename_i reply queue
    have hmem : WriteCommand.shutdown reply ∈ s.queue := by
      rw [head]
      exact List.mem_cons_self
    simp only [FlushHistory.record, pc, head]
    refine hi.move ⟨rfl, rfl, rfl, rfl⟩ (.inr ⟨_, head⟩) (.inr ⟨_, rfl, rfl, nofun⟩) ?_ ?_
      nofun nofun
    · intro r hr
      cases hr
      exact hi.opened.1 _ hmem reply rfl
    · intro r hr
      cases hr
      exact hi.kinds reply (.inl hmem)
  | channelEnds pc empty gone =>
    simp only [FlushHistory.record, pc, empty]
    exact hi.resume ⟨rfl, rfl, rfl, rfl⟩ (.inl rfl) (.inl rfl) rfl
  | noCommand pc empty =>
    simp only [FlushHistory.record, pc, empty]
    exact hi.resume ⟨rfl, rfl, rfl, rfl⟩ (.inl rfl) (.inl rfl) rfl
  | rebound pc =>
    simp only [FlushHistory.record, pc]
    exact hi.resume ⟨rfl, rfl, rfl, rfl⟩ (.inl rfl) (.inl rfl) rfl
  | rebindFails pc => exact hi.resume ⟨rfl, rfl, rfl, rfl⟩ (.inl rfl) (.inl rfl) rfl
  | wrote pc =>
    simp only [FlushHistory.record, pc]
    exact hi.resume ⟨rfl, rfl, rfl, rfl⟩ (.inl rfl) (.inr ⟨_, rfl, rfl, nofun⟩) rfl
  | writeFails pc => exact hi.resume ⟨rfl, rfl, rfl, rfl⟩ (.inl rfl) (.inl rfl) rfl
  | flushed pc =>
    rename_i reply
    obtain ⟨started, hcurrent, -⟩ := hi.current reply pc
    simp only [FlushHistory.record, pc, hcurrent]
    exact hi.flushEnds pc hcurrent
  | flushFails pc =>
    rename_i reply error
    refine hi.move ⟨rfl, rfl, rfl, rfl⟩ (.inl rfl) (.inl rfl) ?_ nofun nofun nofun
    intro r hr
    cases hr
    exact hi.opened.2 reply (by rw [pc]; rfl)
  | finalized pc event =>
    rename_i reply result
    have hpast : FlushHistory.record s e past = past := by
      rcases event with rfl | ⟨rfl, rfl⟩
      · cases result with
        | ok u => simp only [FlushHistory.record, pc]
        | error error => rfl
      · rfl
    rw [hpast]
    refine hi.move ?_ (.inl (storeError_queue s result)) (.inl (storeError_log s result)) ?_ nofun
      nofun ?_
    · cases result <;> exact ⟨rfl, rfl, rfl, rfl⟩
    · intro r hr
      cases hr
      exact hi.opened.2 reply (by rw [pc]; rfl)
    · -- the answer of a shutdown is not the answer of the pending flush
      intro r stop hr hp
      cases hr
      have hflush : reply.kind = .flush := hinv.pendingKind _ hp
      rw [hi.kinds reply (.inr pc)] at hflush
      cases hflush
  | finalizedEnd pc event =>
    have hpast : FlushHistory.record s e past = past := by
      rcases event with ⟨result, rfl⟩ | rfl
      · cases result with
        | ok u => simp only [FlushHistory.record, pc]
        | error error => rfl
      · rfl
    rw [hpast]
    exact hi.resume ⟨rfl, rfl, rfl, rfl⟩ (.inl rfl) (.inl rfl) rfl
  | reply pc =>
    rename_i reply result stop
    simp only [FlushHistory.record, pc]
    refine hi.reply pc ?_
    cases stop <;> rfl
  | leave pc =>
    simp only [FlushHistory.record, pc]
    refine hi.move ⟨rfl, rfl, rfl, rfl⟩ (.inl rfl) (.inr ⟨_, rfl, rfl, nofun⟩) nofun nofun
      nofun nofun
  | returns pc =>
    simp only [FlushHistory.record, pc]
    exact hi.dropReceivers
  | ends pc =>
    simp only [FlushHistory.record, pc]
    exact hi.resume ⟨rfl, rfl, rfl, rfl⟩ (.inl rfl) (.inl rfl) rfl

/-- **Step lemma.** -/
theorem FlushInv.step {s s' : WriteSystem} {e : WriteEvent} {past : FlushHistory}
    (hi : FlushInv s past) (hinv : WriteInv s) (hw : s.Wrote) (hst : WriteStep s e s') :
    FlushInv s' (FlushHistory.record s e past) := by
  have hsame : ∀ (t : WriteSystem), t.queue = t.queue ∧ t.background = t.background ∧
      t.replies = t.replies ∧ t.nextReply = t.nextReply ∧ t.log = t.log :=
    fun _ => ⟨rfl, rfl, rfl, rfl, rfl⟩
  cases hst with
  | begins entry idle kept =>
    rename_i poll
    -- a poll starts by looking at the pending answer, or by looking whether it has started
    have hpast : FlushHistory.record s e past = past ∧ poll.admitted = false := by
      cases e <;> cases entry <;> exact ⟨rfl, rfl⟩
    rw [hpast.1]
    refine hi.frame (fun h => ?_) ⟨rfl, hsame s⟩
    rw [show (s.goto poll).poll = poll from rfl, hpast.2] at h
    cases h
  | access hadv =>
    have hbg : s'.background = s.background := by
      obtain ⟨_, _, _, _, _, _, rfl⟩ := advance_frame hadv
      rfl
    exact hi.access hbg (.of_access hinv hi.clear (.of_advance hadv))
  | drop idle kept => exact hi.frame id ⟨rfl, hsame s⟩
  | rebindRefused closed => exact hi
  | rebindUpgrades isOpen => exact hi.frame id ⟨rfl, hsame s⟩
  | rebindStores call => exact hi.frame id ⟨rfl, hsame s⟩
  | rebindSends call => exact hi.frame id ⟨rfl, hsame s⟩
  | writer hst => exact hi.writer hinv hw hst
  | abort gone running => exact hi.dropReceivers

/-! ## Whole runs -/

/-- What is reached without a look at the flushes. -/
theorem wrote_of_reaches {s : WriteSystem} (h : writeSystem.Reaches s) : WriteInv s ∧ s.Wrote := by
  refine Machine.Reaches.invariant (M := writeSystem) (I := fun s => WriteInv s ∧ s.Wrote)
    ⟨writeInv_init, rfl⟩ ?_ h
  intro s e s' hs hst
  exact ⟨hs.1.step hst, hs.2.step (.of_step hst)⟩

/-- **Run lemma.** -/
theorem flushInv_of_reaches {x : WriteSystem × FlushHistory}
    (h : writeSystemWithFlushes.Reaches x) : FlushInv x.1 x.2 :=
  Machine.Reaches.invariant_withHistory (M := writeSystem) (fun _ hs => wrote_of_reaches hs)
    flushInv_init (fun _ _ _ _ hs hi hst => hi.step hs.1 hs.2 (.of_step hst)) h

/-- **Flush is a barrier.** Whenever `poll_flush` has returned `Ready(Ok(()))`, some call of
`writer.flush` that returned `Ok` before started when every byte accepted by a write so far had
been written by `write_all`, whatever polls were abandoned in between. -/
theorem flush_is_a_barrier {s : WriteSystem} {past : FlushHistory}
    (h : writeSystemWithFlushes.Reaches (s, past)) {later earlier : List WriteLog}
    (hlog : s.log = later ++ .pollFlush (.ready (.ok ())) :: earlier) : past.Covers earlier :=
  (flushInv_of_reaches h).reported later earlier hlog

/-- Two bytes are written, a flush is sent, a write in between is pending and is given up, and a
second `poll_flush` reports the flush. -/
theorem flush_covers_the_written_bytes : ∃ s past, writeSystemWithFlushes.Reaches (s, past) ∧
    ∃ earlier, s.log = .pollFlush (.ready (.ok ())) :: earlier ∧ acceptedBytes earlier = [1, 2] ∧
      past.Covers earlier := by
  have hrun : ∃ s past, writeSystemWithFlushes.Reaches (s, past) ∧
      ∃ earlier, s.log = .pollFlush (.ready (.ok ())) :: earlier ∧
        acceptedBytes earlier = [1, 2] :=
    ⟨_, _, ⟨[.pollWrite [[1, 2]], .advance, .advance, .advance, .advance,
      .pollFlush, .advance, .advance, .advance, .advance,
      .background, .background, .pollWrite [[3]], .advance, .writerResult (.ok ()),
      .background, .background, .writerResult (.ok ()), .background, .pollFlush, .advance],
      Machine.run_of_exec rfl⟩, _, rfl, by decide⟩
  obtain ⟨s, past, h, earlier, hlog, hacc⟩ := hrun
  exact ⟨s, past, h, earlier, hlog, hacc, flush_is_a_barrier h (show s.log = [] ++ _ from hlog)⟩

end RtpMux

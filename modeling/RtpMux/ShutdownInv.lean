import RtpMux.ShutdownAccess

/-!
# Every step keeps the shutdown invariant

The accesses of a poll go by the cases of `ShutdownAccess`, the steps of the background writer by
those of `WriterStep`. The background writer matters at four points only: it stores an error, takes
the command, has the outcome of `finalize`, or drops its receivers and closes the replies that are
still queued. Everything else it does is `ShutInv.moves`.
-/

namespace RtpMux

open WriteSystem

/-! ## Accesses keep the invariant -/

/-- An event that is no answer to a shutdown adds none. -/
theorem readyShutdowns_cons {ev : WriteLog} (h : ev.shutdownReady = none) (log : List WriteLog) :
    readyShutdowns (ev :: log) = readyShutdowns log := by
  rw [readyShutdowns, List.filterMap_cons_none h]
  rfl

/-- What a log that grows keeps of a log at the time of the command. -/
theorem later_cons {log later before : List WriteLog} (h : log = later ++ before)
    (hrefused : ∀ ev ∈ later, ev.refused = true) {ev : WriteLog} (hev : ev.refused = true) :
    ∃ later', ev :: log = later' ++ before ∧ ∀ ev ∈ later', ev.refused = true := by
  refine ⟨ev :: later, by rw [h]; rfl, ?_⟩
  intro ev' hmem
  rcases List.mem_cons.mp hmem with rfl | hmem
  · exact hev
  · exact hrefused ev' hmem

/-- The history does not see an access that sends nothing. -/
theorem ShutdownHistory.send_none (past : ShutdownHistory) (log : List WriteLog)
    (queue : List WriteCommand) : past.send log (queue.drop queue.length) = past := by
  rw [List.drop_length]
  rfl

/-- The outcome of the shutdown does not depend on the half. -/
theorem ShutdownOutcome.of_eq {s s' : WriteSystem} {past past' : ShutdownHistory}
    {result : Except IoError Unit} (h : ShutdownOutcome s past result)
    (herror : s'.backgroundError = s.backgroundError)
    (hfinal : past'.finalized = past.finalized) : ShutdownOutcome s' past' result := by
  simp only [ShutdownOutcome, herror, hfinal]
  exact h

/-- A poll at a shutdown point does not notice steps that leave it and the half alone. -/
theorem ShutdownPoint.of_eq {s s' : WriteSystem} (h : ShutdownPoint s) (hhalf : s'.half = s.half)
    (hpoll : s'.poll = s.poll)
    (hreceiving : s.background.receiving = true → s'.background.receiving = true) :
    ShutdownPoint s' := by
  refine ⟨?_, ?_, ?_, ?_, ?_⟩
  · rw [hpoll, hhalf]
    exact h.incomplete
  · rw [hpoll, hhalf]
    exact h.usable
  · rw [hpoll, hhalf]
    exact fun hpoll => ⟨hreceiving (h.receiving hpoll).1, (h.receiving hpoll).2⟩
  · rw [hpoll, hhalf]
    exact h.started
  · rw [hpoll, hhalf]
    exact h.stored

/-- The place of the answer does not depend on the half. -/
theorem ReplyPlace.of_eq {s s' : WriteSystem} {past : ShutdownHistory} {reply : ReplyId}
    (h : ReplyPlace s past reply) (hreplies : s'.replies = s.replies)
    (hbg : s'.background = s.background) (hqueue : s'.queue = s.queue)
    (herror : s'.backgroundError = s.backgroundError) : ReplyPlace s' past reply := by
  cases h with
  | queued unanswered receiving mem =>
    exact .queued (hreplies ▸ unanswered) (hbg ▸ receiving) (hqueue ▸ mem)
  | serving unanswered pc => exact .serving (hreplies ▸ unanswered) (hbg.trans pc)
  | answering unanswered pc => exact .answering (hreplies ▸ unanswered) (hbg.trans pc)
  | sent answer outcome => exact .sent (hreplies ▸ answer) outcome
  | closed answer none failed => exact .closed (hreplies ▸ answer) none (herror ▸ failed)

namespace ShutInv

variable {s : WriteSystem} {past : ShutdownHistory} (hi : ShutInv s past)
include hi

/-- A step outside of a shutdown keeps the invariant. -/
theorem quiet (hkept : s.dropped = false) {half : MigratingWriteHalf} {poll : HalfPc}
    {log : List WriteLog} (keeps : KeepsShutdown s half)
    (point : ShutdownPoint { s with half := half, poll := poll })
    (logged : log = s.log ∨ ∃ ev, log = ev :: s.log ∧ ev.shutdownReady = none ∧
      (s.half.shutdownStarted = true → ev.refused = true)) :
    ShutInv { s with half := half, poll := poll, log := log } past := by
  obtain ⟨hstarted, hcomplete, hresult, halive, hclosed, hpending⟩ := keeps
  -- what is pending after the start is untouched
  have hsome : ∀ {pending}, half.pendingControl = some pending →
      s.half.pendingControl = some pending := by
    intro pending hp
    rcases hpending with h | ⟨h, -⟩
    · exact h ▸ hp
    · rw [h] at hp
      cases hp
  have hsame : s.half.shutdownStarted = true → half.pendingControl = s.half.pendingControl := by
    intro hst
    rcases hpending with h | ⟨-, h⟩
    · exact h
    · rw [h] at hst
      cases hst
  have hready : readyShutdowns log = readyShutdowns s.log := by
    rcases logged with rfl | ⟨ev, rfl, hev, -⟩
    · rfl
    · exact readyShutdowns_cons hev s.log
  refine ⟨?_, ?_, ?_, ?_, ?_, ?_, ?_, ?_, hi.stops, hi.failed, ?_, ?_, ?_, hi.answering, ?_, ?_, ?_,
    ?_, ?_, ?_⟩
  · exact fun hdropped => absurd hdropped (ne_true_of_eq_false hkept)
  · exact ⟨point.incomplete, point.usable, point.receiving, point.started, point.stored⟩
  · intro pending hp
    simp only [hstarted]
    exact hi.pending pending (hsome hp)
  · simp only [hstarted, hcomplete, hresult]
    intro hst
    rw [hsame hst]
    exact hi.kept hst
  · simp only [hstarted, hcomplete, hresult]
    intro hst
    rw [hsame hst]
    exact hi.fresh hst
  · simp only [hcomplete, hresult]
    exact hi.complete
  · simp only [hstarted, halive]
    rintro - (h | h)
    · rcases hclosed h with h | h
      · exact hi.sender hkept (.inl h)
      · -- the receiver is gone, so there is a reason
        cases hst : s.half.shutdownStarted with
        | true => exact .inl rfl
        | false =>
          refine .inr fun herror => ?_
          rw [(hi.usable hkept hst herror).1] at h
          cases h
    · exact hi.sender hkept (.inr h)
  · simp only [halive]
    exact hi.alive
  · simp only [hstarted]
    exact hi.finalized
  · simp only [hstarted]
    exact hi.serving
  · simp only [hstarted]
    exact hi.queued
  · exact fun _ reply hp => (hi.reply hkept reply (hsome hp)).of_eq rfl rfl rfl rfl
  · simp only [hresult]
    exact fun result h => (hi.result result h).of_eq rfl rfl
  · simp only [hcomplete, hready]
    exact hi.unreturned
  · simp only [hcomplete, hready]
    exact hi.returned
  · simp only [hstarted]
    exact hi.last
  · simp only [hstarted]
    intro before hbefore
    obtain ⟨hst, later, hlog, hrefused⟩ := hi.sentAt before hbefore
    refine ⟨hst, ?_⟩
    rcases logged with rfl | ⟨ev, rfl, -, hev⟩
    · exact ⟨later, hlog, hrefused⟩
    · exact later_cons hlog hrefused (hev hst)

/-- Before the start nothing of the shutdown is there. -/
theorem unstarted (h : s.half.shutdownStarted = false) :
    past.finalized = none ∧ (∀ r, WriteCommand.shutdown r ∉ past.sent) ∧ past.sentAt = none ∧
      ∀ r, s.background ≠ .finalizing (some r) := by
  have hno : s.half.shutdownStarted ≠ true := by simp [h]
  refine ⟨?_, ?_, ?_, ?_⟩
  · by_contra hf
    exact hno (hi.finalized hf).2
  · intro r hr
    obtain ⟨later, earlier, heq⟩ := List.append_of_mem hr
    exact hno (hi.last later r earlier heq).1
  · by_contra hf
    obtain ⟨log, hlog⟩ := Option.ne_none_iff_exists'.mp hf
    exact hno (hi.sentAt log hlog).1
  · intro r hr
    exact hno (hi.serving r hr).1

/-- Data or a flush goes onto the channel. -/
theorem sends (hkept : s.dropped = false) {command : WriteCommand} {half : MigratingWriteHalf}
    {replies : HashMap ReplyId Reply} {nextReply : Nat} {ev : WriteLog}
    (kind : command.isShutdown = false) (unstarted : s.half.shutdownStarted = false)
    (keeps : half.shutdownStarted = s.half.shutdownStarted ∧
      half.shutdownComplete = s.half.shutdownComplete ∧
      half.shutdownResult = s.half.shutdownResult ∧
      half.writeTx.alive = s.half.writeTx.alive ∧
      (half.writeTx.state = .closed → half.writeTx.alive = false))
    (pending : ∀ pending, half.pendingControl = some pending → pending.kind = .flush)
    (logged : ev.shutdownReady = none) :
    ShutInv { s with
      half := half, poll := .idle, queue := s.queue ++ [command], replies := replies,
      nextReply := nextReply, log := ev :: s.log } (past.send s.log [command]) := by
  obtain ⟨hstarted, hcomplete, hresult, halive, hclosed⟩ := keeps
  obtain ⟨hfinal, hsent, hsentAt, hserving⟩ := hi.unstarted unstarted
  have hno : half.shutdownStarted ≠ true := by simp [hstarted, unstarted]
  have hsame : (past.send s.log [command]).sentAt = none := by
    simp [ShutdownHistory.send, kind, hsentAt]
  refine ⟨fun _ => rfl, .of_other rfl, ?_, ?_, ?_, ?_, ?_, ?_, hi.stops, hi.failed, ?_, ?_, ?_,
    hi.answering, ?_, ?_, ?_, ?_, ?_, ?_⟩
  · intro p hp
    rw [pending p hp]
    exact ⟨nofun, fun h => absurd h hno⟩
  · exact fun h => absurd h hno
  · exact fun h => absurd h hno
  · simp only [hcomplete, hresult]
    exact hi.complete
  · simp only [hstarted]
    intro _ h
    refine hi.sender hkept (.inr ?_)
    rw [← halive]
    exact h.elim hclosed id
  · simp only [halive]
    exact hi.alive
  · exact fun h => absurd hfinal h
  · exact fun r hr => absurd hr (hserving r)
  · intro r hr
    rcases List.mem_append.mp hr with hr | hr
    · have hst := (hi.queued r hr).1
      rw [unstarted] at hst
      cases hst
    · obtain rfl := List.mem_singleton.mp hr
      cases kind
  · intro _ reply hp
    cases pending _ hp
  · simp only [hresult]
    exact fun result h => (hi.result result h).of_eq rfl rfl
  · simp only [hcomplete, readyShutdowns_cons logged]
    exact hi.unreturned
  · simp only [hcomplete, readyShutdowns_cons logged]
    exact hi.returned
  · intro later reply earlier heq
    exfalso
    have hmem : WriteCommand.shutdown reply ∈ command :: past.sent := by
      rw [show command :: past.sent = _ from heq]
      simp
    rcases List.mem_cons.mp hmem with rfl | hmem
    · cases kind
    · exact hsent reply hmem
  · intro log hlog
    rw [hsame] at hlog
    cases hlog

/-- The shutdown command goes onto the channel while its receiver is there. -/
theorem sendsShutdown (hkept : s.dropped = false) {state : PollSenderState} {nextReply : Nat}
    (poll : s.poll = .shutdownSend) (unstarted : s.half.shutdownStarted = false) :
    ShutInv { s with
      half := { s.half with
        writeTx := { s.half.writeTx with state := state }
        shutdownStarted := true
        pendingControl := some ⟨.shutdown, ⟨.shutdown, s.nextReply⟩⟩ }
      poll := .shutdownControl
      queue := s.queue ++ [WriteCommand.shutdown ⟨.shutdown, s.nextReply⟩]
      replies := s.replies.insert ⟨.shutdown, s.nextReply⟩ .waiting
      nextReply := nextReply }
      (past.send s.log [.shutdown ⟨.shutdown, s.nextReply⟩]) := by
  obtain ⟨hfinal, hsent, -, hserving⟩ := hi.unstarted unstarted
  obtain ⟨hreceiving, hnone⟩ := hi.point.receiving (.inr poll)
  have hincomplete := hi.point.incomplete (by rw [poll]; rfl)
  refine ⟨?_, ?_, ?_, ?_, ?_, hi.complete, fun _ _ => .inl rfl, hi.alive, hi.stops, hi.failed, ?_,
    ?_, ?_, hi.answering, ?_, ?_, hi.unreturned, hi.returned, ?_, ?_⟩
  · exact fun hdropped => absurd hdropped (ne_true_of_eq_false hkept)
  · exact ⟨fun _ => hincomplete, nofun, by simp, fun _ => rfl, nofun⟩
  · intro p hp
    cases hp
    exact ⟨fun _ => rfl, fun _ => rfl⟩
  · exact fun _ => .inr (.inr (Option.some_ne_none _))
  · exact fun _ _ => ⟨hincomplete, hnone⟩
  · exact fun h => absurd hfinal h
  · exact fun r hr => absurd hr (hserving r)
  · exact fun r hr => ⟨rfl, hfinal, hserving⟩
  · intro _ reply hp
    cases hp
    refine .queued ?_ hreceiving (by simp)
    rw [HashMap.lookup_insert_eq, if_pos rfl]
  · intro result hr
    rw [show s.half.shutdownResult = some result from hr] at hnone
    cases hnone
  · intro later reply earlier heq
    refine ⟨rfl, ?_⟩
    cases later with
    | nil =>
      obtain ⟨-, rfl⟩ := List.cons.inj heq
      exact ⟨rfl, hsent⟩
    | cons command later =>
      have hmem : WriteCommand.shutdown reply ∈ past.sent := by
        rw [show past.sent = _ from (List.cons.inj heq).2]
        simp
      exact absurd hmem (hsent reply)
  · intro log hlog
    cases hlog
    exact ⟨rfl, [], rfl, nofun⟩

/-- The answer to the shutdown command says what became of it. -/
theorem outcome (hkept : s.dropped = false) {reply : ReplyId} {result : Except IoError Unit}
    (control : s.half.pendingControl = some ⟨.shutdown, reply⟩)
    (answer : (∃ outcome, s.replies.lookup reply = some (.sent outcome) ∧
        result = outcome.mapError BackgroundWriteError.toIo) ∨
      s.replies.lookup reply = some .closed ∧
        result = .error (s.backgroundIoError "RTP mux background writer stopped")) :
    ShutdownOutcome s past result := by
  have hplace := hi.reply hkept reply control
  rcases answer with ⟨outcome, hsent, rfl⟩ | ⟨hclosed, rfl⟩
  · cases hplace with
    | sent answer houtcome =>
      rw [hsent] at answer
      cases answer
      exact .inl ⟨outcome, houtcome, rfl⟩
    | queued unanswered => simp [hsent] at unanswered
    | serving unanswered => simp [hsent] at unanswered
    | answering unanswered => simp [hsent] at unanswered
    | closed answer => simp [hsent] at answer
  · cases hplace with
    | closed answer hnone hfailed =>
      obtain ⟨error, herror⟩ := Option.ne_none_iff_exists'.mp hfailed
      refine .inr ⟨hnone, error, herror, ?_⟩
      simp only [backgroundIoError, herror]
      rfl
    | queued unanswered => simp [hclosed] at unanswered
    | serving unanswered => simp [hclosed] at unanswered
    | answering unanswered => simp [hclosed] at unanswered
    | sent answer => simp [hclosed] at answer

/-- What is known of an outcome: the background writer has left its loop. -/
theorem outcome_stops {result : Except IoError Unit} (h : ShutdownOutcome s past result) :
    s.background.stopping = true := by
  rcases h with ⟨outcome, hfinal, -⟩ | ⟨-, error, herror, -⟩
  · exact (hi.finalized (by simp [hfinal])).1
  · exact hi.failed (by simp [herror])

/-- The answer to the shutdown's command keeps the invariant. -/
theorem answered (hkept : s.dropped = false) {reply : ReplyId} {result : Except IoError Unit}
    {poll : HalfPc} {log : List WriteLog}
    (control : s.half.pendingControl = some ⟨.shutdown, reply⟩)
    (hout : ShutdownOutcome s past result)
    (next : (poll = .idle ∧ ∃ ev, log = ev :: s.log ∧ ev.shutdownReady = none ∧
      ev.refused = true) ∨ poll = .shutdownEpilog ∧ log = s.log) :
    ShutInv { s with
      half := { s.half with
        pendingControl := none
        writeTx := s.half.writeTx.close
        shutdownResult := some result }
      poll := poll
      log := log } past := by
  have hstarted : s.half.shutdownStarted = true := (hi.pending _ control).mp rfl
  obtain ⟨hincomplete, -⟩ := hi.fresh hstarted (by simp [control])
  have hready : readyShutdowns log = readyShutdowns s.log := by
    rcases next with ⟨-, ev, rfl, hev, -⟩ | ⟨-, rfl⟩
    · exact readyShutdowns_cons hev s.log
    · rfl
  refine ⟨?_, ?_, nofun, ?_, ?_, ?_, ?_, ?_, hi.stops, hi.failed, hi.finalized, hi.serving,
    hi.queued, hi.answering, nofun, ?_, ?_, ?_, hi.last, ?_⟩
  · exact fun hdropped => absurd hdropped (ne_true_of_eq_false hkept)
  · rcases next with ⟨rfl, -⟩ | ⟨rfl, -⟩
    · exact .of_other rfl
    · exact ⟨fun _ => hincomplete, nofun, by simp, nofun, fun _ => Option.some_ne_none _⟩
  · exact fun _ => .inr (.inl (Option.some_ne_none _))
  · exact fun _ h => absurd rfl h
  · exact fun hcomplete => absurd hcomplete (ne_true_of_eq_false hincomplete)
  · exact fun _ _ => .inl hstarted
  · exact fun _ _ => hi.outcome_stops hout
  · intro r hr
    cases hr
    exact hout
  · simp only [hready]
    exact hi.unreturned
  · simp only [hready]
    exact hi.returned
  · intro before hbefore
    obtain ⟨hst, later, hlog, hrefused⟩ := hi.sentAt before hbefore
    refine ⟨hst, ?_⟩
    rcases next with ⟨-, ev, rfl, -, hev⟩ | ⟨-, rfl⟩
    · exact later_cons hlog hrefused hev
    · exact ⟨later, hlog, hrefused⟩

/-- `poll_shutdown` finds an error before it has sent anything. -/
theorem fails (hkept : s.dropped = false) {error : BackgroundWriteError}
    (unstarted : s.half.shutdownStarted = false) (incomplete : s.half.shutdownComplete = false)
    (failed : s.backgroundError = some error) : ShutInv (s.failShutdown error.toIo) past := by
  obtain ⟨hfinal, -, -, -⟩ := hi.unstarted unstarted
  have hno : s.half.shutdownStarted ≠ true := by simp [unstarted]
  have herror : s.backgroundError ≠ none := by simp [failed]
  have hplace : ∀ reply, s.half.pendingControl = some ⟨.shutdown, reply⟩ → False := by
    intro reply hp
    exact hno ((hi.pending _ hp).mp rfl)
  refine ⟨?_, ?_, hi.pending, fun h => absurd h hno, fun h => absurd h hno, ?_,
    fun _ _ => .inr herror, fun _ _ => hi.failed herror, hi.stops, hi.failed, hi.finalized,
    hi.serving, hi.queued, hi.answering, fun _ reply hp => (hplace reply hp).elim, ?_,
    hi.unreturned, hi.returned, hi.last, hi.sentAt⟩
  · exact fun hdropped => absurd hdropped (ne_true_of_eq_false hkept)
  · exact ⟨fun _ => incomplete, nofun, by simp [failShutdown, WriteSystem.goto], nofun,
      fun _ => Option.some_ne_none _⟩
  · exact fun hcomplete => absurd hcomplete (ne_true_of_eq_false incomplete)
  · intro result hr
    cases hr
    exact .inr ⟨hfinal, error, failed, rfl⟩

/-- `poll_shutdown` has reported before. -/
theorem repeats (complete : s.half.shutdownComplete = true) :
    ShutInv (s.ret (.pollShutdown (.ready (.ok ())))) past := by
  refine ⟨fun _ => rfl, .of_other rfl, hi.pending, hi.kept, hi.fresh, hi.complete, hi.sender,
    hi.alive, hi.stops, hi.failed, hi.finalized, hi.serving, hi.queued, hi.answering, ?_,
    hi.result, ?_, ?_, hi.last, ?_⟩
  · exact fun hdropped reply hp => (hi.reply hdropped reply hp).of_eq rfl rfl rfl rfl
  · intro hcomplete
    rw [show s.half.shutdownComplete = false from hcomplete] at complete
    cases complete
  · intro _
    obtain ⟨n, result, hready, hout⟩ := hi.returned complete
    refine ⟨n + 1, result, ?_, hout⟩
    rw [List.replicate_succ, List.cons_append, ← hready]
    rfl
  · intro before hbefore
    obtain ⟨hst, later, hlog, hrefused⟩ := hi.sentAt before hbefore
    exact ⟨hst, later_cons hlog hrefused rfl⟩

/-- `poll_shutdown` reports. -/
theorem reports {result : Except IoError Unit} (poll : s.poll = .shutdownEpilog)
    (ended : s.background = .ended) (stored : s.half.shutdownResult = some result) :
    ShutInv (ret { s with
      half := { s.half with shutdownComplete := true, shutdownResult := none } }
      (.pollShutdown (.ready result))) past := by
  have hincomplete := hi.point.incomplete (by rw [poll]; rfl)
  -- the answer has been picked up
  have hpicked : s.half.shutdownStarted = true → s.half.pendingControl = none := by
    intro hst
    by_contra hp
    rw [(hi.fresh hst hp).2] at stored
    cases stored
  refine ⟨fun _ => rfl, .of_other rfl, hi.pending, fun _ => .inl rfl, ?_, fun _ => ⟨rfl, ended⟩,
    hi.sender, hi.alive, hi.stops, hi.failed, hi.finalized, hi.serving, hi.queued, hi.answering,
    ?_, nofun, nofun, ?_, hi.last, ?_⟩
  · exact fun hst hp => absurd (hpicked hst) hp
  · intro _ reply hp
    have hst : s.half.shutdownStarted = true := (hi.pending _ hp).mp rfl
    rw [show s.half.pendingControl = _ from hp] at hpicked
    cases hpicked hst
  · intro _
    refine ⟨0, result, ?_, hi.result result stored⟩
    have hnone := hi.unreturned hincomplete
    simp only [WriteSystem.ret, readyShutdowns, List.filterMap_cons,
      WriteLog.shutdownReady] at hnone ⊢
    rw [hnone]
    rfl
  · intro before hbefore
    obtain ⟨hst, later, hlog, hrefused⟩ := hi.sentAt before hbefore
    exact ⟨hst, later_cons hlog hrefused rfl⟩

/-- **The half.** -/
theorem access (hkept : s.dropped = false) {s' : WriteSystem} (ha : ShutdownAccess s s') :
    ShutInv s' (past.send s.log (s'.queue.drop s.queue.length)) := by
  have hunsent : ∀ {s' : WriteSystem}, s'.queue = s.queue → ShutInv s' past →
      ShutInv s' (past.send s.log (s'.queue.drop s.queue.length)) := by
    intro s' hqueue hi'
    rw [hqueue, ShutdownHistory.send_none]
    exact hi'
  cases ha with
  | quiet keeps point logged => exact hunsent rfl (hi.quiet hkept keeps point logged)
  | sends kind unstarted keeps pending logged =>
    simp only [List.drop_left]
    exact hi.sends hkept kind unstarted keeps pending logged
  | sendsShutdown poll unstarted =>
    simp only [List.drop_left]
    exact hi.sendsShutdown hkept poll unstarted
  | answered control answer next =>
    exact hunsent rfl (hi.answered hkept control (hi.outcome hkept control answer) next)
  | fails unstarted incomplete failed =>
    exact hunsent rfl (hi.fails hkept unstarted incomplete failed)
  | repeats complete => exact hunsent rfl (hi.repeats complete)
  | reports poll ended stored => exact hunsent rfl (hi.reports poll ended stored)

end ShutInv

/-! ## The background writer keeps the invariant -/

namespace ShutInv

variable {s s' : WriteSystem} {past : ShutdownHistory} (hi : ShutInv s past)
include hi

/-- Before the background task has ended nothing is reported. -/
theorem incomplete (hended : s.background ≠ .ended) : s.half.shutdownComplete = false := by
  cases hcomplete : s.half.shutdownComplete with
  | false => rfl
  | true => exact absurd (hi.complete hcomplete).2 hended

/-- A background writer in its loop: no error and no outcome yet, and nothing reported. -/
theorem looping (h : s.background.stopping = false) :
    s.backgroundError = none ∧ past.finalized = none ∧ s.half.shutdownComplete = false ∧
      s.half.shutdownResult = none := by
  have hno : s.background.stopping ≠ true := by simp [h]
  refine ⟨?_, ?_, ?_, ?_⟩
  · by_contra herror
    exact hno (hi.failed herror)
  · by_contra hfinal
    exact hno (hi.finalized hfinal).1
  · apply hi.incomplete
    intro hended
    rw [hended] at h
    cases h
  · by_contra hresult
    obtain ⟨result, hresult⟩ := Option.ne_none_iff_exists'.mp hresult
    exact hno (hi.outcome_stops (hi.result result hresult))

/-- A step of the background writer that touches neither the error, nor a reply, nor the shutdown
command. -/
theorem moves (hsame : s'.half = s.half ∧ s'.poll = s.poll ∧ s'.dropped = s.dropped ∧
      s'.replies = s.replies ∧ s'.backgroundError = s.backgroundError)
    (hqueue : ∀ reply, WriteCommand.shutdown reply ∈ s'.queue ↔
      WriteCommand.shutdown reply ∈ s.queue)
    (hlog : s'.log = s.log ∨ ∃ ev, s'.log = ev :: s.log ∧ ev.shutdownReady = none ∧
      ev.refused = true)
    (hreceiving : s'.background.receiving = s.background.receiving)
    (hstopping : s.background.stopping = true → s'.background.stopping = true)
    (hstops : s'.background.stopping = true → s.background.stopping = true ∨ s.dropped = true)
    (hended : s.background ≠ .ended) (hfrom : s.background.finishing = false)
    (hto : ∀ reply, s'.background ≠ .finalizing (some reply))
    (hanswering : ∀ reply result stop, s'.background = .replying reply result stop →
      reply.kind = .flush) : ShutInv s' past := by
  obtain ⟨hhalf, hpoll, hdropped, hreplies, herror⟩ := hsame
  have hready : readyShutdowns s'.log = readyShutdowns s.log := by
    rcases hlog with h | ⟨ev, h, hev, -⟩
    · rw [h]
    · rw [h, readyShutdowns_cons hev]
  have hincomplete := hi.incomplete hended
  refine ⟨?_, ?_, ?_, ?_, ?_, ?_, ?_, ?_, ?_, ?_, ?_, ?_, ?_, ?_, ?_, ?_, ?_, ?_, ?_, ?_⟩
  · rw [hdropped, hpoll]
    exact hi.idle
  · exact hi.point.of_eq hhalf hpoll hreceiving.trans
  · rw [hhalf]
    exact hi.pending
  · rw [hhalf]
    exact hi.kept
  · rw [hhalf]
    exact hi.fresh
  · rw [hhalf, hincomplete]
    nofun
  · rw [hhalf, hdropped, herror]
    exact hi.sender
  · rw [hhalf, hdropped]
    exact fun h h' => hstopping (hi.alive h h')
  · rw [hdropped, herror]
    intro h
    rcases hstops h with h | h
    · exact hi.stops h
    · exact .inl h
  · rw [herror]
    exact fun h => hstopping (hi.failed h)
  · rw [hhalf]
    exact fun h => ⟨hstopping (hi.finalized h).1, (hi.finalized h).2⟩
  · exact fun reply h => absurd h (hto reply)
  · rw [hhalf]
    intro reply h
    obtain ⟨hstarted, hfinal, -⟩ := hi.queued reply ((hqueue reply).mp h)
    exact ⟨hstarted, hfinal, hto⟩
  · exact fun reply result stop h => .inl (hanswering reply result stop h)
  · rw [hhalf, hdropped]
    intro hkept reply hp
    cases hi.reply hkept reply hp with
    | queued unanswered receiving mem =>
      exact .queued (hreplies ▸ unanswered) (hreceiving.trans receiving) ((hqueue reply).mpr mem)
    | serving unanswered pc =>
      rw [pc] at hfrom
      cases hfrom
    | answering unanswered pc =>
      rw [pc] at hfrom
      cases hfrom
    | sent answer outcome => exact .sent (hreplies ▸ answer) outcome
    | closed answer none failed => exact .closed (hreplies ▸ answer) none (herror ▸ failed)
  · rw [hhalf]
    exact fun result h => (hi.result result h).of_eq herror rfl
  · rw [hhalf, hready]
    exact hi.unreturned
  · rw [hhalf, hincomplete]
    nofun
  · rw [hhalf]
    exact hi.last
  · rw [hhalf]
    intro before hbefore
    obtain ⟨hst, later, hbefore, hrefused⟩ := hi.sentAt before hbefore
    refine ⟨hst, ?_⟩
    rcases hlog with h | ⟨ev, h, -, hev⟩
    · exact ⟨later, h.trans hbefore, hrefused⟩
    · rw [h]
      exact later_cons hbefore hrefused hev

/-- A call of the writer fails inside the loop: the error is stored, and the loop is left. -/
theorem storesError {error : BackgroundWriteError} {pc : BackgroundPc}
    (hlooping : s.background.stopping = false) (hstopping : pc.stopping = true)
    (hreceiving : pc.receiving = true) (hserving : ∀ reply, s.background ≠ .finalizing (some reply))
    (hanswering : ∀ reply result stop, pc = .replying reply result stop → reply.kind = .flush)
    (hfrom : ∀ reply result stop, s.background ≠ .replying reply result stop) :
    ShutInv (WriteSystem.resume { s with backgroundError := some error } pc) past := by
  obtain ⟨hnone, hfinal, hincomplete, hresult⟩ := hi.looping hlooping
  have hto : ∀ reply, pc ≠ .finalizing (some reply) := by
    rintro reply rfl
    cases hstopping
  refine ⟨hi.idle, ?_, hi.pending, hi.kept, hi.fresh, ?_, ?_, fun _ _ => hstopping,
    fun _ => .inr (.inl (Option.some_ne_none _)), fun _ => hstopping, ?_, ?_, ?_, ?_, ?_, ?_,
    hi.unreturned, ?_, hi.last, hi.sentAt⟩
  · exact hi.point.of_eq rfl rfl fun _ => hreceiving
  · exact fun hcomplete => absurd hcomplete (ne_true_of_eq_false hincomplete)
  · exact fun _ _ => .inr (Option.some_ne_none _)
  · exact fun h => absurd hfinal h
  · exact fun reply h => absurd h (hto reply)
  · intro reply h
    exact ⟨(hi.queued reply h).1, hfinal, hto⟩
  · exact fun reply result stop h => .inl (hanswering reply result stop h)
  · intro hkept reply hp
    cases hi.reply hkept reply hp with
    | queued unanswered receiving mem => exact .queued unanswered hreceiving mem
    | serving unanswered pc => exact absurd pc (hserving reply)
    | answering unanswered pc => exact absurd pc (hfrom _ _ _)
    | sent answer outcome =>
      rw [hfinal] at outcome
      cases outcome
    | closed answer none failed => exact absurd hnone failed
  · intro result h
    rw [show s.half.shutdownResult = some result from h] at hresult
    cases hresult
  · exact fun hcomplete => absurd hcomplete (ne_true_of_eq_false hincomplete)

/-- The background writer takes the shutdown command, which is the last one. -/
theorem serves {reply : ReplyId} (hpc : s.background = .pollCommands)
    (hqueue : s.queue = [.shutdown reply]) :
    ShutInv (WriteSystem.resume { s with queue := [], log := .finalize :: s.log }
      (.finalizing (some reply))) past := by
  have hlooping : s.background.stopping = false := by rw [hpc]; rfl
  obtain ⟨hnone, hfinal, hincomplete, hresult⟩ := hi.looping hlooping
  obtain ⟨hstarted, -, -⟩ := hi.queued reply (by rw [hqueue]; simp)
  have hready : readyShutdowns (.finalize :: s.log) = readyShutdowns s.log :=
    readyShutdowns_cons rfl s.log
  refine ⟨hi.idle, ?_, hi.pending, hi.kept, hi.fresh, ?_, hi.sender, ?_, nofun,
    fun h => absurd hnone h, fun h => absurd hfinal h, fun _ _ => ⟨hstarted, hfinal⟩, nofun, nofun,
    ?_, ?_, ?_, ?_, hi.last, ?_⟩
  · exact hi.point.of_eq rfl rfl fun _ => rfl
  · exact fun hcomplete => absurd hcomplete (ne_true_of_eq_false hincomplete)
  · intro hkept h
    have hstop := hi.alive hkept h
    rw [hlooping] at hstop
    cases hstop
  · intro hkept r hp
    cases hi.reply hkept r hp with
    | queued unanswered receiving mem =>
      rw [hqueue] at mem
      cases List.mem_singleton.mp mem
      exact .serving unanswered rfl
    | serving unanswered pc =>
      rw [hpc] at pc
      cases pc
    | answering unanswered pc =>
      rw [hpc] at pc
      cases pc
    | sent answer outcome =>
      rw [hfinal] at outcome
      cases outcome
    | closed answer none failed => exact absurd hnone failed
  · intro result h
    rw [show s.half.shutdownResult = some result from h] at hresult
    cases hresult
  · exact fun h => hready.trans (hi.unreturned h)
  · exact fun hcomplete => absurd hcomplete (ne_true_of_eq_false hincomplete)
  · intro before hbefore
    obtain ⟨hst, later, hlog, hrefused⟩ := hi.sentAt before hbefore
    exact ⟨hst, later_cons hlog hrefused rfl⟩

/-- `finalize` returns for the shutdown command, or its time is over. -/
theorem finalizes {reply : ReplyId} {result : Except BackgroundWriteError Unit}
    (hpc : s.background = .finalizing (some reply)) :
    ShutInv ((s.storeError result).resume (.replying reply result true))
      { past with finalized := some result } := by
  have hlooping : s.background.stopping = false := by rw [hpc]; rfl
  obtain ⟨hnone, hfinal, hincomplete, hresult⟩ := hi.looping hlooping
  obtain ⟨hstarted, -⟩ := hi.serving reply hpc
  have hqueue : ∀ r, WriteCommand.shutdown r ∉ s.queue := fun r hr => (hi.queued r hr).2.2 reply hpc
  have hfields : (s.storeError result).dropped = s.dropped ∧ (s.storeError result).half = s.half ∧
      (s.storeError result).poll = s.poll ∧ (s.storeError result).queue = s.queue ∧
      (s.storeError result).replies = s.replies ∧ (s.storeError result).log = s.log := by
    cases result <;> exact ⟨rfl, rfl, rfl, rfl, rfl, rfl⟩
  obtain ⟨hdropped, hhalf, hpoll, hqueue', hreplies, hlog⟩ := hfields
  refine ⟨?_, ?_, ?_, ?_, ?_, ?_, ?_, fun _ _ => rfl, fun _ => .inr (.inr (Option.some_ne_none _)),
    fun _ => rfl, ?_, (fun _ h => by cases h), ?_, ?_, ?_, ?_, ?_, ?_, ?_, ?_⟩ <;>
    simp only [WriteSystem.resume, hdropped, hhalf, hpoll, hqueue', hreplies, hlog]
  · exact hi.idle
  · exact hi.point.of_eq rfl rfl fun _ => rfl
  · exact hi.pending
  · exact hi.kept
  · exact hi.fresh
  · rw [hincomplete]
    rintro ⟨⟩
  · exact fun _ _ => .inl hstarted
  · exact fun _ => ⟨rfl, hstarted⟩
  · exact fun r hr => absurd hr (hqueue r)
  · intro r outcome stop heq
    cases heq
    exact .inr rfl
  · intro hkept r hp
    cases hi.reply hkept r hp with
    | queued unanswered receiving mem => exact absurd mem (hqueue r)
    | serving unanswered pc =>
      rw [hpc] at pc
      cases pc
      exact .answering (by simpa only [hreplies] using unanswered) rfl
    | answering unanswered pc =>
      rw [hpc] at pc
      cases pc
    | sent answer outcome =>
      rw [hfinal] at outcome
      cases outcome
    | closed answer none failed => exact absurd hnone failed
  · rw [hresult]
    intro _ h
    cases h
  · exact hi.unreturned
  · rw [hincomplete]
    rintro ⟨⟩
  · exact hi.last
  · exact hi.sentAt

/-- The answer to a flush or to the shutdown is sent. -/
theorem replies (hinv : WriteInv s) {reply : ReplyId}
    {result : Except BackgroundWriteError Unit} {stop : Bool}
    (hpc : s.background = .replying reply result stop) :
    ShutInv (WriteSystem.resume { s with replies := s.replies.insert reply (.sent result) }
      (if stop then .returning else .pollWake)) past := by
  have hstop : BackgroundPc.stopping (if stop then .returning else .pollWake) =
      s.background.stopping := by
    rw [hpc]
    cases stop <;> rfl
  have hreceiving : BackgroundPc.receiving (if stop then .returning else .pollWake) = true := by
    cases stop <;> rfl
  have hto : ∀ r, (if stop then BackgroundPc.returning else .pollWake) ≠ .finalizing (some r) := by
    cases stop <;> nofun
  have hincomplete := hi.incomplete (by rw [hpc]; nofun)
  refine ⟨hi.idle, ?_, hi.pending, hi.kept, hi.fresh, ?_, hi.sender, ?_, ?_, ?_, ?_,
    fun r h => absurd h (hto r), ?_, ?_, ?_, hi.result, hi.unreturned, ?_, hi.last, hi.sentAt⟩
  · exact hi.point.of_eq rfl rfl fun _ => hreceiving
  · exact fun hcomplete => absurd hcomplete (ne_true_of_eq_false hincomplete)
  · exact fun hkept h => hstop.trans (hi.alive hkept h)
  · exact fun h => hi.stops (hstop.symm.trans h)
  · exact fun h => hstop.trans (hi.failed h)
  · exact fun h => ⟨hstop.trans (hi.finalized h).1, (hi.finalized h).2⟩
  · exact fun r h => ⟨(hi.queued r h).1, (hi.queued r h).2.1, hto⟩
  · intro r outcome stop' h
    exfalso
    cases stop <;> cases h
  · intro hkept r hp
    -- if it is the answer to the shutdown, it is the outcome of `finalize`
    by_cases hr : r = reply
    · subst hr
      have hkind : r.kind = .shutdown := hinv.pendingKind _ hp
      have hsent : (s.replies.insert r (.sent result)).lookup r = some (.sent result) := by simp
      refine .sent hsent ?_
      rcases hi.answering r result stop hpc with hflush | houtcome
      · rw [hkind] at hflush
        cases hflush
      · exact houtcome
    · have hlookup : (s.replies.insert reply (.sent result)).lookup r = s.replies.lookup r := by
        rw [HashMap.lookup_insert_eq, if_neg hr]
      cases hi.reply hkept r hp with
      | queued unanswered receiving mem => exact .queued (hlookup.trans unanswered) hreceiving mem
      | serving unanswered pc =>
        rw [hpc] at pc
        cases pc
      | answering unanswered pc =>
        rw [hpc] at pc
        cases pc
        exact absurd rfl hr
      | sent answer outcome => exact .sent (hlookup.trans answer) outcome
      | closed answer none failed => exact .closed (hlookup.trans answer) none failed
  · exact fun hcomplete => absurd hcomplete (ne_true_of_eq_false hincomplete)

/-- The receivers are dropped, and the reply of a shutdown command that was not served is closed.
There is a reason for that. -/
theorem dropReceivers (hinv : WriteInv s) (hreceiving : s.background.receiving = true)
    (hreason : s.dropped = true ∨ s.background = .returning)
    (hpoll : s.poll ≠ .shutdownReserve ∧ s.poll ≠ .shutdownSend) :
    ShutInv s.dropReceivers past := by
  have hincomplete : s.half.shutdownComplete = false := by
    apply hi.incomplete
    intro hended
    rw [hended] at hreceiving
    cases hreceiving
  have hstops : s.dropped = true ∨ s.backgroundError ≠ none ∨ past.finalized ≠ none := by
    rcases hreason with h | h
    · exact .inl h
    · exact hi.stops (by rw [h]; rfl)
  refine ⟨hi.idle, ?_, hi.pending, hi.kept, hi.fresh, ?_, hi.sender, fun _ _ => rfl,
    fun _ => hstops, fun _ => rfl, fun h => ⟨rfl, (hi.finalized h).2⟩, nofun, nofun, nofun, ?_,
    hi.result, hi.unreturned, ?_, hi.last, hi.sentAt⟩
  · have hpoint := hi.point
    refine ⟨hpoint.incomplete, hpoint.usable, ?_, hpoint.started, hpoint.stored⟩
    rintro (h | h)
    · exact absurd h hpoll.1
    · exact absurd h hpoll.2
  · exact fun hcomplete => absurd hcomplete (ne_true_of_eq_false hincomplete)
  · intro hkept r hp
    have hpc : s.background = .returning := by
      rcases hreason with h | h
      · rw [show s.dropped = false from hkept] at h
        cases h
      · exact h
    have hkind : r.kind = .shutdown := hinv.pendingKind _ hp
    -- its reply is closed exactly when the command is on the channel
    have hmem : r ∈ s.queue.filterMap WriteCommand.reply ↔ WriteCommand.shutdown r ∈ s.queue := by
      rw [List.mem_filterMap]
      constructor
      · rintro ⟨command, hc, hr⟩
        cases command with
        | data buf => cases hr
        | flush r' =>
          cases hr
          rw [hinv.flushKind r (.inl hc)] at hkind
          cases hkind
        | shutdown r' =>
          cases hr
          exact hc
      · exact fun h => ⟨_, h, rfl⟩
    have hlookup := lookup_closeReplies s.queue r s.replies
    by_cases hqueued : WriteCommand.shutdown r ∈ s.queue
    · rw [if_pos (hmem.mpr hqueued)] at hlookup
      obtain ⟨-, hfinal, -⟩ := hi.queued r hqueued
      refine .closed hlookup hfinal ?_
      rcases hstops with h | h | h
      · rw [show s.dropped = false from hkept] at h
        cases h
      · exact h
      · exact absurd hfinal h
    · rw [if_neg (fun h => hqueued (hmem.mp h))] at hlookup
      cases hi.reply hkept r hp with
      | queued unanswered receiving mem => exact absurd mem hqueued
      | serving unanswered pc =>
        rw [hpc] at pc
        cases pc
      | answering unanswered pc =>
        rw [hpc] at pc
        cases pc
      | sent answer outcome => exact .sent (hlookup.trans answer) outcome
      | closed answer none failed => exact .closed (hlookup.trans answer) none failed
  · exact fun hcomplete => absurd hcomplete (ne_true_of_eq_false hincomplete)

end ShutInv

/-! ## Whole runs -/

/-- The background writer is in its loop, with no answer to send. -/
def BackgroundPc.looping (pc : BackgroundPc) : Bool :=
  !pc.stopping && pc.receiving && !pc.finishing

/-- A writer in its loop neither stops nor finishes. -/
theorem BackgroundPc.of_looping {pc : BackgroundPc} (h : pc.looping = true) :
    pc.stopping = false ∧ pc.receiving = true ∧ pc.finishing = false := by
  simpa [looping, and_assoc] using h

/-- **The background writer.** -/
theorem ShutInv.writer {s s' : WriteSystem} {e : WriteEvent} {past : ShutdownHistory}
    (hi : ShutInv s past) (hinv : WriteInv s) (hC : s.keepsReceivers e = true)
    (hst : WriterStep s e s') : ShutInv s' (ShutdownHistory.record s e past) := by
  -- the steps inside the loop that change nothing of the shutdown
  have hloop : ∀ {s' : WriteSystem}, (s'.half = s.half ∧ s'.poll = s.poll ∧
      s'.dropped = s.dropped ∧ s'.replies = s.replies ∧
      s'.backgroundError = s.backgroundError) →
      (∀ reply, WriteCommand.shutdown reply ∈ s'.queue ↔ WriteCommand.shutdown reply ∈ s.queue) →
      (s'.log = s.log ∨ ∃ ev, s'.log = ev :: s.log ∧ ev.shutdownReady = none ∧
        ev.refused = true) →
      s.background.looping = true → s'.background.looping = true → ShutInv s' past := by
    intro s' hsame hqueue hlog hfrom hto
    obtain ⟨hstop, hreceiving, hfinishing⟩ := BackgroundPc.of_looping hfrom
    obtain ⟨hstop', hreceiving', hfinishing'⟩ := BackgroundPc.of_looping hto
    refine hi.moves hsame hqueue hlog (hreceiving'.trans hreceiving.symm) ?_ ?_ ?_ hfinishing ?_ ?_
    · intro h
      rw [hstop] at h
      cases h
    · intro h
      rw [hstop'] at h
      cases h
    · intro h
      rw [h] at hfrom
      cases hfrom
    · intro reply h
      rw [h] at hfinishing'
      cases hfinishing'
    · intro reply result stop h
      rw [h] at hfinishing'
      cases hfinishing'
  have hqueue : ∀ reply : ReplyId, WriteCommand.shutdown reply ∈ s.queue ↔
      WriteCommand.shutdown reply ∈ s.queue :=
    fun _ => Iff.rfl
  cases hst with
  | woken pc isOpen wake =>
    exact hloop ⟨rfl, rfl, rfl, rfl, rfl⟩ hqueue (.inl rfl) (by rw [pc]; rfl) rfl
  | wakeEnds pc isOpen wake closed =>
    exact hloop ⟨rfl, rfl, rfl, rfl, rfl⟩ hqueue (.inl rfl) (by rw [pc]; rfl) rfl
  | noWake pc quiet =>
    exact hloop ⟨rfl, rfl, rfl, rfl, rfl⟩ hqueue (.inl rfl) (by rw [pc]; rfl) rfl
  | take pc latest =>
    exact hloop ⟨rfl, rfl, rfl, rfl, rfl⟩ hqueue (.inl rfl) (by rw [pc]; rfl) rfl
  | takeNothing pc latest =>
    exact hloop ⟨rfl, rfl, rfl, rfl, rfl⟩ hqueue (.inl rfl) (by rw [pc]; rfl) rfl
  | data pc head =>
    refine hloop ⟨rfl, rfl, rfl, rfl, rfl⟩ ?_ (.inr ⟨_, rfl, rfl, rfl⟩)
      (by rw [pc]; rfl) rfl
    simp [WriteSystem.resume, head]
  | flush pc head =>
    refine hloop ⟨rfl, rfl, rfl, rfl, rfl⟩ ?_ (.inl rfl) (by rw [pc]; rfl) rfl
    simp [WriteSystem.resume, head]
  | shutdown pc head =>
    rename_i reply queue
    obtain ⟨rfl, -⟩ := hinv.last [] reply queue head
    exact hi.serves pc head
  | channelEnds pc empty gone =>
    have hdropped : s.dropped = true := by
      cases hkept : s.dropped with
      | true => rfl
      | false =>
        simp only [PollSender.gone, Bool.and_eq_true, Bool.not_eq_true'] at gone
        have hstop := hi.alive hkept gone.1
        rw [pc] at hstop
        cases hstop
    refine hi.moves ⟨rfl, rfl, rfl, rfl, rfl⟩ hqueue (.inl rfl) (by rw [pc]; rfl) (fun _ => rfl)
      (fun _ => .inr hdropped) ?_ (by rw [pc]; rfl) (fun _ h => by cases h)
      (fun _ _ _ h => by cases h)
    rw [pc]
    rintro ⟨⟩
  | noCommand pc empty =>
    exact hloop ⟨rfl, rfl, rfl, rfl, rfl⟩ hqueue (.inl rfl) (by rw [pc]; rfl) rfl
  | rebound pc =>
    simp only [ShutdownHistory.record, pc]
    exact hloop ⟨rfl, rfl, rfl, rfl, rfl⟩ hqueue (.inl rfl) (by rw [pc]; rfl) rfl
  | rebindFails pc =>
    simp only [ShutdownHistory.record, pc]
    exact hi.storesError (by rw [pc]; rfl) rfl rfl (by simp [pc]) (fun _ _ _ h => by cases h)
      (by simp [pc])
  | wrote pc =>
    simp only [ShutdownHistory.record, pc]
    exact hloop ⟨rfl, rfl, rfl, rfl, rfl⟩ hqueue (.inr ⟨_, rfl, rfl, rfl⟩)
      (by rw [pc]; rfl) rfl
  | writeFails pc =>
    simp only [ShutdownHistory.record, pc]
    exact hi.storesError (by rw [pc]; rfl) rfl rfl (by simp [pc]) (fun _ _ _ h => by cases h)
      (by simp [pc])
  | flushed pc =>
    rename_i reply
    simp only [ShutdownHistory.record, pc]
    refine hi.moves ⟨rfl, rfl, rfl, rfl, rfl⟩ hqueue (.inl rfl) (by rw [pc]; rfl)
      (by rw [pc]; exact id) (fun h => by cases h) ?_ (by rw [pc]; rfl) (fun _ h => by cases h) ?_
    · rw [pc]
      rintro ⟨⟩
    · intro r result stop heq
      cases heq
      exact hinv.flushKind reply (.inr pc)
  | flushFails pc =>
    rename_i reply error
    simp only [ShutdownHistory.record, pc]
    refine hi.storesError (by rw [pc]; rfl) rfl rfl (by simp [pc]) ?_ (by simp [pc])
    intro r result stop heq
    cases heq
    exact hinv.flushKind reply (.inr pc)
  | finalized pc event =>
    rename_i reply result
    have hpast : ShutdownHistory.record s e past = { past with finalized := some result } := by
      rcases event with rfl | ⟨rfl, rfl⟩
      · simp only [ShutdownHistory.record, pc]
      · simp only [ShutdownHistory.record, pc]
    rw [hpast]
    exact hi.finalizes pc
  | finalizedEnd pc event =>
    have hpast : ShutdownHistory.record s e past = past := by
      rcases event with ⟨result, rfl⟩ | rfl
      · simp only [ShutdownHistory.record, pc]
      · simp only [ShutdownHistory.record, pc]
    rw [hpast]
    refine hi.moves ⟨rfl, rfl, rfl, rfl, rfl⟩ hqueue (.inl rfl) (by rw [pc]; rfl) (fun _ => rfl)
      (fun _ => .inl (by rw [pc]; rfl)) ?_ (by rw [pc]; rfl) (fun _ h => by cases h)
      (fun _ _ _ h => by cases h)
    rw [pc]
    rintro ⟨⟩
  | reply pc => exact hi.replies hinv pc
  | leave pc =>
    refine hi.moves ⟨rfl, rfl, rfl, rfl, rfl⟩ hqueue (.inr ⟨_, rfl, rfl, rfl⟩) (by rw [pc]; rfl)
      (fun _ => rfl) (fun _ => .inl (by rw [pc]; rfl)) ?_ (by rw [pc]; rfl) (fun _ h => by cases h)
      (fun _ _ _ h => by cases h)
    rw [pc]
    rintro ⟨⟩
  | returns pc =>
    simp only [keepsReceivers, pc] at hC
    refine hi.dropReceivers hinv (by rw [pc]; rfl) (.inr pc) ⟨?_, ?_⟩
    · intro hpoll
      rw [hpoll] at hC
      cases hC
    · intro hpoll
      rw [hpoll] at hC
      cases hC
  | ends pc =>
    refine hi.moves ⟨rfl, rfl, rfl, rfl, rfl⟩ hqueue (.inl rfl) (by rw [pc]; rfl) (fun _ => rfl)
      (fun _ => .inl (by rw [pc]; rfl)) ?_ (by rw [pc]; rfl) (fun _ h => by cases h)
      (fun _ _ _ h => by cases h)
    rw [pc]
    rintro ⟨⟩

/-- A step that the shutdown does not see. -/
theorem ShutInv.frame {s s' : WriteSystem} {past : ShutdownHistory} (hi : ShutInv s past)
    (hidle : s'.dropped = true → s'.poll = .idle) (hpoint : ShutdownPoint s')
    (hhalf : s'.half = { s.half with writeTx := s'.half.writeTx })
    (hsender : s'.dropped = false → s'.half.writeTx = s.half.writeTx ∧ s.dropped = false)
    (hdropped : s.dropped = true → s'.dropped = true)
    (hsame : s'.queue = s.queue ∧ s'.background = s.background ∧ s'.replies = s.replies ∧
      s'.backgroundError = s.backgroundError ∧ s'.log = s.log) : ShutInv s' past := by
  obtain ⟨hqueue, hbg, hreplies, herror, hlog⟩ := hsame
  have hstarted : s'.half.shutdownStarted = s.half.shutdownStarted := by rw [hhalf]
  have hcomplete : s'.half.shutdownComplete = s.half.shutdownComplete := by rw [hhalf]
  have hresult : s'.half.shutdownResult = s.half.shutdownResult := by rw [hhalf]
  have hpending : s'.half.pendingControl = s.half.pendingControl := by rw [hhalf]
  refine ⟨hidle, hpoint, ?_, ?_, ?_, ?_, ?_, ?_, ?_, ?_, ?_, ?_, ?_, ?_, ?_, ?_, ?_, ?_, ?_, ?_⟩
  · rw [hpending, hstarted]
    exact hi.pending
  · rw [hpending, hstarted, hcomplete, hresult]
    exact hi.kept
  · rw [hpending, hstarted, hcomplete, hresult]
    exact hi.fresh
  · rw [hcomplete, hresult, hbg]
    exact hi.complete
  · intro hkept
    obtain ⟨htx, hkept⟩ := hsender hkept
    rw [htx, hstarted, herror]
    exact hi.sender hkept
  · intro hkept
    obtain ⟨htx, hkept⟩ := hsender hkept
    rw [htx, hbg]
    exact hi.alive hkept
  · rw [hbg, herror]
    intro h
    rcases hi.stops h with h | h
    · exact .inl (hdropped h)
    · exact .inr h
  · rw [hbg, herror]
    exact hi.failed
  · rw [hbg, hstarted]
    exact hi.finalized
  · rw [hbg, hstarted]
    exact hi.serving
  · rw [hbg, hqueue, hstarted]
    exact hi.queued
  · rw [hbg]
    exact hi.answering
  · intro hkept reply hp
    rw [hpending] at hp
    exact (hi.reply (hsender hkept).2 reply hp).of_eq hreplies hbg hqueue herror
  · rw [hresult]
    exact fun result h => (hi.result result h).of_eq herror rfl
  · rw [hcomplete, hlog]
    exact hi.unreturned
  · rw [hcomplete, hlog]
    intro h
    obtain ⟨n, result, hready, hout⟩ := hi.returned h
    exact ⟨n, result, hready, hout.of_eq herror rfl⟩
  · rw [hstarted]
    exact hi.last
  · rw [hstarted, hlog]
    exact hi.sentAt

/-- **Step lemma.** -/
theorem ShutInv.step {s s' : WriteSystem} {e : WriteEvent} {past : ShutdownHistory}
    (hi : ShutInv s past) (hinv : WriteInv s) (hC : s.keepsReceivers e = true)
    (hst : WriteStep s e s') : ShutInv s' (ShutdownHistory.record s e past) := by
  -- the calls of `rebind` touch nothing of this
  have hrebind : ∀ {s' : WriteSystem}, s'.half = s.half → s'.poll = s.poll →
      s'.dropped = s.dropped → (s'.queue = s.queue ∧ s'.background = s.background ∧
        s'.replies = s.replies ∧ s'.backgroundError = s.backgroundError ∧ s'.log = s.log) →
      ShutInv s' past := by
    intro s' hhalf hpoll hdropped hsame
    refine hi.frame ?_ ?_ ?_ ?_ ?_ hsame
    · rw [hdropped, hpoll]
      exact hi.idle
    · refine hi.point.of_eq hhalf hpoll ?_
      rw [hsame.2.1]
      exact id
    · rw [hhalf]
    · rw [hhalf, hdropped]
      exact fun h => ⟨rfl, h⟩
    · rw [hdropped]
      exact id
  cases hst with
  | begins entry idle kept =>
    rename_i poll
    have hpast : ShutdownHistory.record s e past = past ∧ poll.shutting = false := by
      cases e <;> cases entry <;> exact ⟨rfl, rfl⟩
    rw [hpast.1]
    refine hi.frame ?_ (.of_other hpast.2) rfl (fun h => ⟨rfl, h⟩) id ⟨rfl, rfl, rfl, rfl, rfl⟩
    intro h
    rw [show s.dropped = true from h] at kept
    cases kept
  | access hadv =>
    have hkept : s.dropped = false := by
      cases hdropped : s.dropped with
      | false => rfl
      | true => simp [WriteSystem.advance, hi.idle hdropped] at hadv
    simp only [ShutdownHistory.record, hadv]
    exact hi.access hkept (.of_access hinv hi (.of_advance hadv))
  | drop idle kept =>
    exact hi.frame (fun _ => idle) (.of_other (by rw [show s.poll = _ from idle]; rfl))
      rfl (fun h => by cases h)
      (fun _ => rfl) ⟨rfl, rfl, rfl, rfl, rfl⟩
  | rebindRefused closed => exact hi
  | rebindUpgrades isOpen => exact hrebind rfl rfl rfl ⟨rfl, rfl, rfl, rfl, rfl⟩
  | rebindStores call => exact hrebind rfl rfl rfl ⟨rfl, rfl, rfl, rfl, rfl⟩
  | rebindSends call => exact hrebind rfl rfl rfl ⟨rfl, rfl, rfl, rfl, rfl⟩
  | writer hst => exact hi.writer hinv hC hst
  | abort gone running =>
    have hidle := hi.idle gone
    exact hi.dropReceivers hinv running (.inl gone)
      (by rw [hidle]; exact ⟨(fun h => by cases h), fun h => by cases h⟩)

/-- **Run lemma.** -/
theorem shutInv_of_reaches {x : WriteSystem × ShutdownHistory}
    (h : writeSystemWithShutdown.ReachesWhere (fun x e => x.1.keepsReceivers e = true) x) :
    WriteInv x.1 ∧ ShutInv x.1 x.2 := by
  refine Machine.ReachesWhere.invariant (M := writeSystemWithShutdown)
    (I := fun x => WriteInv x.1 ∧ ShutInv x.1 x.2) ⟨writeInv_init, shutInv_init⟩ ?_ h
  rintro ⟨s, past⟩ e ⟨s', past'⟩ ⟨hinv, hi⟩ hC hst
  obtain ⟨hst, rfl⟩ := Machine.withHistory_step hst
  exact ⟨hinv.step hst, hi.step hinv hC (.of_step hst)⟩

end RtpMux

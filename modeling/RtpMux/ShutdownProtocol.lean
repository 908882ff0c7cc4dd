import RtpMux.ShutdownInv

/-!
# The shutdown protocol of the write half

`poll_shutdown` puts one `Shutdown` command on the channel, waits for the outcome of `finalize`
and then for the end of the background task, and reports the outcome once. `ShutdownProtocol` is
what a caller can rely on; it is read off the invariant `ShutInv`.

There is one gap. `poll_shutdown` looks at the stored error first and reserves a slot and sends
afterwards. If the background writer drops its receivers in between, the call fails with "write
channel closed during shutdown" and not with the error, or, if the slot is reserved by then, the
command goes onto a channel that nobody reads, its reply is never answered, and every later
`poll_shutdown` returns `Pending` (`shutdown_hangs`). `WriteSystem.keepsReceivers` excludes this
and nothing else; `shutdown_protocol` says that the rest is right.
-/

namespace RtpMux

open WriteSystem

/-! ## What the protocol promises -/

/-- Let the poll in progress make its accesses, at most `n` of them. -/
def WriteSystem.finish : Nat → WriteSystem → Option WriteSystem
  | 0, s => some s
  | n + 1, s =>
    match s.poll with
    | .idle => some s
    | _ => s.advance.bind (finish n)

/-- What a call of `poll_shutdown` returns that nobody interrupts. It makes at most five
accesses. -/
def WriteSystem.callShutdown (s : WriteSystem) : Option (Poll (Except IoError Unit)) :=
  match (s.begin .shutdownCheck).bind (finish 5) with
  | some s' =>
    match s'.log with
    | .pollShutdown result :: _ => some result
    | _ => none
  | none => none

/-- The shutdown protocol. -/
structure ShutdownProtocol (s : WriteSystem) (past : ShutdownHistory) : Prop where
  /-- the `Shutdown` command is put on the channel at most once, and nothing after it -/
  once : ∀ later reply earlier, past.sent = later ++ .shutdown reply :: earlier →
    later = [] ∧ ∀ r, WriteCommand.shutdown r ∉ earlier
  /-- `Ready` only after the background task has ended -/
  ended : ∀ result, .pollShutdown (.ready result) ∈ s.log → s.background = .ended
  /-- no poll panics -/
  running : s.poll ≠ .idle → s.advance ≠ none
  /-- the outcome is returned once, and `Ok` afterwards -/
  outcome : readyShutdowns s.log = [] ∨ ∃ n result,
    readyShutdowns s.log = List.replicate n (.ok ()) ++ [result] ∧ ShutdownOutcome s past result
  /-- and it is returned: nothing keeps `poll_shutdown` once the background task has ended -/
  answers : s.background = .ended → s.poll = .idle → s.dropped = false →
    ∃ result, s.callShutdown = some (.ready result)
  /-- after the command, writes and flushes fail or are pending -/
  refused : ∀ log, past.sentAt = some log →
    ∃ later, s.log = later ++ log ∧ ∀ ev ∈ later, ev.refused = true

/-! ## The protocol -/

/-- A poll that has returned makes no more accesses. -/
theorem WriteSystem.finish_idle {s : WriteSystem} (h : s.poll = .idle) (n : Nat) :
    finish n s = some s := by
  cases n with
  | zero => rfl
  | succ n => simp only [finish, h]

/-- One access. -/
theorem WriteSystem.finish_succ {s s' : WriteSystem} (h : s.advance = some s') (n : Nat) :
    finish (n + 1) s = finish n s' := by
  cases hpoll : s.poll with
  | idle => simp [WriteSystem.advance, hpoll] at h
  | _ => simp only [finish, hpoll, h, Option.bind_some]

/-- What a call of `poll_shutdown` does after its first access. -/
theorem WriteSystem.callShutdown_eq {s t : WriteSystem} {result : Poll (Except IoError Unit)}
    (hpoll : s.poll = .idle) (hkept : s.dropped = false)
    (hfinish : finish 4 (advanceShutdownCheck (s.goto .shutdownCheck)) =
      some (t.ret (.pollShutdown result))) : s.callShutdown = some result := by
  have hbegin : s.begin .shutdownCheck = some (s.goto .shutdownCheck) := by
    simp only [WriteSystem.begin, hpoll, hkept]
  have hcheck : finish 5 (s.goto .shutdownCheck) = some (t.ret (.pollShutdown result)) := by
    have hadvance : (s.goto .shutdownCheck).advance =
        some (advanceShutdownCheck (s.goto .shutdownCheck)) := rfl
    rw [finish_succ hadvance]
    exact hfinish
  simp only [callShutdown, hbegin, Option.bind_some, hcheck, WriteSystem.ret]

/-- At the epilog, after the background task has ended, the result is reported. -/
theorem WriteSystem.finish_epilog {s : WriteSystem} {result : Except IoError Unit}
    (hpoll : s.poll = .shutdownEpilog) (hended : s.background = .ended)
    (hresult : s.half.shutdownResult = some result) (n : Nat) :
    finish (n + 1) s = some (ret { s with
      half := { s.half with shutdownComplete := true, shutdownResult := none } }
      (.pollShutdown (.ready result))) := by
  have hadvance : s.advance = some (ret { s with
      half := { s.half with shutdownComplete := true, shutdownResult := none } }
      (.pollShutdown (.ready result))) := by
    simp only [WriteSystem.advance, hpoll, advanceShutdownEpilog, hended, hresult]
  rw [finish_succ hadvance]
  exact finish_idle rfl n

namespace ShutInv

variable {s : WriteSystem} {past : ShutdownHistory} (hi : ShutInv s past)
include hi

/-- No poll panics: the epilog has a result to report. -/
theorem running (h : s.poll ≠ .idle) : s.advance ≠ none := by
  cases hpoll : s.poll with
  | idle => exact absurd hpoll h
  | shutdownEpilog =>
    obtain ⟨result, hresult⟩ := Option.ne_none_iff_exists'.mp (hi.point.stored hpoll)
    simp only [WriteSystem.advance, hpoll, advanceShutdownEpilog, hresult]
    split <;> exact Option.some_ne_none _
  | _ =>
    simp only [WriteSystem.advance, hpoll]
    exact Option.some_ne_none _

/-- After the end of the background task the answer to the shutdown command is in, or it was. -/
theorem answer_in (hended : s.background = .ended) (hkept : s.dropped = false)
    (hstarted : s.half.shutdownStarted = true) (hincomplete : s.half.shutdownComplete = false) :
    ∃ half result, s.pollPendingControl.2 = { s with half := half } ∧
      half.shutdownResult = some result ∧
      ∃ kind, s.pollPendingControl.1 = .ready (.ok kind) := by
  have hctl := ControlAnswer.of s
  generalize s.pollPendingControl = answer at hctl ⊢
  cases hctl with
  | none nothing =>
    rcases hi.kept hstarted with h | h | h
    · rw [hincomplete] at h
      cases h
    · obtain ⟨result, hresult⟩ := Option.ne_none_iff_exists'.mp h
      exact ⟨s.half, result, rfl, hresult, _, rfl⟩
    · exact absurd nothing h
  | waiting control unsent unclosed =>
    rename_i pending
    obtain ⟨kind, reply⟩ := pending
    obtain rfl : kind = .shutdown := (hi.pending _ control).mpr hstarted
    exfalso
    cases hi.reply hkept reply control with
    | queued unanswered receiving mem =>
      rw [hended] at receiving
      cases receiving
    | serving unanswered pc =>
      rw [hended] at pc
      cases pc
    | answering unanswered pc =>
      rw [hended] at pc
      cases pc
    | sent answer outcome => exact unsent _ answer
    | closed answer none failed => exact unclosed answer
  | flushed control sent => cases (hi.pending _ control).mpr hstarted
  | flushFails control => cases (hi.pending _ control).mpr hstarted
  | shutDown control answer => exact ⟨_, _, rfl, rfl, _, rfl⟩

/-- Once the background task has ended, `poll_shutdown` has something to report. -/
theorem answers (hended : s.background = .ended) (hpoll : s.poll = .idle)
    (hkept : s.dropped = false) : ∃ result, s.callShutdown = some (.ready result) := by
  cases hcomplete : s.half.shutdownComplete with
  | true =>
    have hcheck : advanceShutdownCheck (s.goto .shutdownCheck) =
        (s.goto .shutdownCheck).ret (.pollShutdown (.ready (.ok ()))) := by
      simp only [advanceShutdownCheck, WriteSystem.goto, hcomplete, if_true]
    refine ⟨.ok (), callShutdown_eq hpoll hkept (t := s.goto .shutdownCheck) ?_⟩
    rw [hcheck]
    exact finish_idle rfl 4
  | false =>
    cases hstarted : s.half.shutdownStarted with
    | false =>
      -- there is no outcome, so there is an error
      have herror : s.backgroundError ≠ none := by
        rcases hi.stops (by rw [hended]; rfl) with h | h | h
        · rw [hkept] at h
          cases h
        · exact h
        · exact absurd (hi.unstarted hstarted).1 h
      have hcheck : advanceShutdownCheck (s.goto .shutdownCheck) =
          (s.goto .shutdownCheck).failShutdown (s.backgroundIoError "background write error") := by
        simp [advanceShutdownCheck, WriteSystem.goto, hcomplete, hstarted,
          Option.isSome_iff_ne_none.mpr herror, backgroundIoError]
      refine ⟨.error (s.backgroundIoError "background write error"), ?_⟩
      apply callShutdown_eq hpoll hkept
      rw [hcheck]
      refine finish_epilog rfl ?_ rfl 3
      exact hended
    | true =>
      have hcheck : advanceShutdownCheck (s.goto .shutdownCheck) = s.goto .shutdownControl := by
        simp [advanceShutdownCheck, WriteSystem.goto, hcomplete, hstarted]
      have hcontrol : ShutInv (s.goto .shutdownControl) past :=
        hi.quiet hkept (.refl s)
          ⟨fun _ => hcomplete, (fun h => by cases h), by simp, fun _ => hstarted,
            fun h => by cases h⟩
          (.inl rfl)
      obtain ⟨half, result, hhalf, hresult, kind, hanswer⟩ :=
        hcontrol.answer_in hended hkept hstarted hcomplete
      have hadvance : (s.goto .shutdownControl).advance =
          some (WriteSystem.goto { s with half := half } .shutdownEpilog) := by
        have heq : (s.goto .shutdownControl).pollPendingControl =
            (.ready (.ok kind), { s.goto .shutdownControl with half := half }) :=
          Prod.ext hanswer hhalf
        simp only [WriteSystem.advance, WriteSystem.goto, advanceShutdownControl] at heq ⊢
        rw [heq]
      refine ⟨result, ?_⟩
      apply callShutdown_eq hpoll hkept
      rw [hcheck, finish_succ hadvance]
      refine finish_epilog rfl ?_ hresult 2
      exact hended

end ShutInv

/-- **The shutdown protocol** holds in every run in which the background writer does not drop its
receivers while a `poll_shutdown` is between its check for an error and its send. -/
theorem shutdown_protocol {s : WriteSystem} {past : ShutdownHistory}
    (h : writeSystemWithShutdown.ReachesWhere (fun x e => x.1.keepsReceivers e = true) (s, past)) :
    ShutdownProtocol s past := by
  obtain ⟨-, hi⟩ := shutInv_of_reaches h
  refine ⟨?_, ?_, hi.running, ?_, hi.answers, fun log hlog => (hi.sentAt log hlog).2⟩
  · exact fun later reply earlier heq => (hi.last later reply earlier heq).2
  · intro result hmem
    cases hcomplete : s.half.shutdownComplete with
    | true => exact (hi.complete hcomplete).2
    | false =>
      have hready : result ∈ readyShutdowns s.log := List.mem_filterMap.mpr ⟨_, hmem, rfl⟩
      rw [hi.unreturned hcomplete] at hready
      cases hready
  · cases hcomplete : s.half.shutdownComplete with
    | true => exact .inr (hi.returned hcomplete)
    | false => exact .inl (hi.unreturned hcomplete)

/-- A shutdown is sent behind one write; the answer is picked up by a second write, and
`poll_shutdown` reports it and then repeats `Ok`. -/
theorem shutdown_reported_once :
    ∃ s past, writeSystemWithShutdown.ReachesWhere (fun x e => x.1.keepsReceivers e = true)
      (s, past) ∧ past.sent.length = 2 ∧ past.finalized = some (.error ⟨"fin"⟩) ∧
      readyShutdowns s.log = [.ok (), .error ⟨"fin"⟩] ∧ ShutdownProtocol s past := by
  have hrun : ∃ s past, writeSystemWithShutdown.ReachesWhere
      (fun x e => x.1.keepsReceivers e = true) (s, past) ∧ past.sent.length = 2 ∧
      past.finalized = some (.error ⟨"fin"⟩) ∧
      readyShutdowns s.log = [.ok (), .error ⟨"fin"⟩] :=
    ⟨_, _, ⟨[.pollWrite [[1]], .advance, .advance, .advance, .advance,
      .pollShutdown, .advance, .advance, .advance, .advance,
      .background, .background, .writerResult (.ok ()), .background, .background,
      .writerResult (.error ⟨"fin"⟩), .background, .pollWrite [[2]], .advance,
      .background, .background, .pollShutdown, .advance, .advance, .advance,
      .pollShutdown, .advance], Machine.run_of_exec rfl⟩, rfl, rfl, rfl⟩
  obtain ⟨s, past, h, hsent, hfinal, hready⟩ := hrun
  exact ⟨s, past, h, hsent, hfinal, hready, shutdown_protocol h⟩

/-- **A shutdown that hangs.** A write fails while a `poll_shutdown` is between its check and its
send. The command goes onto a channel without a receiver: the background task has ended with an
error, and `poll_shutdown` returns `Pending`. -/
theorem shutdown_hangs :
    ∃ s past, writeSystemWithShutdown.Reaches (s, past) ∧ s.background = .ended ∧
      s.backgroundError = some ⟨"io"⟩ ∧ s.callShutdown = some .pending ∧
      ¬ ShutdownProtocol s past := by
  have hrun : ∃ s past, writeSystemWithShutdown.Reaches (s, past) ∧ s.background = .ended ∧
      s.backgroundError = some ⟨"io"⟩ ∧ s.callShutdown = some .pending ∧ s.poll = .idle ∧
      s.dropped = false :=
    ⟨_, _, ⟨[.pollWrite [[1]], .advance, .advance, .advance, .advance, .background, .background,
      .pollShutdown, .advance, .advance, .writerResult (.error ⟨"io"⟩), .background, .background,
      .advance, .advance], Machine.run_of_exec rfl⟩, rfl, rfl, rfl, rfl, rfl⟩
  obtain ⟨s, past, h, hended, herror, hcall, hpoll, hkept⟩ := hrun
  refine ⟨s, past, h, hended, herror, hcall, fun hprotocol => ?_⟩
  obtain ⟨result, hresult⟩ := hprotocol.answers hended hpoll hkept
  rw [hcall] at hresult
  cases hresult

end RtpMux

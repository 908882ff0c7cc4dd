import RtpMux.WriteStep
import Mathlib.Data.List.Infix

/-!
# Byte-stream fidelity of the write half

The bytes that reach the writer are the bytes that were accepted, in order. Three
functions read the log of a run: `acceptedBytes` concatenates what `poll_write` calls
took, `passedBytes` what was passed to `write_all`, and `writtenBytes` what was passed to
a `write_all` that succeeded.

As long as the background task receives commands, the accepted bytes are the passed ones
followed by those in the queue (`WriteInv.balance`); when it stops, what it passed so far
stays a prefix. The rest of `WriteInv` follows the end of the stream: a shutdown command
is the last command of the queue, so that everything was passed when `finalize` is called
for it (`Finished`), and `Finished` travels with the answer until `poll_shutdown` reports
it.
-/

namespace RtpMux

open WriteSystem

/-! ## Reading the log -/

/-- The bytes a `poll_write` that returned `Ready(Ok(n))` took: the first `n`. -/
def WriteLog.accepted : WriteLog → List UInt8
  | pollWrite bufs (.ready (.ok n)) => bufs.flatten.take n
  | _ => []

/-- The bytes passed in a call of `write_all`. -/
def WriteLog.passed : WriteLog → List UInt8
  | writeAll buf => buf
  | _ => []

/-- The bytes of a call of `write_all` that returned `Ok`. -/
def WriteLog.written : WriteLog → List UInt8
  | writeAllOk buf => buf
  | _ => []

/-- All accepted bytes, in call order. -/
def acceptedBytes : List WriteLog → List UInt8
  | [] => []
  | ev :: log => acceptedBytes log ++ ev.accepted

/-- The buffers passed to `write_all`, concatenated. -/
def passedBytes : List WriteLog → List UInt8
  | [] => []
  | ev :: log => passedBytes log ++ ev.passed

/-- The buffers passed to a `write_all` that returned `Ok`, concatenated. -/
def writtenBytes : List WriteLog → List UInt8
  | [] => []
  | ev :: log => writtenBytes log ++ ev.written

/-- The bytes of the data commands in a queue. -/
def queuedBytes : List WriteCommand → List UInt8
  | [] => []
  | .data buf :: queue => buf ++ queuedBytes queue
  | _ :: queue => queuedBytes queue

/-- The bytes of two queues. -/
theorem queuedBytes_append (q q' : List WriteCommand) :
    queuedBytes (q ++ q') = queuedBytes q ++ queuedBytes q' := by
  induction q with
  | nil => rfl
  | cons command q ih =>
    cases command with
    | data buf => simp [queuedBytes, ih]
    | flush reply => simpa [queuedBytes] using ih
    | shutdown reply => simpa [queuedBytes] using ih

/-- The part of the log before some call of `finalize` already passed everything that the
whole log accepted. -/
def FinalizedAll (log : List WriteLog) : Prop :=
  ∃ after before, log = after ++ .finalize :: before ∧ passedBytes before = acceptedBytes log

/-- Byte-stream fidelity: what was passed to the writer is a prefix of what was accepted; no
command is larger than a chunk; and when the shutdown that sent its command (the first one
to complete) reports success, everything was passed before `finalize` was called. -/
structure ByteStreamFidelity (s : WriteSystem) : Prop where
  isPrefix : passedBytes s.log <+: acceptedBytes s.log
  chunk : ∀ buf, WriteCommand.data buf ∈ s.queue ∨ WriteLog.writeAll buf ∈ s.log →
    buf.length ≤ writeMaxChunk
  shutdown : ∀ later earlier, s.log = later ++ .pollShutdown (.ready (.ok ())) :: earlier →
    (∀ result, .pollShutdown (.ready result) ∉ earlier) → FinalizedAll earlier

/-! ## Chunking -/

/-- The copying loop takes the first bytes of the concatenation. -/
theorem fillChunk_eq (chunk : Nat) (bufs : List (List UInt8)) (data : List UInt8) :
    fillChunk chunk data bufs = data ++ bufs.flatten.take (chunk - data.length) := by
  induction bufs generalizing data with
  | nil => simp [fillChunk]
  | cons buf bufs ih =>
    simp only [fillChunk]
    split
    · rename_i hfull
      simp [hfull]
    · rw [ih, List.flatten_cons, List.append_assoc, List.take_append]
      congr 1
      have htake : buf.take (min buf.length (chunk - data.length)) =
          buf.take (chunk - data.length) := by
        rw [List.take_eq_take_iff]
        omega
      rw [htake]
      congr 2
      simp only [List.length_append, List.length_take]
      omega

/-- The saturating sum of the lengths is the length of the concatenation, capped. -/
theorem foldl_saturating_le (bufs : List (List UInt8)) (total : Nat) (h : total ≤ usizeMax) :
    bufs.foldl (fun total buf => min (total + buf.length) usizeMax) total =
      min (total + bufs.flatten.length) usizeMax := by
  induction bufs generalizing total with
  | nil => simp [h]
  | cons buf bufs ih =>
    rw [List.foldl_cons, ih _ (Nat.min_le_right _ _)]
    simp only [List.flatten_cons, List.length_append]
    omega

/-- The chunk is the length of the data, capped. -/
theorem chunkLen_eq (bufs : List (List UInt8)) :
    chunkLen bufs = min bufs.flatten.length writeMaxChunk := by
  have hcap : writeMaxChunk ≤ usizeMax := by decide
  rw [chunkLen, foldl_saturating_le bufs 0 (Nat.zero_le _), Nat.zero_add]
  omega

/-- A chunk is never longer than its bound. -/
theorem length_fillChunk (bufs : List (List UInt8)) :
    (fillChunk (chunkLen bufs) [] bufs).length ≤ writeMaxChunk := by
  have hcap : chunkLen bufs ≤ writeMaxChunk := by
    rw [chunkLen_eq]
    exact Nat.min_le_right _ _
  rw [fillChunk_eq]
  simp only [List.nil_append, List.length_take, List.length_nil, Nat.sub_zero]
  omega

/-! ## The invariant -/

/-- The poll holds a reserved slot of the channel. -/
def HalfPc.sending : HalfPc → Bool
  | writeSend _ => true
  | flushSend => true
  | shutdownSend => true
  | _ => false

/-- The poll has seen that no shutdown was started. -/
def HalfPc.unstarted : HalfPc → Bool
  | writeReserve _ => true
  | writeSend _ => true
  | flushReserve => true
  | flushSend => true
  | shutdownReserve => true
  | shutdownSend => true
  | _ => false

/-- The shutdown command was sent, and `finalize` was called with everything passed. -/
def WriteSystem.Finished (s : WriteSystem) : Prop :=
  s.half.shutdownStarted = true ∧ FinalizedAll s.log

/-- Where a successful answer to a shutdown command can be. -/
inductive WriteSystem.ShutdownOk (s : WriteSystem) : Prop where
  | finalizing {reply} (h : s.background = .finalizing (some reply))
  | replying {reply result stop} (h : s.background = .replying reply result stop)
      (hkind : reply.kind = .shutdown) (hok : result = .ok ())
  | sent {reply result} (h : s.replies.lookup reply = some (.sent result))
      (hkind : reply.kind = .shutdown) (hok : result = .ok ())
  | kept {result} (h : s.half.shutdownResult = some result) (hok : result = .ok ())

/-- The shutdown's part depends on the writer, the replies and the result only. -/
theorem WriteSystem.ShutdownOk.of_eq {s s' : WriteSystem} (h : s'.ShutdownOk)
    (hbackground : s'.background = s.background) (hreplies : s'.replies = s.replies)
    (hresult : s'.half.shutdownResult = s.half.shutdownResult) : s.ShutdownOk := by
  cases h with
  | finalizing hbg => exact .finalizing (hbackground ▸ hbg)
  | replying hbg hkind hok => exact .replying (hbackground ▸ hbg) hkind hok
  | sent hsent hkind hok => exact .sent (hreplies ▸ hsent) hkind hok
  | kept hkept hok => exact .kept (hresult ▸ hkept) hok

/-- The invariant behind byte-stream fidelity. -/
structure WriteInv (s : WriteSystem) : Prop where
  /-- while commands are received, what was accepted is passed or queued -/
  balance : s.background.receiving = true →
    acceptedBytes s.log = passedBytes s.log ++ queuedBytes s.queue
  isPrefix : passedBytes s.log <+: acceptedBytes s.log
  chunkQueue : ∀ buf, WriteCommand.data buf ∈ s.queue → buf.length ≤ writeMaxChunk
  chunkLog : ∀ buf, WriteLog.writeAll buf ∈ s.log → buf.length ≤ writeMaxChunk
  /-- a poll sends only with a reserved slot -/
  permit : s.poll.sending = true → s.half.writeTx.state = .readyToSend
  unstarted : s.poll.unstarted = true → s.half.shutdownStarted = false
  /-- nothing follows a shutdown command -/
  last : ∀ before reply after, s.queue = before ++ .shutdown reply :: after →
    after = [] ∧ s.half.shutdownStarted = true
  flushKind : ∀ reply, WriteCommand.flush reply ∈ s.queue ∨ s.background = .flushing reply →
    reply.kind = .flush
  pendingKind : ∀ pending, s.half.pendingControl = some pending → pending.reply.kind = pending.kind
  /-- wherever a success of the shutdown is, everything was passed -/
  finished : s.ShutdownOk → s.Finished
  complete : s.half.shutdownComplete = true → ∃ result, .pollShutdown (.ready result) ∈ s.log
  shutdown : ∀ later earlier, s.log = later ++ .pollShutdown (.ready (.ok ())) :: earlier →
    (∀ result, .pollShutdown (.ready result) ∉ earlier) → FinalizedAll earlier

/-- The invariant gives the fidelity of the stream. -/
theorem WriteInv.fidelity {s : WriteSystem} (h : WriteInv s) : ByteStreamFidelity s :=
  ⟨h.isPrefix, fun buf hbuf => hbuf.elim (h.chunkQueue buf) (h.chunkLog buf), h.shutdown⟩

/-- The stream starts empty. -/
theorem writeInv_init : WriteInv WriteSystem.init where
  balance := fun _ => rfl
  isPrefix := List.prefix_refl _
  chunkQueue := by simp [WriteSystem.init]
  chunkLog := by simp [WriteSystem.init]
  permit := nofun
  unstarted := nofun
  last := by simp [WriteSystem.init]
  flushKind := by simp [WriteSystem.init]
  pendingKind := by simp [WriteSystem.init]
  finished := by rintro (h | h | h | h) <;> simp [WriteSystem.init] at h
  complete := nofun
  shutdown := by simp [WriteSystem.init]

/-- An event that accepts nothing leaves all finalized. -/
theorem FinalizedAll.cons {log : List WriteLog} (h : FinalizedAll log) {ev : WriteLog}
    (hev : ev.accepted = []) : FinalizedAll (ev :: log) := by
  obtain ⟨after, before, rfl, hpassed⟩ := h
  refine ⟨ev :: after, before, rfl, ?_⟩
  rw [hpassed, acceptedBytes, hev, List.append_nil]

/-! ## Steps of the half -/

/-- The half changes; its shutdown flags stay, and a success it keeps is a real one. -/
theorem WriteInv.of_half {s : WriteSystem} (h : WriteInv s) (half : MigratingWriteHalf)
    (hstarted : half.shutdownStarted = s.half.shutdownStarted)
    (hcomplete : half.shutdownComplete = true → ∃ result, .pollShutdown (.ready result) ∈ s.log)
    (hpermit : s.poll.sending = true → half.writeTx.state = .readyToSend)
    (hpending : ∀ pending, half.pendingControl = some pending →
      pending.reply.kind = pending.kind)
    (hresult : half.shutdownResult = some (.ok ()) → s.Finished) :
    WriteInv { s with half := half } where
  balance := h.balance
  isPrefix := h.isPrefix
  chunkQueue := h.chunkQueue
  chunkLog := h.chunkLog
  permit := hpermit
  unstarted := fun hpc => hstarted.trans (h.unstarted hpc)
  last := fun before reply after hq => (h.last before reply after hq).imp_right hstarted.trans
  flushKind := h.flushKind
  pendingKind := hpending
  finished := by
    have hfin : s.Finished → WriteSystem.Finished { s with half := half } :=
      fun ⟨hs, hlog⟩ => ⟨hstarted.trans hs, hlog⟩
    rintro (⟨hbg⟩ | ⟨hbg, hkind, hok⟩ | ⟨hsent, hkind, hok⟩ | ⟨hkept, rfl⟩)
    · exact hfin (h.finished (.finalizing hbg))
    · exact hfin (h.finished (.replying hbg hkind hok))
    · exact hfin (h.finished (.sent hsent hkind hok))
    · exact hfin (hresult hkept)
  complete := hcomplete
  shutdown := h.shutdown

/-- Moving to another point keeps the invariant. -/
theorem WriteInv.goto {s : WriteSystem} (h : WriteInv s) {poll : HalfPc}
    (hpermit : poll.sending = true → s.half.writeTx.state = .readyToSend)
    (hunstarted : poll.unstarted = true → s.half.shutdownStarted = false) :
    WriteInv (s.goto poll) where
  balance := h.balance
  isPrefix := h.isPrefix
  chunkQueue := h.chunkQueue
  chunkLog := h.chunkLog
  permit := hpermit
  unstarted := hunstarted
  last := h.last
  flushKind := h.flushKind
  pendingKind := h.pendingKind
  finished := fun hok => h.finished (hok.of_eq rfl rfl rfl)
  complete := h.complete
  shutdown := h.shutdown

/-- An entry of the log that neither accepts nor passes bytes. -/
theorem WriteInv.log {s : WriteSystem} (h : WriteInv s) {ev : WriteLog} (hacc : ev.accepted = [])
    (hpass : ev.passed = []) (hwrite : ∀ buf, ev ≠ .writeAll buf)
    (hshut : ev = .pollShutdown (.ready (.ok ())) →
      FinalizedAll s.log ∨ ∃ result, .pollShutdown (.ready result) ∈ s.log) :
    WriteInv { s with log := ev :: s.log } where
  balance := by
    simp only [acceptedBytes, passedBytes, hacc, hpass, List.append_nil]
    exact h.balance
  isPrefix := by
    simp only [acceptedBytes, passedBytes, hacc, hpass, List.append_nil]
    exact h.isPrefix
  chunkQueue := h.chunkQueue
  chunkLog := by
    intro buf hbuf
    rcases List.mem_cons.mp hbuf with heq | hbuf
    · exact absurd heq.symm (hwrite buf)
    · exact h.chunkLog buf hbuf
  permit := h.permit
  unstarted := h.unstarted
  last := h.last
  flushKind := h.flushKind
  pendingKind := h.pendingKind
  finished := by
    intro hok
    obtain ⟨hs, hlog⟩ := h.finished (hok.of_eq rfl rfl rfl)
    exact ⟨hs, hlog.cons hacc⟩
  complete := by
    intro hc
    obtain ⟨result, hmem⟩ := h.complete hc
    exact ⟨result, List.mem_cons_of_mem _ hmem⟩
  shutdown := by
    intro later earlier hlog hfirst
    cases later with
    | nil =>
      obtain ⟨rfl, rfl⟩ := List.cons.inj hlog
      rcases hshut rfl with hfin | ⟨result, hmem⟩
      · exact hfin
      · exact absurd hmem (hfirst result)
    | cons ev' later =>
      exact h.shutdown later earlier (List.cons.inj hlog).2 hfirst

/-- A poll returns without having taken bytes. -/
theorem WriteInv.ret {s : WriteSystem} (h : WriteInv s) {ev : WriteLog} (hacc : ev.accepted = [])
    (hpass : ev.passed = []) (hwrite : ∀ buf, ev ≠ .writeAll buf)
    (hshut : ev = .pollShutdown (.ready (.ok ())) →
      FinalizedAll s.log ∨ ∃ result, .pollShutdown (.ready result) ∈ s.log) :
    WriteInv (s.ret ev) := by
  have hidle : WriteInv (s.goto .idle) := h.goto nofun nofun
  exact hidle.log hacc hpass hwrite hshut

/-- A control poll keeps the invariant. -/
theorem WriteInv.control {s s₁ : WriteSystem} {answer : Poll (Except IoError (Option ControlKind))}
    (h : WriteInv s) (hpoll : s.poll.sending = false) (hctl : ControlAnswer s (answer, s₁)) :
    WriteInv s₁ := by
  have hsend : ∀ {p : Prop}, s.poll.sending = true → p := by
    intro p hp
    rw [hpoll] at hp
    cases hp
  cases hctl with
  | none | waiting => exact h
  | flushed | flushFails =>
    exact h.of_half _ rfl h.complete hsend nofun fun hr => h.finished (.kept hr rfl)
  | shutDown control answer =>
    refine h.of_half _ rfl h.complete hsend nofun fun hr => ?_
    rcases answer with ⟨sent, hsent, rfl⟩ | ⟨-, rfl⟩
    · cases sent with
      | ok u => exact h.finished (.sent hsent (h.pendingKind _ control) rfl)
      | error error => cases hr
    · cases hr

/-- A reservation keeps the invariant. -/
theorem WriteInv.reserve {s s₁ : WriteSystem} {answer : Poll (Except Unit Unit)} (h : WriteInv s)
    (hpoll : s.poll.sending = false) (hres : ReserveAnswer s (answer, s₁)) : WriteInv s₁ := by
  have hhalf : ∀ state, WriteInv
      { s with half := { s.half with writeTx := { s.half.writeTx with state := state } } } := by
    intro state
    refine h.of_half _ rfl h.complete (fun hp => ?_) h.pendingKind
      fun hr => h.finished (.kept hr rfl)
    rw [hpoll] at hp
    cases hp
  cases hres with
  | ready | closed | full => exact hhalf _

/-- After `poll_reserve` the poll may go on to send. -/
theorem WriteInv.reserved {s s₁ : WriteSystem} (h : WriteInv s) {poll : HalfPc}
    (hsending : s.poll.sending = false) (hunstarted : s.poll.unstarted = true)
    (hres : ReserveAnswer s (.ready (.ok ()), s₁)) : WriteInv (s₁.goto poll) := by
  have hafter := h.reserve hsending hres
  cases hres with
  | ready => exact hafter.goto (fun _ => rfl) fun _ => h.unstarted hunstarted

/-- A shutdown that fails keeps the invariant. -/
theorem WriteInv.failShutdown {s : WriteSystem} (h : WriteInv s) (error : IoError) :
    WriteInv (s.failShutdown error) := by
  have hepilog : WriteInv (s.goto .shutdownEpilog) := h.goto nofun nofun
  exact hepilog.of_half { s.half with
    writeTx := s.half.writeTx.close
    shutdownResult := some (.error error) } rfl h.complete nofun h.pendingKind nofun

/-- A command that is not `Shutdown` is appended by a half that has not sent one. -/
theorem last_append {queue : List WriteCommand} {command : WriteCommand} {started : Bool}
    (h : ∀ before reply after, queue = before ++ .shutdown reply :: after →
      after = [] ∧ started = true) (hstarted : started = false)
    {before after : List WriteCommand} {reply : ReplyId}
    (hq : queue ++ [command] = before ++ .shutdown reply :: after) :
    command = .shutdown reply ∧ after = [] := by
  rcases List.eq_nil_or_concat after with rfl | ⟨after', last, rfl⟩
  · obtain ⟨-, hlast⟩ := List.append_inj' hq rfl
    exact ⟨by simpa using hlast, rfl⟩
  · have hq' : queue ++ [command] = (before ++ .shutdown reply :: after') ++ [last] := by
      simpa using hq
    obtain ⟨hfront, -⟩ := List.append_inj' hq' rfl
    obtain ⟨-, htrue⟩ := h before reply after' hfront
    rw [hstarted] at htrue
    cases htrue

/-- The data command is sent: the poll returns the length of the chunk it copied. -/
theorem WriteInv.writeSend {s : WriteSystem} (h : WriteInv s) {bufs : List (List UInt8)}
    (hpoll : s.poll = .writeSend bufs) : WriteInv (s.advanceWriteSend bufs) := by
  have hstarted : s.half.shutdownStarted = false := h.unstarted (by rw [hpoll]; rfl)
  obtain ⟨state, -, hsend⟩ :=
    advanceWriteSend_permit (h.permit (by rw [hpoll]; rfl)) bufs
  have hnot : ¬ s.Finished := by
    rintro ⟨htrue, -⟩
    rw [hstarted] at htrue
    cases htrue
  have hbytes : WriteLog.accepted (.pollWrite bufs (.ready (.ok (chunkLen bufs)))) =
      fillChunk (chunkLen bufs) [] bufs := by
    rw [fillChunk_eq]
    rfl
  -- the chunk goes to the queue and to the log in one step, so the balance holds
  rw [hsend]
  constructor
  case balance =>
    intro hrecv
    simp only [acceptedBytes, passedBytes, queuedBytes_append, queuedBytes, hbytes,
      WriteLog.passed, List.append_nil]
    rw [h.balance hrecv, List.append_assoc]
  case isPrefix =>
    simp only [acceptedBytes, passedBytes, WriteLog.passed, List.append_nil]
    exact h.isPrefix.trans (List.prefix_append _ _)
  case chunkQueue =>
    intro buf hbuf
    rcases List.mem_append.mp hbuf with hbuf | hbuf
    · exact h.chunkQueue buf hbuf
    · obtain rfl : buf = _ := by simpa using hbuf
      exact length_fillChunk bufs
  case chunkLog =>
    intro buf hbuf
    rcases List.mem_cons.mp hbuf with heq | hbuf
    · cases heq
    · exact h.chunkLog buf hbuf
  case permit => exact nofun
  case unstarted => exact nofun
  case last =>
    intro before reply after hq
    obtain ⟨hcmd, -⟩ := last_append h.last hstarted hq
    cases hcmd
  case flushKind =>
    intro reply hreply
    refine h.flushKind reply (hreply.imp_left fun hmem => ?_)
    simpa using hmem
  case pendingKind => exact h.pendingKind
  case finished => exact fun hok => absurd (h.finished (hok.of_eq rfl rfl rfl)) hnot
  case complete =>
    intro hc
    obtain ⟨result, hmem⟩ := h.complete hc
    exact ⟨result, List.mem_cons_of_mem _ hmem⟩
  case shutdown =>
    intro later earlier hlog hfirst
    cases later with
    | nil => cases (List.cons.inj hlog).1
    | cons ev later => exact h.shutdown later earlier (List.cons.inj hlog).2 hfirst

/-- A flush or a shutdown command is sent, with a new reply channel. -/
theorem WriteInv.sendControl {s : WriteSystem} (h : WriteInv s)
    (hstarted : s.half.shutdownStarted = false) (half : MigratingWriteHalf) (poll : HalfPc)
    (command : WriteCommand) (reply : ReplyId) (nextReply : Nat)
    (hcommand : command = .flush reply ∧ reply.kind = .flush ∨
      command = .shutdown reply ∧ half.shutdownStarted = true)
    (hpending : half.pendingControl = some ⟨reply.kind, reply⟩)
    (hcomplete : half.shutdownComplete = s.half.shutdownComplete)
    (hresult : half.shutdownResult = s.half.shutdownResult)
    (hsending : poll.sending = false) (hunstarted : poll.unstarted = false) :
    WriteInv { s with
      half := half
      poll := poll
      replies := s.replies.insert reply .waiting
      nextReply := nextReply
      queue := s.queue ++ [command] } := by
  have hnot : ¬ s.Finished := by
    rintro ⟨htrue, -⟩
    rw [hstarted] at htrue
    cases htrue
  have hdata : queuedBytes [command] = [] := by
    rcases hcommand with ⟨rfl, -⟩ | ⟨rfl, -⟩ <;> rfl
  constructor
  case balance =>
    intro hrecv
    simp only [queuedBytes_append, hdata, List.append_nil]
    exact h.balance hrecv
  case isPrefix => exact h.isPrefix
  case chunkQueue =>
    intro buf hbuf
    rcases List.mem_append.mp hbuf with hbuf | hbuf
    · exact h.chunkQueue buf hbuf
    · rcases hcommand with ⟨rfl, -⟩ | ⟨rfl, -⟩ <;> simp at hbuf
  case chunkLog => exact h.chunkLog
  case permit =>
    intro hp
    rw [show poll.sending = true from hp] at hsending
    cases hsending
  case unstarted =>
    intro hp
    rw [show poll.unstarted = true from hp] at hunstarted
    cases hunstarted
  case last =>
    intro before reply' after hq
    obtain ⟨hcmd, hnil⟩ := last_append h.last hstarted hq
    rcases hcommand with ⟨rfl, -⟩ | ⟨rfl, hs⟩
    · cases hcmd
    · exact ⟨hnil, hs⟩
  case flushKind =>
    rintro reply' (hmem | hbg)
    · rcases List.mem_append.mp hmem with hmem | hmem
      · exact h.flushKind reply' (.inl hmem)
      · rcases hcommand with ⟨rfl, hkind⟩ | ⟨rfl, -⟩
        · obtain rfl : reply' = reply := by simpa using hmem
          exact hkind
        · simp at hmem
    · exact h.flushKind reply' (.inr hbg)
  case pendingKind =>
    intro pending hp
    obtain rfl := Option.some.inj (hpending.symm.trans hp)
    rfl
  case finished =>
    rintro (⟨hbg⟩ | ⟨hbg, hkind, hok⟩ | ⟨hsent, hkind, hok⟩ | ⟨hkept, hok⟩)
    · exact absurd (h.finished (.finalizing hbg)) hnot
    · exact absurd (h.finished (.replying hbg hkind hok)) hnot
    · simp only [HashMap.lookup_insert_eq] at hsent
      split at hsent
      · cases hsent
      · exact absurd (h.finished (.sent hsent hkind hok)) hnot
    · exact absurd (h.finished (.kept (hresult.symm.trans hkept) hok)) hnot
  case complete => exact fun hc => h.complete (hcomplete.symm.trans hc)
  case shutdown => exact h.shutdown

/-- Sending a flush keeps the invariant. -/
theorem WriteInv.flushSend {s : WriteSystem} (h : WriteInv s) (hpoll : s.poll = .flushSend) :
    WriteInv s.advanceFlushSend := by
  obtain ⟨state, -, hsend⟩ := advanceFlushSend_permit (h.permit (by rw [hpoll]; rfl))
  rw [hsend]
  have hsent := h.sendControl (h.unstarted (by rw [hpoll]; rfl))
    { s.half with
      writeTx := { s.half.writeTx with state := state }
      pendingControl := some ⟨.flush, ⟨.flush, s.nextReply⟩⟩ }
    .idle (.flush ⟨.flush, s.nextReply⟩) ⟨.flush, s.nextReply⟩ (s.nextReply + 1)
    (.inl ⟨rfl, rfl⟩) rfl rfl rfl rfl rfl
  exact hsent.log rfl rfl nofun nofun

/-- Sending the shutdown keeps the invariant. -/
theorem WriteInv.shutdownSend {s : WriteSystem} (h : WriteInv s) (hpoll : s.poll = .shutdownSend) :
    WriteInv s.advanceShutdownSend := by
  obtain ⟨state, -, hsend⟩ := advanceShutdownSend_permit (h.permit (by rw [hpoll]; rfl))
  rw [hsend]
  exact h.sendControl (h.unstarted (by rw [hpoll]; rfl))
    { s.half with
      writeTx := { s.half.writeTx with state := state }
      shutdownStarted := true
      pendingControl := some ⟨.shutdown, ⟨.shutdown, s.nextReply⟩⟩ }
    .shutdownControl (.shutdown ⟨.shutdown, s.nextReply⟩) ⟨.shutdown, s.nextReply⟩
    (s.nextReply + 1) (.inr ⟨rfl, rfl⟩) rfl rfl rfl rfl rfl

/-- The epilog reports the kept result. -/
theorem WriteInv.report {s : WriteSystem} (h : WriteInv s) {result : Except IoError Unit}
    (hstored : s.half.shutdownResult = some result) :
    WriteInv (WriteSystem.ret { s with
      half := { s.half with shutdownComplete := true, shutdownResult := none } }
      (.pollShutdown (.ready result))) := by
  have hret : WriteInv (s.ret (.pollShutdown (.ready result))) := by
    refine h.ret rfl rfl nofun fun heq => .inl ?_
    cases heq
    exact (h.finished (.kept hstored rfl)).2
  exact hret.of_half { s.half with shutdownComplete := true, shutdownResult := none }
    rfl (fun _ => ⟨result, List.mem_cons_self⟩) nofun h.pendingKind nofun

/-- **The half.** Every access of a poll keeps the invariant. -/
theorem WriteInv.access {s s' : WriteSystem} (h : WriteInv s) (hst : AccessStep s s') :
    WriteInv s' := by
  cases hst with
  | writeShut pc control | writeFails pc control | writeWaits pc control | flushShut pc control
  | flushDone pc control | flushFails pc control | flushWaits pc control
  | shutdownWaits pc control =>
    exact (h.control (by rw [pc]; rfl) control).ret rfl rfl nofun nofun
  | writeGoes pc control | flushGoes pc control | shutdownAnswered pc control =>
    exact (h.control (by rw [pc]; rfl) control).goto nofun nofun
  | shutdownFails pc control => exact (h.control (by rw [pc]; rfl) control).failShutdown _
  | writeReserved pc reserve | flushReserved pc reserve | shutdownReserved pc reserve =>
    exact h.reserved (by rw [pc]; rfl) (by rw [pc]; rfl) reserve
  | writeNothing pc reserve =>
    exact (h.reserve (by rw [pc]; rfl) reserve).ret (by simp [WriteLog.accepted]) rfl nofun nofun
  | writeClosed pc reserve | writeFull pc reserve | flushClosed pc reserve
  | flushFull pc reserve | shutdownFull pc reserve =>
    exact (h.reserve (by rw [pc]; rfl) reserve).ret rfl rfl nofun nofun
  | shutdownClosed pc reserve => exact (h.reserve (by rw [pc]; rfl) reserve).failShutdown _
  | writeRefused | flushRefused | shutdownJoins => exact h.ret rfl rfl nofun nofun
  | writeChecked pc unstarted | flushChecked pc unstarted =>
    exact h.goto nofun fun _ => unstarted
  | shutdownChecked pc incomplete unstarted => exact h.goto nofun fun _ => unstarted
  | shutdownRepeats pc complete =>
    -- a completed shutdown reports success again
    exact h.ret rfl rfl nofun fun _ => .inr (h.complete complete)
  | shutdownResumes => exact h.goto nofun nofun
  | shutdownErrs => exact h.failShutdown _
  | shutdownReports pc ended stored => exact h.report stored
  | writeSends pc => exact h.writeSend pc
  | flushSends pc => exact h.flushSend pc
  | shutdownSends pc => exact h.shutdownSend pc

/-! ## Steps of the background writer -/

/-- The invariant does not speak about the mailbox, the wake channel and the stored error. -/
theorem WriteInv.of_eq {s s' : WriteSystem} (h : WriteInv s) (hhalf : s'.half = s.half)
    (hpoll : s'.poll = s.poll) (hqueue : s'.queue = s.queue) (hreplies : s'.replies = s.replies)
    (hbackground : s'.background = s.background) (hlog : s'.log = s.log) : WriteInv s' := by
  obtain ⟨half, poll, dropped, queue, replies, nextReply, error, latest, wake, upgraded, rebinds,
      rebindOpen,
    background, log⟩ := s'
  simp only at hhalf hpoll hqueue hreplies hbackground hlog
  subst hhalf hpoll hqueue hreplies hbackground hlog
  refine ⟨h.balance, h.isPrefix, h.chunkQueue, h.chunkLog, h.permit, h.unstarted, h.last,
    h.flushKind, h.pendingKind, ?_, h.complete, h.shutdown⟩
  exact fun hok => h.finished (hok.of_eq rfl rfl rfl)

/-- The background writer goes on elsewhere. -/
theorem WriteInv.resume {s : WriteSystem} (h : WriteInv s) {background : BackgroundPc}
    (hrecv : background.receiving = true → s.background.receiving = true)
    (hflush : ∀ reply, background = .flushing reply → reply.kind = .flush)
    (hfin : ∀ reply, background = .finalizing (some reply) → s.Finished)
    (hreply : ∀ reply result stop, background = .replying reply result stop →
      reply.kind = .shutdown → result = .ok () → s.Finished) :
    WriteInv (s.resume background) where
  balance := fun hr => h.balance (hrecv hr)
  isPrefix := h.isPrefix
  chunkQueue := h.chunkQueue
  chunkLog := h.chunkLog
  permit := h.permit
  unstarted := h.unstarted
  last := h.last
  flushKind := by
    rintro reply (hmem | hbg)
    · exact h.flushKind reply (.inl hmem)
    · exact hflush reply hbg
  pendingKind := h.pendingKind
  finished := by
    rintro (⟨hbg⟩ | ⟨hbg, hkind, hok⟩ | ⟨hsent, hkind, hok⟩ | ⟨hkept, hok⟩)
    · exact hfin _ hbg
    · exact hreply _ _ _ hbg hkind hok
    · exact h.finished (.sent hsent hkind hok)
    · exact h.finished (.kept hkept hok)
  complete := h.complete
  shutdown := h.shutdown

/-- A command without data is taken from the queue. -/
theorem WriteInv.pop {s : WriteSystem} (h : WriteInv s) {command : WriteCommand}
    {queue : List WriteCommand} (hq : s.queue = command :: queue)
    (hdata : queuedBytes [command] = []) : WriteInv { s with queue := queue } where
  balance := by
    intro hrecv
    have hbal := h.balance hrecv
    rw [hq, ← List.singleton_append, queuedBytes_append, hdata] at hbal
    exact hbal
  isPrefix := h.isPrefix
  chunkQueue := fun buf hbuf => h.chunkQueue buf (hq ▸ List.mem_cons_of_mem _ hbuf)
  chunkLog := h.chunkLog
  permit := h.permit
  unstarted := h.unstarted
  last := by
    intro before reply after hqueue
    refine h.last (command :: before) reply after ?_
    rw [hq, show queue = before ++ .shutdown reply :: after from hqueue]
    rfl
  flushKind := by
    rintro reply (hmem | hbg)
    · exact h.flushKind reply (.inl (hq ▸ List.mem_cons_of_mem _ hmem))
    · exact h.flushKind reply (.inr hbg)
  pendingKind := h.pendingKind
  finished := fun hok => h.finished (hok.of_eq rfl rfl rfl)
  complete := h.complete
  shutdown := h.shutdown

/-- A data command is taken from the queue and passed to `write_all`. -/
theorem WriteInv.serveData {s : WriteSystem} (h : WriteInv s) {buf : List UInt8}
    {queue : List WriteCommand} (hq : s.queue = .data buf :: queue)
    (hbg : s.background = .pollCommands) :
    WriteInv (serve { s with queue := queue } (.data buf)) := by
  have hbal : acceptedBytes s.log = passedBytes s.log ++ (buf ++ queuedBytes queue) := by
    have := h.balance (by rw [hbg]; rfl)
    rwa [hq] at this
  have hfin : s.Finished → (serve { s with queue := queue } (.data buf)).Finished :=
    fun ⟨hs, hlog⟩ => ⟨hs, hlog.cons rfl⟩
  -- the bytes leave the queue and are passed in one step
  constructor
  case balance =>
    intro _
    simp only [serve, WriteSystem.resume, acceptedBytes, passedBytes, WriteLog.accepted,
      WriteLog.passed, List.append_nil, hbal, List.append_assoc]
  case isPrefix =>
    simp only [serve, WriteSystem.resume, acceptedBytes, passedBytes, WriteLog.accepted,
      WriteLog.passed, List.append_nil, hbal, ← List.append_assoc]
    exact List.prefix_append _ _
  case chunkQueue => exact fun b hb => h.chunkQueue b (hq ▸ List.mem_cons_of_mem _ hb)
  case chunkLog =>
    intro b hb
    rcases List.mem_cons.mp hb with heq | hb
    · cases heq
      exact h.chunkQueue buf (hq ▸ List.mem_cons_self)
    · exact h.chunkLog b hb
  case permit => exact h.permit
  case unstarted => exact h.unstarted
  case last =>
    intro before reply after hqueue
    refine h.last (.data buf :: before) reply after ?_
    rw [hq, show queue = before ++ .shutdown reply :: after from hqueue]
    rfl
  case flushKind =>
    rintro reply (hmem | hflush)
    · exact h.flushKind reply (.inl (hq ▸ List.mem_cons_of_mem _ hmem))
    · cases hflush
  case pendingKind => exact h.pendingKind
  case finished =>
    rintro (⟨hbg'⟩ | ⟨hbg', -, -⟩ | ⟨hsent, hkind, hok⟩ | ⟨hkept, hok⟩)
    · cases hbg'
    · cases hbg'
    · exact hfin (h.finished (.sent hsent hkind hok))
    · exact hfin (h.finished (.kept hkept hok))
  case complete =>
    intro hc
    obtain ⟨result, hmem⟩ := h.complete hc
    exact ⟨result, List.mem_cons_of_mem _ hmem⟩
  case shutdown =>
    intro later earlier hlog hfirst
    cases later with
    | nil => cases (List.cons.inj hlog).1
    | cons ev later => exact h.shutdown later earlier (List.cons.inj hlog).2 hfirst

/-- The background writer starts on a command. -/
theorem WriteInv.serve {s : WriteSystem} (h : WriteInv s) {command : WriteCommand}
    {queue : List WriteCommand} (hq : s.queue = command :: queue)
    (hbg : s.background = .pollCommands) : WriteInv (serve { s with queue := queue } command) := by
  have hrecv : s.background.receiving = true := by rw [hbg]; rfl
  cases command with
  | data buf => exact h.serveData hq hbg
  | flush reply =>
    have hpop := h.pop hq rfl
    refine hpop.resume (fun _ => hrecv) (fun reply' heq => ?_) nofun nofun
    cases heq
    exact h.flushKind reply (.inl (hq ▸ List.mem_cons_self))
  | shutdown reply =>
    -- the shutdown was the last command: everything accepted has been passed
    obtain ⟨rfl, hstarted⟩ := h.last [] reply queue hq
    have hall : passedBytes s.log = acceptedBytes s.log := by
      have hbal := h.balance hrecv
      rw [hq] at hbal
      simpa [queuedBytes] using hbal.symm
    have hlog : WriteInv { s with queue := [], log := .finalize :: s.log } :=
      (h.pop hq rfl).log rfl rfl nofun nofun
    refine hlog.resume (fun _ => hrecv) nofun (fun _ _ => ?_) nofun
    refine ⟨hstarted, [], s.log, rfl, ?_⟩
    simp [hall, acceptedBytes, WriteLog.accepted]

/-- Dropping commands closes their replies and no others. -/
theorem lookup_closeReplies (commands : List WriteCommand) (reply : ReplyId) :
    ∀ replies : HashMap ReplyId Reply, (closeReplies replies commands).lookup reply =
      if reply ∈ commands.filterMap WriteCommand.reply then some .closed
      else replies.lookup reply := by
  simp only [closeReplies]
  generalize commands.filterMap WriteCommand.reply = ids
  induction ids with
  | nil => simp
  | cons r ids ih =>
    intro replies
    rw [List.foldl_cons, ih, HashMap.lookup_insert_eq]
    by_cases hr : reply = r
    · simp [hr]
    · simp [hr]

/-- Closing the queue sends no reply. -/
theorem lookup_closeReplies_sent {commands : List WriteCommand} {reply : ReplyId}
    {result : Except BackgroundWriteError Unit} {replies : HashMap ReplyId Reply}
    (h : (closeReplies replies commands).lookup reply = some (.sent result)) :
    replies.lookup reply = some (.sent result) := by
  rw [lookup_closeReplies] at h
  split at h
  · cases h
  · exact h

/-- The receivers are dropped: what was passed so far stays a prefix. -/
theorem WriteInv.dropReceivers {s : WriteSystem} (h : WriteInv s) : WriteInv s.dropReceivers where
  balance := nofun
  isPrefix := h.isPrefix
  chunkQueue := nofun
  chunkLog := h.chunkLog
  permit := h.permit
  unstarted := h.unstarted
  last := by
    intro before reply after hq
    simp [WriteSystem.dropReceivers] at hq
  flushKind := by
    rintro reply (hmem | hbg)
    · cases hmem
    · cases hbg
  pendingKind := h.pendingKind
  finished := by
    rintro (⟨hbg⟩ | ⟨hbg, -, -⟩ | ⟨hsent, hkind, hok⟩ | ⟨hkept, hok⟩)
    · cases hbg
    · cases hbg
    · exact h.finished (.sent (lookup_closeReplies_sent hsent) hkind hok)
    · exact h.finished (.kept hkept hok)
  complete := h.complete
  shutdown := h.shutdown

/-- An answer is sent; a successful one to a shutdown carries `Finished` along. -/
theorem WriteInv.reply {s : WriteSystem} (h : WriteInv s) {reply : ReplyId}
    {result : Except BackgroundWriteError Unit} {stop : Bool}
    (hbg : s.background = .replying reply result stop) :
    WriteInv { s with replies := s.replies.insert reply (.sent result) } := by
  refine ⟨h.balance, h.isPrefix, h.chunkQueue, h.chunkLog, h.permit, h.unstarted, h.last,
    h.flushKind, h.pendingKind, ?_, h.complete, h.shutdown⟩
  rintro (⟨hbg'⟩ | ⟨hbg', hkind, hok⟩ | ⟨hsent, hkind, rfl⟩ | ⟨hkept, hok⟩)
  · exact h.finished (.finalizing hbg')
  · exact h.finished (.replying hbg' hkind hok)
  · simp only [HashMap.lookup_insert_eq] at hsent
    split at hsent
    · rename_i heq
      cases hsent
      exact h.finished (.replying hbg (heq ▸ hkind) rfl)
    · exact h.finished (.sent hsent hkind rfl)
  · exact h.finished (.kept hkept hok)

/-- Storing an error keeps the invariant. -/
theorem WriteInv.storeError {s : WriteSystem} (h : WriteInv s)
    (result : Except BackgroundWriteError Unit) : WriteInv (s.storeError result) :=
  h.of_eq (by simp) (by simp) (by simp) (by simp) (by simp) (by simp)

/-- **The background writer.** Its steps keep the invariant. -/
theorem WriteInv.writer {s s' : WriteSystem} {e : WriteEvent} (h : WriteInv s)
    (hst : WriterStep s e s') : WriteInv s' := by
  cases hst with
  | woken pc =>
    have hwake : WriteInv { s with wake := false } := h.of_eq rfl rfl rfl rfl rfl rfl
    exact hwake.resume (fun _ => congrArg BackgroundPc.receiving pc) nofun nofun nofun
  | wakeEnds pc =>
    have hclosed : WriteInv { s with rebindOpen := false } := h.of_eq rfl rfl rfl rfl rfl rfl
    exact hclosed.resume (fun _ => congrArg BackgroundPc.receiving pc) nofun nofun nofun
  | take pc =>
    have htaken : WriteInv { s with latest := none } := h.of_eq rfl rfl rfl rfl rfl rfl
    exact htaken.resume (fun _ => congrArg BackgroundPc.receiving pc) nofun nofun nofun
  | noWake pc | takeNothing pc | channelEnds pc | noCommand pc | rebound pc | finalizedEnd pc =>
    exact h.resume (fun _ => congrArg BackgroundPc.receiving pc) nofun nofun nofun
  | data pc head | flush pc head | shutdown pc head => exact h.serve head pc
  | rebindFails pc | writeFails pc =>
    exact (h.storeError (.error _)).resume (fun _ => congrArg BackgroundPc.receiving pc)
      nofun nofun nofun
  | wrote pc =>
    rename_i buf
    have hlog : WriteInv { s with log := .writeAllOk buf :: s.log } := h.log rfl rfl nofun nofun
    exact hlog.resume (fun _ => congrArg BackgroundPc.receiving pc) nofun nofun nofun
  | flushed pc =>
    rename_i reply
    refine h.resume (fun _ => congrArg BackgroundPc.receiving pc) nofun nofun
      fun r res st heq hkind _ => ?_
    cases heq
    rw [h.flushKind reply (.inr pc)] at hkind
    cases hkind
  | flushFails pc =>
    refine (h.storeError (.error _)).resume (fun _ => congrArg BackgroundPc.receiving pc)
      nofun nofun fun r res st heq hkind hok => ?_
    cases heq
    cases hok
  | finalized pc event =>
    rename_i reply result
    have hfin : (s.storeError result).Finished := by
      obtain ⟨hs, hlog⟩ := h.finished (.finalizing pc)
      exact ⟨by simpa using hs, by simpa using hlog⟩
    refine (h.storeError result).resume (fun _ => ?_) nofun nofun fun _ _ _ _ _ _ => hfin
    rw [storeError_background, pc]
    rfl
  | reply pc =>
    rename_i reply result stop
    have hsent := h.reply pc
    cases stop with
    | false | true =>
      exact hsent.resume (fun _ => congrArg BackgroundPc.receiving pc) nofun nofun nofun
  | leave pc =>
    have hlog : WriteInv { s with log := .finalize :: s.log } := h.log rfl rfl nofun nofun
    exact hlog.resume (fun _ => congrArg BackgroundPc.receiving pc) nofun nofun nofun
  | returns => exact h.dropReceivers
  | ends => exact h.resume nofun nofun nofun nofun

/-- **Step lemma.** Every step of the system keeps the invariant. -/
theorem WriteInv.step {s s' : WriteSystem} {e : WriteEvent} (h : WriteInv s)
    (hst : s.step e = some s') : WriteInv s' := by
  cases WriteStep.of_step hst with
  | begins entry =>
    have hpoll : ∀ {poll : HalfPc}, e.entry = some poll →
        poll.sending = false ∧ poll.unstarted = false := by
      intro poll hentry
      cases e <;> cases hentry <;> exact ⟨rfl, rfl⟩
    obtain ⟨hsending, hunstarted⟩ := hpoll entry
    exact h.goto (fun hp => by rw [hsending] at hp; cases hp)
      (fun hp => by rw [hunstarted] at hp; cases hp)
  | access hadv => exact h.access (.of_advance hadv)
  | drop idle =>
    have hhalf := h.of_half { s.half with writeTx := ⟨false, .closed⟩ } rfl h.complete
      (by rw [idle]; exact nofun) h.pendingKind fun hr => h.finished (.kept hr rfl)
    exact hhalf.of_eq rfl rfl rfl rfl rfl rfl
  | rebindRefused => exact h
  | rebindUpgrades | rebindStores | rebindSends => exact h.of_eq rfl rfl rfl rfl rfl rfl
  | writer hst => exact h.writer hst
  | abort => exact h.dropReceivers

/-- **Byte-stream fidelity.** In every reachable state the bytes passed to `write_all` are a
prefix of the accepted ones, no command exceeds a chunk, and a shutdown that sent its
command and reports success was finalized after every accepted byte had been passed. -/
theorem byte_stream_fidelity (s : WriteSystem) (h : writeSystem.Reaches s) :
    ByteStreamFidelity s := by
  have hinv : WriteInv s := h.invariant writeInv_init fun _ _ _ hs hst => hs.step hst
  exact hinv.fidelity

/-- Two slices are written, the background writer passes them on, and the half is shut
down cleanly. -/
def cleanRun : List WriteEvent :=
  [.pollWrite [[1, 2], [3]], .advance, .advance, .advance, .advance,
    .background, .background, .writerResult (.ok ()),
    .pollShutdown, .advance, .advance, .advance, .advance,
    .background, .background, .writerResult (.ok ()), .background, .background, .background,
    .pollShutdown, .advance, .advance, .advance]

/-- Three bytes pass, and the shutdown answers that all is well. -/
theorem byte_stream_fidelity_clean :
    ∃ s, writeSystem.Reaches s ∧ passedBytes s.log = [1, 2, 3] ∧
      s.log.head? = some (.pollShutdown (.ready (.ok ()))) ∧ ByteStreamFidelity s := by
  have hrun : ∃ s, writeSystem.Reaches s ∧ passedBytes s.log = [1, 2, 3] ∧
      s.log.head? = some (.pollShutdown (.ready (.ok ()))) :=
    ⟨_, ⟨cleanRun, Machine.run_of_exec rfl⟩, rfl, rfl⟩
  obtain ⟨s, hs, hpassed, hlast⟩ := hrun
  exact ⟨s, hs, hpassed, hlast, byte_stream_fidelity s hs⟩

end RtpMux

import RtpMux.Basic
import RtpMux.HashMap
import RtpMux.Machine

/-!
# The migrating write half (`migrating_write_half.rs`)

A `MigratingWriteHalf` accepts bytes through `AsyncWrite` and hands them, as commands
of a bounded channel, to a background task that owns the `MigratingStreamWriter`. The
background task also serves rebind requests, which reach it through a one-slot mailbox
(`latest`) and a wake channel of capacity one, with priority over commands.

The model is the whole system: the half with the poll that is in progress, the channel,
the reply channels of flush and shutdown, the background task, and the callers of
`RebindHandle::rebind`. A step is one access of one party to something shared; between
two such accesses of one party every other party may run. In particular a poll is a
sequence of steps (`HalfPc`), and so is a turn of the background loop (`BackgroundPc`):
its biased `select!` looks at the wake channel first and at the commands afterwards.

What the writer does is left open: every call (`write_all`, `flush`, `rebind`,
`finalize`) may take arbitrarily long and may succeed or fail. Calls and returns are
recorded in `log`, newest first, which no step reads.
-/

namespace RtpMux

/-- `WRITE_QUEUE_CAPACITY`. -/
def writeQueueCapacity : Nat := 8

/-- `WRITE_MAX_CHUNK`: 64 KiB. -/
def writeMaxChunk : Nat := 64 * 1024

/-- `usize::MAX` on a 64-bit target. -/
def usizeMax : Nat := 2 ^ 64 - 1

/-- `std::task::Poll`. -/
inductive Poll (α : Type) where
  | pending
  | ready (a : α)
  deriving DecidableEq, Repr

/-- Identity of a `mux::DualStreamOpener`. -/
abbrev OpenerId : Type := Nat

/-- `BackgroundWriteError`. -/
structure BackgroundWriteError where
  message : String
  deriving DecidableEq, Repr

/-- An `io::Error`; every error of the write half has kind `BrokenPipe`. -/
structure IoError where
  message : String
  deriving DecidableEq, Repr

/-- `BackgroundWriteError::to_io`. -/
def BackgroundWriteError.toIo (e : BackgroundWriteError) : IoError := ⟨e.message⟩

/-- `ControlKind`. -/
inductive ControlKind where
  | flush
  | shutdown
  deriving DecidableEq, Repr

/-- Name of the oneshot channel that a flush or a shutdown is answered on. -/
structure ReplyId where
  kind : ControlKind
  index : Nat
  deriving DecidableEq, Repr

/-- A oneshot channel: unanswered, answered, or its sender is gone. -/
inductive Reply where
  | waiting
  | sent (result : Except BackgroundWriteError Unit)
  | closed
  deriving Repr

/-- `WriteCommand`. -/
inductive WriteCommand where
  | data (buf : List UInt8)
  | flush (reply : ReplyId)
  | shutdown (reply : ReplyId)
  deriving DecidableEq, Repr

/-- The reply sender inside a command. -/
def WriteCommand.reply : WriteCommand → Option ReplyId
  | data _ => none
  | flush reply => some reply
  | shutdown reply => some reply

/-- The state of a `tokio_util::sync::PollSender`. -/
inductive PollSenderState where
  | idle
  | acquiring
  | readyToSend
  | closed
  deriving DecidableEq, Repr

/-- `tokio_util::sync::PollSender`: `alive` says that `close` was not called. -/
structure PollSender where
  alive : Bool
  state : PollSenderState
  deriving DecidableEq, Repr

/-- `PollSender::close`: a reserved slot stays with the caller. -/
def PollSender.close (tx : PollSender) : PollSender :=
  match tx.state with
  | .idle => ⟨false, .closed⟩
  | .acquiring => ⟨false, .closed⟩
  | state => ⟨false, state⟩

/-- No sender of the channel is left on this side, so the receiver sees its end. -/
def PollSender.gone (tx : PollSender) : Bool := !tx.alive && tx.state = .closed

/-- `PendingControl`. -/
structure PendingControl where
  kind : ControlKind
  reply : ReplyId
  deriving DecidableEq, Repr

/-- `MigratingWriteHalf`, without what is shared with the background writer. -/
structure MigratingWriteHalf where
  writeTx : PollSender
  pendingControl : Option PendingControl
  shutdownStarted : Bool
  shutdownComplete : Bool
  shutdownResult : Option (Except IoError Unit)

/-- The poll that is in progress on the half, and the shared access it makes next. -/
inductive HalfPc where
  | idle
  | writeControl (bufs : List (List UInt8))
  | writeCheck (bufs : List (List UInt8))
  | writeReserve (bufs : List (List UInt8))
  | writeSend (bufs : List (List UInt8))
  | flushControl
  | flushCheck
  | flushReserve
  | flushSend
  | shutdownCheck
  | shutdownReserve
  | shutdownSend
  | shutdownControl
  | shutdownEpilog
  deriving DecidableEq, Repr

/-- Where the background writer stands. -/
inductive BackgroundPc where
  /-- `select!`: about to look at the wake channel -/
  | pollWake
  /-- woken, about to take `latest` -/
  | takeLatest
  /-- inside `writer.rebind` -/
  | rebinding (opener : OpenerId)
  /-- `select!`: about to look at the command channel -/
  | pollCommands
  /-- inside `writer.write_all` -/
  | writing (buf : List UInt8)
  /-- inside `writer.flush` -/
  | flushing (reply : ReplyId)
  /-- inside `finalize`, for a shutdown command or after the loop -/
  | finalizing (reply : Option ReplyId)
  /-- about to answer, and then to return if `stop` -/
  | replying (reply : ReplyId) (result : Except BackgroundWriteError Unit) (stop : Bool)
  /-- left the loop through `break`, about to finalize -/
  | leaving
  /-- about to drop the receivers -/
  | returning
  /-- the receivers are dropped, the task is not joinable yet -/
  | closedDown
  /-- the task has ended -/
  | ended

/-- The command receiver exists. -/
def BackgroundPc.receiving : BackgroundPc → Bool
  | closedDown => false
  | ended => false
  | _ => true

/-- Returns of polls and calls of the writer, as far as the bytes of the stream and its
end are concerned. -/
inductive WriteLog where
  /-- `poll_write` or `poll_write_vectored` returned -/
  | pollWrite (bufs : List (List UInt8)) (result : Poll (Except IoError Nat))
  /-- `poll_flush` returned -/
  | pollFlush (result : Poll (Except IoError Unit))
  /-- `poll_shutdown` returned -/
  | pollShutdown (result : Poll (Except IoError Unit))
  /-- `writer.write_all(buf)` was called -/
  | writeAll (buf : List UInt8)
  /-- that call returned `Ok` -/
  | writeAllOk (buf : List UInt8)
  /-- `finalize` was called -/
  | finalize

/-- The write half, its background writer and everything between them. -/
structure WriteSystem where
  half : MigratingWriteHalf
  poll : HalfPc
  dropped : Bool
  queue : List WriteCommand
  replies : HashMap ReplyId Reply
  nextReply : Nat
  backgroundError : Option BackgroundWriteError
  /-- the mailbox of `RebindSlot` -/
  latest : Option OpenerId
  /-- a token is in the wake channel -/
  wake : Bool
  /-- calls of `RebindHandle::rebind` between their `upgrade` and their store -/
  upgraded : Nat
  /-- calls of `RebindHandle::rebind` between their store and their `try_send` -/
  rebinds : Nat
  rebindOpen : Bool
  background : BackgroundPc
  log : List WriteLog

/-- One step of one party. -/
inductive WriteEvent where
  | pollWrite (bufs : List (List UInt8))
  | pollFlush
  | pollShutdown
  /-- the poll in progress makes its next access -/
  | advance
  | drop
  /-- a call of `RebindHandle::rebind` upgrades its wake sender, or returns `false` -/
  | rebindUpgrade
  /-- a call of `rebind` stores its opener into the mailbox -/
  | rebindStore (opener : OpenerId)
  /-- a call of `rebind` sends a token and returns -/
  | rebindSend
  /-- the background writer makes its next access -/
  | background
  /-- the call of the writer that the background task awaits returns -/
  | writerResult (result : Except BackgroundWriteError Unit)
  /-- `FINALIZE_TIMEOUT` passes first -/
  | finalizeTimeout
  /-- a background task whose half was dropped is aborted -/
  | abort

namespace WriteSystem

/-- `MigratingWriteHalf::new_with_finalize`. -/
def init : WriteSystem where
  half := ⟨⟨true, .idle⟩, none, false, false, none⟩
  poll := .idle
  dropped := false
  queue := []
  replies := ∅
  nextReply := 0
  backgroundError := none
  latest := none
  wake := false
  upgraded := 0
  rebinds := 0
  rebindOpen := true
  background := .pollWake
  log := []

/-! ## The channel and the replies -/

/-- `PollSender::poll_reserve` on the command channel. The error is a closed channel. -/
def pollReserve (s : WriteSystem) : Poll (Except Unit Unit) × WriteSystem :=
  match s.half.writeTx.state with
  | .readyToSend => (.ready (.ok ()), s)
  | .closed => (.ready (.error ()), s)
  | _ =>
    if s.background.receiving = false then
      (.ready (.error ()),
        { s with half := { s.half with writeTx := { s.half.writeTx with state := .closed } } })
    else if s.queue.length < writeQueueCapacity then
      (.ready (.ok ()),
        { s with half := { s.half with writeTx := { s.half.writeTx with state := .readyToSend } } })
    else
      (.pending,
        { s with half := { s.half with writeTx := { s.half.writeTx with state := .acquiring } } })

/-- `PollSender::send_item`. A reserved slot can be used even when the receiver is gone;
without one the call is refused (or, before any `poll_reserve`, panics). -/
def sendItem (s : WriteSystem) (command : WriteCommand) : Except Unit Unit × WriteSystem :=
  match s.half.writeTx.state with
  | .readyToSend =>
    let state := if s.half.writeTx.alive then PollSenderState.idle else .closed
    (.ok (), { s with
      half := { s.half with writeTx := { s.half.writeTx with state := state } }
      queue := s.queue ++ [command] })
  | _ => (.error (), s)

/-- Drop the reply senders of a list of commands. -/
def closeReplies (replies : HashMap ReplyId Reply) (commands : List WriteCommand) :
    HashMap ReplyId Reply :=
  (commands.filterMap WriteCommand.reply).foldl (fun replies r => replies.insert r .closed) replies

/-- `background_io_error`. -/
def backgroundIoError (s : WriteSystem) (message : String) : IoError :=
  match s.backgroundError with
  | some error => ⟨error.message⟩
  | none => ⟨message⟩

/-- `poll_pending_control`: look whether the flush or shutdown that was sent is answered. -/
def pollPendingControl (s : WriteSystem) :
    Poll (Except IoError (Option ControlKind)) × WriteSystem :=
  match s.half.pendingControl with
  | none => (.ready (.ok none), s)
  | some pending =>
    match s.replies.lookup pending.reply with
    | some (.sent result) => answered pending.kind (result.mapError BackgroundWriteError.toIo)
    | some .closed =>
      answered pending.kind (.error (s.backgroundIoError "RTP mux background writer stopped"))
    | _ => (.pending, s)
where
  /-- the answer is in -/
  answered (kind : ControlKind) (result : Except IoError Unit) :
      Poll (Except IoError (Option ControlKind)) × WriteSystem :=
    match kind with
    | .shutdown =>
      (.ready (.ok (some .shutdown)), { s with
        half := { s.half with
          pendingControl := none
          writeTx := s.half.writeTx.close
          shutdownResult := some result } })
    | .flush =>
      (.ready (result.map fun _ => some .flush),
        { s with half := { s.half with pendingControl := none } })

/-- The poll in progress moves on to its next access. -/
def goto (s : WriteSystem) (poll : HalfPc) : WriteSystem := { s with poll := poll }

/-- The poll in progress returns. -/
def ret (s : WriteSystem) (entry : WriteLog) : WriteSystem :=
  { s with poll := .idle, log := entry :: s.log }

/-! ## `poll_write_vectored_inner` -/

/-- The error of every operation after a shutdown. -/
def streamShutDown : IoError := ⟨"stream shut down"⟩

/-- `chunk`: the total length, saturating, capped at `WRITE_MAX_CHUNK`. -/
def chunkLen (bufs : List (List UInt8)) : Nat :=
  min (bufs.foldl (fun total buf => min (total + buf.length) usizeMax) 0) writeMaxChunk

/-- The loop that copies the slices into `data` until the chunk is full. -/
def fillChunk (chunk : Nat) : List UInt8 → List (List UInt8) → List UInt8
  | data, [] => data
  | data, buf :: bufs =>
    let remaining := chunk - data.length
    if remaining = 0 then data
    else fillChunk chunk (data ++ buf.take (min buf.length remaining)) bufs

/-- One access of `poll_write_vectored_inner`; `poll_write` passes its buffer as the only
slice. -/
def advanceWriteControl (s : WriteSystem) (bufs : List (List UInt8)) : WriteSystem :=
  match s.pollPendingControl with
  | (.ready (.ok (some .shutdown)), s) => s.ret (.pollWrite bufs (.ready (.error streamShutDown)))
  | (.ready (.ok _), s) => s.goto (.writeCheck bufs)
  | (.ready (.error error), s) => s.ret (.pollWrite bufs (.ready (.error error)))
  | (.pending, s) => s.ret (.pollWrite bufs .pending)

/-- A stream that shuts down or whose background task has failed takes no more bytes. -/
def advanceWriteCheck (s : WriteSystem) (bufs : List (List UInt8)) : WriteSystem :=
  if s.half.shutdownComplete || s.half.shutdownStarted then
    s.ret (.pollWrite bufs (.ready (.error streamShutDown)))
  else
    match s.backgroundError with
    | some error => s.ret (.pollWrite bufs (.ready (.error error.toIo)))
    | none => s.goto (.writeReserve bufs)

/-- Room for one command on the channel. A write of no bytes ends here. -/
def advanceWriteReserve (s : WriteSystem) (bufs : List (List UInt8)) : WriteSystem :=
  match s.pollReserve with
  | (.ready (.ok ()), s) =>
    if 0 < chunkLen bufs then s.goto (.writeSend bufs)
    else s.ret (.pollWrite bufs (.ready (.ok 0)))
  | (.ready (.error ()), s) => s.ret (.pollWrite bufs (.ready (.error ⟨"write channel closed"⟩)))
  | (.pending, s) => s.ret (.pollWrite bufs .pending)

/-- The result of `send_item` is ignored here. -/
def advanceWriteSend (s : WriteSystem) (bufs : List (List UInt8)) : WriteSystem :=
  let chunk := chunkLen bufs
  let s := (s.sendItem (.data (fillChunk chunk [] bufs))).2
  s.ret (.pollWrite bufs (.ready (.ok chunk)))

/-! ## `poll_flush_inner` -/

/-- The answer to an earlier command comes first; to a flush it is this call's own. -/
def advanceFlushControl (s : WriteSystem) : WriteSystem :=
  match s.pollPendingControl with
  | (.ready (.ok (some .shutdown)), s) => s.ret (.pollFlush (.ready (.error streamShutDown)))
  | (.ready (.ok (some .flush)), s) => s.ret (.pollFlush (.ready (.ok ())))
  | (.ready (.ok none), s) => s.goto .flushCheck
  | (.ready (.error error), s) => s.ret (.pollFlush (.ready (.error error)))
  | (.pending, s) => s.ret (.pollFlush .pending)

/-- A stream that shuts down or whose background task has failed is not flushed. -/
def advanceFlushCheck (s : WriteSystem) : WriteSystem :=
  if s.half.shutdownComplete || s.half.shutdownStarted then
    s.ret (.pollFlush (.ready (.error streamShutDown)))
  else
    match s.backgroundError with
    | some error => s.ret (.pollFlush (.ready (.error error.toIo)))
    | none => s.goto .flushReserve

/-- Room for the flush command. -/
def advanceFlushReserve (s : WriteSystem) : WriteSystem :=
  match s.pollReserve with
  | (.ready (.ok ()), s) => s.goto .flushSend
  | (.ready (.error ()), s) => s.ret (.pollFlush (.ready (.error ⟨"write channel closed"⟩)))
  | (.pending, s) => s.ret (.pollFlush .pending)

/-- The flush is sent; its answer is for a later poll. -/
def advanceFlushSend (s : WriteSystem) : WriteSystem :=
  let reply : ReplyId := ⟨.flush, s.nextReply⟩
  let s := (sendItem { s with
    replies := s.replies.insert reply .waiting
    nextReply := s.nextReply + 1 } (.flush reply)).2
  ret { s with half := { s.half with pendingControl := some ⟨.flush, reply⟩ } }
    (.pollFlush .pending)

/-! ## `poll_shutdown_inner` -/

/-- Close the channel, keep `result` for the epilog and go there. -/
def failShutdown (s : WriteSystem) (error : IoError) : WriteSystem :=
  goto { s with
    half := { s.half with
      writeTx := s.half.writeTx.close
      shutdownResult := some (.error error) } } .shutdownEpilog

/-- The shutdown is complete, under way, refused by an error, or to be started. -/
def advanceShutdownCheck (s : WriteSystem) : WriteSystem :=
  if s.half.shutdownComplete then s.ret (.pollShutdown (.ready (.ok ())))
  else if s.half.shutdownStarted then s.goto .shutdownControl
  else if s.backgroundError.isSome then
    s.failShutdown (s.backgroundIoError "background write error")
  else s.goto .shutdownReserve

/-- Room for the shutdown command. -/
def advanceShutdownReserve (s : WriteSystem) : WriteSystem :=
  match s.pollReserve with
  | (.ready (.ok ()), s) => s.goto .shutdownSend
  | (.ready (.error ()), s) => s.failShutdown ⟨"write channel closed during shutdown"⟩
  | (.pending, s) => s.ret (.pollShutdown .pending)

/-- The shutdown counts as started once its command is on the channel. -/
def advanceShutdownSend (s : WriteSystem) : WriteSystem :=
  let reply : ReplyId := ⟨.shutdown, s.nextReply⟩
  match sendItem { s with
      replies := s.replies.insert reply .waiting
      nextReply := s.nextReply + 1 } (.shutdown reply) with
  | (.ok (), s) =>
    goto { s with
      half := { s.half with
        shutdownStarted := true
        pendingControl := some ⟨.shutdown, reply⟩ } } .shutdownControl
  | (.error (), s) => s.failShutdown ⟨"write channel closed during shutdown"⟩

/-- The answer to the shutdown command. -/
def advanceShutdownControl (s : WriteSystem) : WriteSystem :=
  match s.pollPendingControl with
  | (.ready (.ok _), s) => s.goto .shutdownEpilog
  | (.ready (.error error), s) => s.failShutdown error
  | (.pending, s) => s.ret (.pollShutdown .pending)

/-- `poll_shutdown_epilog`: report the stored result once the background task has ended.
`none` is the panic of `expect` on a missing result. -/
def advanceShutdownEpilog (s : WriteSystem) : Option WriteSystem :=
  match s.background with
  | .ended =>
    match s.half.shutdownResult with
    | some result =>
      some (ret { s with
        half := { s.half with shutdownComplete := true, shutdownResult := none } }
        (.pollShutdown (.ready result)))
    | none => none
  | _ => some (s.ret (.pollShutdown .pending))

/-- The poll in progress makes its next access. -/
def advance (s : WriteSystem) : Option WriteSystem :=
  match s.poll with
  | .idle => none
  | .writeControl bufs => some (s.advanceWriteControl bufs)
  | .writeCheck bufs => some (s.advanceWriteCheck bufs)
  | .writeReserve bufs => some (s.advanceWriteReserve bufs)
  | .writeSend bufs => some (s.advanceWriteSend bufs)
  | .flushControl => some s.advanceFlushControl
  | .flushCheck => some s.advanceFlushCheck
  | .flushReserve => some s.advanceFlushReserve
  | .flushSend => some s.advanceFlushSend
  | .shutdownCheck => some s.advanceShutdownCheck
  | .shutdownReserve => some s.advanceShutdownReserve
  | .shutdownSend => some s.advanceShutdownSend
  | .shutdownControl => some s.advanceShutdownControl
  | .shutdownEpilog => s.advanceShutdownEpilog

/-- A poll begins. There is one at a time, and none on a dropped half. -/
def begin (s : WriteSystem) (poll : HalfPc) : Option WriteSystem :=
  match s.poll, s.dropped with
  | .idle, false => some (s.goto poll)
  | _, _ => none

/-! ## The background writer -/

/-- Go on with the loop of the background writer at another point. -/
def resume (s : WriteSystem) (background : BackgroundPc) : WriteSystem :=
  { s with background := background }

/-- The receivers go out of scope: queued commands are dropped with their reply senders. -/
def dropReceivers (s : WriteSystem) : WriteSystem :=
  { s with
    queue := []
    replies := closeReplies s.replies s.queue
    wake := false
    background := .closedDown }

/-- The background writer starts to work on a command. -/
def serve (s : WriteSystem) : WriteCommand → WriteSystem
  | .data buf => resume { s with log := .writeAll buf :: s.log } (.writing buf)
  | .flush reply => s.resume (.flushing reply)
  | .shutdown reply => resume { s with log := .finalize :: s.log } (.finalizing (some reply))

/-- The wake channel has lost its last sender: the half is gone and no call of `rebind`
holds an upgraded one. -/
def wakeClosed (s : WriteSystem) : Bool := s.dropped && s.upgraded = 0 && s.rebinds = 0

/-- The background writer makes its next access. -/
def stepBackground (s : WriteSystem) : Option WriteSystem :=
  match s.background with
  | .pollWake =>
    if s.rebindOpen then
      if s.wake then some (resume { s with wake := false } .takeLatest)
      else if s.wakeClosed then some (resume { s with rebindOpen := false } .pollWake)
      else some (s.resume .pollCommands)
    else some (s.resume .pollCommands)
  | .takeLatest =>
    match s.latest with
    | some opener => some (resume { s with latest := none } (.rebinding opener))
    | none => some (s.resume .pollWake)
  | .pollCommands =>
    match s.queue with
    | command :: queue => some (serve { s with queue := queue } command)
    | [] =>
      if s.half.writeTx.gone then some (s.resume .leaving)
      else some (s.resume .pollWake)
  | .replying reply result stop =>
    some (resume { s with replies := s.replies.insert reply (.sent result) }
      (if stop then .returning else .pollWake))
  | .leaving => some (resume { s with log := .finalize :: s.log } (.finalizing none))
  | .returning => some s.dropReceivers
  | .closedDown => some (s.resume .ended)
  | _ => none

/-- Store an error of the writer where the half looks for it. -/
def storeError (s : WriteSystem) : Except BackgroundWriteError Unit → WriteSystem
  | .ok _ => s
  | .error error => { s with backgroundError := some error }

section StoreError

variable (s : WriteSystem) (result : Except BackgroundWriteError Unit)

@[simp] theorem storeError_half : (s.storeError result).half = s.half := by
  cases result <;> rfl

@[simp] theorem storeError_poll : (s.storeError result).poll = s.poll := by
  cases result <;> rfl

@[simp] theorem storeError_queue : (s.storeError result).queue = s.queue := by
  cases result <;> rfl

@[simp] theorem storeError_replies : (s.storeError result).replies = s.replies := by
  cases result <;> rfl

@[simp] theorem storeError_background : (s.storeError result).background = s.background := by
  cases result <;> rfl

@[simp] theorem storeError_log : (s.storeError result).log = s.log := by
  cases result <;> rfl

end StoreError

/-- The call of the writer that the background task awaits returns `result`. An error of
`rebind` leaves the loop through `break`; errors of `write_all` and `flush` return. -/
def writerReturns (s : WriteSystem) (result : Except BackgroundWriteError Unit) :
    Option WriteSystem :=
  match s.background, result with
  | .rebinding _, .ok _ => some (s.resume .pollWake)
  | .rebinding _, .error _ => some ((s.storeError result).resume .leaving)
  | .writing buf, .ok _ => some (resume { s with log := .writeAllOk buf :: s.log } .pollWake)
  | .writing _, .error _ => some ((s.storeError result).resume .returning)
  | .flushing reply, .ok _ => some (s.resume (.replying reply result false))
  | .flushing reply, .error _ => some ((s.storeError result).resume (.replying reply result true))
  | .finalizing (some reply), _ =>
    some ((s.storeError result).resume (.replying reply result true))
  | .finalizing none, _ => some (s.resume .returning)
  | _, _ => none

/-- What `from_debug("shutdown finalize timed out")` reads: the `Debug` form of a string
has quotes. -/
def finalizeTimedOut : BackgroundWriteError := ⟨"\"shutdown finalize timed out\""⟩

/-- `FINALIZE_TIMEOUT` passes before `finalize` returns. -/
def timeOut (s : WriteSystem) : Option WriteSystem :=
  match s.background with
  | .finalizing _ => s.writerReturns (.error finalizeTimedOut)
  | _ => none

/-! ## Rebind requests and the end of the half -/

/-- The `upgrade` of `RebindHandle::rebind`: it succeeds while the half or another call keeps
the wake sender alive; otherwise the call returns `false` and has done nothing. -/
def rebindUpgrade (s : WriteSystem) : WriteSystem :=
  if s.wakeClosed then s else { s with upgraded := s.upgraded + 1 }

/-- The store of `RebindHandle::rebind` into `latest`. -/
def rebindStore (s : WriteSystem) (opener : OpenerId) : Option WriteSystem :=
  match s.upgraded with
  | 0 => none
  | upgraded + 1 => some { s with latest := some opener, upgraded, rebinds := s.rebinds + 1 }

/-- The `try_send` of `RebindHandle::rebind`: a full channel is fine, a closed one is not. -/
def rebindSend (s : WriteSystem) : Option WriteSystem :=
  match s.rebinds with
  | 0 => none
  | rebinds + 1 => some { s with wake := s.wake || s.background.receiving, rebinds := rebinds }

/-- The half is dropped between two polls: its sender goes, and the background task will be
aborted. -/
def drop (s : WriteSystem) : Option WriteSystem :=
  match s.poll, s.dropped with
  | .idle, false =>
    some { s with
      dropped := true
      half := { s.half with writeTx := ⟨false, .closed⟩ } }
  | _, _ => none

/-- The abort reaches the background task at some point of its run. -/
def abort (s : WriteSystem) : Option WriteSystem :=
  if s.dropped && s.background.receiving then some s.dropReceivers else none

/-- One step of the system. -/
def step (s : WriteSystem) : WriteEvent → Option WriteSystem
  | .pollWrite bufs => s.begin (.writeControl bufs)
  | .pollFlush => s.begin .flushControl
  | .pollShutdown => s.begin .shutdownCheck
  | .advance => s.advance
  | .drop => s.drop
  | .rebindUpgrade => some s.rebindUpgrade
  | .rebindStore opener => s.rebindStore opener
  | .rebindSend => s.rebindSend
  | .background => s.stepBackground
  | .writerResult result => s.writerReturns result
  | .finalizeTimeout => s.timeOut
  | .abort => s.abort

end WriteSystem

/-- The write half as a machine. -/
def writeSystem : Machine WriteSystem WriteEvent := ⟨WriteSystem.init, WriteSystem.step⟩

end RtpMux

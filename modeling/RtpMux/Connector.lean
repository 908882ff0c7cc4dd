import RtpMux.Basic
import RtpMux.HashMap
import RtpMux.Machine
import RtpMux.Refs
import Mathlib.Data.Finset.Basic

/-!
# The connector (`connector/mod.rs`, `connector/cross_session.rs`)

A client keeps one session per address. `run_connector` is the loop that dials, installs,
redials, resets and reaps them; it owns the tables of `Loop`. What it shares with the rest of
the program are the maps `sessions` and `draining`, the sessions themselves, and the streams.
Everything else happens outside the loop and in any order: `connect` opens a stream on the
mapped session, `into_stream` registers it (`StreamRebind::track`), streams are dropped, mux
sessions die, and one watcher task per session waits for its end.

Every critical section is one step. `StreamRebind::track` and `latest_generation` take a step
per lock, and so does the arm of the loop that installs a finished dial: a stream can be opened,
registered or dropped between any two of them. `connect` reads the map, tests the opener and
opens the stream in one step: the `Arc` it holds in between is the stream's own, and if the opener
is found dead it is a `Visit`.

An `Arc<Session>` is held by the `sessions` map, by a `RedialInFlight`, by locals of the loop and
of `track`, by the guard of a stream, for a moment by a caller from outside (`Visit`), and by the
`successor` of another session. `roots` lists all but the last, and `Refs` closes them under
`successor`; `strong_count` is that closure. The number of a session stands for its random id.

The explorers are reduced to the set of addresses that have one; what `reoptimize_verdict` says
is part of the `redial` event. The response routers are left out. `received`, `answers`, `lastSent`
and `foundDead`, and the `token` and `key` of a session, record what happened and are read by no
step.
-/

namespace RtpMux

/-- Identity of a `Session`: its allocation, in order of birth. -/
abbrev SessionId : Type := Nat

/-- Identity of an `OpenedStream` and of the `StreamRebind` it becomes. -/
abbrev StreamId : Type := Nat

/-- Identity of the response channel of a `Connect` command. -/
abbrev ResponseId : Type := Nat

/-- `ObfuscationKey`. -/
structure ObfuscationKey where
  bytes : BitVec 256
  deriving DecidableEq, Repr

/-- `RedialTrigger`. -/
inductive RedialTrigger where
  | forced
  | betterPath
  deriving DecidableEq, Repr

/-- The errors a `Connect` command is answered with. -/
inductive ConnectError where
  /-- `WouldBlock`, "too many dial waiters for {addr} (max 256)" -/
  | tooManyDialWaiters (addr : SocketAddr)
  /-- `WouldBlock`, "too many concurrent dual dials" -/
  | tooManyConcurrentDials
  /-- `ConnectionAborted`, "connector reset" -/
  | connectorReset
  /-- the kind and the text of the dialer's error -/
  | dialFailed (kind : Nat) (message : String)
  deriving DecidableEq, Repr

/-! ## Sessions and streams -/

/-- The task of `spawn_session_watcher`. -/
inductive Watcher where
  /-- in its `select!` -/
  | running
  /-- in the `SESSION_LINGER` sleep after the last `Arc` is gone -/
  | lingering
  /-- returned; its result waits in the `JoinSet` -/
  | finished
  /-- joined by the loop -/
  | reaped
  deriving DecidableEq, Repr

/-- `Session`. -/
structure Session where
  addr : SocketAddr
  /-- the group token its dial presented -/
  token : GroupToken
  /-- the key its dial was started with -/
  key : Option ObfuscationKey
  /-- `opener.is_alive()` -/
  alive : Bool
  liveStreams : Nat
  streams : List StreamId
  successor : Option SessionId
  /-- a message is in the channel of `kill_tx` -/
  killed : Bool
  watcher : Watcher
  deriving DecidableEq, Repr

/-- Where a call of `rebind_one` stands. -/
inductive RebindPc where
  /-- before `stream.rebind.rebind` -/
  | offer
  /-- before `new.guard()` -/
  | guard
  /-- before the new guard replaces the old one -/
  | assign
  /-- before `new.track` -/
  | register
  deriving DecidableEq, Repr

/-- Where a call of `StreamRebind::track` stands. -/
inductive TrackPc where
  /-- before `track_if_current` -/
  | current
  /-- in the loop of `latest_generation` -/
  | seek (newestLive cursor : SessionId) (hops : Nat)
  /-- before the comparison of `live` with the stream's own session -/
  | place (live : SessionId)
  /-- in `rebind_one` -/
  | rebind (live : SessionId) (pc : RebindPc)
  deriving DecidableEq, Repr

/-- The `Arc`s a call of `StreamRebind::track` holds beside its own session's. -/
def TrackPc.locals : TrackPc → List SessionId
  | .current => []
  | .seek newestLive cursor _ => [newestLive, cursor]
  | .place live => [live]
  | .rebind live _ => [live]

/-- The life of a stream. -/
inductive StreamPhase where
  /-- an `OpenedStream` -/
  | opened
  /-- in `StreamRebind::track`, whose local `session` is the one it was opened on -/
  | tracking (session : SessionId) (pc : TrackPc)
  /-- a `ClientStream` -/
  | tracked
  | dropped
  deriving DecidableEq, Repr

/-- A stream, from `open_stream` to its drop. -/
structure StreamHandle where
  lane : LaneClass
  phase : StreamPhase
  /-- the session its `SessionGuard` names -/
  guard : SessionId
  /-- the session whose opener it was opened on or last sent -/
  lastSent : SessionId
  /-- its `MigratingWriteHalf` is not dropped -/
  halfAlive : Bool
  /-- its background writer has not ended -/
  writerRunning : Bool
  /-- the sessions `latest_generation` found dead -/
  foundDead : List SessionId
  deriving DecidableEq, Repr

/-- `RebindHandle::rebind` succeeds: the write half and its background writer are there. -/
def StreamHandle.rebindable (r : StreamHandle) : Bool := r.halfAlive && r.writerRunning

/-- The `Arc<StreamRebind>` of the owner exists. -/
def StreamPhase.isRebind : StreamPhase → Bool
  | .tracking _ _ => true
  | .tracked => true
  | _ => false

/-- The sessions a stream holds. `borrowed` says that the loop holds the `Arc` of the stream, which
keeps the guard of a dropped stream. -/
def StreamHandle.refs (r : StreamHandle) (borrowed : Bool) : List SessionId :=
  match r.phase with
  | .tracking session pc => r.guard :: session :: pc.locals
  | .dropped => if borrowed then [r.guard] else []
  | _ => [r.guard]

/-! ## The loop -/

/-- A pending dial: what the dialer was called with. -/
structure Dial where
  addr : SocketAddr
  token : GroupToken
  key : Option ObfuscationKey
  deriving DecidableEq, Repr

/-- `StreamRequest`. -/
structure StreamRequest where
  lane : LaneClass
  response : ResponseId
  deriving DecidableEq, Repr

/-- `AddrGroup`. -/
structure AddrGroup where
  token : GroupToken
  sessions : List SessionId
  deriving DecidableEq, Repr

/-- `RedialInFlight`. -/
structure RedialInFlight where
  old : SessionId
  trigger : RedialTrigger
  deriving DecidableEq, Repr

/-- How far the arm for a finished dial has come. -/
inductive Stage where
  /-- before `rebind_streams` -/
  | rebind
  /-- in the loop of `rebind_streams` -/
  | move (todo : List StreamId)
  /-- in `rebind_one` for one of them -/
  | one (stream : StreamId) (pc : RebindPc) (todo : List StreamId)
  /-- in the loop over the dial waiters -/
  | answer (waiters : List StreamRequest)
  deriving DecidableEq, Repr

/-- Where `run_connector` stands. -/
inductive Arm where
  /-- at its `select!` -/
  | select
  /-- in the arm for a dial that succeeded -/
  | completing (addr : SocketAddr) (session : SessionId) (old : Option SessionId) (stage : Stage)
  /-- in the arm for a dial that failed, before `prune_dead_addresses` -/
  | failing (addr : SocketAddr) (old : Option SessionId)
  /-- `expect("dial started without an address group")` fired -/
  | panicked
  deriving DecidableEq, Repr

namespace Arm

/-- The sessions the arm holds. -/
def locals : Arm → List SessionId
  | .completing _ session old _ => session :: old.toList
  | .failing _ old => old.toList
  | _ => []

/-- The address of the dial the arm is about. -/
def addr : Arm → Option SocketAddr
  | .completing addr _ _ _ => some addr
  | .failing addr _ => some addr
  | _ => none

/-- The stream the arm holds. -/
def borrowed : Arm → Option StreamId
  | .completing _ _ _ (.one stream _ _) => some stream
  | _ => none

/-- The streams `rebind_streams` has drained and not reached yet. -/
def todo : Arm → List StreamId
  | .completing _ _ _ (.move todo) => todo
  | .completing _ _ _ (.one _ _ todo) => todo
  | _ => []

/-- The requests the arm still has to answer. -/
def waiters : Arm → List StreamRequest
  | .completing _ _ _ (.answer waiters) => waiters
  | _ => []

end Arm

/-- The local tables of `run_connector`. -/
structure Loop where
  explorerCtx : Bool
  pendingDials : List Dial
  inFlightDials : Finset SocketAddr
  dialWaiters : HashMap SocketAddr (List StreamRequest)
  groups : HashMap SocketAddr AddrGroup
  redials : HashMap SocketAddr RedialInFlight
  explorers : Finset SocketAddr
  addrKeys : HashMap SocketAddr (Option ObfuscationKey)
  /-- the source of `GroupToken::generate` -/
  nextToken : Nat
  arm : Arm
  /-- the responses of the `Connect` commands received so far -/
  received : List ResponseId
  /-- what was sent to them, newest first -/
  answers : List (ResponseId × Except ConnectError StreamId)

/-- A call from outside that holds an `Arc<Session>` for a moment. -/
inductive Visit where
  /-- `live_session`, until it has tested the opener -/
  | liveSession (addr : SocketAddr)
  /-- `request_redial`, while it reports the draining session -/
  | requestRedial (addr : SocketAddr)
  /-- `SessionView::live_streams` and `SessionView::stats` -/
  | view (session : SessionId)
  deriving DecidableEq, Repr

/-- `RtpMuxConnector`, its loop, its watchers and its streams. -/
structure Connector where
  loop : Loop
  sessions : HashMap SocketAddr SessionId
  draining : HashMap SocketAddr SessionId
  heap : HashMap SessionId Session
  nextSession : SessionId
  streams : HashMap StreamId StreamHandle
  nextStream : StreamId
  /-- the responses whose receiver is gone -/
  closed : List ResponseId
  /-- the `Weak`s of the `SessionView`s handed out -/
  views : List SessionId
  /-- the `Arc`s the calls of `Visit` hold -/
  visitors : List SessionId

/-- One step of one party. -/
inductive ConnectorEvent where
  /-- the fast path of `connect` -/
  | open (addr : SocketAddr) (lane : LaneClass)
  /-- `into_stream` is called -/
  | intoStream (stream : StreamId)
  /-- one step of `StreamRebind::track` -/
  | track (stream : StreamId)
  | dropStream (stream : StreamId)
  | writerEnds (stream : StreamId)
  /-- the caller of `connect` gives up -/
  | closeResponse (response : ResponseId)
  | probeSession (addr : SocketAddr)
  /-- a call of `Visit` takes its `Arc` -/
  | visit (visit : Visit)
  /-- and lets go of it -/
  | leave (session : SessionId)
  | openerDies (session : SessionId)
  /-- the mux session ends and its watcher sees it -/
  | supervisorEnds (session : SessionId)
  /-- the watcher reacts to a kill or to the end of the last `Arc`, or its linger is over -/
  | watcher (session : SessionId)
  /-- `supervisors.join_next()` -/
  | reap (session : SessionId)
  /-- `pending_dials.next()` -/
  | dialDone (dial : Dial) (result : Except ConnectError Unit)
  /-- the next step of the arm the loop is in -/
  | advance
  | connect (addr : SocketAddr) (lane : LaneClass) (key : Option ObfuscationKey)
      (response : ResponseId)
  /-- `wantsMigration` is what the explorer's verdict says -/
  | redial (addr : SocketAddr) (trigger : RedialTrigger) (wantsMigration : Bool)
  | explorerReport (addr : SocketAddr)
  | reset

namespace Connector

/-- A new connector. -/
def init (explorerCtx : Bool) : Connector where
  loop := ⟨explorerCtx, [], ∅, ∅, ∅, ∅, ∅, ∅, 0, .select, [], []⟩
  sessions := ∅
  draining := ∅
  heap := ∅
  nextSession := 0
  streams := ∅
  nextStream := 0
  closed := []
  views := []
  visitors := []

/-! ## References -/

/-- The successor of a session. -/
def link (s : Connector) (session : SessionId) : Option SessionId :=
  (s.heap.lookup session).bind (·.successor)

/-- What holds a session directly, successors apart. -/
def roots (s : Connector) : List SessionId :=
  s.sessions.entries.map (·.2) ++ s.loop.redials.entries.map (·.2.old) ++ s.loop.arm.locals ++
    s.visitors ++ s.streams.entries.flatMap fun e => e.2.refs (s.loop.arm.borrowed = some e.1)

/-- `strong_count > 0` of a session. -/
def strong (s : Connector) (session : SessionId) : Bool :=
  Refs.isLive (· ∈ s.roots) s.link session

/-- `strong_count > 0` of a `StreamRebind`. -/
def streamStrong (s : Connector) (stream : StreamId) : Bool :=
  s.loop.arm.borrowed = some stream || (s.streams.lookup stream).any (·.phase.isRebind)

/-- `opener.is_alive()`. -/
def isAlive (s : Connector) (session : SessionId) : Bool := (s.heap.lookup session).any (·.alive)

/-! ## `Session` -/

/-- `Session::guard`. -/
def takeGuard (s : Connector) (session : SessionId) : Connector :=
  { s with heap := s.heap.modify session fun x => { x with liveStreams := x.liveStreams + 1 } }

/-- `SessionGuard::drop`. -/
def dropGuard (s : Connector) (session : SessionId) : Connector :=
  { s with heap := s.heap.modify session fun x => { x with liveStreams := x.liveStreams - 1 } }

/-- `Session::open_stream`. -/
def openStream (s : Connector) (session : SessionId) (lane : LaneClass) : Connector :=
  { s.takeGuard session with
    streams := s.streams.insert s.nextStream ⟨lane, .opened, session, session, true, true, []⟩
    nextStream := s.nextStream + 1 }

/-- `Session::track`, and what `track_if_current` does for a session without successor. -/
def trackOn (s : Connector) (session : SessionId) (stream : StreamId) : Connector :=
  { s with
    heap := s.heap.modify session fun x =>
      { x with streams := x.streams.filter s.streamStrong ++ [stream] } }

/-- `live_session`. -/
def liveSession (s : Connector) (addr : SocketAddr) : Option SessionId :=
  (s.sessions.lookup addr).filter s.isAlive

/-! ## Callers from outside -/

/-- `probe_session`: a `Weak` of the mapped session. -/
def probeSession (s : Connector) (addr : SocketAddr) : Connector :=
  { s with views := (s.sessions.lookup addr).toList ++ s.views }

/-- The session a call finds: the clone of a mapped one, or a `Weak` it can upgrade. -/
def visited (s : Connector) : Visit → Option SessionId
  | .liveSession addr => s.sessions.lookup addr
  | .requestRedial addr => (s.draining.lookup addr).filter s.strong
  | .view session => if session ∈ s.views ∧ s.strong session then some session else none

/-- A call holds the session it found. -/
def visit (s : Connector) (visit : Visit) : Option Connector :=
  (s.visited visit).map fun session => { s with visitors := session :: s.visitors }

/-- A call is over. -/
def leave (s : Connector) (session : SessionId) : Option Connector :=
  if session ∈ s.visitors then some { s with visitors := s.visitors.erase session } else none

/-! ## `rebind_one` and `StreamRebind::track` -/

/-- Change the record of a stream. -/
def setStream (s : Connector) (stream : StreamId) (f : StreamHandle → StreamHandle) : Connector :=
  { s with streams := s.streams.modify stream f }

/-- One step of `rebind_one`; `none` when it has returned. The slot of the write half takes the
opener even if the background writer is found to have ended. -/
def rebindOne (s : Connector) (stream : StreamId) (r : StreamHandle) (new : SessionId) :
    RebindPc → Connector × Option RebindPc
  | .offer =>
    (if r.halfAlive then s.setStream stream fun r => { r with lastSent := new } else s,
      if r.rebindable then some .guard else none)
  | .guard => (s.takeGuard new, some .assign)
  | .assign =>
    ((s.dropGuard r.guard).setStream stream fun r => { r with guard := new }, some .register)
  | .register => (s.trackOn new stream, none)

/-- `MAX_SUCCESSOR_HOPS`. -/
def maxSuccessorHops : Nat := 8

/-- Set the phase of a stream. -/
def setPhase (s : Connector) (stream : StreamId) (phase : StreamPhase) : Connector :=
  s.setStream stream fun r => { r with phase := phase }

/-- One round of the loop in `latest_generation`. -/
def seekStep (s : Connector) (stream : StreamId) (session newestLive cursor : SessionId) :
    Nat → Connector
  | 0 => s.setPhase stream (.tracking session (.place newestLive))
  | hops + 1 =>
    match s.link cursor with
    | none => s.setPhase stream (.tracking session (.place newestLive))
    | some next =>
      if s.isAlive next then s.setPhase stream (.tracking session (.seek next next hops))
      else s.setStream stream fun r =>
        { r with
          phase := .tracking session (.seek newestLive next hops)
          foundDead := next :: r.foundDead }

/-- One step of `StreamRebind::track`. -/
def trackStep (s : Connector) (stream : StreamId) (r : StreamHandle) (session : SessionId) :
    TrackPc → Connector
  | .current =>
    if (s.link session).isSome then
      s.setPhase stream (.tracking session (.seek session session maxSuccessorHops))
    else (s.trackOn session stream).setPhase stream .tracked
  | .seek newestLive cursor hops => s.seekStep stream session newestLive cursor hops
  | .place live =>
    if live = session then (s.trackOn session stream).setPhase stream .tracked
    else s.setPhase stream (.tracking session (.rebind live .offer))
  | .rebind live pc =>
    match s.rebindOne stream r live pc with
    | (s, some pc) => s.setPhase stream (.tracking session (.rebind live pc))
    | (s, none) => s.setPhase stream .tracked

/-- The event `track`. -/
def track (s : Connector) (stream : StreamId) : Option Connector :=
  match s.streams.lookup stream with
  | some r =>
    match r.phase with
    | .tracking session pc => some (s.trackStep stream r session pc)
    | _ => none
  | none => none

/-- `OpenedStream::into_stream`: the write half is built and `StreamRebind::track` called. -/
def intoStream (s : Connector) (stream : StreamId) : Option Connector :=
  match s.streams.lookup stream with
  | some r =>
    if r.phase = .opened then some (s.setPhase stream (.tracking r.guard .current)) else none
  | none => none

/-- The owner drops its stream. A `ClientStream` drops its write half first and its `StreamRebind`
last; the guard goes with the last `Arc` of the latter. -/
def dropStream (s : Connector) (stream : StreamId) : Option Connector :=
  match s.streams.lookup stream with
  | some r =>
    match r.phase with
    | .opened => some ((s.dropGuard r.guard).setPhase stream .dropped)
    | .tracked =>
      if r.halfAlive then some (s.setStream stream fun r => { r with halfAlive := false })
      else if s.loop.arm.borrowed = some stream then some (s.setPhase stream .dropped)
      else some ((s.dropGuard r.guard).setPhase stream .dropped)
    | _ => none
  | none => none

/-- The background writer of a stream ends. -/
def writerEnds (s : Connector) (stream : StreamId) : Option Connector :=
  match s.streams.lookup stream with
  | some r =>
    if r.phase = .opened then none
    else some (s.setStream stream fun r => { r with writerRunning := false })
  | none => none

/-! ## The tables of the loop -/

/-- Change the tables of the loop. -/
def setLoop (s : Connector) (f : Loop → Loop) : Connector := { s with loop := f s.loop }

/-- Go on in another arm. -/
def setArm (s : Connector) (arm : Arm) : Connector := s.setLoop fun l => { l with arm := arm }

/-- Send a response. -/
def answer (s : Connector) (response : ResponseId) (result : Except ConnectError StreamId) :
    Connector :=
  s.setLoop fun l => { l with answers := (response, result) :: l.answers }

/-- Answer a request with a new stream, unless its caller is gone. -/
def respond (s : Connector) (session : SessionId) (request : StreamRequest) : Connector :=
  if request.response ∈ s.closed then s
  else (s.openStream session request.lane).answer request.response (.ok s.nextStream)

/-- Answer requests with an error. -/
def failAll (requests : List StreamRequest) (error : ConnectError) (l : Loop) : Loop :=
  { l with answers := (requests.map fun r => (r.response, .error error)).reverse ++ l.answers }

/-- `prune_dead_addresses`. -/
def pruneDeadAddresses (s : Connector) : Connector :=
  let groups := (HashMap.mapVal (fun _ g => { g with sessions := g.sessions.filter s.strong })
    s.loop.groups).retain fun addr g => addr ∈ s.loop.inFlightDials || !g.sessions.isEmpty
  s.setLoop fun l =>
    { l with
      groups := groups
      explorers := l.explorers.filter (· ∈ groups) }

/-- The group an address has or gets. -/
def groupFor (l : Loop) (addr : SocketAddr) : AddrGroup :=
  (l.groups.lookup addr).getD ⟨⟨l.nextToken⟩, []⟩

/-- `start_dial`. -/
def startDial (addr : SocketAddr) (key : Option ObfuscationKey) (l : Loop) : Loop :=
  { l with
    groups := l.groups.insert addr (groupFor l addr)
    nextToken := if addr ∈ l.groups then l.nextToken else l.nextToken + 1
    explorers := if l.explorerCtx then insert addr l.explorers else l.explorers
    inFlightDials := insert addr l.inFlightDials
    pendingDials := l.pendingDials ++ [⟨addr, (groupFor l addr).token, key⟩] }

/-- `live_dial_waiters`: drop the waiters whose caller is gone and count the others. -/
def liveDialWaiters (s : Connector) (addr : SocketAddr) : Connector × Nat :=
  let live := fun ws : List StreamRequest => ws.filter (·.response ∉ s.closed)
  (s.setLoop fun l => { l with dialWaiters := l.dialWaiters.modify addr live },
    ((s.loop.dialWaiters.lookup addr).map fun ws => (live ws).length).getD 0)

/-- Queue a request. -/
def pushWaiter (addr : SocketAddr) (request : StreamRequest) (l : Loop) : Loop :=
  { l with
    dialWaiters := l.dialWaiters.insert addr
      ((l.dialWaiters.lookup addr).getD [] ++ [request]) }

/-! ## The arms of the loop -/

/-- `install_session`. -/
def installSession (s : Connector) (dial : Dial) (old : Option SessionId) : Connector :=
  match s.loop.groups.lookup dial.addr with
  | none => s.setArm .panicked
  | some group =>
    { s with
      heap := s.heap.insert s.nextSession
        ⟨dial.addr, dial.token, dial.key, true, 0, [], none, false, .running⟩
      nextSession := s.nextSession + 1
      loop := { s.loop with
        groups := s.loop.groups.insert dial.addr
          { group with sessions := group.sessions.filter s.strong ++ [s.nextSession] }
        arm := .completing dial.addr s.nextSession old .rebind } }

/-- The tables without a finished dial. -/
def removeDial (dial : Dial) (l : Loop) : Loop :=
  { l with
    pendingDials := l.pendingDials.erase dial
    inFlightDials := l.inFlightDials.erase dial.addr
    redials := l.redials.erase dial.addr }

/-- A dial is finished. -/
def dialDone (s : Connector) (dial : Dial) (result : Except ConnectError Unit) :
    Option Connector :=
  if s.loop.arm = .select ∧ dial ∈ s.loop.pendingDials then
    let redialedOld := (s.loop.redials.lookup dial.addr).map (·.old)
    match result with
    | .ok () =>
      some ((s.installSession dial redialedOld).setLoop (removeDial dial))
    | .error error =>
      some (s.setLoop fun l =>
        { failAll ((l.dialWaiters.lookup dial.addr).getD []) error (removeDial dial l) with
          dialWaiters := l.dialWaiters.erase dial.addr
          arm := .failing dial.addr redialedOld })
  else none

/-- `rebind_streams` is done: the old session is draining, and the waiters are next. -/
def retire (s : Connector) (addr : SocketAddr) (session : SessionId) (old : Option SessionId) :
    Connector :=
  { s with
    draining := match old with
      | some o => s.draining.insert addr o
      | none => s.draining
    loop := { s.loop with
      dialWaiters := s.loop.dialWaiters.erase addr
      arm := .completing addr session old
        (.answer ((s.loop.dialWaiters.lookup addr).getD [])) } }

/-- The critical section of `rebind_streams`: take the streams and publish the successor. -/
def drain (s : Connector) (old session : SessionId) : Connector :=
  { s with
    heap := s.heap.modify old fun x => { x with streams := [], successor := some session } }

/-- The loop drops its `Arc` of a stream, and the guard with it if the owner has dropped its own. -/
def releaseStream (s : Connector) (stream : StreamId) : Connector :=
  match s.streams.lookup stream with
  | some r => if r.phase = .dropped then s.dropGuard r.guard else s
  | none => s

/-- One step of the arm for a dial that succeeded. -/
def completeStep (s : Connector) (addr : SocketAddr) (session : SessionId)
    (old : Option SessionId) : Stage → Option Connector
  | .rebind =>
    match old with
    | none => some (s.retire addr session old)
    | some o =>
      if s.isAlive session then
        let handles := ((s.heap.lookup o).map (·.streams)).getD []
        some ((s.drain o session).setArm (.completing addr session old (.move handles)))
      else some (s.retire addr session old)
  | .move [] => some (s.retire addr session old)
  | .move (stream :: todo) =>
    if s.streamStrong stream then
      some (s.setArm (.completing addr session old (.one stream .offer todo)))
    else some (s.setArm (.completing addr session old (.move todo)))
  | .one stream pc todo =>
    match s.streams.lookup stream with
    | some r =>
      match s.rebindOne stream r session pc with
      | (s, some pc) => some (s.setArm (.completing addr session old (.one stream pc todo)))
      | (s, none) =>
        some ((s.releaseStream stream).setArm (.completing addr session old (.move todo)))
    | none => none
  | .answer (request :: waiters) =>
    some ((s.respond session request).setArm (.completing addr session old (.answer waiters)))
  | .answer [] => some { s.setArm .select with sessions := s.sessions.insert addr session }

/-- The next step of the arm the loop is in. -/
def advance (s : Connector) : Option Connector :=
  match s.loop.arm with
  | .completing addr session old stage => s.completeStep addr session old stage
  | .failing _ _ => some (s.pruneDeadAddresses.setArm .select)
  | _ => none

/-- A watcher is joined. -/
def reap (s : Connector) (session : SessionId) : Option Connector :=
  match s.heap.lookup session with
  | some x =>
    if s.loop.arm = .select ∧ x.watcher = .finished then
      some (Connector.pruneDeadAddresses
        { s with
          heap := s.heap.modify session fun x => { x with watcher := .reaped }
          sessions := if s.sessions.lookup x.addr = some session then s.sessions.erase x.addr
            else s.sessions })
    else none
  | none => none

/-- The command `Connect`. -/
def connect (s : Connector) (addr : SocketAddr) (lane : LaneClass) (key : Option ObfuscationKey)
    (response : ResponseId) : Option Connector :=
  if s.loop.arm = .select ∧ response ∉ s.loop.received then
    let s := s.setLoop fun l => { l with received := response :: l.received }
    match s.liveSession addr with
    | some session => some (s.respond session ⟨lane, response⟩)
    | none =>
      let (s, waiting) := s.liveDialWaiters addr
      if maxDialWaitersPerAddr ≤ waiting then
        some (s.answer response (.error (.tooManyDialWaiters addr)))
      else if addr ∈ s.loop.inFlightDials then
        some (s.setLoop (pushWaiter addr ⟨lane, response⟩))
      else if maxConcurrentDualDials ≤ s.loop.pendingDials.length then
        some (s.answer response (.error .tooManyConcurrentDials))
      else
        some (s.setLoop fun l =>
          startDial addr key
            { pushWaiter addr ⟨lane, response⟩ l with
              addrKeys := l.addrKeys.insert addr key })
  else none

/-- The gates of the command `Redial`: the session it redials, if it is admitted. -/
def redialTarget (s : Connector) (addr : SocketAddr) (trigger : RedialTrigger)
    (wantsMigration : Bool) : Option SessionId :=
  if (s.draining.lookup addr).any s.strong || addr ∈ s.loop.inFlightDials then none
  else if maxConcurrentDualDials ≤ s.loop.pendingDials.length then none
  else if trigger = .betterPath ∧ ¬(addr ∈ s.loop.explorers ∧ wantsMigration) then none
  else s.sessions.lookup addr

/-- The command `Redial`. -/
def redial (s : Connector) (addr : SocketAddr) (trigger : RedialTrigger)
    (wantsMigration : Bool) : Option Connector :=
  if s.loop.arm = .select then
    match s.redialTarget addr trigger wantsMigration with
    | none => some s
    | some old =>
      some (s.setLoop fun l =>
        startDial addr ((l.addrKeys.lookup addr).getD none)
          { l with redials := l.redials.insert addr ⟨old, trigger⟩ })
  else none

/-- The sessions `Reset` kills: those of the map, and the draining ones that are still held once
the map is empty. -/
def resetKills (s : Connector) : List SessionId :=
  s.sessions.entries.map (·.2) ++
    (s.draining.entries.map (·.2)).filter (Connector.strong { s with sessions := ∅ })

/-- The command `Reset`. -/
def reset (s : Connector) : Option Connector :=
  if s.loop.arm = .select then
    let kills := s.resetKills
    some { s with
      heap := HashMap.mapVal (fun session x =>
        if session ∈ kills then { x with killed := true } else x) s.heap
      sessions := ∅
      draining := ∅
      loop := { failAll (s.loop.dialWaiters.entries.flatMap (·.2)) .connectorReset s.loop with
        dialWaiters := ∅
        inFlightDials := ∅
        pendingDials := []
        redials := ∅
        groups := ∅
        explorers := ∅ } }
  else none

/-! ## Watchers and the whole system -/

/-- Change a session. -/
def setSession (s : Connector) (session : SessionId) (f : Session → Session) : Connector :=
  { s with heap := s.heap.modify session f }

/-- The mux session ends. -/
def supervisorEnds (s : Connector) (session : SessionId) : Option Connector :=
  match s.heap.lookup session with
  | some x =>
    if x.watcher = .running then
      some (s.setSession session fun x => { x with watcher := .finished })
    else none
  | none => none

/-- A watcher reacts to its kill channel, or its linger is over. -/
def watcherStep (s : Connector) (session : SessionId) : Option Connector :=
  match s.heap.lookup session with
  | some x =>
    match x.watcher with
    | .running =>
      if x.killed then some (s.setSession session fun x => { x with watcher := .finished })
      else if s.strong session then none
      else some (s.setSession session fun x => { x with watcher := .lingering })
    | .lingering => some (s.setSession session fun x => { x with watcher := .finished })
    | _ => none
  | none => none

/-- One step of the system. -/
def step (s : Connector) : ConnectorEvent → Option Connector
  | .open addr lane => (s.liveSession addr).map fun session => s.openStream session lane
  | .intoStream stream => s.intoStream stream
  | .track stream => s.track stream
  | .dropStream stream => s.dropStream stream
  | .writerEnds stream => s.writerEnds stream
  | .closeResponse response => some { s with closed := response :: s.closed }
  | .probeSession addr => some (s.probeSession addr)
  | .visit visit => s.visit visit
  | .leave session => s.leave session
  | .openerDies session => some (s.setSession session fun x => { x with alive := false })
  | .supervisorEnds session => s.supervisorEnds session
  | .watcher session => s.watcherStep session
  | .reap session => s.reap session
  | .dialDone dial result => s.dialDone dial result
  | .advance => s.advance
  | .connect addr lane key response => s.connect addr lane key response
  | .redial addr trigger wantsMigration => s.redial addr trigger wantsMigration
  | .explorerReport _ => if s.loop.arm = .select then some s else none
  | .reset => s.reset

end Connector

/-- The connector as a machine; `explorerCtx` says whether it was built with explorers. -/
def connector (explorerCtx : Bool) : Machine Connector ConnectorEvent :=
  ⟨Connector.init explorerCtx, Connector.step⟩

end RtpMux

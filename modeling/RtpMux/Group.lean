import RtpMux.Basic
import RtpMux.HashMap
import RtpMux.Machine
import RtpMux.WriteHalf

/-!
# Session groups (`group.rs`)

The server keeps the sessions of one client address group together: every session that
presents the same group token joins the same `SessionPair`, which has at most two members.
The registry maps tokens to `Weak` references, so a pair lives exactly as long as someone
holds its `Arc`.

The `Arc`s of pairs are `PairHandle`s here: one for every call of `join` that is past its
first critical section, and one for every `PairMember` until it is fully dropped. A pair is
alive when some handle names it. `join` takes two locks in sequence, and each of them is a
step of its own; dropping a `PairMember` runs its `Drop` under the lock first and releases
the `Arc` afterwards, which are two steps as well.

Openers and writers can die at any time, also while a call holds the lock of a pair. So the
critical sections that offer openers take several steps: `join` and `register_writer` read
whether the opener is alive in the step that takes the lock, and every offer is a step of its
own (`advance`). All that time the lock is held (`PairSection`), and whoever else wants it
has to wait.

Openers and writers are named by numbers. Sequence numbers are natural numbers: a `u64` that
is incremented once per join does not overflow. `handed`, `submitted`, `results` and `offers`
record what happened and are read by no step.
-/

namespace RtpMux

/-- Identity of a `SessionPair`: its allocation. -/
abbrev PairId : Type := Nat

/-- Identity of a splice router and of its driver. -/
abbrev RouterId : Type := Nat

/-- Identity of a call of `join`, and of the `PairMember` it returns. -/
abbrev JoinId : Type := Nat

/-- Identity of a write half, seen through its `RebindHandle`. -/
abbrev WriterId : Type := Nat

/-- `GroupJoinError`. -/
inductive GroupJoinError where
  | groupFull
  | driverQueueFull
  | driverScopeClosed
  deriving DecidableEq, Repr

/-- `PairState`. -/
structure PairState where
  members : Nat
  nextSeq : Nat
  newestSeq : Nat
  newestOpener : Option OpenerId
  writers : List WriterId
  nextPurge : Nat
  deriving DecidableEq, Repr

/-- What the call that holds the lock of a pair has still to do. -/
inductive PairSection where
  /-- `join`, in its loop over the writers -/
  | offering (opener : OpenerId) (todo : List WriterId)
  /-- `register_writer` of the member with number `seq`, with the opener it has found alive -/
  | registering (seq : Nat) (writer : WriterId) (target : Option OpenerId)
  deriving DecidableEq, Repr

/-- `SessionPair`, with the token it was created for and the sequence numbers it handed
out, newest first. -/
structure SessionPair where
  feed : RouterId
  state : PairState
  /-- who holds the lock of `state` -/
  lock : Option PairSection
  token : GroupToken
  handed : List Nat
  deriving DecidableEq, Repr

/-- What the holder of an `Arc<SessionPair>` is doing. -/
inductive HandlePhase where
  /-- `join` between its two critical sections -/
  | joining (opener : OpenerId)
  /-- `join` was refused with `GroupFull` and is returning -/
  | refused
  /-- a live `PairMember` -/
  | member (seq : Nat)
  /-- a `PairMember` whose `Drop` has run -/
  | dropping
  deriving DecidableEq, Repr

/-- An `Arc<SessionPair>`. -/
structure PairHandle where
  pair : PairId
  phase : HandlePhase
  deriving DecidableEq, Repr

/-- The bounded submission channel of `GroupDriverSubmitter` and `GroupDriverScope`. -/
structure DriverChannel where
  bound : Nat
  queue : List RouterId
  closed : Bool
  deriving DecidableEq, Repr

/-- `SessionPairRegistry` with everything its calls touch. -/
structure SessionGroups where
  groups : HashMap GroupToken PairId
  pairs : HashMap PairId SessionPair
  handles : HashMap JoinId PairHandle
  nextPair : PairId
  nextRouter : RouterId
  drivers : DriverChannel
  submitted : List RouterId
  results : List (JoinId × Except GroupJoinError Nat)
  deadOpeners : List OpenerId
  deadWriters : List WriterId
  offers : List (WriterId × OpenerId)

/-- One step of one party. -/
inductive GroupEvent where
  /-- the first critical section of `join` -/
  | lookup (join : JoinId) (token : GroupToken) (opener : OpenerId)
  /-- the second one, up to its offers -/
  | commit (join : JoinId)
  /-- `register_writer`, up to its offer -/
  | registerWriter (member : JoinId) (writer : WriterId)
  /-- the next step of the call that holds the lock of a pair -/
  | advance (pair : PairId)
  /-- `PairMember::drop` -/
  | dropMember (member : JoinId)
  /-- the `Arc` of a finished holder is released -/
  | release (holder : JoinId)
  /-- the server receives one submitted driver -/
  | receiveDriver
  | closeScope
  | openerDies (opener : OpenerId)
  | writerDies (writer : WriterId)
  deriving DecidableEq, Repr

namespace SessionGroups

/-- `SessionPairRegistry::new` over a submission channel of capacity `bound`. -/
def init (bound : Nat) : SessionGroups :=
  ⟨∅, ∅, ∅, 0, 0, ⟨bound, [], false⟩, [], [], [], [], []⟩

/-- `Weak::strong_count`: the handles that name the pair. -/
def strongCount (s : SessionGroups) (pair : PairId) : Nat :=
  s.handles.total fun h => if h.pair = pair then 1 else 0

/-- `DualStreamOpener::is_alive`. -/
def openerAlive (s : SessionGroups) (opener : OpenerId) : Bool := opener ∉ s.deadOpeners

/-- `RebindHandle::is_alive`. -/
def writerAlive (s : SessionGroups) (writer : WriterId) : Bool := writer ∉ s.deadWriters

/-- `is_full`. -/
def isFull (s : SessionGroups) (token : GroupToken) : Bool :=
  match s.groups.lookup token with
  | some pair =>
    0 < s.strongCount pair &&
      (s.pairs.lookup pair).any fun p => 2 ≤ p.state.members
  | none => false

/-- `GroupDriverSubmitter::try_reserve`. -/
def tryReserve (drivers : DriverChannel) : Except GroupJoinError Unit :=
  if drivers.closed then .error .driverScopeClosed
  else if drivers.queue.length < drivers.bound then .ok ()
  else .error .driverQueueFull

/-- The state of a new `SessionPair`. -/
def newPairState : PairState := ⟨0, 0, 0, none, [], 64⟩

/-- A pair is created together with its splice router, whose driver is submitted. -/
def createPair (s : SessionGroups) (join : JoinId) (token : GroupToken) (opener : OpenerId) :
    SessionGroups :=
  { s with
    groups := s.groups.insert token s.nextPair
    pairs := s.pairs.insert s.nextPair ⟨s.nextRouter, newPairState, none, token, []⟩
    handles := s.handles.insert join ⟨s.nextPair, .joining opener⟩
    nextPair := s.nextPair + 1
    nextRouter := s.nextRouter + 1
    drivers := { s.drivers with queue := s.drivers.queue ++ [s.nextRouter] }
    submitted := s.nextRouter :: s.submitted }

/-- The first critical section of `join`: forget dead groups, and find or create the group
of `token`. -/
def lookup (s : SessionGroups) (join : JoinId) (token : GroupToken) (opener : OpenerId) :
    Option SessionGroups :=
  if join ∈ s.handles then none
  else
    let s := { s with groups := HashMap.retain (fun _ pair => 0 < s.strongCount pair) s.groups }
    match s.groups.lookup token with
    | some pair => some { s with handles := s.handles.insert join ⟨pair, .joining opener⟩ }
    | none =>
      match tryReserve s.drivers with
      | .ok () => some (s.createPair join token opener)
      | .error error => some { s with results := (join, .error error) :: s.results }

/-- `state.lock()`: a pair whose lock is free. -/
def lockState (s : SessionGroups) (pair : PairId) : Option SessionPair :=
  (s.pairs.lookup pair).filter (·.lock.isNone)

/-- The second critical section of `join`, up to its offers: take a seat, and see whether the
new session is alive, so that every waiting writer is sent to it. -/
def commit (s : SessionGroups) (join : JoinId) : Option SessionGroups :=
  match s.handles.lookup join with
  | some ⟨pair, .joining opener⟩ =>
    match s.lockState pair with
    | some p =>
      if 2 ≤ p.state.members then
        some { s with
          handles := s.handles.insert join ⟨pair, .refused⟩
          results := (join, .error .groupFull) :: s.results }
      else
        let seq := p.state.nextSeq + 1
        let writers := p.state.writers.filter s.writerAlive
        some { s with
          pairs := s.pairs.insert pair { p with
            state := { p.state with
              members := p.state.members + 1
              nextSeq := seq
              newestSeq := seq
              newestOpener := some opener
              writers := writers }
            lock := if s.openerAlive opener then some (.offering opener writers) else none
            handed := seq :: p.handed }
          handles := s.handles.insert join ⟨pair, .member seq⟩
          results := (join, .ok seq) :: s.results }
    | none => none
  | _ => none

/-- The purge of `register_writer`: a list that has grown to `next_purge` is rid of its dead
handles. -/
def purge (s : SessionGroups) (state : PairState) : PairState :=
  let alive := state.writers.filter s.writerAlive
  if state.nextPurge ≤ state.writers.length then
    { state with writers := alive, nextPurge := max (alive.length * 2) 64 }
  else state

/-- `PairMember::register_writer`, up to its offer: on a member that is not the newest, see
whether the newest opener is alive. -/
def registerWriter (s : SessionGroups) (member : JoinId) (writer : WriterId) :
    Option SessionGroups :=
  match s.handles.lookup member with
  | some ⟨pair, .member seq⟩ =>
    match s.lockState pair with
    | some p =>
      let target := if p.state.newestSeq ≠ seq then p.state.newestOpener.filter s.openerAlive
        else none
      some { s with
        pairs := s.pairs.insert pair { p with lock := some (.registering seq writer target) } }
    | none => none
  | _ => none

/-- The next step of the call that holds the lock of a pair: one offer of `join`, or the rest
of `register_writer`. -/
def advance (s : SessionGroups) (pair : PairId) : Option SessionGroups :=
  match s.pairs.lookup pair with
  | some p =>
    match p.lock with
    | some (.offering opener (writer :: todo)) =>
      some { s with
        pairs := s.pairs.insert pair { p with lock := some (.offering opener todo) }
        offers := (writer, opener) :: s.offers }
    | some (.offering _ []) =>
      some { s with pairs := s.pairs.insert pair { p with lock := none } }
    | some (.registering _ writer target) =>
      let state := s.purge p.state
      some { s with
        pairs := s.pairs.insert pair
          { p with state := { state with writers := state.writers ++ [writer] }, lock := none }
        offers := (target.map fun opener => (writer, opener)).toList ++ s.offers }
    | none => none
  | none => none

/-- `PairMember::drop`, under the lock. Subtraction on `Nat` stands for `-= 1`, which must not
underflow. -/
def dropMember (s : SessionGroups) (member : JoinId) : Option SessionGroups :=
  match s.handles.lookup member with
  | some ⟨pair, .member _⟩ =>
    match s.lockState pair with
    | some p =>
      some { s with
        pairs := s.pairs.insert pair
          { p with state := { p.state with members := p.state.members - 1 } }
        handles := s.handles.insert member ⟨pair, .dropping⟩ }
    | none => none
  | _ => none

/-- A holder that is done releases its `Arc`. -/
def release (s : SessionGroups) (holder : JoinId) : Option SessionGroups :=
  match s.handles.lookup holder with
  | some ⟨_, .refused⟩ => some { s with handles := s.handles.erase holder }
  | some ⟨_, .dropping⟩ => some { s with handles := s.handles.erase holder }
  | _ => none

/-- One step of the system. -/
def step (s : SessionGroups) : GroupEvent → Option SessionGroups
  | .lookup join token opener => s.lookup join token opener
  | .commit join => s.commit join
  | .registerWriter member writer => s.registerWriter member writer
  | .advance pair => s.advance pair
  | .dropMember member => s.dropMember member
  | .release holder => s.release holder
  | .receiveDriver => some { s with drivers := { s.drivers with queue := s.drivers.queue.tail } }
  | .closeScope => some { s with drivers := { s.drivers with closed := true } }
  | .openerDies opener => some { s with deadOpeners := opener :: s.deadOpeners }
  | .writerDies writer => some { s with deadWriters := writer :: s.deadWriters }

end SessionGroups

/-- The session groups as a machine. -/
def sessionGroups (bound : Nat) : Machine SessionGroups GroupEvent :=
  ⟨SessionGroups.init bound, SessionGroups.step⟩

end RtpMux

import RtpMux.Group

/-!
# Task scopes and group drivers (`task_scope.rs`, `group.rs`)

Every session group has a splice router, whose tasks are a `JoinSet` of their own: the driver.
`join` hands the driver to the server through a bounded channel, and `GroupDriverScope` owns it from
then on: the serve loop receives it and spawns a drain task, which joins the driver's children one
by one and re-raises a panic of any of them; the serve loop reaps the drains in turn. `shutdown`
closes the channel, adopts what is still queued, signals the drains and reaps them all.

This file models the scope with all the tasks that run under it. A driver is named by a number and
has a list of children. The children run by themselves: each of them may end or panic at any time,
and a child that was aborted may still do so before the abort takes hold. A reservation of the
channel and the send that uses it are two steps, between which the channel may be closed. The watch
channel of the shutdown signal is its version: a drain sees the signal when the version is not the
one it subscribed at.

`reaped` and `panics` record what happened and are read by no step.
-/

namespace RtpMux

/-! ## Task scopes -/

/-- `Result<T, JoinError>`: how a joined task ended. -/
inductive Joined (T : Type) where
  | value (value : T)
  | panicked
  | cancelled
  deriving DecidableEq, Repr

/-- `Result::unwrap` on a joined task; `none` is a panic. -/
def Joined.unwrap {T : Type} : Joined T → Option T
  | value t => some t
  | _ => none

/-- `JoinError::is_panic`. -/
def Joined.isPanic {T : Type} : Joined T → Bool
  | panicked => true
  | _ => false

/-- One turn of the loop of `finish_with_first`: a cancelled task is passed over, a panic is
re-raised, and a value is taken if there is none so far. -/
def finishJoin {T : Type} (outcome : Option T) : Joined T → Option (Option T)
  | .cancelled => some outcome
  | .panicked => none
  | .value completed => some (outcome.or (some completed))

/-! ## Drivers -/

/-- Identity of a submitted driver. -/
abbrev DriverId : Type := Nat

/-- A task of a driver. -/
inductive Child where
  | running
  /-- aborted, and not yet stopped -/
  | aborting
  | ended (joined : Joined Unit)
  deriving DecidableEq, Repr

/-- `AbortHandle::abort` on a task. -/
def Child.abort : Child → Child
  | .running => .aborting
  | child => child

/-- Where a driver is: in the submission channel, or under a drain task. -/
inductive DriverStage where
  | queued
  /-- the drain's loop, subscribed to the shutdown signal at a version -/
  | looping (seen : Nat)
  /-- the drain's call of `abort_and_reap` -/
  | aborting
  /-- the drain task is over -/
  | ended (panicked : Bool)
  deriving DecidableEq, Repr

/-- A driver: the `JoinSet` of a splice router. -/
structure Driver where
  stage : DriverStage
  children : List Child
  deriving DecidableEq, Repr

/-- What the owner of the scope is doing. -/
inductive ScopePhase where
  /-- the loop of `serve_with_handler` -/
  | serving
  /-- `shutdown`: the channel is closed and its rest is adopted -/
  | adopting
  /-- `shutdown`: the drains are signalled and reaped -/
  | reaping
  | returned
  /-- a panic was re-raised -/
  | panicked
  deriving DecidableEq, Repr

/-- `GroupDriverScope` with the sending side of its channel and every task under it. -/
structure DriverScope where
  bound : Nat
  queue : List DriverId
  reserved : Nat
  closed : Bool
  drivers : HashMap DriverId Driver
  version : Nat
  phase : ScopePhase
  nextDriver : DriverId
  reaped : List DriverId
  panics : List DriverId

/-- One step of one party. -/
inductive ScopeEvent where
  /-- `try_reserve` is granted a slot -/
  | reserve
  /-- `permit.send` of a driver with this many tasks -/
  | send (children : Nat)
  /-- a task of a driver ends by itself -/
  | childEnds (driver : DriverId) (child : Nat) (panics : Bool)
  /-- an aborted task stops -/
  | abortTakes (driver : DriverId) (child : Nat)
  /-- the serve loop or `shutdown` receives the next driver -/
  | receive
  /-- a drain joins a task of its driver -/
  | join (driver : DriverId) (child : Nat)
  /-- a drain finds its driver empty -/
  | joinNone (driver : DriverId)
  /-- a drain sees the shutdown signal -/
  | signalled (driver : DriverId)
  /-- `reap_driver` -/
  | reapDriver (driver : DriverId)
  | shutdown
  /-- `shutdown` has found the channel closed and empty and sends the signal -/
  | signal
  /-- `shutdown` has found no drain left -/
  | finish
  deriving DecidableEq, Repr

namespace DriverScope

/-- `group_driver_scope`. -/
def init (bound : Nat) : DriverScope := ⟨bound, [], 0, false, ∅, 0, .serving, 0, [], []⟩

/-- `GroupDriverSubmitter::try_reserve`. A reservation that is not used yet takes a slot. -/
def tryReserve (s : DriverScope) : Except GroupJoinError Unit :=
  if s.closed then .error .driverScopeClosed
  else if s.queue.length + s.reserved < s.bound then .ok ()
  else .error .driverQueueFull

/-- `permit.send`, which a closed channel still accepts. -/
def send (s : DriverScope) (children : Nat) : Option DriverScope :=
  if 0 < s.reserved then
    some { s with
      queue := s.queue ++ [s.nextDriver]
      reserved := s.reserved - 1
      drivers := s.drivers.insert s.nextDriver ⟨.queued, List.replicate children .running⟩
      nextDriver := s.nextDriver + 1 }
  else none

/-- A task of a driver goes on to `next`. -/
def setChild (s : DriverScope) (d : DriverId) (driver : Driver) (child : Nat) (next : Child) :
    DriverScope :=
  { s with
    drivers := s.drivers.insert d { driver with children := driver.children.set child next } }

/-- A task that has not ended does so, unless it was dropped with its set. -/
def childEnds (s : DriverScope) (d : DriverId) (child : Nat) (panics : Bool) :
    Option DriverScope := do
  let driver ← s.drivers.lookup d
  match driver.children[child]? with
  | some .running | some .aborting =>
    let s := s.setChild d driver child (.ended (if panics then .panicked else .value ()))
    some { s with panics := if panics then d :: s.panics else s.panics }
  | _ => none

/-- An abort takes hold. -/
def abortTakes (s : DriverScope) (d : DriverId) (child : Nat) : Option DriverScope := do
  let driver ← s.drivers.lookup d
  match driver.children[child]? with
  | some .aborting => some (s.setChild d driver child (.ended .cancelled))
  | _ => none

/-- `submissions.recv` and `submit_driver_into`. -/
def receive (s : DriverScope) : Option DriverScope :=
  match s.queue with
  | d :: rest =>
    (s.drivers.lookup d).map fun driver =>
      { s with
        queue := rest
        drivers := s.drivers.insert d { driver with stage := .looping s.version } }
  | [] => none

/-- A drain joins an ended task: in its loop it unwraps every result, and in `abort_and_reap` it
passes over cancelled ones. The set of a drain that panics is dropped. -/
def join (s : DriverScope) (d : DriverId) (child : Nat) : Option DriverScope := do
  let driver ← s.drivers.lookup d
  match driver.children[child]? with
  | some (.ended joined) =>
    let kept : Option Bool := match driver.stage with
      | .looping _ => some joined.unwrap.isSome
      | .aborting => some (finishJoin none joined).isSome
      | _ => none
    kept.map fun kept =>
      let driver := if kept then { driver with children := driver.children.eraseIdx child }
        else ⟨.ended true, []⟩
      { s with drivers := s.drivers.insert d driver }
  | _ => none

/-- A drain whose driver is empty returns. -/
def joinNone (s : DriverScope) (d : DriverId) : Option DriverScope := do
  let driver ← s.drivers.lookup d
  match driver.stage, driver.children with
  | .looping _, [] | .aborting, [] =>
    some { s with drivers := s.drivers.insert d ⟨.ended false, []⟩ }
  | _, _ => none

/-- `shutdown_rx.changed()` in a drain, then `abort_all`. -/
def signalled (s : DriverScope) (d : DriverId) : Option DriverScope := do
  let driver ← s.drivers.lookup d
  match driver.stage with
  | .looping seen =>
    if seen ≠ s.version then
      some { s with drivers := s.drivers.insert d ⟨.aborting, driver.children.map Child.abort⟩ }
    else none
  | _ => none

/-- `reap_driver`: a drain that is over is joined, and its panic is re-raised. -/
def reapDriver (s : DriverScope) (d : DriverId) : Option DriverScope := do
  let driver ← s.drivers.lookup d
  match driver.stage with
  | .ended panicked =>
    some { s with
      drivers := s.drivers.erase d
      reaped := d :: s.reaped
      phase := if panicked then .panicked else s.phase }
  | _ => none

/-- `drivers.join_next()` finds no drain. -/
def noDrains (s : DriverScope) : Bool := s.drivers.entries.all fun e => e.2.stage = .queued

/-- One step. When the owner has returned or panicked the scope is gone. -/
def step (s : DriverScope) (e : ScopeEvent) : Option DriverScope :=
  if s.phase = .returned ∨ s.phase = .panicked then none
  else
    match e with
    | .reserve => if s.tryReserve = .ok () then some { s with reserved := s.reserved + 1 } else none
    | .send children => s.send children
    | .childEnds d child panics => s.childEnds d child panics
    | .abortTakes d child => s.abortTakes d child
    | .receive => if s.phase = .serving ∨ s.phase = .adopting then s.receive else none
    | .join d child => s.join d child
    | .joinNone d => s.joinNone d
    | .signalled d => s.signalled d
    | .reapDriver d => if s.phase = .serving ∨ s.phase = .reaping then s.reapDriver d else none
    | .shutdown =>
      if s.phase = .serving then some { s with closed := true, phase := .adopting } else none
    | .signal =>
      if s.phase = .adopting ∧ s.queue = [] ∧ s.reserved = 0 then
        some { s with version := s.version + 1, phase := .reaping }
      else none
    | .finish =>
      if s.phase = .reaping ∧ s.noDrains = true then some { s with phase := .returned } else none

end DriverScope

/-- The scope as a machine. -/
def driverScope (bound : Nat) : Machine DriverScope ScopeEvent := ⟨.init bound, DriverScope.step⟩

end RtpMux

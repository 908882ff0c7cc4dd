import RtpMux.Stranding

/-!
# The gauge of live streams (`connector/cross_session.rs`)

`Session::live_streams` is raised by `Session::guard` and lowered when a `SessionGuard` is dropped,
and nothing else writes it. A guard moves: `open_stream` makes it, `into_stream` hands it to the
`StreamRebind`, and `rebind_one` makes a second one on the new session before the assignment drops
the first. In between the stream may be dropped by its owner while the loop still holds its `Arc`.

`Connector.guards` lists every guard that exists, each by the session it names, wherever it is
kept. The gauge of a session is the number of its guards (`GaugeInv`). The subtraction in
`dropGuard` is the one of `Nat`, which stops at zero where the atomic would wrap; `GuardStep` says
of every step how many guards it made and dropped, as an equation that fails if it ever stopped.
-/

namespace RtpMux

open Connector

/-! ## The guards there are -/

/-- The guards of a stream: the one in its `StreamRebind` or `OpenedStream`, and the one its own
`rebind_one` has made and not assigned yet. -/
def StreamHandle.guards (r : StreamHandle) (borrowed : Bool) : Multiset SessionId :=
  match r.phase with
  | .tracking _ (.rebind live .assign) => {r.guard, live}
  | .dropped => if borrowed then {r.guard} else 0
  | _ => {r.guard}

/-- The guard the `rebind_one` of the loop has made and not assigned yet. -/
def Arm.guards : Arm → Multiset SessionId
  | .completing _ session _ (.one _ .assign _) => {session}
  | _ => 0

/-- The guards of the loop and of all streams. -/
def guardsOf (arm : Arm) (streams : HashMap StreamId StreamHandle) : Multiset SessionId :=
  arm.guards + HashMap.tally (fun i r => r.guards (arm.borrowed = some i)) streams

/-- Every `SessionGuard`, by the session it names. -/
def Connector.guards (s : Connector) : Multiset SessionId := guardsOf s.loop.arm s.streams

/-- The guards an event makes. -/
def Connector.taken (s : Connector) : ConnectorEvent → Multiset SessionId
  | .open addr _ =>
    match s.liveSession addr with
    | some session => {session}
    | none => 0
  | .track i =>
    match s.streams.lookup i with
    | some r =>
      match r.phase with
      | .tracking _ (.rebind live .guard) => {live}
      | _ => 0
    | none => 0
  | .connect addr _ _ response =>
    match s.liveSession addr with
    | some session => if response ∈ s.closed then 0 else {session}
    | none => 0
  | .advance =>
    match s.loop.arm with
    | .completing _ session _ (.one _ .guard _) => {session}
    | .completing _ session _ (.answer (request :: _)) =>
      if request.response ∈ s.closed then 0 else {session}
    | _ => 0
  | _ => 0

/-- The loop lets go of a stream: the guard that goes with it. -/
def StreamHandle.released (r : StreamHandle) : Multiset SessionId :=
  if r.phase = .dropped then {r.guard} else 0

/-- The guard a step of `rebind_one` by the loop drops. -/
def StreamHandle.lost (r : StreamHandle) : RebindPc → Multiset SessionId
  | .offer => if r.rebindable then 0 else r.released
  | .guard => 0
  | .assign => {r.guard}
  | .register => r.released

/-- The guards an event drops. -/
def Connector.dropped (s : Connector) : ConnectorEvent → Multiset SessionId
  | .dropStream i =>
    match s.streams.lookup i with
    | some r =>
      if r.phase = .opened ∨ r.phase = .tracked ∧ r.halfAlive = false ∧
          s.loop.arm.borrowed ≠ some i then {r.guard}
      else 0
    | none => 0
  | .track i =>
    match s.streams.lookup i with
    | some r =>
      match r.phase with
      | .tracking _ (.rebind _ .assign) => {r.guard}
      | _ => 0
    | none => 0
  | .advance =>
    match s.loop.arm with
    | .completing _ _ _ (.one i pc _) =>
      match s.streams.lookup i with
      | some r => r.lost pc
      | none => 0
    | _ => 0
  | _ => 0

/-! ## What a step does to the guards -/

/-- The gauges of `m'` are those of `m`, plus the guards made and less those dropped. -/
def GaugesMove (m m' : HashMap SessionId Session) (taken dropped : Multiset SessionId) : Prop :=
  ∀ X x, m.lookup X = some x →
    ∃ x', m'.lookup X = some x' ∧ x'.liveStreams + dropped.count X = x.liveStreams + taken.count X

namespace GaugesMove

variable {m m' m'' : HashMap SessionId Session}

theorem refl (m : HashMap SessionId Session) : GaugesMove m m 0 0 := fun _ x hx => ⟨x, hx, rfl⟩

/-- Two moves of the gauges add up. -/
theorem trans {taken dropped taken' dropped' : Multiset SessionId}
    (h : GaugesMove m m' taken dropped) (h' : GaugesMove m' m'' taken' dropped') :
    GaugesMove m m'' (taken + taken') (dropped + dropped') := by
  intro X x hx
  obtain ⟨x', hx', hcount⟩ := h X x hx
  obtain ⟨x'', hx'', hcount'⟩ := h' X x' hx'
  refine ⟨x'', hx'', ?_⟩
  rw [Multiset.count_add, Multiset.count_add]
  omega

/-- A change of a session that leaves its gauge. -/
theorem modify (Y : SessionId) {f : Session → Session}
    (hf : ∀ x, (f x).liveStreams = x.liveStreams) : GaugesMove m (m.modify Y f) 0 0 := by
  intro X x hx
  rw [HashMap.lookup_modify]
  split
  · exact ⟨f x, by rw [hx, Option.map_some], by rw [hf]⟩
  · exact ⟨x, hx, rfl⟩

/-- A guard that is taken raises its session's gauge. -/
theorem take (Y : SessionId) :
    GaugesMove m (m.modify Y fun x => { x with liveStreams := x.liveStreams + 1 }) {Y} 0 := by
  intro X x hx
  rw [HashMap.lookup_modify]
  split
  · rename_i hXY
    refine ⟨_, by rw [hx, Option.map_some], ?_⟩
    simp [hXY]
  · rename_i hXY
    exact ⟨x, hx, by simp [hXY]⟩

/-- The gauge of a session with a guard is not zero, so lowering it lowers it. -/
theorem drop {Y : SessionId} (hpos : ∀ y, m.lookup Y = some y → 0 < y.liveStreams) :
    GaugesMove m (m.modify Y fun x => { x with liveStreams := x.liveStreams - 1 }) 0 {Y} := by
  intro X x hx
  rw [HashMap.lookup_modify]
  split
  · rename_i hXY
    refine ⟨_, by rw [hx, Option.map_some], ?_⟩
    have := hpos x (hXY ▸ hx)
    simp only [hXY, Multiset.count_singleton_self, Multiset.count_zero]
    omega
  · rename_i hXY
    exact ⟨x, hx, by simp [hXY]⟩

end GaugesMove

/-- What a step does to the guards: those it makes name known sessions, and a session it adds has
none. -/
structure GuardStep (s s' : Connector) (taken dropped : Multiset SessionId) : Prop where
  guards : s'.guards + dropped = s.guards + taken
  gauges : GaugesMove s.heap s'.heap taken dropped
  known : ∀ X ∈ taken, s.heap.lookup X ≠ none
  fresh : ∀ X x, s'.heap.lookup X = some x → s.heap.lookup X = none → x.liveStreams = 0

/-- The gauge of every session is the number of guards that name it. -/
def GaugeInv (s : Connector) : Prop :=
  ∀ X x, s.heap.lookup X = some x → x.liveStreams = s.guards.count X

/-- The connector starts without guards. -/
theorem gaugeInv_init (explorerCtx : Bool) : GaugeInv (Connector.init explorerCtx) := by
  simp [GaugeInv, Connector.init]

/-! ## Guards after a change of a stream or of the arm -/

/-- Only the loop keeps the guard of a dropped stream. -/
theorem StreamHandle.guards_eq (r : StreamHandle) (h : r.phase ≠ .dropped) (b b' : Bool) :
    r.guards b = r.guards b' := by
  unfold StreamHandle.guards
  split
  · rfl
  · contradiction
  · rfl

/-- A stream in this phase has exactly the guard its record names. -/
def StreamPhase.Plain : StreamPhase → Prop
  | .tracking _ (.rebind _ .assign) => False
  | .dropped => False
  | _ => True

/-- A stream outside of a move holds its own guard only. -/
theorem StreamHandle.guards_of_plain {r : StreamHandle} (h : r.phase.Plain) (b : Bool) :
    r.guards b = {r.guard} := by
  unfold StreamHandle.guards
  split
  · rename_i heq
    rw [heq] at h
    exact h.elim
  · rename_i heq
    rw [heq] at h
    exact h.elim
  · rfl

/-- So has a stream that the loop holds. -/
theorem StreamHandle.guards_of_landed {r : StreamHandle} (h : r.phase.Landed) :
    r.guards true = {r.guard} := by
  rcases h with h | h <;> simp [StreamHandle.guards, h]

section

variable {s s' : Connector} {i : StreamId} {r : StreamHandle}

/-- The guards depend on the streams and the arm. -/
theorem guards_congr (hstreams : s'.streams = s.streams)
    (harm : s'.loop.arm.guards = s.loop.arm.guards)
    (hborrowed : s'.loop.arm.borrowed = s.loop.arm.borrowed) : s'.guards = s.guards := by
  unfold Connector.guards guardsOf
  rw [hstreams, harm, hborrowed]

/-- One stream is changed. -/
theorem guards_setStream (hi : s.streams.lookup i = some r) (f : StreamHandle → StreamHandle) :
    r.guards (s.loop.arm.borrowed = some i) + (s.setStream i f).guards =
      (f r).guards (s.loop.arm.borrowed = some i) + s.guards := by
  have hinsert := HashMap.tally_insert
    (f := fun i r => StreamHandle.guards r (s.loop.arm.borrowed = some i)) (f r) hi
  simp only [Connector.guards, guardsOf, setStream, HashMap.modify, hi]
  rw [add_left_comm, hinsert, add_left_comm]

/-- One stream is changed, and keeps its guards. -/
theorem guards_setStream_same (hi : s.streams.lookup i = some r) {f : StreamHandle → StreamHandle}
    (hf : ∀ b, (f r).guards b = r.guards b) : (s.setStream i f).guards = s.guards := by
  have h := guards_setStream hi f
  rw [hf] at h
  exact add_left_cancel h

/-- The loop goes on in another arm and takes hold of, or lets go of, the stream `i`. -/
theorem guards_setArm (arm : Arm) (hi : s.streams.lookup i = some r)
    (hborrowed : ∀ j, j ≠ i → (arm.borrowed = some j ↔ s.loop.arm.borrowed = some j)) :
    s.loop.arm.guards + r.guards (s.loop.arm.borrowed = some i) + (s.setArm arm).guards =
      arm.guards + r.guards (arm.borrowed = some i) + s.guards := by
  have hexchange := HashMap.tally_exchange
    (f := fun i r => StreamHandle.guards r (arm.borrowed = some i))
    (g := fun i r => StreamHandle.guards r (s.loop.arm.borrowed = some i)) hi
    fun j r' hne => by simp only [hborrowed j hne]
  calc s.loop.arm.guards + r.guards (s.loop.arm.borrowed = some i) + guardsOf arm s.streams
    _ = s.loop.arm.guards + arm.guards + (r.guards (s.loop.arm.borrowed = some i) +
          HashMap.tally (fun i r => r.guards (arm.borrowed = some i)) s.streams) := by
      unfold guardsOf
      ac_rfl
    _ = arm.guards + r.guards (arm.borrowed = some i) + s.guards := by
      rw [hexchange]
      unfold Connector.guards guardsOf
      ac_rfl

/-- The loop goes on in another arm and holds the same stream. -/
theorem guards_setArm_same (arm : Arm) (hborrowed : arm.borrowed = s.loop.arm.borrowed) :
    s.loop.arm.guards + (s.setArm arm).guards = arm.guards + s.guards := by
  change s.loop.arm.guards + guardsOf arm s.streams = arm.guards + s.guards
  unfold Connector.guards guardsOf
  rw [hborrowed]
  exact add_left_comm _ _ _

/-- A stream that keeps its one guard. -/
theorem guards_setPhase (hi : s.streams.lookup i = some r) (phase : StreamPhase)
    (hplain : r.phase.Plain) (hphase : phase.Plain) : (s.setPhase i phase).guards = s.guards := by
  refine guards_setStream_same hi fun b => ?_
  rw [StreamHandle.guards_of_plain hplain]
  exact StreamHandle.guards_of_plain (r := { r with phase := phase }) hphase b

/-- A new stream has one guard. -/
theorem guards_openStream (hnew : s.streams.lookup s.nextStream = none) (X : SessionId)
    (lane : LaneClass) : (s.openStream X lane).guards = s.guards + {X} := by
  have hinsert := HashMap.tally_insert_new
    (f := fun i r => StreamHandle.guards r (s.loop.arm.borrowed = some i))
    (⟨lane, .opened, X, X, true, true, []⟩ : StreamHandle) hnew
  calc (s.openStream X lane).guards
    _ = s.loop.arm.guards + ({X} +
          HashMap.tally (fun i r => r.guards (s.loop.arm.borrowed = some i)) s.streams) :=
      congrArg (s.loop.arm.guards + ·) hinsert
    _ = s.guards + {X} := by
      unfold Connector.guards guardsOf
      ac_rfl

/-- Every guard is one of those that hold a session. -/
theorem strong_of_guards {X : SessionId} (h : X ∈ s.guards) : s.Strong X := by
  unfold Connector.guards guardsOf at h
  rcases Multiset.mem_add.mp h with harm | hstream
  · refine strong_of_arm ?_
    unfold Arm.guards at harm
    split at harm
    · rename_i heq
      rw [heq]
      simpa [Arm.locals] using .inl (Multiset.mem_singleton.mp harm)
    · exact absurd harm (Multiset.notMem_zero X)
  · obtain ⟨i, r, hi, hX⟩ := HashMap.mem_tally hstream
    refine strong_of_stream hi ?_
    unfold StreamHandle.guards at hX
    unfold StreamHandle.refs
    split at hX
    · rename_i heq
      simp only [heq, TrackPc.locals]
      simp only [Multiset.insert_eq_cons, Multiset.mem_cons, Multiset.mem_singleton] at hX
      rcases hX with rfl | rfl <;> simp
    · rename_i heq
      rw [heq]
      split at hX
      · rename_i hborrowed
        simpa [hborrowed] using hX
      · exact absurd hX (Multiset.notMem_zero X)
    · rename_i hdropped
      obtain rfl := Multiset.mem_singleton.mp hX
      split
      · simp
      · contradiction
      · simp

end

/-! ## The steps -/

theorem Connector.addrOf_ne_none {s : Connector} {X : SessionId} :
    s.addrOf X ≠ none ↔ s.heap.lookup X ≠ none := by
  simp [addrOf]

namespace GuardStep

variable {s s' : Connector}

/-- Steps that touch no stream and no gauge. -/
theorem frame (hstreams : s'.streams = s.streams)
    (harm : s'.loop.arm.guards = s.loop.arm.guards)
    (hborrowed : s'.loop.arm.borrowed = s.loop.arm.borrowed)
    (hgauges : GaugesMove s.heap s'.heap 0 0)
    (hfresh : ∀ X x, s'.heap.lookup X = some x → s.heap.lookup X = none → x.liveStreams = 0) :
    GuardStep s s' 0 0 where
  guards := by rw [guards_congr hstreams harm hborrowed]
  gauges := hgauges
  known := fun X hX => absurd hX (Multiset.notMem_zero X)
  fresh := hfresh

/-- Steps that leave the heap. -/
theorem of_heap_eq (hheap : s'.heap = s.heap) (hguards : s'.guards = s.guards) :
    GuardStep s s' 0 0 where
  guards := by rw [hguards]
  gauges := hheap ▸ GaugesMove.refl s.heap
  known := fun X hX => absurd hX (Multiset.notMem_zero X)
  fresh := by
    rw [hheap]
    intro X x hx hnone
    rw [hx] at hnone
    cases hnone

/-- A change of one session adds none. -/
theorem fresh_modify {m : HashMap SessionId Session} {Y X : SessionId} {f : Session → Session}
    {x : Session} (hx : (m.modify Y f).lookup X = some x) (hnone : m.lookup X = none) :
    x.liveStreams = 0 := by
  rw [HashMap.lookup_modify, hnone] at hx
  simp at hx

/-- A change of one session that leaves its gauge. -/
theorem setSession (Y : SessionId) {f : Session → Session}
    (hf : ∀ x, (f x).liveStreams = x.liveStreams) : GuardStep s (s.setSession Y f) 0 0 :=
  .frame rfl rfl rfl (.modify Y hf) fun _ _ => fresh_modify

/-- A new stream takes a guard of its session. -/
theorem openStream {X : SessionId} (hnew : s.streams.lookup s.nextStream = none)
    (hX : s.heap.lookup X ≠ none) (lane : LaneClass) :
    GuardStep s (s.openStream X lane) {X} 0 where
  guards := by rw [add_zero, guards_openStream hnew]
  gauges := .take X
  known := fun Y hY => Multiset.mem_singleton.mp hY ▸ hX
  fresh := fun _ _ => fresh_modify

/-- A guard is made, and the guards are one more. -/
theorem take {X : SessionId} (hheap : s'.heap = (s.takeGuard X).heap)
    (hX : s.heap.lookup X ≠ none) (hguards : s'.guards = s.guards + {X}) :
    GuardStep s s' {X} 0 where
  guards := by rw [add_zero, hguards]
  gauges := hheap ▸ .take X
  known := fun Y hY => Multiset.mem_singleton.mp hY ▸ hX
  fresh := fun Y y hy => fresh_modify (hheap ▸ hy)

/-- A guard is dropped, and the guards are one less. -/
theorem drop (h : GaugeInv s) {X : SessionId} (hheap : s'.heap = (s.dropGuard X).heap)
    (hguards : s'.guards + {X} = s.guards) : GuardStep s s' 0 {X} where
  guards := by rw [add_zero, hguards]
  gauges := by
    rw [hheap]
    refine .drop fun x hx => ?_
    rw [h X x hx, ← hguards]
    simp
  known := fun Y hY => absurd hY (Multiset.notMem_zero Y)
  fresh := fun Y y hy => fresh_modify (hheap ▸ hy)

/-- A step that touches no guard, and then one that makes none. -/
theorem after {s₁ : Connector} {dropped : Multiset SessionId} (h : GuardStep s s₁ 0 0)
    (hsame : ∀ X, s.heap.lookup X = none → s₁.heap.lookup X = none)
    (h' : GuardStep s₁ s' 0 dropped) : GuardStep s s' 0 dropped where
  guards := by
    have hguards := h.guards
    rw [add_zero, add_zero] at hguards
    rw [h'.guards, hguards]
  gauges := by simpa using h.gauges.trans h'.gauges
  known := fun X hX => absurd hX (Multiset.notMem_zero X)
  fresh := fun X x hx hnone => h'.fresh X x hx (hsame X hnone)

end GuardStep

/-- **One step.** The gauges are exact after a step if they were before. -/
theorem GaugeInv.step {s s' : Connector} {taken dropped : Multiset SessionId} (h : GaugeInv s)
    (haddressed : Addressed s) (hstep : GuardStep s s' taken dropped) : GaugeInv s' := by
  intro X x' hx'
  have hcount : s'.guards.count X + dropped.count X = s.guards.count X + taken.count X := by
    rw [← Multiset.count_add, hstep.guards, Multiset.count_add]
  cases hx : s.heap.lookup X with
  | some x =>
    obtain ⟨x₁, hx₁, hmove⟩ := hstep.gauges X x hx
    obtain rfl := Option.some.inj (hx₁.symm.trans hx')
    have hgauge := h X x hx
    omega
  | none =>
    -- a session that was not there has no guard
    have hguards : s.guards.count X = 0 := by
      refine Multiset.count_eq_zero_of_notMem fun hmem => ?_
      exact Connector.addrOf_ne_none.mp (haddressed.held X (strong_of_guards hmem)) hx
    have htaken : taken.count X = 0 :=
      Multiset.count_eq_zero_of_notMem fun hmem => hstep.known X hmem hx
    have hfresh := hstep.fresh X x' hx' hx
    omega

/-! ### `StreamRebind::track` -/

section

variable {s s' : Connector} {i : StreamId} {r : StreamHandle}

theorem pair_eq (X Y : SessionId) : ({X, Y} : Multiset SessionId) = {X} + {Y} :=
  (Multiset.singleton_add X {Y}).symm

/-- `rebind` of the write half touches no guard. -/
theorem guards_offer (hi : s.streams.lookup i = some r) (new : SessionId) :
    (s.rebindOne i r new .offer).1.guards = s.guards ∧
      (s.rebindOne i r new .offer).1.heap = s.heap ∧
      (s.rebindOne i r new .offer).1.loop = s.loop ∧
      ∃ r', (s.rebindOne i r new .offer).1.streams.lookup i = some r' ∧ r'.phase = r.phase ∧
        r'.guard = r.guard := by
  simp only [Connector.rebindOne]
  split
  · refine ⟨guards_setStream_same hi fun b => rfl, rfl, rfl, { r with lastSent := new }, ?_, rfl,
      rfl⟩
    rw [lookup_setStream hi, if_pos rfl]
  · exact ⟨rfl, rfl, rfl, r, hi, rfl, rfl⟩

/-- A step of `track` moves the guards as it says. -/
theorem guardStep_trackStep (h : GaugeInv s) (haddressed : Addressed s) {session : SessionId}
    {pc : TrackPc} (hi : s.streams.lookup i = some r) (hphase : r.phase = .tracking session pc) :
    GuardStep s (s.trackStep i r session pc) (s.taken (.track i)) (s.dropped (.track i)) := by
  have hseat : ∀ {X : SessionId} {phase : StreamPhase}, r.phase.Plain → phase.Plain →
      GuardStep s ((s.trackOn X i).setPhase i phase) 0 0 := by
    intro X phase hplain hnext
    have hguards : ((s.trackOn X i).setPhase i phase).guards = s.guards :=
      guards_setPhase (s := s.trackOn X i) hi _ hplain hnext
    constructor
    · rw [hguards]
    · exact .modify X fun _ => rfl
    · exact fun Y hY => absurd hY (Multiset.notMem_zero Y)
    · exact fun _ _ => GuardStep.fresh_modify
  have hstay : ∀ {phase : StreamPhase}, r.phase.Plain → phase.Plain →
      GuardStep s (s.setPhase i phase) 0 0 := fun hplain hnext =>
    .of_heap_eq rfl (guards_setPhase hi _ hplain hnext)
  cases pc with
  | current =>
    have hplain : r.phase.Plain := by rw [hphase]; trivial
    simp only [taken, dropped, hi, hphase, Connector.trackStep]
    split
    · exact hstay hplain trivial
    · exact hseat hplain trivial
  | seek newest cursor hops =>
    have hplain : r.phase.Plain := by rw [hphase]; trivial
    simp only [taken, dropped, hi, hphase, Connector.trackStep]
    cases hops with
    | zero => exact hstay hplain trivial
    | succ hops =>
      simp only [Connector.seekStep]
      split
      · exact hstay hplain trivial
      · rename_i next _
        split
        · exact hstay hplain trivial
        · refine .of_heap_eq rfl (guards_setStream_same hi fun b => ?_)
          rw [StreamHandle.guards_of_plain hplain]
          exact StreamHandle.guards_of_plain
            (r := { r with phase := .tracking session (.seek newest next hops) }) trivial b
  | place live =>
    have hplain : r.phase.Plain := by rw [hphase]; trivial
    simp only [taken, dropped, hi, hphase, Connector.trackStep]
    split
    · exact hseat hplain trivial
    · exact hstay hplain trivial
  | rebind live pc =>
    cases pc with
    | offer =>
      obtain ⟨hguards, hheap, -, r', hi', hphase', -⟩ := guards_offer hi live
      have hplain : r'.phase.Plain := by rw [hphase', hphase]; trivial
      simp only [taken, dropped, hi, hphase, Connector.trackStep]
      split
      · rename_i s₁ pc' heq
        rw [heq] at hguards hheap hi'
        have hpc : (StreamPhase.tracking session (.rebind live pc')).Plain := by
          have hpc' : (s.rebindOne i r live .offer).2 = some pc' := by rw [heq]
          simp only [Connector.rebindOne] at hpc'
          split at hpc'
          · obtain rfl := Option.some.inj hpc'
            trivial
          · cases hpc'
        exact .of_heap_eq hheap ((guards_setPhase hi' _ hplain hpc).trans hguards)
      · rename_i s₁ heq
        rw [heq] at hguards hheap hi'
        exact .of_heap_eq hheap
          ((guards_setPhase hi' .tracked hplain trivial).trans hguards)
    | guard =>
      have hplain : r.phase.Plain := by rw [hphase]; trivial
      have hlive : s.heap.lookup live ≠ none := by
        refine Connector.addrOf_ne_none.mp (haddressed.held live (strong_of_stream hi ?_))
        simp [StreamHandle.refs, hphase, TrackPc.locals]
      simp only [taken, dropped, hi, hphase, Connector.trackStep, Connector.rebindOne]
      refine .take rfl hlive ?_
      have hset := guards_setStream (s := s.takeGuard live) hi
        fun r => { r with phase := .tracking session (.rebind live .assign) }
      rw [StreamHandle.guards_of_plain hplain] at hset
      refine add_left_cancel (hset.trans ?_)
      change {r.guard, live} + s.guards = {r.guard} + (s.guards + {live})
      rw [pair_eq]
      ac_rfl
    | assign =>
      simp only [taken, dropped, hi, hphase, Connector.trackStep, Connector.rebindOne]
      refine .drop h rfl ?_
      have hi' : ((s.dropGuard r.guard).setStream i fun r => { r with guard := live
          }).streams.lookup i = some { r with guard := live } := by
        rw [lookup_setStream (s := s.dropGuard r.guard) hi, if_pos rfl]
      have hassign := guards_setStream (s := s.dropGuard r.guard) hi
        fun r => { r with guard := live }
      have hset := guards_setStream hi'
        fun r => { r with phase := .tracking session (.rebind live .register) }
      simp only [StreamHandle.guards, hphase, pair_eq] at hassign hset
      refine add_left_cancel (a := ({live} : Multiset SessionId) + {live}) ?_
      rw [← add_assoc]
      refine (congrArg (· + ({r.guard} : Multiset SessionId)) hset).trans ?_
      refine Eq.trans ?_ hassign
      ac_rfl
    | register =>
      have hplain : r.phase.Plain := by rw [hphase]; trivial
      simp only [taken, dropped, hi, hphase, Connector.trackStep, Connector.rebindOne]
      exact hseat hplain trivial

end

/-! ### The loop -/

section

variable {s s' : Connector}

/-- A request that is answered takes a guard for its stream. -/
theorem guardStep_respond (hnew : s.streams.lookup s.nextStream = none)
    {session : SessionId} (hsession : s.heap.lookup session ≠ none) (request : StreamRequest) :
    GuardStep s (s.respond session request)
      (if request.response ∈ s.closed then 0 else {session}) 0 := by
  unfold Connector.respond
  split
  · exact .of_heap_eq rfl rfl
  · exact .take rfl hsession (guards_openStream hnew session request.lane)

/-- The loop lets go of a stream, and drops the guard of one that its owner has dropped. -/
theorem guardStep_release (h : GaugeInv s) {addr : SocketAddr} {session : SessionId}
    {old : Option SessionId} {i : StreamId} {r : StreamHandle} {pc : RebindPc}
    {todo : List StreamId}
    (harm : s.loop.arm = .completing addr session old (.one i pc todo)) (hpc : pc ≠ .assign)
    (hi : s.streams.lookup i = some r) (hlanded : r.phase.Landed) :
    GuardStep s ((s.releaseStream i).setArm (.completing addr session old (.move todo))) 0
      r.released := by
  have hborrowed : s.loop.arm.borrowed = some i := by rw [harm]; rfl
  have harmGuards : s.loop.arm.guards = 0 := by
    rw [harm]
    cases pc <;> first | rfl | contradiction
  have hset : r.guards true + (s.setArm (.completing addr session old (.move todo))).guards =
      r.guards false + s.guards := by
    have hnext : (Arm.completing addr session old (.move todo)).borrowed = none := rfl
    have hnextGuards : (Arm.completing addr session old (.move todo)).guards = 0 := rfl
    have hset := guards_setArm (.completing addr session old (.move todo)) hi fun j hne => by
      simp [hborrowed, hnext, Ne.symm hne]
    simpa [harmGuards, hborrowed, hnext, hnextGuards] using hset
  rw [StreamHandle.guards_of_landed hlanded] at hset
  unfold Connector.releaseStream StreamHandle.released
  simp only [hi]
  split
  · rename_i hdropped
    have hnone : r.guards false = 0 := by simp [StreamHandle.guards, hdropped]
    refine .drop h rfl ?_
    rw [hnone, zero_add, add_comm] at hset
    exact hset
  · rename_i hdropped
    have hone : r.guards false = {r.guard} := by
      rw [StreamHandle.guards_eq r hdropped false true, StreamHandle.guards_of_landed hlanded]
    rw [hone] at hset
    exact .of_heap_eq rfl (add_left_cancel hset)

end

/-- What the loop does with one stream of its work list. -/
theorem guardStep_one {s s' : Connector} (h : GaugeInv s) (haddressed : Addressed s)
    (hmigration : MigrationInv s) {addr : SocketAddr} {session : SessionId}
    {old : Option SessionId} {i : StreamId} {pc : RebindPc} {todo : List StreamId}
    (harm : s.loop.arm = .completing addr session old (.one i pc todo))
    (hstep : s.completeStep addr session old (.one i pc todo) = some s') :
    GuardStep s s' (s.taken .advance) (s.dropped .advance) := by
  simp only [Connector.completeStep] at hstep
  split at hstep
  case h_2 => cases hstep
  rename_i r hi
  have hlanded : r.phase.Landed :=
    ((hmigration.ok i r hi).working (by simp [harm, Arm.work, Arm.borrowed])).2.1
  have hborrowed : s.loop.arm.borrowed = some i := by rw [harm]; rfl
  have hsession : s.heap.lookup session ≠ none := by
    refine Connector.addrOf_ne_none.mp (haddressed.held session (strong_of_arm ?_))
    simp [harm, Arm.locals]
  -- the stream is lent to the arm, so its own guard and the surplus count together
  cases pc with
  | offer =>
    obtain ⟨hguards, hheap, hloop, r', hi', hphase', hguard'⟩ := guards_offer hi session
    have hoffered : GuardStep s (s.rebindOne i r session .offer).1 0 0 := .of_heap_eq hheap hguards
    simp only [taken, dropped, harm, hi, StreamHandle.lost]
    have hpc : (s.rebindOne i r session .offer).2 = if r.rebindable then some .guard else none :=
      rfl
    split at hstep
    · rename_i s₁ pc' heq
      rw [heq] at hpc hguards hheap hloop
      obtain rfl := Option.some.inj hstep
      split at hpc
      case isFalse => cases hpc
      rename_i hrebindable
      rw [if_pos hrebindable]
      obtain rfl := Option.some.inj hpc
      refine .of_heap_eq hheap (Eq.trans ?_ hguards)
      have harm₁ : s₁.loop.arm.guards = 0 := by
        rw [hloop, harm]
        rfl
      have hset := guards_setArm_same (s := s₁)
        (.completing addr session old (.one i .guard todo)) (by rw [hloop, hborrowed]; rfl)
      rw [harm₁, zero_add] at hset
      exact hset.trans (zero_add _)
    · rename_i s₁ heq
      rw [heq] at hpc hheap hloop hi' hoffered
      obtain rfl := Option.some.inj hstep
      split at hpc
      case isTrue => cases hpc
      rename_i hrebindable
      rw [if_neg hrebindable]
      have hreleased : r.released = r'.released := by
        simp only [StreamHandle.released, hphase', hguard']
      rw [hreleased]
      exact hoffered.after (fun X hX => hheap ▸ hX) (guardStep_release (h.step haddressed hoffered)
        (hloop ▸ harm) (by simp) hi' (hphase' ▸ hlanded))
  | guard =>
    simp only [Connector.rebindOne] at hstep
    obtain rfl := Option.some.inj hstep
    simp only [taken, dropped, harm, hi, StreamHandle.lost]
    refine .take rfl hsession ?_
    have hset := guards_setArm_same (s := s.takeGuard session)
      (.completing addr session old (.one i .assign todo)) hborrowed.symm
    have harmGuards : (s.takeGuard session).loop.arm.guards = 0 := by
      change s.loop.arm.guards = 0
      rw [harm]
      rfl
    rw [harmGuards, zero_add] at hset
    exact hset.trans (add_comm _ _)
  | assign =>
    simp only [Connector.rebindOne] at hstep
    obtain rfl := Option.some.inj hstep
    simp only [taken, dropped, harm, hi, StreamHandle.lost]
    refine .drop h rfl ?_
    have hassign := guards_setStream (s := s.dropGuard r.guard) hi
      fun r => { r with guard := session }
    have hset := guards_setArm_same
      (s := (s.dropGuard r.guard).setStream i fun r => { r with guard := session })
      (.completing addr session old (.one i .register todo)) hborrowed.symm
    have hheld : decide ((s.dropGuard r.guard).loop.arm.borrowed = some i) = true :=
      decide_eq_true hborrowed
    have harmGuards : ((s.dropGuard r.guard).setStream i fun r => { r with guard := session
        }).loop.arm.guards = {session} := by
      change s.loop.arm.guards = _
      rw [harm]
      rfl
    rw [hheld, StreamHandle.guards_of_landed hlanded,
      StreamHandle.guards_of_landed (r := { r with guard := session }) hlanded] at hassign
    rw [harmGuards] at hset
    refine add_left_cancel (a := ({session} : Multiset SessionId)) ?_
    rw [← add_assoc]
    refine (congrArg (· + ({r.guard} : Multiset SessionId)) hset).trans ?_
    refine Eq.trans ?_ hassign
    change 0 + _ + _ = _
    rw [zero_add]
    exact add_comm _ _
  | register =>
    simp only [Connector.rebindOne] at hstep
    obtain rfl := Option.some.inj hstep
    simp only [taken, dropped, harm, hi, StreamHandle.lost]
    have htracked : GuardStep s (s.trackOn session i) 0 0 := .setSession session fun _ => rfl
    refine htracked.after ?_ (guardStep_release (h.step haddressed htracked) harm (by simp) hi
      hlanded)
    intro X hX
    simp [trackOn, HashMap.lookup_modify, hX]

section

variable {s s' : Connector}

/-- A step of the loop's current arm moves the guards as it says. -/
theorem guardStep_advance (h : GaugeInv s) (haddressed : Addressed s) (hmigration : MigrationInv s)
    (hstep : s.advance = some s') : GuardStep s s' (s.taken .advance) (s.dropped .advance) := by
  simp only [Connector.advance] at hstep
  split at hstep
  · rename_i addr session old stage harm
    cases stage with
    | rebind =>
      have harmGuards : s.loop.arm.guards = 0 := by rw [harm]; rfl
      have hborrowed : s.loop.arm.borrowed = none := by rw [harm]; rfl
      have hretired : GuardStep s (s.retire addr session old) 0 0 :=
        .of_heap_eq rfl (guards_congr rfl harmGuards.symm hborrowed.symm)
      simp only [taken, dropped, harm, Connector.completeStep] at hstep ⊢
      split at hstep
      · obtain rfl := Option.some.inj hstep
        exact hretired
      · rename_i o
        split at hstep <;> obtain rfl := Option.some.inj hstep
        · exact .frame rfl harmGuards.symm hborrowed.symm (.modify o fun _ => rfl)
            fun _ _ => GuardStep.fresh_modify
        · exact hretired
    | move todo =>
      have harmGuards : s.loop.arm.guards = 0 := by rw [harm]; rfl
      have hborrowed : s.loop.arm.borrowed = none := by rw [harm]; rfl
      cases todo with
      | nil =>
        simp only [taken, dropped, harm, Connector.completeStep] at hstep ⊢
        obtain rfl := Option.some.inj hstep
        exact .of_heap_eq rfl (guards_congr rfl harmGuards.symm hborrowed.symm)
      | cons i todo =>
        simp only [taken, dropped, harm, Connector.completeStep] at hstep ⊢
        split at hstep <;> obtain rfl := Option.some.inj hstep
        · -- a stream that can be upgraded has its guard already
          rename_i hstrong
          have hsome : (s.streams.lookup i).any (·.phase.isRebind) = true := by
            simpa [Connector.streamStrong, hborrowed] using hstrong
          obtain ⟨r, hi, hphase⟩ := (Option.any_eq_true _ _).mp hsome
          have hdropped : r.phase ≠ .dropped := by
            intro heq
            rw [heq] at hphase
            cases hphase
          have hnext : (Arm.completing addr session old (.one i .offer todo)).borrowed = some i :=
            rfl
          have hnextGuards : (Arm.completing addr session old (.one i .offer todo)).guards = 0 :=
            rfl
          have hset := guards_setArm (.completing addr session old (.one i .offer todo)) hi
            fun j hne => by simp [hborrowed, hnext, Ne.symm hne]
          rw [harmGuards, hnextGuards, StreamHandle.guards_eq r hdropped _ true,
            StreamHandle.guards_eq r hdropped (decide _) true] at hset
          exact .of_heap_eq rfl (add_left_cancel hset)
        · exact .of_heap_eq rfl (guards_congr rfl harmGuards.symm hborrowed.symm)
    | one i pc todo => exact guardStep_one h haddressed hmigration harm hstep
    | answer waiters =>
      have harmGuards : s.loop.arm.guards = 0 := by rw [harm]; rfl
      have hborrowed : s.loop.arm.borrowed = none := by rw [harm]; rfl
      cases waiters with
      | nil =>
        simp only [taken, dropped, harm, Connector.completeStep] at hstep ⊢
        obtain rfl := Option.some.inj hstep
        exact .of_heap_eq rfl (guards_congr rfl harmGuards.symm hborrowed.symm)
      | cons request waiters =>
        have hsession : s.heap.lookup session ≠ none := by
          refine Connector.addrOf_ne_none.mp (haddressed.held session (strong_of_arm ?_))
          simp [harm, Arm.locals]
        have hresponded := guardStep_respond hmigration.next_unknown hsession request
        simp only [taken, dropped, harm, Connector.completeStep] at hstep ⊢
        obtain rfl := Option.some.inj hstep
        have hguards : ((s.respond session request).setArm
            (.completing addr session old (.answer waiters))).guards =
            (s.respond session request).guards := by
          have hloop : (s.respond session request).loop.arm = s.loop.arm := by
            unfold Connector.respond
            split <;> rfl
          refine guards_congr rfl ?_ ?_
          · rw [hloop, harm]
            rfl
          · rw [hloop, harm]
            rfl
        exact ⟨hguards ▸ hresponded.guards, hresponded.gauges, hresponded.known, hresponded.fresh⟩
  · rename_i addr old harm
    simp only [taken, dropped, harm]
    obtain rfl := Option.some.inj hstep
    exact .of_heap_eq rfl (guards_congr rfl (by rw [harm]; rfl) (by rw [harm]; rfl))
  · cases hstep

/-- A dropped stream gives its guards back. -/
theorem guardStep_dropStream (h : GaugeInv s) (hmigration : MigrationInv s) {i : StreamId}
    (hstep : s.dropStream i = some s') :
    GuardStep s s' 0 (s.dropped (.dropStream i)) := by
  simp only [Connector.dropStream] at hstep
  split at hstep
  case h_2 => cases hstep
  rename_i r hi
  have hgone : ∀ {b : Bool}, decide (s.loop.arm.borrowed = some i) = b → r.phase.Plain →
      ({r.guard} + (s.setPhase i .dropped).guards = (if b then {r.guard} else 0) + s.guards) := by
    rintro b rfl hplain
    have hset := guards_setStream hi fun r => { r with phase := .dropped }
    rw [StreamHandle.guards_of_plain hplain] at hset
    exact hset
  split at hstep
  · rename_i hphase
    have hplain : r.phase.Plain := by rw [hphase]; trivial
    have hdropped : s.dropped (.dropStream i) = {r.guard} := by simp [dropped, hi, hphase]
    have hborrowed : s.loop.arm.borrowed ≠ some i := by
      intro hborrowed
      refine (hmigration.not_listed hi ?_).2 (by simp [Arm.work, hborrowed])
      rw [hphase]
      simp [StreamPhase.Landed]
    obtain rfl := Option.some.inj hstep
    rw [hdropped]
    refine .drop h rfl ?_
    exact (add_comm _ _).trans ((hgone (decide_eq_false hborrowed) hplain).trans (zero_add _))
  · rename_i hphase
    have hplain : r.phase.Plain := by rw [hphase]; trivial
    split at hstep
    · rename_i hhalf
      have hdropped : s.dropped (.dropStream i) = 0 := by simp [dropped, hi, hphase, hhalf]
      obtain rfl := Option.some.inj hstep
      rw [hdropped]
      exact .of_heap_eq rfl (guards_setStream_same hi fun b => rfl)
    · rename_i hhalf
      split at hstep <;> obtain rfl := Option.some.inj hstep
      · rename_i hborrowed
        have hdropped : s.dropped (.dropStream i) = 0 := by
          simp [dropped, hi, hphase, hborrowed]
        rw [hdropped]
        exact .of_heap_eq rfl (add_left_cancel (hgone (decide_eq_true hborrowed) hplain))
      · rename_i hborrowed
        have hdropped : s.dropped (.dropStream i) = {r.guard} := by
          simp [dropped, hi, hphase, hhalf, hborrowed]
        rw [hdropped]
        refine .drop h rfl ?_
        exact (add_comm _ _).trans ((hgone (decide_eq_false hborrowed) hplain).trans (zero_add _))
  · cases hstep

end

section

variable {s s' : Connector}

/-- `Connect` takes a guard where it answers at once. -/
theorem guardStep_connect (haddressed : Addressed s) (hmigration : MigrationInv s)
    {addr : SocketAddr} {lane : LaneClass} {key : Option ObfuscationKey} {response : ResponseId}
    (hstep : s.connect addr lane key response = some s') :
    GuardStep s s' (s.taken (.connect addr lane key response)) 0 := by
  unfold Connector.connect at hstep
  split at hstep
  · simp only at hstep
    split at hstep
    · rename_i session hlive
      have hlive' : s.liveSession addr = some session := hlive
      obtain rfl := Option.some.inj hstep
      simp only [taken, hlive']
      have hsession : s.heap.lookup session ≠ none := Connector.addrOf_ne_none.mp
        (haddressed.held session (strong_of_mapped (liveSession_eq_some hlive').1))
      obtain ⟨hguards, hgauges, hknown, hfresh⟩ := guardStep_respond
        (s := s.setLoop fun l => { l with received := response :: l.received })
        hmigration.next_unknown hsession ⟨lane, response⟩
      exact ⟨hguards, hgauges, hknown, hfresh⟩
    · rename_i hlive
      have hlive' : s.liveSession addr = none := hlive
      simp only [taken, hlive']
      split at hstep
      · obtain rfl := Option.some.inj hstep
        exact .of_heap_eq rfl rfl
      · split at hstep
        · obtain rfl := Option.some.inj hstep
          exact .of_heap_eq rfl rfl
        · split at hstep <;> obtain rfl := Option.some.inj hstep <;> exact .of_heap_eq rfl rfl
  · cases hstep

/-- The end of a dial moves no guard. -/
theorem guardStep_dialDone (haddressed : Addressed s) {dial : Dial}
    {result : Except ConnectError Unit} (hstep : s.dialDone dial result = some s') :
    GuardStep s s' 0 0 := by
  simp only [Connector.dialDone] at hstep
  split at hstep
  · rename_i hguard
    obtain ⟨harm, -⟩ := hguard
    have harmGuards : s.loop.arm.guards = 0 := by rw [harm]; rfl
    have hborrowed : s.loop.arm.borrowed = none := by rw [harm]; rfl
    split at hstep <;> obtain rfl := Option.some.inj hstep
    · simp only [Connector.installSession]
      split
      · exact .of_heap_eq rfl (guards_congr rfl harmGuards.symm hborrowed.symm)
      · refine .frame rfl harmGuards.symm hborrowed.symm ?_ ?_
        · -- the number of the new session is not in use
          intro X x hx
          have hne : X ≠ s.nextSession := by
            rintro rfl
            refine Nat.lt_irrefl _ (haddressed.fresh s.nextSession ?_)
            exact Connector.addrOf_ne_none.mpr (by simp [hx])
          exact ⟨x, by simp [setLoop, hne, hx], rfl⟩
        · intro X x hx hnone
          simp only [setLoop, HashMap.lookup_insert_eq] at hx
          split at hx
          · obtain rfl := Option.some.inj hx
            rfl
          · rw [hx] at hnone
            cases hnone
    · exact .of_heap_eq rfl (guards_congr rfl harmGuards.symm hborrowed.symm)
  · cases hstep

/-- **What a step does to the guards.** -/
theorem GuardStep.of_step {e : ConnectorEvent} (h : GaugeInv s) (haddressed : Addressed s)
    (hmigration : MigrationInv s) (hstep : s.step e = some s') :
    GuardStep s s' (s.taken e) (s.dropped e) := by
  -- the guards taken and dropped are read off the state before the step
  cases e with
  | «open» addr lane =>
    obtain ⟨X, hX, rfl⟩ := Option.map_eq_some_iff.mp hstep
    simp only [taken, dropped, hX]
    exact .openStream hmigration.next_unknown (Connector.addrOf_ne_none.mp
      (haddressed.held X (strong_of_mapped (liveSession_eq_some hX).1))) lane
  | intoStream i =>
    simp only [Connector.step, Connector.intoStream] at hstep
    split at hstep
    · rename_i r hi
      split at hstep
      · rename_i hphase
        obtain rfl := Option.some.inj hstep
        exact .of_heap_eq rfl (guards_setPhase hi _ (by rw [hphase]; trivial) trivial)
      · cases hstep
    · cases hstep
  | track i =>
    simp only [Connector.step, Connector.track] at hstep
    split at hstep
    · rename_i r hi
      split at hstep
      · rename_i hphase
        obtain rfl := Option.some.inj hstep
        exact guardStep_trackStep h haddressed hi hphase
      · cases hstep
    · cases hstep
  | dropStream i => exact guardStep_dropStream h hmigration hstep
  | writerEnds i =>
    simp only [Connector.step, Connector.writerEnds] at hstep
    split at hstep
    · rename_i r hi
      split at hstep
      · cases hstep
      · obtain rfl := Option.some.inj hstep
        exact .of_heap_eq rfl (guards_setStream_same hi fun _ => rfl)
    · cases hstep
  | advance => exact guardStep_advance h haddressed hmigration hstep
  | connect addr lane key response => exact guardStep_connect haddressed hmigration hstep
  | dialDone dial result => exact guardStep_dialDone haddressed hstep
  | closeResponse response =>
    obtain rfl := Option.some.inj hstep
    exact .of_heap_eq rfl rfl
  | openerDies X =>
    obtain rfl := Option.some.inj hstep
    exact .setSession X fun _ => rfl
  | supervisorEnds X =>
    simp only [Connector.step, Connector.supervisorEnds] at hstep
    split at hstep
    · split at hstep
      · obtain rfl := Option.some.inj hstep
        exact .setSession X fun _ => rfl
      · cases hstep
    · cases hstep
  | watcher X =>
    simp only [Connector.step, Connector.watcherStep] at hstep
    split at hstep
    · split at hstep
      · split at hstep
        · obtain rfl := Option.some.inj hstep
          exact .setSession X fun _ => rfl
        · split at hstep
          · cases hstep
          · obtain rfl := Option.some.inj hstep
            exact .setSession X fun _ => rfl
      · obtain rfl := Option.some.inj hstep
        exact .setSession X fun _ => rfl
      · cases hstep
    · cases hstep
  | reap X =>
    simp only [Connector.step, Connector.reap] at hstep
    split at hstep
    · split at hstep
      · obtain rfl := Option.some.inj hstep
        exact .frame rfl rfl rfl (.modify X fun _ => rfl) fun _ _ => fresh_modify
      · cases hstep
    · cases hstep
  | redial addr trigger wantsMigration =>
    simp only [Connector.step, Connector.redial] at hstep
    split at hstep
    · split at hstep <;> obtain rfl := Option.some.inj hstep <;> exact .of_heap_eq rfl rfl
    · cases hstep
  | probeSession addr =>
    obtain rfl := Option.some.inj hstep
    exact .of_heap_eq rfl rfl
  | visit visit =>
    obtain ⟨X, -, rfl⟩ := Option.map_eq_some_iff.mp hstep
    exact .of_heap_eq rfl rfl
  | leave X =>
    simp only [Connector.step, Connector.leave] at hstep
    split at hstep
    · obtain rfl := Option.some.inj hstep
      exact .of_heap_eq rfl rfl
    · cases hstep
  | explorerReport addr =>
    simp only [Connector.step] at hstep
    split at hstep
    · obtain rfl := Option.some.inj hstep
      exact .of_heap_eq rfl rfl
    · cases hstep
  | reset =>
    obtain ⟨-, -, hstreams, -, hheap, -, -, -, -, -, -, harm⟩ := reset_eq hstep
    refine .frame hstreams (by rw [harm]) (by rw [harm]) ?_ ?_
    · intro X x hx
      refine ⟨_, by rw [hheap, HashMap.lookup_mapVal, hx, Option.map_some], ?_⟩
      split <;> rfl
    · intro X x hx hnone
      rw [hheap, HashMap.lookup_mapVal, hnone] at hx
      cases hx

end

/-- The gauges count the guards in every run. -/
theorem gaugeInv_of_reaches {explorerCtx : Bool} {s : Connector}
    (h : (connector explorerCtx).Reaches s) : GaugeInv s ∧ Addressed s ∧ MigrationInv s := by
  have hinv : GaugeInv s ∧ Addressed s ∧ GateInv s ∧ MigrationInv s :=
    h.invariant (I := fun s => GaugeInv s ∧ Addressed s ∧ GateInv s ∧ MigrationInv s)
      ⟨gaugeInv_init explorerCtx, addressed_init explorerCtx, gateInv_init explorerCtx,
        migrationInv_init explorerCtx⟩
      fun _ _ _ ⟨hgauge, haddressed, hgate, hmigration⟩ hstep =>
        ⟨hgauge.step haddressed (.of_step hgauge haddressed hmigration hstep),
          haddressed.step (.of_step hstep), hgate.step haddressed (.of_step hstep),
          hmigration.step haddressed hgate hstep⟩
  exact ⟨hinv.1, hinv.2.1, hinv.2.2.2⟩

/-! ## The sum over all sessions -/

/-- The guards a call of `rebind_one` adds to the one its stream has anyway. -/
def RebindPc.surplus : RebindPc → Nat
  | .assign => 1
  | _ => 0

/-- The call of `rebind_one` that a `track` is in. -/
def StreamPhase.move : StreamPhase → Option RebindPc
  | .tracking _ (.rebind _ pc) => some pc
  | _ => none

/-- The call of `rebind_one` that `rebind_streams` is in. -/
def Arm.move : Arm → Option RebindPc
  | .completing _ _ _ (.one _ pc _) => some pc
  | _ => none

namespace Connector

/-- The sum of `live_streams` over all sessions. -/
def gaugeSum (s : Connector) : Nat := HashMap.total (·.liveStreams) s.heap

/-- The streams that their owner has not dropped. -/
def liveCount (s : Connector) : Nat :=
  HashMap.total (fun r => if r.phase = .dropped then 0 else 1) s.streams

/-- The dropped stream whose last `Arc` is the loop's, if there is one. -/
def heldCount (s : Connector) : Nat :=
  HashMap.tally (fun i r => if r.phase = .dropped ∧ s.loop.arm.borrowed = some i then 1 else 0)
    s.streams

/-- What the calls of `rebind_one` under way add. -/
def surplus (s : Connector) : Nat :=
  (s.loop.arm.move.map (·.surplus)).getD 0 +
    HashMap.total (fun r => (r.phase.move.map (·.surplus)).getD 0) s.streams

end Connector

/-- The arm holds the surplus guards of the stream it moves. -/
theorem Arm.card_guards (arm : Arm) : arm.guards.card = (arm.move.map (·.surplus)).getD 0 := by
  unfold Arm.guards Arm.move
  split
  · rfl
  · rename_i hne
    split
    · rename_i pc _
      cases pc with
      | assign => exact absurd rfl (hne _ _ _ _ _)
      | _ => rfl
    · rfl

/-- How many guards a stream holds. -/
theorem StreamHandle.card_guards (r : StreamHandle) (i : StreamId) (borrowed : Option StreamId) :
    (r.guards (borrowed = some i)).card =
      (if r.phase = .dropped then 0 else 1) +
        (if r.phase = .dropped ∧ borrowed = some i then 1 else 0) +
        (r.phase.move.map (·.surplus)).getD 0 := by
  unfold StreamHandle.guards
  split
  · rename_i hphase
    simp [hphase, StreamPhase.move, RebindPc.surplus]
  · rename_i hphase
    simp only [hphase, StreamPhase.move, decide_eq_true_eq, true_and, if_true]
    split <;> rfl
  · rename_i hassign hdropped
    have hmove : (r.phase.move.map (·.surplus)).getD 0 = 0 := by
      unfold StreamPhase.move
      split
      · rename_i session live pc hphase
        cases pc with
        | assign => exact absurd hphase (hassign session live)
        | _ => rfl
      · rfl
    have hne : r.phase ≠ .dropped := hdropped
    simp [hmove, hne]

/-- The guards, by what they are for. -/
theorem card_guards (s : Connector) : s.guards.card = s.liveCount + s.heldCount + s.surplus := by
  unfold Connector.guards guardsOf
  rw [Multiset.card_add, HashMap.card_tally, Arm.card_guards]
  simp only [StreamHandle.card_guards, HashMap.tally_add]
  change _ + (s.liveCount + s.heldCount + HashMap.total (fun r =>
    (r.phase.move.map (·.surplus)).getD 0) s.streams) = _
  unfold surplus
  omega

/-- The gauges sum up to the number of the guards. -/
theorem gaugeSum_eq_card {s : Connector} (h : GaugeInv s) (haddressed : Addressed s) :
    s.gaugeSum = s.guards.card := by
  have hknown : ∀ X ∈ s.guards, s.heap.lookup X ≠ none := fun X hX =>
    Connector.addrOf_ne_none.mp (haddressed.held X (strong_of_guards hX))
  calc s.gaugeSum
    _ = HashMap.tally (fun X _ => s.guards.count X) s.heap :=
      HashMap.tally_congr (f := fun _ x => Session.liveStreams x)
        (g := fun X _ => s.guards.count X) fun e he =>
          h e.1 e.2 (HashMap.lookup_eq_some_iff.mpr he)
    _ = s.guards.card := HashMap.tally_count hknown

/-! ## The result -/

/-- The gauges of a state, and what every step from it does to them. -/
structure GaugesExact (s : Connector) : Prop where
  /-- the gauge of a session is the number of guards that name it -/
  gauge : ∀ X x, s.heap.lookup X = some x → x.liveStreams = s.guards.count X
  /-- every guard names a session -/
  named : ∀ X ∈ s.guards, s.heap.lookup X ≠ none
  /-- a call of `rebind_one` adds nothing to the sum before it has made its guard and nothing once
  it has assigned it -/
  sum : s.gaugeSum = s.liveCount + s.heldCount + s.surplus
  floor : s.liveCount ≤ s.gaugeSum
  /-- no gauge is lowered below zero: each is lowered once for each guard dropped -/
  step : ∀ e s', s.step e = some s' →
    GaugesMove s.heap s'.heap (s.taken e) (s.dropped e) ∧
      s'.gaugeSum + (s.dropped e).card = s.gaugeSum + (s.taken e).card

/-- In every run the gauges are exact. -/
theorem live_stream_gauges_exact {explorerCtx : Bool} {s : Connector}
    (h : (connector explorerCtx).Reaches s) : GaugesExact s := by
  obtain ⟨hgauge, haddressed, hmigration⟩ := gaugeInv_of_reaches h
  have hsum : s.gaugeSum = s.liveCount + s.heldCount + s.surplus := by
    rw [gaugeSum_eq_card hgauge haddressed, card_guards]
  constructor
  case gauge => exact hgauge
  case named =>
    exact fun X hX => Connector.addrOf_ne_none.mp (haddressed.held X (strong_of_guards hX))
  case sum => exact hsum
  case floor => omega
  case step =>
    intro e s' hstep
    have hguard := GuardStep.of_step hgauge haddressed hmigration hstep
    have hcard := congrArg Multiset.card hguard.guards
    rw [Multiset.card_add, Multiset.card_add] at hcard
    rw [gaugeSum_eq_card hgauge haddressed,
      gaugeSum_eq_card (hgauge.step haddressed hguard) (haddressed.step (.of_step hstep))]
    exact ⟨hguard.gauges, hcard⟩

/-- A redial has made the new guard of a stream, and then the owner drops the stream: two sessions
count it until the loop goes on. -/
theorem live_stream_gauges_exact_halfway :
    ∃ s, (connector true).Reaches s ∧ (s.heap.lookup 0).map (·.liveStreams) = some 1 ∧
      (s.heap.lookup 1).map (·.liveStreams) = some 1 ∧ s.liveCount = 0 ∧ s.heldCount = 1 ∧
      s.surplus = 1 ∧ GaugesExact s := by
  have hrun : ∃ s, (connector true).Reaches s ∧ (s.heap.lookup 0).map (·.liveStreams) = some 1 ∧
      (s.heap.lookup 1).map (·.liveStreams) = some 1 ∧ s.liveCount = 0 ∧ s.heldCount = 1 ∧
      s.surplus = 1 :=
    ⟨_, ⟨[.connect (.v4 1 1) .bulk none 0, .dialDone ⟨.v4 1 1, ⟨0⟩, none⟩ (.ok ()), .advance,
        .advance, .advance, .intoStream 0, .track 0, .redial (.v4 1 1) .forced false,
        .dialDone ⟨.v4 1 1, ⟨0⟩, none⟩ (.ok ()), .advance, .advance, .advance, .advance,
        .dropStream 0, .dropStream 0], Machine.run_of_exec rfl⟩,
      by decide, by decide, by decide, by decide, by decide⟩
  obtain ⟨s, hreach, hold, hnew, hlive, hheld, hsurplus⟩ := hrun
  exact ⟨s, hreach, hold, hnew, hlive, hheld, hsurplus, live_stream_gauges_exact hreach⟩

end RtpMux

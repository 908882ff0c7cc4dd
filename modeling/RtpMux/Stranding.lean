import RtpMux.Migration
import Mathlib.Logic.Relation

/-!
# No stream is stranded

The part of the loop in the moves of streams: `rebind_streams` takes the list of the old session
under its lock and publishes the successor with it (`MigrationInv.drained`), and then hands the
streams on one by one (`MigrationInv.moveOne`). Its other arms touch no list.

`streams_not_stranded` is the result. It is about streams whose background writer has not ended.
`RebindHandle::rebind` fails for the others, `rebind_one` leaves them off every list, and a
write half does not die with its writer, so for them the statement is false
(`ended_writer_is_unregistered`).
-/

namespace RtpMux

open Connector

/-! ## The arms that move no stream -/

/-- An arm without work moves no stream. -/
theorem Arm.moving_of_idle {arm : Arm} (h : arm.work = []) (j : StreamId) :
    arm.moving j = none := by
  cases arm with
  | completing addr session old stage =>
    cases stage with
    | one i pc todo => simp [Arm.work, Arm.borrowed] at h
    | rebind => rfl
    | move todo => rfl
    | answer waiters => rfl
  | select => rfl
  | failing addr old => rfl
  | panicked => rfl

/-- A new session has no streams. -/
theorem listOf_insert {s s' : Connector} {x : Session}
    (hheap : s'.heap = s.heap.insert s.nextSession x) (hx : x.streams = [])
    (hnext : s.addrOf s.nextSession = none) : s'.listOf = s.listOf := by
  funext X
  simp only [listOf, hheap, HashMap.lookup_insert_eq]
  split
  · rename_i hX
    simp only [addrOf, Option.map_eq_none_iff] at hnext
    rw [hX, hnext, Option.map_some, Option.getD_some, hx]
    rfl
  · rfl

/-- Letting go of a stream touches the gauge of its session at most. -/
theorem frame_releaseStream (s : Connector) (i : StreamId) :
    (s.releaseStream i).addrOf = s.addrOf ∧ (s.releaseStream i).link = s.link ∧
      (s.releaseStream i).listOf = s.listOf ∧ (s.releaseStream i).streams = s.streams ∧
      (s.releaseStream i).loop = s.loop ∧ (s.releaseStream i).nextStream = s.nextStream := by
  unfold releaseStream
  split
  · rename_i r _
    split
    · obtain ⟨-, haddr, hlink, hlists⟩ := frame_guard s r.guard
      exact ⟨haddr, hlink, hlists, rfl, rfl, rfl⟩
    · exact ⟨rfl, rfl, rfl, rfl, rfl, rfl⟩
  · exact ⟨rfl, rfl, rfl, rfl, rfl, rfl⟩

/-- A stream the loop holds is where `rebind_one` says. -/
theorem placed_of_moving {s : Connector} {addr : SocketAddr} {session : SessionId}
    {old : Option SessionId} {i : StreamId} {pc : RebindPc} {todo : List StreamId}
    {r : StreamHandle} (harm : s.loop.arm = .completing addr session old (.one i pc todo))
    (hlanded : r.phase.Landed) (hmoving : r.phase = .tracked → r.MovingOk session pc) :
    Placed s i r := by
  rcases hlanded with hphase | hphase
  · simp only [Placed, hphase, harm, Arm.work, Arm.borrowed, Arm.moving, Option.toList_some,
      List.cons_append, List.mem_cons, true_or, if_true]
    rintro new pc' heq
    cases heq
    exact hmoving hphase
  · simp [Placed, hphase]

/-- A stream of the work list. -/
theorem StreamOk.of_working {s : Connector} {i : StreamId} {r : StreamHandle}
    (hguard : s.addrOf r.guard ≠ none) (hphase : r.phase.Landed) (hlist : ∀ Z, i ∉ s.listOf Z)
    (haddr : s.loop.arm.addr = s.addrOf r.guard)
    (hplaced : r.rebindable = true → Placed s i r) : StreamOk s i r where
  guardKnown := hguard
  refs := by
    intro X hX
    have hXguard : X = r.guard := by
      rcases hphase with hphase | hphase <;> simpa [StreamHandle.refs, hphase] using hX
    rw [hXguard]
  listed := fun Z hZ => absurd hZ (hlist Z)
  unique := fun Z _ hZ => absurd hZ (hlist Z)
  working := fun _ => ⟨haddr, hphase, hlist⟩
  placed := hplaced

namespace MigrationInv

variable {s s' : Connector} (h : MigrationInv s)
include h

/-- Steps that touch no stream, no list and not the arm. -/
theorem frame_arm (hstreams : s'.streams = s.streams) (hnext : s'.nextStream = s.nextStream)
    (haddr : s'.addrOf = s.addrOf) (hlink : s'.link = s.link) (hlists : s'.listOf = s.listOf)
    (harm : s'.loop.arm = s.loop.arm) : MigrationInv s' := by
  refine h.frame hstreams hnext ?_ ?_ hlists ?_ ?_ ?_
  · exact fun X a hX => haddr ▸ hX
  · exact fun X _ => by rw [hlink]
  · rw [harm]
  · exact fun j => by rw [harm]
  · exact fun _ => by rw [harm]

/-- Steps of the loop from one arm without streams to another. -/
theorem frame_idle (hstreams : s'.streams = s.streams) (hnext : s'.nextStream = s.nextStream)
    (haddr : ∀ X a, s.addrOf X = some a → s'.addrOf X = some a)
    (hlink : ∀ X, s.addrOf X ≠ none → s'.link X = s.link X)
    (hlists : s'.listOf = s.listOf) (hidle : s.loop.arm.work = [])
    (hidle' : s'.loop.arm.work = []) : MigrationInv s' := by
  refine h.frame hstreams hnext haddr hlink hlists (hidle'.trans hidle.symm) ?_ ?_
  · intro j
    rw [Arm.moving_of_idle hidle, Arm.moving_of_idle hidle']
  · exact fun hne => absurd hidle hne

/-- A change of one session that keeps its address, its successor and its list. -/
theorem setSession (X : SessionId) {f : Session → Session} (haddr : ∀ x, (f x).addr = x.addr)
    (hlink : ∀ x, (f x).successor = x.successor) (hlist : ∀ x, (f x).streams = x.streams) :
    MigrationInv (s.setSession X f) :=
  h.frame_arm rfl rfl (addrOf_modify rfl haddr) (link_modify rfl hlink) (listOf_modify rfl hlist)
    rfl

/-- Answering a request keeps the invariant. -/
theorem respond {session : SessionId} (hknown : s.addrOf session ≠ none)
    (request : StreamRequest) : MigrationInv (s.respond session request) := by
  unfold Connector.respond
  split
  · exact h
  · exact (h.openStream hknown request.lane).frame_arm rfl rfl rfl rfl rfl rfl

/-- A supervisor that ends keeps the invariant. -/
theorem supervisorEnds {X : SessionId} (hstep : s.supervisorEnds X = some s') :
    MigrationInv s' := by
  simp only [Connector.supervisorEnds] at hstep
  split at hstep
  · split at hstep
    · obtain rfl := Option.some.inj hstep
      exact h.setSession X (fun _ => rfl) (fun _ => rfl) fun _ => rfl
    · cases hstep
  · cases hstep

/-- A step of a watcher keeps the invariant. -/
theorem watcherStep {X : SessionId} (hstep : s.watcherStep X = some s') : MigrationInv s' := by
  have hset : ∀ w, MigrationInv (s.setSession X fun x => { x with watcher := w }) :=
    fun w => h.setSession X (fun _ => rfl) (fun _ => rfl) fun _ => rfl
  simp only [Connector.watcherStep] at hstep
  split at hstep
  · split at hstep
    · split at hstep
      · obtain rfl := Option.some.inj hstep
        exact hset .finished
      · split at hstep
        · cases hstep
        · obtain rfl := Option.some.inj hstep
          exact hset .lingering
    · obtain rfl := Option.some.inj hstep
      exact hset .finished
    · cases hstep
  · cases hstep

/-- Reaping a session keeps the invariant. -/
theorem reap {X : SessionId} (hstep : s.reap X = some s') : MigrationInv s' := by
  simp only [Connector.reap] at hstep
  split at hstep
  · split at hstep
    · obtain rfl := Option.some.inj hstep
      refine h.frame_arm rfl rfl ?_ ?_ ?_ rfl
      · exact addrOf_modify (Y := X) (f := fun x => { x with watcher := .reaped }) rfl fun _ => rfl
      · exact link_modify (Y := X) (f := fun x => { x with watcher := .reaped }) rfl fun _ => rfl
      · exact listOf_modify (Y := X) (f := fun x => { x with watcher := .reaped }) rfl fun _ => rfl
    · cases hstep
  · cases hstep

/-- `Connect` keeps the invariant. -/
theorem connect {addr : SocketAddr} {lane : LaneClass} {key : Option ObfuscationKey}
    {response : ResponseId} (haddressed : Addressed s)
    (hstep : s.connect addr lane key response = some s') : MigrationInv s' := by
  unfold Connector.connect at hstep
  split at hstep
  · simp only at hstep
    split at hstep
    · rename_i session hlive
      obtain rfl := Option.some.inj hstep
      have hmapped : s.addrOf session = some addr :=
        haddressed.mapped addr session (liveSession_eq_some hlive).1
      have hreceived : MigrationInv
          (s.setLoop fun l => { l with received := response :: l.received }) :=
        h.frame_arm rfl rfl rfl rfl rfl rfl
      exact hreceived.respond (by simp [hmapped]) ⟨lane, response⟩
    · -- the tables of the requests change, or those of a new dial
      split at hstep
      · obtain rfl := Option.some.inj hstep
        exact h.frame_arm rfl rfl rfl rfl rfl rfl
      · split at hstep
        · obtain rfl := Option.some.inj hstep
          exact h.frame_arm rfl rfl rfl rfl rfl rfl
        · split at hstep <;> obtain rfl := Option.some.inj hstep <;>
            exact h.frame_arm rfl rfl rfl rfl rfl rfl
  · cases hstep

/-- `Redial` keeps the invariant. -/
theorem redial {addr : SocketAddr} {trigger : RedialTrigger} {wantsMigration : Bool}
    (hstep : s.redial addr trigger wantsMigration = some s') : MigrationInv s' := by
  simp only [Connector.redial] at hstep
  split at hstep
  · split at hstep <;> obtain rfl := Option.some.inj hstep
    · exact h
    · exact h.frame_arm rfl rfl rfl rfl rfl rfl
  · cases hstep

/-- `Reset` keeps the invariant. -/
theorem reset (hstep : s.reset = some s') : MigrationInv s' := by
  obtain ⟨-, -, hstreams, -, hheap, -, -, -, -, -, -, harm⟩ := reset_eq hstep
  have hnext : s'.nextStream = s.nextStream := by
    simp only [Connector.reset] at hstep
    split at hstep
    · obtain rfl := Option.some.inj hstep
      rfl
    · cases hstep
  refine h.frame_arm hstreams hnext (funext (addrOf_mapVal hheap ?_))
    (funext (link_mapVal hheap ?_)) (listOf_mapVal hheap ?_) harm
  all_goals
    intro X x
    split <;> rfl

/-- The end of a dial keeps the invariant. -/
theorem dialDone {dial : Dial} {result : Except ConnectError Unit} (haddressed : Addressed s)
    (hstep : s.dialDone dial result = some s') : MigrationInv s' := by
  simp only [Connector.dialDone] at hstep
  split at hstep
  · rename_i hguard
    have hidle : s.loop.arm.work = [] := by rw [hguard.1]; rfl
    split at hstep <;> obtain rfl := Option.some.inj hstep
    · unfold Connector.installSession
      split
      · exact h.frame_idle rfl rfl (fun _ _ => id) (fun _ _ => rfl) rfl hidle rfl
      · refine h.frame_idle rfl rfl ?_ ?_ (listOf_insert rfl rfl haddressed.addrOf_next) hidle rfl
        · intro X a hX
          rw [addrOf_insert rfl, if_neg (haddressed.ne_next (by simp [hX]))]
          exact hX
        · intro X hX
          rw [link_insert rfl, if_neg (haddressed.ne_next hX)]
    · exact h.frame_idle rfl rfl (fun _ _ => id) (fun _ _ => rfl) rfl hidle rfl
  · cases hstep

/-! ## Moving streams -/

/-- The critical section of `rebind_streams`: the streams of the old session become the work of the
loop, and from now on `track_if_current` refuses them. -/
theorem drained {addr : SocketAddr} {session old : SessionId} (haddressed : Addressed s)
    (hgate : GateInv s) (harm : s.loop.arm = .completing addr session (some old) .rebind) :
    MigrationInv ((s.drain old session).setArm
      (.completing addr session (some old) (.move (s.listOf old)))) := by
  -- the old session is drained once: its list goes to the arm, and its link is set
  have hundrained : s.link old = none :=
    (hgate.arm addr session (some old) .rebind (by rw [harm]; rfl)).undrained rfl old rfl
  have hold : s.addrOf old = some addr := by
    rw [haddressed.arm old (by simp [harm, Arm.locals]), harm]
    rfl
  have hidle : s.loop.arm.work = [] := by rw [harm]; rfl
  have haddr : (s.drain old session).addrOf = s.addrOf := funext addrOf_drain
  have hlink : ∀ X, X ≠ old → (s.drain old session).link X = s.link X := by
    intro X hX
    rw [link_drain, if_neg fun hand => hX hand.1]
  have hlist : ∀ Z j, j ∈ (s.drain old session).listOf Z → Z ≠ old ∧ j ∈ s.listOf Z := by
    intro Z j hj
    rw [listOf_drain] at hj
    split at hj
    · cases hj
    · exact ⟨‹_›, hj⟩
  constructor
  case fresh => exact h.fresh
  case known => exact fun Z j hj => h.known Z j (hlist Z j hj).2
  case nodup =>
    intro Z
    change ((s.drain old session).listOf Z).Nodup
    rw [listOf_drain]
    split
    · exact List.nodup_nil
    · exact h.nodup Z
  case workKnown => exact fun j hj => h.known old j hj
  case workNodup => exact h.nodup old
  case ok =>
    intro j r hj
    have hjr := h.ok j r hj
    constructor
    case guardKnown => exact haddr ▸ hjr.guardKnown
    case refs => exact haddr ▸ hjr.refs
    case listed => exact fun Z hZ => haddr ▸ hjr.listed Z (hlist Z j hZ).2
    case unique =>
      exact fun Z Z' hZ hZ' => hjr.unique Z Z' (hlist Z j hZ).2 (hlist Z' j hZ').2
    case working =>
      intro hwork
      obtain ⟨hoaddr, hlanded⟩ := hjr.listed old hwork
      refine ⟨?_, hlanded, ?_⟩
      · exact haddr ▸ (hold.symm.trans hoaddr)
      · intro Z hZ
        obtain ⟨hne, hZ⟩ := hlist Z j hZ
        exact hne (hjr.unique Z old hZ hwork)
    case placed =>
      intro hr
      have hplaced := hjr.placed hr
      unfold Placed at hplaced ⊢
      split at hplaced
      · exact hplaced
      · rename_i own pc hphase
        exact hplaced.frame fun hne => hlink own fun heq => hne (heq ▸ hundrained)
      · rw [if_neg (by simp [hidle])] at hplaced
        split
        · -- it is not being moved yet
          intro new pc hmoving
          cases hmoving
        · rename_i hwork
          obtain ⟨hmem, hsent, hfound⟩ := hplaced
          have hne : r.guard ≠ old := fun heq => hwork (heq ▸ hmem)
          refine ⟨?_, hsent, ?_⟩
          · change j ∈ (s.drain old session).listOf r.guard
            rw [listOf_drain, if_neg hne]
            exact hmem
          · exact fun Y hY => hfound Y ((hlink r.guard hne).symm.trans hY)
      · trivial

/-- The loop goes on with its work, or leaves a stream that cannot be rebound. -/
theorem rearm {arm : Arm} (haddr : arm.addr = s.loop.arm.addr)
    (hwork : arm.work.Sublist s.loop.arm.work)
    (hok : ∀ j r, s.streams.lookup j = some r → j ∈ s.loop.arm.work → r.rebindable = true →
      r.phase = .tracked →
      j ∈ arm.work ∧ ∀ new pc, arm.moving j = some (new, pc) → r.MovingOk new pc) :
    MigrationInv (s.setArm arm) where
  fresh := h.fresh
  known := h.known
  nodup := h.nodup
  workKnown := fun j hj => h.workKnown j (hwork.subset hj)
  workNodup := h.workNodup.sublist hwork
  ok := by
    intro j r hj
    have hjr := h.ok j r hj
    refine ⟨hjr.guardKnown, hjr.refs, hjr.listed, hjr.unique, ?_, ?_⟩
    · intro hj'
      obtain ⟨hjaddr, hlanded, hnone⟩ := hjr.working (hwork.subset hj')
      exact ⟨haddr.trans hjaddr, hlanded, hnone⟩
    · intro hr
      have hplaced := hjr.placed hr
      unfold Placed at hplaced ⊢
      split at hplaced
      · exact hplaced
      · exact hplaced
      · rename_i hphase
        change if j ∈ arm.work then
          ∀ new pc, arm.moving j = some (new, pc) → r.MovingOk new pc else Registered s j r
        by_cases hj' : j ∈ s.loop.arm.work
        · obtain ⟨hmem, hmoving⟩ := hok j r hj hj' hr hphase
          rw [if_pos hmem]
          exact hmoving
        · rw [if_neg hj'] at hplaced
          rw [if_neg fun hmem => hj' (hwork.subset hmem)]
          exact hplaced
      · trivial

/-- The loop lets go of the stream it has moved. -/
theorem releaseStream (i : StreamId) : MigrationInv (s.releaseStream i) := by
  obtain ⟨haddr, hlink, hlists, hstreams, hloop, hnext⟩ := frame_releaseStream s i
  exact h.frame_arm hstreams hnext haddr hlink hlists (by rw [hloop])

/-- A stream the loop is moving. -/
theorem of_moving {addr : SocketAddr} {session : SessionId} {old : Option SessionId}
    {i : StreamId} {pc : RebindPc} {todo : List StreamId} {r : StreamHandle}
    (harm : s.loop.arm = .completing addr session old (.one i pc todo))
    (hi : s.streams.lookup i = some r) :
    r.phase.Landed ∧ (∀ Z, i ∉ s.listOf Z) ∧ i ∉ todo ∧
      (r.rebindable = true → r.phase = .tracked → r.MovingOk session pc) := by
  have hri := h.ok i r hi
  have hmem : i ∈ s.loop.arm.work := by simp [harm, Arm.work, Arm.borrowed]
  obtain ⟨-, hlanded, hnone⟩ := hri.working hmem
  refine ⟨hlanded, hnone, ?_, ?_⟩
  · have hnodup := h.workNodup
    rw [harm] at hnodup
    exact (List.nodup_cons.mp hnodup).1
  · intro hr hphase
    have hplaced := hri.placed hr
    simp only [Placed, hphase, if_pos hmem] at hplaced
    exact hplaced session pc (by simp [harm, Arm.moving])

/-- `rebind_one` goes from one of its points to the next. -/
theorem advanceOne {addr : SocketAddr} {session : SessionId} {old : Option SessionId}
    {i : StreamId} {pc : RebindPc} {todo : List StreamId} (pc' : RebindPc)
    (harm : s.loop.arm = .completing addr session old (.one i pc todo))
    (hok : ∀ r, s.streams.lookup i = some r → r.rebindable = true → r.phase = .tracked →
      r.MovingOk session pc') :
    MigrationInv (s.setArm (.completing addr session old (.one i pc' todo))) := by
  refine h.rearm (by rw [harm]; rfl) (by rw [harm]; exact List.Sublist.refl _) ?_
  intro j r hj hmem hr hphase
  refine ⟨by rwa [harm] at hmem, fun new pc hmoving => ?_⟩
  simp only [Arm.moving] at hmoving
  split at hmoving
  · rename_i hij
    cases hmoving
    exact hok r (hij ▸ hj) hr hphase
  · cases hmoving

/-- `rebind_one` returns without having registered the stream. -/
theorem abandon {addr : SocketAddr} {session : SessionId} {old : Option SessionId}
    {i : StreamId} {pc : RebindPc} {todo : List StreamId}
    (harm : s.loop.arm = .completing addr session old (.one i pc todo))
    (hr : ∀ r, s.streams.lookup i = some r → ¬ r.rebindable = true) :
    MigrationInv ((s.releaseStream i).setArm (.completing addr session old (.move todo))) := by
  obtain ⟨-, -, -, hstreams, hloop, -⟩ := frame_releaseStream s i
  refine (h.releaseStream i).rearm (by rw [hloop, harm]; rfl) ?_ ?_
  · rw [hloop, harm]
    exact List.sublist_cons_self _ _
  · rw [hstreams, hloop, harm]
    intro j r hj hmem hrj _
    rcases List.mem_cons.mp hmem with rfl | hmem
    · exact absurd hrj (hr r hj)
    · exact ⟨hmem, fun _ _ hmoving => by cases hmoving⟩

/-- The last point of `rebind_one`: the stream enters the list of the new session, which has no
successor as long as the arm is about it. -/
theorem settle {addr : SocketAddr} {session : SessionId} {old : Option SessionId}
    {i : StreamId} {todo : List StreamId} {r : StreamHandle} (haddressed : Addressed s)
    (hgate : GateInv s)
    (harm : s.loop.arm = .completing addr session old (.one i .register todo))
    (hi : s.streams.lookup i = some r) :
    MigrationInv (((s.trackOn session i).releaseStream i).setArm
      (.completing addr session old (.move todo))) := by
  -- the stream lands on the new session, which nothing has drained yet
  obtain ⟨hlanded, hnone, hfresh, hmoving⟩ := h.of_moving harm hi
  have hri := h.ok i r hi
  have hmem : i ∈ s.loop.arm.work := by simp [harm, Arm.work, Arm.borrowed]
  have hsession : s.addrOf session = s.addrOf r.guard := by
    rw [haddressed.arm session (by simp [harm, Arm.locals])]
    exact (hri.working hmem).1
  have hknown : s.addrOf session ≠ none := hsession ▸ hri.guardKnown
  have hnoSuccessor : s.link session = none :=
    (hgate.arm addr session old (.move []) (by rw [harm]; rfl)).noSuccessor
  obtain ⟨haddr, hlink⟩ := frame_trackOn s session i
  obtain ⟨haddr', hlink', hlists', hstreams', -, hnext'⟩ :=
    frame_releaseStream (s.trackOn session i) i
  have haddr := haddr'.trans haddr
  have hlink := hlink'.trans hlink
  have hwork : s.loop.arm.work = i :: todo := by rw [harm]; rfl
  refine h.register r (by simp [hi]) hknown hnone ?_ hnext' haddr hlink hlists' ?_ ?_ ?_ ?_ ?_
  · intro j
    change ((s.trackOn session i).releaseStream i).streams.lookup j = _
    rw [hstreams']
    change s.streams.lookup j = _
    split
    · rename_i hj
      rw [hj, hi]
    · rfl
  · intro j hne
    rw [hwork]
    simp [setArm, setLoop, Arm.work, Arm.borrowed, Arm.todo, hne]
  · have hnodup := h.workNodup
    rw [hwork] at hnodup
    exact (List.nodup_cons.mp hnodup).2
  · intro j hne
    simp [setArm, setLoop, harm, Arm.moving, Ne.symm hne]
  · rw [harm]
    rfl
  · refine .of_registered (N := session) ?_ hlanded ?_ ?_ hfresh ?_
    · exact haddr ▸ hri.guardKnown
    · exact haddr ▸ hsession
    · intro Z
      exact hlists' ▸ mem_listOf_trackOn hknown hnone Z
    · intro hr hphase
      obtain ⟨hsent, hguard⟩ := hmoving hr hphase
      refine ⟨hguard, hsent, fun Y hY => ?_⟩
      have hY : s.link session = some Y := (congrFun hlink session).symm.trans hY
      rw [hnoSuccessor] at hY
      cases hY

/-- A step of `rebind_one` in the loop. -/
theorem moveOne {addr : SocketAddr} {session : SessionId} {old : Option SessionId}
    {i : StreamId} {pc : RebindPc} {todo : List StreamId} (haddressed : Addressed s)
    (hgate : GateInv s)
    (harm : s.loop.arm = .completing addr session old (.one i pc todo))
    (hstep : s.completeStep addr session old (.one i pc todo) = some s') : MigrationInv s' := by
  simp only [Connector.completeStep] at hstep
  split at hstep
  · rename_i r hi
    have hri := h.ok i r hi
    have hmem : i ∈ s.loop.arm.work := by simp [harm, Arm.work, Arm.borrowed]
    obtain ⟨hworkAddr, hlanded, hnone⟩ := hri.working hmem
    obtain ⟨-, -, -, hmoving⟩ := h.of_moving harm hi
    cases pc with
    | offer =>
      -- the slot of the write half takes the opener before the writer is looked at
      have hsent : MigrationInv (s.setStream i fun r => { r with lastSent := session }) :=
        h.change i { r with lastSent := session } (by simp [hi]) (lookup_setStream hi _) rfl rfl
          rfl rfl rfl (.of_working hri.guardKnown hlanded hnone hworkAddr
            fun _ => placed_of_moving harm hlanded fun _ => trivial)
      have hlookup : (s.setStream i fun r => { r with lastSent := session }).streams.lookup i =
          some { r with lastSent := session } := by
        rw [lookup_setStream hi, if_pos rfl]
      simp only [Connector.rebindOne] at hstep
      by_cases hr : r.rebindable = true
      · have hhalf : r.halfAlive = true := by
          simp only [StreamHandle.rebindable, Bool.and_eq_true] at hr
          exact hr.1
        simp only [hr, hhalf, if_true] at hstep
        obtain rfl := Option.some.inj hstep
        refine hsent.advanceOne .guard harm fun r' hr' _ _ => ?_
        obtain rfl := Option.some.inj (hlookup.symm.trans hr')
        rfl
      · simp only [if_neg hr] at hstep
        obtain rfl := Option.some.inj hstep
        split
        · refine hsent.abandon harm fun r' hr' => ?_
          obtain rfl := Option.some.inj (hlookup.symm.trans hr')
          exact hr
        · refine h.abandon harm fun r' hr' => ?_
          obtain rfl := Option.some.inj (hi.symm.trans hr')
          exact hr
    | guard =>
      obtain rfl := Option.some.inj hstep
      obtain ⟨⟨haddr, hlink, hlists⟩, -⟩ := frame_guard s session
      have hguard : MigrationInv (s.takeGuard session) :=
        h.frame_arm rfl rfl haddr hlink hlists rfl
      refine hguard.advanceOne .assign harm fun r' hr' hr hphase => ?_
      obtain rfl := Option.some.inj (hi.symm.trans hr')
      exact hmoving hr hphase
    | assign =>
      obtain rfl := Option.some.inj hstep
      obtain ⟨-, haddr, hlink, hlists⟩ := frame_guard s r.guard
      have hsession : s.addrOf session = s.loop.arm.addr :=
        haddressed.arm session (by simp [harm, Arm.locals])
      have hlookup := lookup_setStream (s := s.dropGuard r.guard) hi
        fun r => { r with guard := session }
      have hassigned : MigrationInv
          ((s.dropGuard r.guard).setStream i fun r => { r with guard := session }) := by
        refine h.change i { r with guard := session } (by simp [hi]) hlookup rfl haddr hlink
          hlists rfl (.of_working ?_ hlanded (hlists ▸ hnone) ?_ ?_)
        · exact haddr ▸ hsession ▸ hworkAddr ▸ hri.guardKnown
        · exact haddr ▸ hsession.symm
        · exact fun hr => placed_of_moving harm hlanded fun hphase => hmoving hr hphase
      refine hassigned.advanceOne .register harm fun r' hr' hr hphase => ?_
      rw [hlookup, if_pos rfl] at hr'
      obtain rfl := Option.some.inj hr'
      exact ⟨hmoving hr hphase, rfl⟩
    | register =>
      obtain rfl := Option.some.inj hstep
      exact h.settle haddressed hgate harm hi
  · cases hstep

/-- A step of a completion keeps the invariant. -/
theorem completeStep {addr : SocketAddr} {session : SessionId} {old : Option SessionId}
    {stage : Stage} (haddressed : Addressed s) (hgate : GateInv s)
    (harm : s.loop.arm = .completing addr session old stage)
    (hstep : s.completeStep addr session old stage = some s') : MigrationInv s' := by
  have hretire : s.loop.arm.work = [] → MigrationInv (s.retire addr session old) := fun hidle =>
    h.frame_idle rfl rfl (fun _ _ => id) (fun _ _ => rfl) rfl hidle rfl
  cases stage with
  | rebind =>
    have hidle : s.loop.arm.work = [] := by rw [harm]; rfl
    simp only [Connector.completeStep] at hstep
    split at hstep
    · obtain rfl := Option.some.inj hstep
      exact hretire hidle
    · split at hstep <;> obtain rfl := Option.some.inj hstep
      · exact h.drained haddressed hgate harm
      · exact hretire hidle
  | move todo =>
    cases todo with
    | nil =>
      obtain rfl := Option.some.inj hstep
      exact hretire (by rw [harm]; rfl)
    | cons i todo =>
      simp only [Connector.completeStep] at hstep
      split at hstep <;> obtain rfl := Option.some.inj hstep
      · refine h.rearm (by rw [harm]; rfl) (by rw [harm]; exact List.Sublist.refl _) ?_
        intro j r hj hmem _ _
        refine ⟨by rwa [harm] at hmem, fun new pc hmoving => ?_⟩
        simp only [Arm.moving] at hmoving
        split at hmoving
        · cases hmoving
          trivial
        · cases hmoving
      · -- a stream whose `Weak` is dead is gone
        rename_i hdead
        refine h.rearm (by rw [harm]; rfl) (by rw [harm]; exact List.sublist_cons_self _ _) ?_
        intro j r hj hmem _ hphase
        rw [harm] at hmem
        rcases List.mem_cons.mp hmem with rfl | hmem
        · exact absurd (streamStrong_of_tracked hj hphase) hdead
        · exact ⟨hmem, fun _ _ hmoving => by cases hmoving⟩
  | one i pc todo => exact h.moveOne haddressed hgate harm hstep
  | answer waiters =>
    have hidle : s.loop.arm.work = [] := by rw [harm]; rfl
    cases waiters with
    | nil =>
      obtain rfl := Option.some.inj hstep
      exact h.frame_idle rfl rfl (fun _ _ => id) (fun _ _ => rfl) rfl hidle rfl
    | cons request waiters =>
      obtain rfl := Option.some.inj hstep
      have hknown : s.addrOf session ≠ none := by
        rw [haddressed.arm session (by simp [harm, Arm.locals]), harm]
        exact Option.some_ne_none addr
      refine (h.respond hknown request).frame_idle rfl rfl (fun _ _ => id) (fun _ _ => rfl) rfl ?_
        rfl
      simp only [Connector.respond]
      split <;> exact hidle

/-- A step of the loop's current arm keeps the invariant. -/
theorem advance (haddressed : Addressed s) (hgate : GateInv s) (hstep : s.advance = some s') :
    MigrationInv s' := by
  simp only [Connector.advance] at hstep
  split at hstep
  · rename_i harm
    exact h.completeStep haddressed hgate harm hstep
  · rename_i harm
    obtain rfl := Option.some.inj hstep
    exact h.frame_idle rfl rfl (fun _ _ => id) (fun _ _ => rfl) rfl (by rw [harm]; rfl) rfl
  · cases hstep

/-- **Every step keeps every stream in its place.** -/
theorem step {e : ConnectorEvent} (haddressed : Addressed s) (hgate : GateInv s)
    (hstep : s.step e = some s') : MigrationInv s' := by
  cases e with
  | «open» addr lane =>
    obtain ⟨X, hX, rfl⟩ := Option.map_eq_some_iff.mp hstep
    refine h.openStream ?_ lane
    rw [haddressed.mapped addr X (liveSession_eq_some hX).1]
    exact Option.some_ne_none addr
  | intoStream i => exact h.intoStream hstep
  | track i =>
    simp only [Connector.step, Connector.track] at hstep
    split at hstep
    · rename_i r hi
      split at hstep
      · rename_i hphase
        obtain rfl := Option.some.inj hstep
        exact h.trackStep haddressed hgate hi hphase
      · cases hstep
    · cases hstep
  | dropStream i => exact h.dropStream hstep
  | writerEnds i => exact h.writerEnds hstep
  | closeResponse response =>
    obtain rfl := Option.some.inj hstep
    exact h.frame_arm rfl rfl rfl rfl rfl rfl
  | openerDies X =>
    obtain rfl := Option.some.inj hstep
    exact h.setSession X (fun _ => rfl) (fun _ => rfl) fun _ => rfl
  | supervisorEnds X => exact h.supervisorEnds hstep
  | watcher X => exact h.watcherStep hstep
  | reap X => exact h.reap hstep
  | dialDone dial result => exact h.dialDone haddressed hstep
  | advance => exact h.advance haddressed hgate hstep
  | connect addr lane key response => exact h.connect haddressed hstep
  | redial addr trigger wantsMigration => exact h.redial hstep
  | probeSession addr =>
    obtain rfl := Option.some.inj hstep
    exact h.frame_arm rfl rfl rfl rfl rfl rfl
  | visit visit =>
    obtain ⟨X, -, rfl⟩ := Option.map_eq_some_iff.mp hstep
    exact h.frame_arm rfl rfl rfl rfl rfl rfl
  | leave X =>
    simp only [Connector.step, Connector.leave] at hstep
    split at hstep
    · obtain rfl := Option.some.inj hstep
      exact h.frame_arm rfl rfl rfl rfl rfl rfl
    · cases hstep
  | explorerReport addr =>
    simp only [Connector.step] at hstep
    split at hstep
    · obtain rfl := Option.some.inj hstep
      exact h
    · cases hstep
  | reset => exact h.reset hstep

end MigrationInv

/-- The invariant holds in every run. -/
theorem migrationInv_of_reaches {C : Connector → ConnectorEvent → Prop} {explorerCtx : Bool}
    {s : Connector} (h : (connector explorerCtx).ReachesWhere C s) :
    Addressed s ∧ GateInv s ∧ MigrationInv s :=
  h.invariant (I := fun s => Addressed s ∧ GateInv s ∧ MigrationInv s)
    ⟨addressed_init explorerCtx, gateInv_init explorerCtx, migrationInv_init explorerCtx⟩
    fun _ _ _ hs _ hstep =>
      ⟨hs.1.step (.of_step hstep), hs.2.1.step hs.1 (.of_step hstep),
        hs.2.2.step hs.1 hs.2.1 hstep⟩

/-! ## The result -/

/-- `rebind_streams` is in progress. -/
def Arm.rebinding : Arm → Bool
  | .completing _ _ _ (.move _) => true
  | .completing _ _ _ (.one _ _ _) => true
  | _ => false

/-- A stream is registered where its guard says. -/
structure Seated (s : Connector) (i : StreamId) (r : StreamHandle) : Prop where
  /-- it is on the list of the session its guard names, and on no other -/
  listed : ∀ Z, i ∈ s.listOf Z ↔ Z = r.guard
  /-- that session's opener is the last one it was sent -/
  sent : r.lastSent = r.guard
  /-- all successors of that session were found dead when it was registered -/
  superseded : ∀ Y, Relation.TransGen (fun X Y => s.link X = some Y) r.guard Y → Y ∈ r.foundDead

/-- An arm that rebinds nothing has no work. -/
theorem Arm.work_of_not_rebinding {arm : Arm} (h : arm.rebinding = false) : arm.work = [] := by
  cases arm with
  | completing addr session old stage =>
    cases stage with
    | rebind => rfl
    | move todo => cases h
    | one i pc todo => cases h
    | answer waiters => rfl
  | select => rfl
  | failing addr old => rfl
  | panicked => rfl

/-- A stream the loop does not hold is a stream its owner holds. -/
theorem Connector.isRebind_of_strong {s : Connector} {i : StreamId} {r : StreamHandle}
    (hidle : s.loop.arm.work = []) (hi : s.streams.lookup i = some r)
    (hstrong : s.streamStrong i = true) : r.phase.isRebind = true := by
  have hborrowed : s.loop.arm.borrowed = none := by
    simp only [Arm.work, List.append_eq_nil_iff, Option.toList_eq_nil_iff] at hidle
    exact hidle.1
  simpa [streamStrong, hborrowed, hi] using hstrong

/-- The chain of successors of a held session ends after one step. -/
theorem GateInv.successors {s : Connector} (h : GateInv s) {X Y : SessionId} (hX : s.Strong X)
    (hchain : Relation.TransGen (fun X Y => s.link X = some Y) X Y) : s.link X = some Y := by
  induction hchain with
  | single hlink => exact hlink
  | tail _ hlink ih =>
    rw [h.settled _ _ hX ih] at hlink
    cases hlink

/-- **No stream is stranded.** Whatever redials, resets, drops and registrations are interleaved:
when no `StreamRebind::track` and no `rebind_streams` is in progress, a live stream whose write half
and background writer are there is on the list of exactly the session its guard names, that
session's opener was the last one sent to it, and what has succeeded that session was found dead. -/
theorem streams_not_stranded {explorerCtx : Bool} {s : Connector}
    (h : (connector explorerCtx).Reaches s)
    (htrack : ∀ i r session pc, s.streams.lookup i = some r → r.phase ≠ .tracking session pc)
    (hloop : s.loop.arm.rebinding = false) {i : StreamId} {r : StreamHandle}
    (hi : s.streams.lookup i = some r) (hlive : s.streamStrong i = true)
    (hhalf : r.halfAlive = true) (hwriter : r.writerRunning = true) : Seated s i r := by
  obtain ⟨-, hgate, hmigration⟩ := migrationInv_of_reaches h
  have hidle := Arm.work_of_not_rebinding hloop
  have hphase : r.phase = .tracked := by
    have hrebind := isRebind_of_strong hidle hi hlive
    cases hp : r.phase with
    | tracking session pc => exact absurd hp (htrack i r session pc hi)
    | tracked => rfl
    | opened =>
      rw [hp] at hrebind
      cases hrebind
    | dropped =>
      rw [hp] at hrebind
      cases hrebind
  have hok := hmigration.ok i r hi
  have hplaced := hok.placed (by simp [StreamHandle.rebindable, hhalf, hwriter])
  simp only [Placed, hphase, hidle, List.not_mem_nil, if_false] at hplaced
  obtain ⟨hlist, hsent, hfound⟩ := hplaced
  have hguard : s.Strong r.guard :=
    strong_of_stream hi (r.guard_mem_refs (by simp [hphase]) _)
  refine ⟨fun Z => ⟨fun hZ => hok.unique Z r.guard hZ hlist, ?_⟩, hsent, ?_⟩
  · rintro rfl
    exact hlist
  · exact fun Y hchain => hfound Y (hgate.successors hguard hchain)

/-- A stream is opened, registered and carried over to the session of a redial; `last` is what
happens between the two. -/
def carriedRun (last : List ConnectorEvent) : List ConnectorEvent :=
  [ConnectorEvent.connect (.v4 1 1) .bulk none 0, .dialDone ⟨.v4 1 1, ⟨0⟩, none⟩ (.ok ()), .advance,
    .advance,
    .advance, .intoStream 0, .track 0] ++ last ++
  [ConnectorEvent.redial (.v4 1 1) .forced false, .dialDone ⟨.v4 1 1, ⟨0⟩, none⟩ (.ok ()), .advance,
    .advance,
    .advance]

/-- The stream of a redialled address is seated on the new session. -/
theorem streams_not_stranded_redial :
    ∃ s r, (connector false).Reaches s ∧ s.loop.arm = .select ∧ s.streams.lookup 0 = some r ∧
      r.guard = 1 ∧ s.link 0 = some 1 ∧ Seated s 0 r := by
  have hrun : ∃ s r, (connector false).Reaches s ∧ s.loop.arm = .select ∧
      s.streams.lookup 0 = some r ∧ (∀ e ∈ s.streams.entries, e.2.phase = .tracked) ∧
      r.halfAlive = true ∧ r.writerRunning = true ∧ r.guard = 1 ∧ s.link 0 = some 1 :=
    ⟨_, _, ⟨carriedRun [] ++ [ConnectorEvent.advance, .advance, .advance, .advance, .advance],
      Machine.run_of_exec rfl⟩, rfl, rfl, by decide, rfl, rfl, rfl, rfl⟩
  obtain ⟨s, r, hreach, harm, hi, htracked, hhalf, hwriter, hguard, hlink⟩ := hrun
  have hphase : ∀ i r, s.streams.lookup i = some r → r.phase = .tracked :=
    fun i r hi => htracked ⟨i, r⟩ (HashMap.lookup_eq_some_iff.mp hi)
  refine ⟨s, r, hreach, harm, hi, hguard, hlink, ?_⟩
  refine streams_not_stranded hreach ?_ (by rw [harm]; rfl) hi
    (streamStrong_of_tracked hi (hphase 0 r hi)) hhalf hwriter
  intro i r session pc hi htracking
  rw [hphase i r hi] at htracking
  cases htracking

/-- A write half outlives its background writer. If the writer ends before the redial, the stream is
on no list any more, its guard names the old session, and the opener sent last is the new one's. -/
theorem ended_writer_is_unregistered :
    ∃ s r, (connector false).Reaches s ∧ s.loop.arm = .select ∧ s.streams.lookup 0 = some r ∧
      (∀ e ∈ s.streams.entries, e.2.phase = .tracked) ∧ s.streamStrong 0 = true ∧
      r.halfAlive = true ∧ r.guard = 0 ∧ r.lastSent = 1 ∧ (∀ Z ∈ s.heap.keys, 0 ∉ s.listOf Z) ∧
      ¬ Seated s 0 r := by
  refine ⟨_, _, ⟨carriedRun [.writerEnds 0] ++ [ConnectorEvent.advance, .advance],
    Machine.run_of_exec rfl⟩,
    rfl, rfl, by decide, by decide, rfl, rfl, rfl, by decide, ?_⟩
  rintro ⟨-, hsent, -⟩
  cases hsent

end RtpMux

import RtpMux.Generations

/-!
# Where streams are registered

A stream is registered in the `streams` list of a session twice over: by its own thread, when
`into_stream` calls `StreamRebind::track`, and by the loop, when `rebind_streams` moves it to a new
session. Between the two there is no lock. What keeps a stream from being stranded is an order of
three things. `track_if_current` looks at `successor` under the lock of `streams`, so a stream
that was put on a list was put there before the drain. A stream that came too late has seen the
successor, and follows it. And the session it follows to has not been drained itself, because
its own session is still held (`GateInv.settled`).

`StreamOk` says where a stream is, for every point of `track` and of `rebind_one`. The parts about
its registration are only claimed for a stream whose write half and background writer are there:
`rebind_one` drops the others without registering them again.
-/

namespace RtpMux

open Connector

/-- The `streams` list of a session. -/
def Connector.listOf (s : Connector) (session : SessionId) : List StreamId :=
  ((s.heap.lookup session).map (·.streams)).getD []

/-- The streams `rebind_streams` has taken off a list and not settled yet. -/
def Arm.work (arm : Arm) : List StreamId := arm.borrowed.toList ++ arm.todo

/-- Where the loop is moving a stream. -/
def Arm.moving (arm : Arm) (stream : StreamId) : Option (SessionId × RebindPc) :=
  match arm with
  | .completing _ session _ (.one i pc _) => if i = stream then some (session, pc) else none
  | _ => none

/-- `StreamRebind::track` is over. -/
def StreamPhase.Landed (phase : StreamPhase) : Prop := phase = .tracked ∨ phase = .dropped

/-- A stream in the course of `rebind_one`. -/
def StreamHandle.MovingOk (r : StreamHandle) (new : SessionId) : RebindPc → Prop
  | .offer => True
  | .guard => r.lastSent = new
  | .assign => r.lastSent = new
  | .register => r.lastSent = new ∧ r.guard = new

/-- A stream in the course of `track`. From the moment `track_if_current` has refused it, its
session has a successor. -/
def TrackingOk (s : Connector) (r : StreamHandle) (session : SessionId) : TrackPc → Prop
  | .current => r.guard = session ∧ r.lastSent = session
  | .seek newestLive cursor hops =>
    r.guard = session ∧ r.lastSent = session ∧
      (cursor = session ∧ newestLive = session ∧ 0 < hops ∧ s.link session ≠ none ∨
        s.link session = some cursor ∧
          (newestLive = cursor ∨ newestLive = session ∧ cursor ∈ r.foundDead))
  | .place live =>
    r.guard = session ∧ r.lastSent = session ∧ s.link session ≠ none ∧
      (live = session ∧ (∀ Y, s.link session = some Y → Y ∈ r.foundDead) ∨
        s.link session = some live)
  | .rebind live pc => s.link session = some live ∧ r.MovingOk live pc

/-- A registered stream: it is on the list of the session its guard names, that session's opener was
the last one sent to it, and a successor of that session was found dead. -/
def Registered (s : Connector) (j : StreamId) (r : StreamHandle) : Prop :=
  j ∈ s.listOf r.guard ∧ r.lastSent = r.guard ∧ ∀ Y, s.link r.guard = some Y → Y ∈ r.foundDead

/-- Where a stream is that can be rebound. -/
def Placed (s : Connector) (j : StreamId) (r : StreamHandle) : Prop :=
  match r.phase with
  | .opened => r.lastSent = r.guard
  | .tracking session pc => TrackingOk s r session pc
  | .tracked =>
    if j ∈ s.loop.arm.work then
      ∀ new pc, s.loop.arm.moving j = some (new, pc) → r.MovingOk new pc
    else Registered s j r
  | .dropped => True

/-- Where a stream is. -/
structure StreamOk (s : Connector) (j : StreamId) (r : StreamHandle) : Prop where
  guardKnown : s.addrOf r.guard ≠ none
  /-- all sessions a stream holds have one address -/
  refs : ∀ X ∈ r.refs true, s.addrOf X = s.addrOf r.guard
  listed : ∀ Z, j ∈ s.listOf Z → s.addrOf Z = s.addrOf r.guard ∧ r.phase.Landed
  unique : ∀ Z Z', j ∈ s.listOf Z → j ∈ s.listOf Z' → Z = Z'
  working : j ∈ s.loop.arm.work →
    s.loop.arm.addr = s.addrOf r.guard ∧ r.phase.Landed ∧ ∀ Z, j ∉ s.listOf Z
  placed : r.rebindable = true → Placed s j r

/-- Where all streams are. -/
structure MigrationInv (s : Connector) : Prop where
  fresh : ∀ j r, s.streams.lookup j = some r → j < s.nextStream
  known : ∀ Z j, j ∈ s.listOf Z → s.streams.lookup j ≠ none
  nodup : ∀ Z, (s.listOf Z).Nodup
  workKnown : ∀ j ∈ s.loop.arm.work, s.streams.lookup j ≠ none
  workNodup : s.loop.arm.work.Nodup
  ok : ∀ j r, s.streams.lookup j = some r → StreamOk s j r

/-- The connector starts without streams. -/
theorem migrationInv_init (explorerCtx : Bool) : MigrationInv (Connector.init explorerCtx) where
  fresh := by simp [Connector.init]
  known := by simp [Connector.init, listOf]
  nodup := by simp [Connector.init, listOf]
  workKnown := by simp [Connector.init, Arm.work, Arm.borrowed, Arm.todo]
  workNodup := by simp [Connector.init, Arm.work, Arm.borrowed, Arm.todo]
  ok := by simp [Connector.init]

/-! ## Frames -/

/-- A tracking stream does not mind steps that keep the links. -/
theorem TrackingOk.frame {s s' : Connector} {r : StreamHandle} {session : SessionId} {pc : TrackPc}
    (h : TrackingOk s r session pc)
    (hlink : s.link session ≠ none → s'.link session = s.link session) :
    TrackingOk s' r session pc := by
  cases pc with
  | current => exact h
  | seek newest cursor hops =>
    obtain ⟨hguard, hsent, hcase⟩ := h
    have hne : s.link session ≠ none := by
      rcases hcase with ⟨-, -, -, hne⟩ | ⟨hsome, -⟩
      · exact hne
      · simp [hsome]
    exact ⟨hguard, hsent, by rw [hlink hne]; exact hcase⟩
  | place live =>
    obtain ⟨hguard, hsent, hne, hcase⟩ := h
    exact ⟨hguard, hsent, by rw [hlink hne]; exact ⟨hne, hcase⟩⟩
  | rebind live pc =>
    obtain ⟨hsome, hmoving⟩ := h
    exact ⟨by rw [hlink (by simp [hsome])]; exact hsome, hmoving⟩

/-- `latest_generation` returns. -/
theorem TrackingOk.arrive {s : Connector} {r : StreamHandle}
    {session newest cursor : SessionId} {hops : Nat}
    (h : TrackingOk s r session (.seek newest cursor hops))
    (hend : hops = 0 ∨ s.link cursor = none) : TrackingOk s r session (.place newest) := by
  obtain ⟨hguard, hsent, ⟨rfl, -, hpos, hne⟩ | ⟨hlink, hnewest⟩⟩ := h
  · rcases hend with rfl | hnone
    · cases hpos
    · exact absurd hnone hne
  · refine ⟨hguard, hsent, by simp [hlink], ?_⟩
    rcases hnewest with rfl | ⟨rfl, hfound⟩
    · exact .inr hlink
    · refine .inl ⟨rfl, fun Y hY => ?_⟩
      obtain rfl := Option.some.inj (hlink.symm.trans hY)
      exact hfound

/-- `latest_generation` makes a hop: it is the first one. -/
theorem TrackingOk.hop {s : Connector} {r : StreamHandle}
    {session newest cursor next : SessionId} {hops : Nat}
    (h : TrackingOk s r session (.seek newest cursor hops))
    (hsettled : s.link session = some cursor → s.link cursor = none)
    (hnext : s.link cursor = some next) :
    r.guard = session ∧ r.lastSent = session ∧ newest = session ∧ s.link session = some next := by
  obtain ⟨hguard, hsent, ⟨rfl, rfl, -, -⟩ | ⟨hlink, -⟩⟩ := h
  · exact ⟨hguard, hsent, rfl, hnext⟩
  · rw [hsettled hlink] at hnext
    cases hnext

/-- A stream that can be upgraded, other than the one the loop holds. -/
theorem Connector.streamStrong_of_tracked {s : Connector} {j : StreamId} {r : StreamHandle}
    (hj : s.streams.lookup j = some r) (hphase : r.phase = .tracked) : s.streamStrong j = true := by
  simp [streamStrong, hj, hphase, StreamPhase.isRebind]

/-- A stream that a step does not touch stays where it is. -/
theorem StreamOk.frame {s s' : Connector} {j : StreamId} {r : StreamHandle} (h : StreamOk s j r)
    (haddr : ∀ X a, s.addrOf X = some a → s'.addrOf X = some a)
    (hlink : ∀ X, s.addrOf X ≠ none → s'.link X = s.link X)
    (hsub : ∀ Z, j ∈ s'.listOf Z → j ∈ s.listOf Z ∧ s.addrOf Z ≠ none)
    (hkeep : r.phase = .tracked → ∀ Z, j ∈ s.listOf Z → j ∈ s'.listOf Z)
    (hwork : j ∈ s'.loop.arm.work ↔ j ∈ s.loop.arm.work)
    (hmoving : s'.loop.arm.moving j = s.loop.arm.moving j)
    (harm : j ∈ s.loop.arm.work → s'.loop.arm.addr = s.loop.arm.addr) : StreamOk s' j r := by
  have hsame : ∀ X, s.addrOf X ≠ none → s'.addrOf X = s.addrOf X := by
    intro X hX
    obtain ⟨a, ha⟩ := Option.ne_none_iff_exists'.mp hX
    rw [ha, haddr X a ha]
  have hguard := hsame _ h.guardKnown
  constructor
  case guardKnown => exact hguard ▸ h.guardKnown
  case refs =>
    intro X hX
    have hXaddr := h.refs X hX
    rw [hguard, ← hXaddr]
    exact hsame X (hXaddr ▸ h.guardKnown)
  case listed =>
    intro Z hZ
    obtain ⟨hZ, hZknown⟩ := hsub Z hZ
    obtain ⟨hZaddr, hphase⟩ := h.listed Z hZ
    exact ⟨by rw [hguard, ← hZaddr]; exact hsame Z hZknown, hphase⟩
  case unique => exact fun Z Z' hZ hZ' => h.unique Z Z' (hsub Z hZ).1 (hsub Z' hZ').1
  case working =>
    intro hj
    obtain ⟨hjaddr, hphase, hnone⟩ := h.working (hwork.mp hj)
    exact ⟨by rw [harm (hwork.mp hj), hguard, hjaddr], hphase, fun Z hZ => hnone Z (hsub Z hZ).1⟩
  case placed =>
    intro hr
    have hplaced := h.placed hr
    unfold Placed at hplaced ⊢
    split at hplaced
    · exact hplaced
    · rename_i session pc hphase
      refine hplaced.frame fun _ => hlink session ?_
      rw [h.refs session (by simp [StreamHandle.refs, hphase])]
      exact h.guardKnown
    · rename_i hphase
      rw [hmoving]
      by_cases hj : j ∈ s.loop.arm.work
      · rw [if_pos hj] at hplaced
        rw [if_pos (hwork.mpr hj)]
        exact hplaced
      · rw [if_neg hj] at hplaced
        rw [if_neg fun hj' => hj (hwork.mp hj')]
        obtain ⟨hlist, hsent, hfound⟩ := hplaced
        exact ⟨hkeep hphase _ hlist, hsent, hlink r.guard h.guardKnown ▸ hfound⟩
    · trivial

namespace MigrationInv

variable {s s' : Connector} (h : MigrationInv s)
include h

/-- Steps that touch no stream and no list. -/
theorem frame (hstreams : s'.streams = s.streams) (hnext : s'.nextStream = s.nextStream)
    (haddr : ∀ X a, s.addrOf X = some a → s'.addrOf X = some a)
    (hlink : ∀ X, s.addrOf X ≠ none → s'.link X = s.link X)
    (hlists : s'.listOf = s.listOf)
    (hwork : s'.loop.arm.work = s.loop.arm.work)
    (hmoving : ∀ j, s'.loop.arm.moving j = s.loop.arm.moving j)
    (harm : s.loop.arm.work ≠ [] → s'.loop.arm.addr = s.loop.arm.addr) : MigrationInv s' where
  fresh := by
    rw [hstreams, hnext]
    exact h.fresh
  known := by
    rw [hstreams, hlists]
    exact h.known
  nodup := hlists ▸ h.nodup
  workKnown := by
    rw [hstreams, hwork]
    exact h.workKnown
  workNodup := hwork ▸ h.workNodup
  ok := by
    intro j r hj
    rw [hstreams] at hj
    have hok := h.ok j r hj
    refine hok.frame haddr hlink ?_ ?_ (by rw [hwork]) (hmoving j) ?_
    · intro Z hZ
      rw [hlists] at hZ
      exact ⟨hZ, (hok.listed Z hZ).1 ▸ hok.guardKnown⟩
    · rw [hlists]
      exact fun _ _ => id
    · exact fun hj => harm (List.ne_nil_of_mem hj)

/-- A step that is about the stream `i`. -/
theorem update (i : StreamId) (r' : StreamHandle) (hi : s.streams.lookup i ≠ none)
    (hstreams : ∀ j, s'.streams.lookup j = if j = i then some r' else s.streams.lookup j)
    (hnext : s'.nextStream = s.nextStream) (haddr : s'.addrOf = s.addrOf)
    (hlink : s'.link = s.link)
    (hsub : ∀ Z j, j ≠ i → j ∈ s'.listOf Z → j ∈ s.listOf Z)
    (hkeep : ∀ Z j, j ≠ i → s.streamStrong j = true → j ∈ s.listOf Z → j ∈ s'.listOf Z)
    (hnodup : ∀ Z, (s'.listOf Z).Nodup)
    (hwork : ∀ j, j ≠ i → (j ∈ s'.loop.arm.work ↔ j ∈ s.loop.arm.work))
    (hworkNodup : s'.loop.arm.work.Nodup)
    (hmoving : ∀ j, j ≠ i → s'.loop.arm.moving j = s.loop.arm.moving j)
    (harm : s'.loop.arm.addr = s.loop.arm.addr) (hok : StreamOk s' i r') : MigrationInv s' where
  fresh := by
    intro j r hj
    rw [hstreams] at hj
    rw [hnext]
    split at hj
    · rename_i heq
      obtain ⟨r₀, hr₀⟩ := Option.ne_none_iff_exists'.mp hi
      exact heq ▸ h.fresh i r₀ hr₀
    · exact h.fresh j r hj
  known := by
    intro Z j hj
    rw [hstreams]
    split
    · simp
    · rename_i hne
      exact h.known Z j (hsub Z j hne hj)
  nodup := hnodup
  workKnown := by
    intro j hj
    rw [hstreams]
    split
    · simp
    · rename_i hne
      exact h.workKnown j ((hwork j hne).mp hj)
  workNodup := hworkNodup
  ok := by
    intro j r hj
    rw [hstreams] at hj
    split at hj
    · rename_i heq
      obtain rfl := Option.some.inj hj
      exact heq ▸ hok
    · rename_i hne
      have hj' := h.ok j r hj
      refine hj'.frame (fun X a hX => haddr ▸ hX) (fun X _ => by rw [hlink]) ?_ ?_ (hwork j hne)
        (hmoving j hne) fun _ => harm
      · intro Z hZ
        have hZ := hsub Z j hne hZ
        exact ⟨hZ, (hj'.listed Z hZ).1 ▸ hj'.guardKnown⟩
      · intro hphase Z hZ
        exact hkeep Z j hne (streamStrong_of_tracked hj hphase) hZ

/-- A step that changes one stream and no list. -/
theorem change (i : StreamId) (r' : StreamHandle) (hi : s.streams.lookup i ≠ none)
    (hstreams : ∀ j, s'.streams.lookup j = if j = i then some r' else s.streams.lookup j)
    (hnext : s'.nextStream = s.nextStream) (haddr : s'.addrOf = s.addrOf)
    (hlink : s'.link = s.link) (hlists : s'.listOf = s.listOf) (hloop : s'.loop = s.loop)
    (hok : StreamOk s' i r') : MigrationInv s' := by
  refine h.update i r' hi hstreams hnext haddr hlink ?_ ?_ ?_ ?_ ?_ ?_ ?_ hok
  · exact fun Z j _ hj => hlists ▸ hj
  · exact fun Z j _ _ hj => hlists ▸ hj
  · exact hlists ▸ h.nodup
  · exact fun j _ => by rw [hloop]
  · exact hloop ▸ h.workNodup
  · exact fun j _ => by rw [hloop]
  · rw [hloop]

/-- A stream that is still being registered is on no list. -/
theorem not_listed {j : StreamId} {r : StreamHandle} (hj : s.streams.lookup j = some r)
    (hphase : ¬ r.phase.Landed) : (∀ Z, j ∉ s.listOf Z) ∧ j ∉ s.loop.arm.work :=
  ⟨fun Z hZ => hphase ((h.ok j r hj).listed Z hZ).2,
    fun hwork => hphase ((h.ok j r hj).working hwork).2.1⟩

end MigrationInv

/-! ## Lists after a change of the heap -/

/-- A session update that keeps the streams keeps every list. -/
theorem listOf_modify {s s' : Connector} {Y : SessionId} {f : Session → Session}
    (hheap : s'.heap = s.heap.modify Y f) (hf : ∀ x, (f x).streams = x.streams) :
    s'.listOf = s.listOf := by
  funext X
  simp only [listOf, hheap, HashMap.lookup_modify]
  split
  · cases s.heap.lookup X with
    | none => rfl
    | some x => exact hf x
  · rfl

/-- An update of all sessions that keeps the streams keeps every list. -/
theorem listOf_mapVal {s s' : Connector} {f : SessionId → Session → Session}
    (hheap : s'.heap = HashMap.mapVal f s.heap) (hf : ∀ X x, (f X x).streams = x.streams) :
    s'.listOf = s.listOf := by
  funext X
  simp only [listOf, hheap, HashMap.lookup_mapVal]
  cases s.heap.lookup X with
  | none => rfl
  | some x => exact hf X x

/-- `drain` empties the list of the old session and no other. -/
theorem listOf_drain {s : Connector} {old session : SessionId} (X : SessionId) :
    (s.drain old session).listOf X = if X = old then [] else s.listOf X := by
  simp only [listOf, drain, HashMap.lookup_modify]
  split
  · rename_i hX
    cases s.heap.lookup X <;> rfl
  · rfl

/-- Registering a stream rids the list of streams that are gone. -/
theorem listOf_trackOn {s : Connector} {session : SessionId} {i : StreamId}
    (hknown : s.addrOf session ≠ none) (X : SessionId) :
    (s.trackOn session i).listOf X =
      if X = session then (s.listOf session).filter s.streamStrong ++ [i] else s.listOf X := by
  simp only [listOf, trackOn, HashMap.lookup_modify]
  split
  · rename_i hX
    subst hX
    obtain ⟨a, ha⟩ := Option.ne_none_iff_exists'.mp hknown
    obtain ⟨x, hx, -⟩ := Option.map_eq_some_iff.mp ha
    simp [hx]
  · rfl

/-- What `trackOn` leaves. -/
theorem frame_trackOn (s : Connector) (session : SessionId) (i : StreamId) :
    (s.trackOn session i).addrOf = s.addrOf ∧ (s.trackOn session i).link = s.link :=
  ⟨addrOf_modify rfl fun _ => rfl, link_modify rfl fun _ => rfl⟩

/-- Taking and dropping guards leaves everything but the gauge. -/
theorem frame_guard (s : Connector) (session : SessionId) :
    ((s.takeGuard session).addrOf = s.addrOf ∧ (s.takeGuard session).link = s.link ∧
      (s.takeGuard session).listOf = s.listOf) ∧
    ((s.dropGuard session).addrOf = s.addrOf ∧ (s.dropGuard session).link = s.link ∧
      (s.dropGuard session).listOf = s.listOf) :=
  ⟨⟨addrOf_modify rfl fun _ => rfl, link_modify rfl fun _ => rfl, listOf_modify rfl fun _ => rfl⟩,
    ⟨addrOf_modify rfl fun _ => rfl, link_modify rfl fun _ => rfl, listOf_modify rfl fun _ => rfl⟩⟩

/-! ## The steps of `StreamRebind::track` -/

/-- Setting one stream leaves the others. -/
theorem lookup_setStream {s : Connector} {i : StreamId} {r : StreamHandle}
    (hi : s.streams.lookup i = some r) (f : StreamHandle → StreamHandle) (j : StreamId) :
    (s.setStream i f).streams.lookup j = if j = i then some (f r) else s.streams.lookup j := by
  simp only [setStream, HashMap.lookup_modify]
  split
  · rename_i hj
    rw [hj, hi, Option.map_some]
  · rfl

theorem lookup_setStream_twice {s : Connector} {i : StreamId} {r : StreamHandle}
    (hi : s.streams.lookup i = some r) (f g : StreamHandle → StreamHandle) (j : StreamId) :
    ((s.setStream i f).setStream i g).streams.lookup j =
      if j = i then some (g (f r)) else s.streams.lookup j := by
  have hi' : (s.setStream i f).streams.lookup i = some (f r) := by
    rw [lookup_setStream hi, if_pos rfl]
  rw [lookup_setStream hi', lookup_setStream hi]
  split <;> rfl

/-- A stream that is put on the list of a session is on no other. -/
theorem mem_listOf_trackOn {s : Connector} {N : SessionId} {i : StreamId}
    (hknown : s.addrOf N ≠ none) (hnone : ∀ Z, i ∉ s.listOf Z) (Z : SessionId) :
    i ∈ (s.trackOn N i).listOf Z ↔ Z = N := by
  rw [listOf_trackOn hknown]
  split
  · simp [*]
  · simp [*]

/-- A stream that has just been registered. -/
theorem StreamOk.of_registered {s : Connector} {i : StreamId} {r : StreamHandle} {N : SessionId}
    (hguard : s.addrOf r.guard ≠ none) (hphase : r.phase.Landed)
    (haddr : s.addrOf N = s.addrOf r.guard) (hlist : ∀ Z, i ∈ s.listOf Z ↔ Z = N)
    (hwork : i ∉ s.loop.arm.work)
    (hplaced : r.rebindable = true → r.phase = .tracked → r.guard = N ∧ r.lastSent = N ∧
      ∀ Y, s.link N = some Y → Y ∈ r.foundDead) : StreamOk s i r where
  guardKnown := hguard
  refs := by
    intro X hX
    have hXguard : X = r.guard := by
      rcases hphase with hphase | hphase <;> simpa [StreamHandle.refs, hphase] using hX
    rw [hXguard]
  listed := fun Z hZ => ⟨(hlist Z).mp hZ ▸ haddr, hphase⟩
  unique := fun Z Z' hZ hZ' => ((hlist Z).mp hZ).trans ((hlist Z').mp hZ').symm
  working := fun hj => absurd hj hwork
  placed := by
    intro hr
    rcases hphase with hphase | hphase
    · obtain ⟨rfl, hsent, hfound⟩ := hplaced hr hphase
      simp only [Placed, hphase, if_neg hwork]
      exact ⟨(hlist _).mpr rfl, hsent, hfound⟩
    · simp [Placed, hphase]

/-- A stream that is on no list and in no work list. -/
theorem StreamOk.of_away {s : Connector} {i : StreamId} {r : StreamHandle}
    (hguard : s.addrOf r.guard ≠ none) (hrefs : ∀ X ∈ r.refs true, s.addrOf X = s.addrOf r.guard)
    (hlist : ∀ Z, i ∉ s.listOf Z) (hwork : i ∉ s.loop.arm.work)
    (hplaced : r.rebindable = true → Placed s i r) : StreamOk s i r where
  guardKnown := hguard
  refs := hrefs
  listed := fun Z hZ => absurd hZ (hlist Z)
  unique := fun Z _ hZ => absurd hZ (hlist Z)
  working := fun hj => absurd hj hwork
  placed := hplaced

namespace MigrationInv

variable {s : Connector} (h : MigrationInv s)
include h

/-- A stream is put on the list of a session. -/
theorem register {s' : Connector} {i : StreamId} {N : SessionId} (r' : StreamHandle)
    (hi : s.streams.lookup i ≠ none) (hknown : s.addrOf N ≠ none)
    (hnone : ∀ Z, i ∉ s.listOf Z)
    (hstreams : ∀ j, s'.streams.lookup j = if j = i then some r' else s.streams.lookup j)
    (hnext : s'.nextStream = s.nextStream) (haddr : s'.addrOf = s.addrOf)
    (hlink : s'.link = s.link) (hlists : s'.listOf = (s.trackOn N i).listOf)
    (hwork : ∀ j, j ≠ i → (j ∈ s'.loop.arm.work ↔ j ∈ s.loop.arm.work))
    (hworkNodup : s'.loop.arm.work.Nodup)
    (hmoving : ∀ j, j ≠ i → s'.loop.arm.moving j = s.loop.arm.moving j)
    (harm : s'.loop.arm.addr = s.loop.arm.addr) (hok : StreamOk s' i r') : MigrationInv s' := by
  refine h.update i r' hi hstreams hnext haddr hlink ?_ ?_ ?_ hwork hworkNodup hmoving harm hok
  · intro Z j hne hj
    rw [hlists, listOf_trackOn hknown] at hj
    split at hj
    · rename_i hZ
      simp only [List.mem_append, List.mem_filter, List.mem_singleton, hne, or_false] at hj
      exact hZ ▸ hj.1
    · exact hj
  · intro Z j _ hstrong hj
    rw [hlists, listOf_trackOn hknown]
    split
    · rename_i hZ
      exact List.mem_append_left _ (List.mem_filter.mpr ⟨hZ ▸ hj, hstrong⟩)
    · exact hj
  · intro Z
    rw [hlists, listOf_trackOn hknown]
    split
    · refine ((h.nodup N).filter _).append (List.nodup_singleton i) ?_
      intro j hj hji
      obtain rfl := List.mem_singleton.mp hji
      exact hnone N (List.mem_of_mem_filter hj)
    · exact h.nodup Z

/-- A stream goes on being registered. -/
theorem pursue {s' : Connector} {i : StreamId} {r : StreamHandle} {session : SessionId}
    {pc : TrackPc} (hi : s.streams.lookup i = some r) (hphase : r.phase = .tracking session pc)
    (r' : StreamHandle) {pc' : TrackPc} (hphase' : r'.phase = .tracking session pc')
    (hguard : s.addrOf r'.guard = s.addrOf r.guard) (hrebindable : r'.rebindable = r.rebindable)
    (hlocals : ∀ X ∈ pc'.locals, s.addrOf X = s.addrOf r.guard)
    (hstreams : ∀ j, s'.streams.lookup j = if j = i then some r' else s.streams.lookup j)
    (hnext : s'.nextStream = s.nextStream) (haddr : s'.addrOf = s.addrOf)
    (hlink : s'.link = s.link) (hlists : s'.listOf = s.listOf) (hloop : s'.loop = s.loop)
    (hok : r.rebindable = true → TrackingOk s r session pc → TrackingOk s r' session pc') :
    MigrationInv s' := by
  have hri := h.ok i r hi
  obtain ⟨hlist, hwork⟩ := h.not_listed hi (by simp [StreamPhase.Landed, hphase])
  refine h.change i r' (by simp [hi]) hstreams hnext haddr hlink hlists hloop ?_
  refine .of_away ?_ ?_ (hlists ▸ hlist) (hloop ▸ hwork) ?_
  · rw [haddr, hguard]
    exact hri.guardKnown
  · intro X hX
    rw [haddr, hguard]
    simp only [StreamHandle.refs, hphase', List.mem_cons] at hX
    rcases hX with rfl | rfl | hX
    · exact hguard
    · exact hri.refs X (by simp [StreamHandle.refs, hphase])
    · exact hlocals X hX
  · intro hr
    rw [hrebindable] at hr
    have hplaced := hri.placed hr
    simp only [Placed, hphase] at hplaced
    simp only [Placed, hphase']
    exact (hok hr hplaced).frame fun _ => by rw [hlink]

/-- A stream that is being registered is put on the list of a session. -/
theorem land {s' : Connector} {i : StreamId} {r : StreamHandle} {session N : SessionId}
    {pc : TrackPc} (hi : s.streams.lookup i = some r) (hphase : r.phase = .tracking session pc)
    (hN : s.addrOf N = s.addrOf r.guard)
    (hs' : s' = (s.trackOn N i).setPhase i .tracked)
    (hok : r.rebindable = true → TrackingOk s r session pc →
      r.guard = N ∧ r.lastSent = N ∧ ∀ Y, s.link N = some Y → Y ∈ r.foundDead) :
    MigrationInv s' := by
  subst hs'
  have hri := h.ok i r hi
  obtain ⟨haddr, hlink⟩ := frame_trackOn s N i
  obtain ⟨hlist, hwork⟩ := h.not_listed hi (by simp [StreamPhase.Landed, hphase])
  have hknown : s.addrOf N ≠ none := hN ▸ hri.guardKnown
  refine h.register { r with phase := .tracked } (by simp [hi]) hknown hlist
    (lookup_setStream (s := s.trackOn N i) hi _) rfl haddr hlink rfl (fun _ _ => Iff.rfl)
    h.workNodup (fun _ _ => rfl) rfl ?_
  refine .of_registered (N := N) ?_ (.inl rfl) ?_ (mem_listOf_trackOn hknown hlist) hwork ?_
  · exact haddr ▸ hri.guardKnown
  · exact haddr ▸ hN
  · intro hr _
    have hplaced := hri.placed hr
    simp only [Placed, hphase] at hplaced
    obtain ⟨hguard, hsent, hfound⟩ := hok hr hplaced
    exact ⟨hguard, hsent, fun Y hY => hfound Y (hlink ▸ hY)⟩

/-- One round of `latest_generation`. A held session is at most one step behind, so there is at most
one hop to make. -/
theorem seekStep {i : StreamId} {r : StreamHandle} {session newest cursor : SessionId}
    {hops : Nat} (haddressed : Addressed s) (hgate : GateInv s)
    (hi : s.streams.lookup i = some r)
    (hphase : r.phase = .tracking session (.seek newest cursor hops)) :
    MigrationInv (s.seekStep i session newest cursor hops) := by
  have hrefs : ∀ X ∈ [session, newest, cursor], s.addrOf X = s.addrOf r.guard := by
    intro X hX
    exact (h.ok i r hi).refs X (by simp_all [StreamHandle.refs, TrackPc.locals])
  have hsession : s.Strong session := strong_of_stream hi (by simp [StreamHandle.refs, hphase])
  have hplace : hops = 0 ∨ s.link cursor = none →
      MigrationInv (s.setPhase i (.tracking session (.place newest))) := by
    intro hend
    refine h.pursue hi hphase { r with phase := .tracking session (.place newest) } rfl rfl rfl ?_
      (lookup_setStream hi _) rfl rfl rfl rfl rfl fun _ hok => hok.arrive hend
    intro X hX
    obtain rfl := List.mem_singleton.mp hX
    exact hrefs X (by simp)
  cases hops with
  | zero => exact hplace (.inl rfl)
  | succ hops =>
    simp only [Connector.seekStep]
    split
    · exact hplace (.inr ‹_›)
    · rename_i next hnext
      have hnextAddr : s.addrOf next = s.addrOf r.guard :=
        (haddressed.younger cursor next hnext).2.trans (hrefs cursor (by simp))
      split
      · refine h.pursue hi hphase { r with phase := .tracking session (.seek next next hops) }
          rfl rfl rfl ?_ (lookup_setStream hi _) rfl rfl rfl rfl rfl ?_
        · intro X hX
          simp only [TrackPc.locals, List.mem_cons, List.not_mem_nil, or_false, or_self] at hX
          exact hX ▸ hnextAddr
        · intro _ hok
          obtain ⟨hguard, hsent, -, hlink⟩ := hok.hop (hgate.settled session cursor hsession) hnext
          exact ⟨hguard, hsent, .inr ⟨hlink, .inl rfl⟩⟩
      · refine h.pursue hi hphase
          { r with
            phase := .tracking session (.seek newest next hops)
            foundDead := next :: r.foundDead }
          rfl rfl rfl ?_ (lookup_setStream hi _) rfl rfl rfl rfl rfl ?_
        · intro X hX
          simp only [TrackPc.locals, List.mem_cons, List.not_mem_nil, or_false] at hX
          rcases hX with rfl | rfl
          · exact hrefs X (by simp)
          · exact hnextAddr
        · intro _ hok
          obtain ⟨hguard, hsent, hnewest, hlink⟩ :=
            hok.hop (hgate.settled session cursor hsession) hnext
          exact ⟨hguard, hsent, .inr ⟨hlink, .inr ⟨hnewest, List.mem_cons_self⟩⟩⟩

/-- `rebind_one` gives up on a stream that cannot be rebound. -/
theorem leave {s' : Connector} {i : StreamId} {r : StreamHandle} {session : SessionId}
    {pc : TrackPc} (hi : s.streams.lookup i = some r) (hphase : r.phase = .tracking session pc)
    (hr : ¬ r.rebindable = true) (r' : StreamHandle) (hphase' : r'.phase = .tracked)
    (hguard : r'.guard = r.guard) (hrebindable : r'.rebindable = r.rebindable)
    (hstreams : ∀ j, s'.streams.lookup j = if j = i then some r' else s.streams.lookup j)
    (hnext : s'.nextStream = s.nextStream) (hheap : s'.heap = s.heap)
    (hloop : s'.loop = s.loop) : MigrationInv s' := by
  have haddr : s'.addrOf = s.addrOf := by funext X; simp only [addrOf, hheap]
  have hlink : s'.link = s.link := by funext X; simp only [link, hheap]
  have hlists : s'.listOf = s.listOf := by funext X; simp only [listOf, hheap]
  obtain ⟨hlist, hwork⟩ := h.not_listed hi (by simp [StreamPhase.Landed, hphase])
  refine h.change i r' (by simp [hi]) hstreams hnext haddr hlink hlists hloop ?_
  refine .of_away ?_ ?_ (hlists ▸ hlist) (hloop ▸ hwork) ?_
  · rw [haddr, hguard]
    exact (h.ok i r hi).guardKnown
  · intro X hX
    have hX : X = r'.guard := by simpa [StreamHandle.refs, hphase'] using hX
    rw [hX]
  · rw [hrebindable]
    exact fun hr' => absurd hr' hr

/-- A step of `rebind_one` in the course of `track`. -/
theorem rebindStep {i : StreamId} {r : StreamHandle} {session live : SessionId} {pc : RebindPc}
    (hgate : GateInv s) (hi : s.streams.lookup i = some r)
    (hphase : r.phase = .tracking session (.rebind live pc)) :
    MigrationInv (s.trackStep i r session (.rebind live pc)) := by
  have hri := h.ok i r hi
  have hlive : s.addrOf live = s.addrOf r.guard :=
    hri.refs live (by simp [StreamHandle.refs, hphase, TrackPc.locals])
  have hlocals : ∀ pc', ∀ X ∈ (TrackPc.rebind live pc').locals, s.addrOf X = s.addrOf r.guard := by
    intro pc' X hX
    obtain rfl := List.mem_singleton.mp hX
    exact hlive
  cases pc with
  | offer =>
    simp only [Connector.trackStep, Connector.rebindOne]
    by_cases hr : r.rebindable = true
    · have hhalf : r.halfAlive = true := by
        simp only [StreamHandle.rebindable, Bool.and_eq_true] at hr
        exact hr.1
      simp only [hr, hhalf, if_true]
      refine h.pursue hi hphase
        { r with lastSent := live, phase := .tracking session (.rebind live .guard) } rfl rfl rfl
        (hlocals _) (lookup_setStream_twice hi _ _) rfl rfl rfl rfl rfl fun _ hok => ⟨hok.1, rfl⟩
    · -- the stream is left without a registration
      simp only [if_neg hr]
      split
      · exact h.leave hi hphase hr { r with lastSent := live, phase := .tracked } rfl rfl rfl
          (lookup_setStream_twice hi _ _) rfl rfl rfl
      · exact h.leave hi hphase hr { r with phase := .tracked } rfl rfl rfl
          (lookup_setStream hi _) rfl rfl rfl
  | guard =>
    obtain ⟨⟨haddr, hlink, hlists⟩, -⟩ := frame_guard s live
    exact h.pursue hi hphase { r with phase := .tracking session (.rebind live .assign) } rfl rfl
      rfl (hlocals _) (lookup_setStream (s := s.takeGuard live) hi _) rfl haddr hlink hlists rfl
      fun _ hok => hok
  | assign =>
    obtain ⟨-, haddr, hlink, hlists⟩ := frame_guard s r.guard
    refine h.pursue hi hphase
      { r with guard := live, phase := .tracking session (.rebind live .register) } rfl hlive
      rfl (hlocals _) (lookup_setStream_twice (s := s.dropGuard r.guard) hi _ _) rfl haddr hlink
      hlists rfl fun _ hok => ⟨hok.1, hok.2, rfl⟩
  | register =>
    refine h.land hi hphase hlive rfl fun _ hok => ⟨hok.2.2, hok.2.1, fun Y hY => ?_⟩
    have hsession : s.Strong session :=
      strong_of_stream hi (by simp [StreamHandle.refs, hphase])
    rw [hgate.settled session live hsession hok.1] at hY
    cases hY

/-- A step of `track` keeps the invariant. -/
theorem trackStep {i : StreamId} {r : StreamHandle} {session : SessionId} {pc : TrackPc}
    (haddressed : Addressed s) (hgate : GateInv s) (hi : s.streams.lookup i = some r)
    (hphase : r.phase = .tracking session pc) : MigrationInv (s.trackStep i r session pc) := by
  have hsession : s.addrOf session = s.addrOf r.guard :=
    (h.ok i r hi).refs session (by simp [StreamHandle.refs, hphase])
  cases pc with
  | current =>
    simp only [Connector.trackStep]
    split
    · rename_i hsome
      refine h.pursue hi hphase
        { r with phase := .tracking session (.seek session session maxSuccessorHops) } rfl rfl rfl
        ?_ (lookup_setStream hi _) rfl rfl rfl rfl rfl ?_
      · intro X hX
        simp only [TrackPc.locals, List.mem_cons, List.not_mem_nil, or_false, or_self] at hX
        exact hX ▸ hsession
      · rintro - ⟨hguard, hsent⟩
        exact ⟨hguard, hsent, .inl ⟨rfl, rfl, by decide, Option.isSome_iff_ne_none.mp hsome⟩⟩
    · rename_i hnone
      refine h.land hi hphase hsession rfl ?_
      rintro - ⟨hguard, hsent⟩
      exact ⟨hguard, hsent, fun Y hY => absurd (by simp [hY]) hnone⟩
  | seek newest cursor hops => exact h.seekStep haddressed hgate hi hphase
  | place live =>
    simp only [Connector.trackStep]
    split
    · rename_i hlive
      refine h.land hi hphase hsession rfl ?_
      rintro - ⟨hguard, hsent, -, ⟨-, hfound⟩ | hlink⟩
      · exact ⟨hguard, hsent, hfound⟩
      · -- no session is its own successor
        rw [hlive] at hlink
        exact absurd (haddressed.younger session session hlink).1 (Nat.lt_irrefl _)
    · rename_i hlive
      refine h.pursue hi hphase { r with phase := .tracking session (.rebind live .offer) } rfl rfl
        rfl ?_ (lookup_setStream hi _) rfl rfl rfl rfl rfl ?_
      · intro X hX
        obtain rfl := List.mem_singleton.mp hX
        exact (h.ok i r hi).refs X (by simp [StreamHandle.refs, hphase, TrackPc.locals])
      · rintro - ⟨-, -, -, ⟨heq, -⟩ | hlink⟩
        · exact absurd heq hlive
        · exact ⟨hlink, trivial⟩
  | rebind live pc => exact h.rebindStep hgate hi hphase

/-! ## The other steps of a stream -/

/-- There is no stream under the next number. -/
theorem next_unknown : s.streams.lookup s.nextStream = none := by
  by_contra hne
  obtain ⟨r, hr⟩ := Option.ne_none_iff_exists'.mp hne
  exact Nat.lt_irrefl _ (h.fresh _ r hr)

/-- A stream is opened on a session that exists. -/
theorem openStream {session : SessionId} (hknown : s.addrOf session ≠ none) (lane : LaneClass) :
    MigrationInv (s.openStream session lane) := by
  obtain ⟨⟨haddr, hlink, hlists⟩, -⟩ := frame_guard s session
  have hnew := h.next_unknown
  have hlookup : ∀ j, (s.openStream session lane).streams.lookup j =
      if j = s.nextStream then some ⟨lane, .opened, session, session, true, true, []⟩
      else s.streams.lookup j :=
    fun j => HashMap.lookup_insert_eq _ _ _ _
  constructor
  case fresh =>
    intro j r hj
    rw [hlookup] at hj
    split at hj
    · rename_i heq
      exact heq ▸ Nat.lt_succ_self _
    · exact Nat.lt_succ_of_lt (h.fresh j r hj)
  case known =>
    intro Z j hj
    rw [hlookup]
    split
    · simp
    · exact h.known Z j (hlists ▸ hj)
  case nodup => exact hlists ▸ h.nodup
  case workKnown =>
    intro j hj
    rw [hlookup]
    split
    · simp
    · exact h.workKnown j hj
  case workNodup => exact h.workNodup
  case ok =>
    intro j r hj
    rw [hlookup] at hj
    split at hj
    · rename_i heq
      obtain rfl := Option.some.inj hj
      rw [heq]
      refine .of_away (haddr ▸ hknown) ?_ ?_ ?_ fun _ => rfl
      · intro X hX
        have hX : X = session := by simpa [StreamHandle.refs] using hX
        rw [hX]
      · exact fun Z hZ => h.known Z _ (hlists ▸ hZ) hnew
      · exact fun hj => h.workKnown _ hj hnew
    · have hok := h.ok j r hj
      refine hok.frame (fun X a hX => haddr ▸ hX) (fun X _ => congrFun hlink X) ?_
        (fun _ Z hZ => hlists ▸ hZ) Iff.rfl rfl fun _ => rfl
      intro Z hZ
      have hZ : j ∈ s.listOf Z := hlists ▸ hZ
      exact ⟨hZ, (hok.listed Z hZ).1 ▸ hok.guardKnown⟩

/-- A caller that takes its stream keeps the invariant. -/
theorem intoStream {s' : Connector} {i : StreamId} (hstep : s.intoStream i = some s') :
    MigrationInv s' := by
  simp only [Connector.intoStream] at hstep
  split at hstep
  · rename_i r hi
    split at hstep
    · rename_i hopened
      obtain rfl := Option.some.inj hstep
      have hri := h.ok i r hi
      obtain ⟨hlist, hwork⟩ := h.not_listed hi (by simp [StreamPhase.Landed, hopened])
      refine h.change i { r with phase := .tracking r.guard .current } (by simp [hi])
        (lookup_setStream hi _) rfl rfl rfl rfl rfl ?_
      refine .of_away hri.guardKnown ?_ hlist hwork ?_
      · intro X hX
        have hX : X = r.guard := by simpa [StreamHandle.refs, TrackPc.locals] using hX
        rw [hX]
      · intro hr
        have hplaced := hri.placed hr
        simp only [Placed, hopened] at hplaced
        exact ⟨rfl, hplaced⟩
    · cases hstep
  · cases hstep

/-- A stream lets go of its write half, its writer or its guard. -/
theorem release {s' : Connector} {i : StreamId} {r : StreamHandle} (r' : StreamHandle)
    (hi : s.streams.lookup i = some r) (hguard : r'.guard = r.guard)
    (hphase : r'.phase = r.phase ∨ r'.phase = .dropped)
    (hrebindable : r'.phase = r.phase → r'.rebindable = false)
    (hstreams : ∀ j, s'.streams.lookup j = if j = i then some r' else s.streams.lookup j)
    (hnext : s'.nextStream = s.nextStream) (haddr : s'.addrOf = s.addrOf)
    (hlink : s'.link = s.link) (hlists : s'.listOf = s.listOf) (hloop : s'.loop = s.loop) :
    MigrationInv s' := by
  have hri := h.ok i r hi
  have hlanded : r.phase.Landed → r'.phase.Landed := by
    rintro hl
    rcases hphase with heq | heq
    · exact heq ▸ hl
    · exact .inr heq
  refine h.change i r' (by simp [hi]) hstreams hnext haddr hlink hlists hloop ?_
  constructor
  case guardKnown =>
    rw [haddr, hguard]
    exact hri.guardKnown
  case refs =>
    intro X hX
    rw [haddr, hguard]
    rcases hphase with heq | heq
    · refine hri.refs X ?_
      simp only [StreamHandle.refs, heq, hguard] at hX ⊢
      exact hX
    · have hX : X = r'.guard := by simpa [StreamHandle.refs, heq] using hX
      rw [hX, hguard]
  case listed =>
    intro Z hZ
    rw [hlists] at hZ
    obtain ⟨hZaddr, hZphase⟩ := hri.listed Z hZ
    rw [haddr, hguard]
    exact ⟨hZaddr, hlanded hZphase⟩
  case unique => exact hlists ▸ hri.unique
  case working =>
    rw [hloop, haddr, hguard, hlists]
    intro hj
    obtain ⟨haddr', hl, hnone⟩ := hri.working hj
    exact ⟨haddr', hlanded hl, hnone⟩
  case placed =>
    intro hr
    rcases hphase with heq | heq
    · rw [hrebindable heq] at hr
      cases hr
    · simp [Placed, heq]

/-- A stream that is dropped keeps the invariant. -/
theorem dropStream {s' : Connector} {i : StreamId} (hstep : s.dropStream i = some s') :
    MigrationInv s' := by
  simp only [Connector.dropStream] at hstep
  split at hstep
  · rename_i r hi
    obtain ⟨-, haddr, hlink, hlists⟩ := frame_guard s r.guard
    split at hstep
    · rename_i hphase
      obtain rfl := Option.some.inj hstep
      exact h.release { r with phase := .dropped } hi rfl (.inr rfl)
        (by simp [hphase]) (lookup_setStream (s := s.dropGuard r.guard) hi _) rfl haddr hlink
        hlists rfl
    · rename_i hphase
      split at hstep
      · obtain rfl := Option.some.inj hstep
        exact h.release { r with halfAlive := false } hi rfl (.inl rfl)
          (fun _ => rfl) (lookup_setStream hi _) rfl rfl rfl rfl rfl
      · split at hstep <;> obtain rfl := Option.some.inj hstep
        · exact h.release { r with phase := .dropped } hi rfl (.inr rfl)
            (by simp [hphase]) (lookup_setStream hi _) rfl rfl rfl rfl rfl
        · exact h.release { r with phase := .dropped } hi rfl (.inr rfl)
            (by simp [hphase]) (lookup_setStream (s := s.dropGuard r.guard) hi _) rfl haddr
            hlink hlists rfl
    · cases hstep
  · cases hstep

/-- A writer that ends keeps the invariant. -/
theorem writerEnds {s' : Connector} {i : StreamId} (hstep : s.writerEnds i = some s') :
    MigrationInv s' := by
  simp only [Connector.writerEnds] at hstep
  split at hstep
  · rename_i r hi
    split at hstep
    · cases hstep
    · obtain rfl := Option.some.inj hstep
      exact h.release { r with writerRunning := false } hi rfl (.inl rfl)
        (fun _ => by simp [StreamHandle.rebindable]) (lookup_setStream hi _) rfl rfl rfl rfl rfl
  · cases hstep

end MigrationInv

end RtpMux

import RtpMux.Connector

/-!
# Quiet steps of the connector

Most steps are *quiet* for the connector as a whole: whatever they do to one stream or one
watcher, they leave the maps and the tables alone, change no successor, and create no reference
to a session that was not held before. This file says what it means that a session is held, and
shows that everything a stream, a watcher or the work list of the loop does is quiet.
-/

namespace RtpMux

open Connector

/-! ## Held sessions -/

/-- Somebody holds an `Arc` of the session. -/
def Connector.Strong (s : Connector) (session : SessionId) : Prop :=
  Refs.Live (· ∈ s.roots) s.link session

/-- Who holds a session: a table of the loop, an arm, a caller or a stream. -/
theorem Connector.mem_roots {s : Connector} {X : SessionId} :
    X ∈ s.roots ↔
      (∃ a, s.sessions.lookup a = some X) ∨
      (∃ a r, s.loop.redials.lookup a = some r ∧ r.old = X) ∨
      X ∈ s.loop.arm.locals ∨ X ∈ s.visitors ∨
      ∃ i r, s.streams.lookup i = some r ∧ X ∈ r.refs (s.loop.arm.borrowed = some i) := by
  simp only [roots, List.mem_append, List.mem_map, List.mem_flatMap, or_assoc,
    HashMap.lookup_eq_some_iff]
  constructor
  · rintro (⟨⟨a, Y⟩, he, rfl⟩ | ⟨⟨a, r⟩, he, rfl⟩ | h | h | ⟨⟨i, r⟩, he, h⟩)
    · exact .inl ⟨a, he⟩
    · exact .inr (.inl ⟨a, r, he, rfl⟩)
    · exact .inr (.inr (.inl h))
    · exact .inr (.inr (.inr (.inl h)))
    · exact .inr (.inr (.inr (.inr ⟨i, r, he, h⟩)))
  · rintro (⟨a, he⟩ | ⟨a, r, he, rfl⟩ | h | h | ⟨i, r, he, h⟩)
    · exact .inl ⟨⟨a, X⟩, he, rfl⟩
    · exact .inr (.inl ⟨⟨a, r⟩, he, rfl⟩)
    · exact .inr (.inr (.inl h))
    · exact .inr (.inr (.inr (.inl h)))
    · exact .inr (.inr (.inr (.inr ⟨⟨i, r⟩, he, h⟩)))

section Strong

variable {s : Connector} {X : SessionId}

theorem Connector.strong_of_mapped {a : SocketAddr} (h : s.sessions.lookup a = some X) :
    s.Strong X :=
  .root (mem_roots.mpr (.inl ⟨a, h⟩))

theorem Connector.strong_of_redial {a : SocketAddr} {r : RedialInFlight}
    (h : s.loop.redials.lookup a = some r) : s.Strong r.old :=
  .root (mem_roots.mpr (.inr (.inl ⟨a, r, h, rfl⟩)))

theorem Connector.strong_of_arm (h : X ∈ s.loop.arm.locals) : s.Strong X :=
  .root (mem_roots.mpr (.inr (.inr (.inl h))))

theorem Connector.strong_of_visitor (h : X ∈ s.visitors) : s.Strong X :=
  .root (mem_roots.mpr (.inr (.inr (.inr (.inl h)))))

/-- A stream keeps the sessions that it refers to. -/
theorem Connector.strong_of_stream {i : StreamId} {r : StreamHandle}
    (hi : s.streams.lookup i = some r) (h : X ∈ r.refs (s.loop.arm.borrowed = some i)) :
    s.Strong X :=
  .root (mem_roots.mpr (.inr (.inr (.inr (.inr ⟨i, r, hi, h⟩)))))

end Strong

/-- What a stream holds without the loop's help it also holds with it. -/
theorem StreamHandle.refs_subset (r : StreamHandle) {b : Bool} {X : SessionId}
    (h : X ∈ r.refs false) : X ∈ r.refs b := by
  unfold StreamHandle.refs at h ⊢
  split at h
  · exact h
  · simp at h
  · exact h

/-- The loop's help only matters for a stream its owner has dropped. -/
theorem StreamHandle.refs_eq (r : StreamHandle) (h : r.phase ≠ .dropped) (b b' : Bool) :
    r.refs b = r.refs b' := by
  unfold StreamHandle.refs
  split
  · rfl
  · rename_i hdropped
    exact absurd hdropped h
  · rfl

/-- The guard is among what a stream holds. -/
theorem StreamHandle.guard_mem_refs (r : StreamHandle) (h : r.phase ≠ .dropped) (b : Bool) :
    r.guard ∈ r.refs b := by
  unfold StreamHandle.refs
  split
  · exact List.mem_cons_self
  · rename_i hdropped
    exact absurd hdropped h
  · exact List.mem_cons_self

/-! ## Sessions and the heap -/

/-- What a quiet step may do to a session. -/
structure SessionStep (x x' : Session) : Prop where
  addr : x'.addr = x.addr
  token : x'.token = x.token
  key : x'.key = x.key
  successor : x'.successor = x.successor
  alive : x'.alive = true → x.alive = true
  reaped : x'.watcher = .reaped ↔ x.watcher = .reaped
  finished : x.watcher = .finished → x'.watcher = .finished

/-- A sequence of changes to sessions. -/
inductive HeapStep (m : HashMap SessionId Session) : HashMap SessionId Session → Prop where
  | refl : HeapStep m m
  | modify {m' : HashMap SessionId Session} (X : SessionId) (f : Session → Session) :
      HeapStep m m' → (∀ x, m'.lookup X = some x → SessionStep x (f x)) →
        HeapStep m (m'.modify X f)

theorem SessionStep.refl (x : Session) : SessionStep x x :=
  ⟨rfl, rfl, rfl, rfl, id, Iff.rfl, id⟩

/-- Small changes of a session add up. -/
theorem SessionStep.trans {x y z : Session} (h : SessionStep x y) (h' : SessionStep y z) :
    SessionStep x z :=
  ⟨h'.addr.trans h.addr, h'.token.trans h.token, h'.key.trans h.key,
    h'.successor.trans h.successor, fun hz => h.alive (h'.alive hz), h'.reaped.trans h.reaped,
    fun hx => h'.finished (h.finished hx)⟩

/-- Sessions are neither created nor forgotten. -/
theorem HeapStep.lookup {m m' : HashMap SessionId Session} (h : HeapStep m m') (X : SessionId) :
    (m.lookup X = none ∧ m'.lookup X = none) ∨
      ∃ x x', m.lookup X = some x ∧ m'.lookup X = some x' ∧ SessionStep x x' := by
  induction h with
  | refl =>
    cases hX : m.lookup X with
    | none => exact .inl ⟨rfl, rfl⟩
    | some x => exact .inr ⟨x, x, rfl, rfl, .refl x⟩
  | modify Y f _ hf ih =>
    rcases ih with ⟨hnone, hnone'⟩ | ⟨x, x', hx, hx', hstep⟩
    · refine .inl ⟨hnone, ?_⟩
      rw [HashMap.lookup_modify, hnone']
      simp
    · by_cases hXY : X = Y
      · subst hXY
        refine .inr ⟨x, f x', hx, ?_, hstep.trans (hf x' hx')⟩
        rw [HashMap.lookup_modify, if_pos rfl, hx', Option.map_some]
      · refine .inr ⟨x, x', hx, ?_, hstep⟩
        rw [HashMap.lookup_modify, if_neg hXY, hx']

/-- The address of a session. -/
def Connector.addrOf (s : Connector) (session : SessionId) : Option SocketAddr :=
  (s.heap.lookup session).map (·.addr)

section Heap

variable {s s' : Connector} (h : HeapStep s.heap s'.heap)
include h

theorem HeapStep.link (X : SessionId) : s'.link X = s.link X := by
  rcases h.lookup X with ⟨hx, hx'⟩ | ⟨x, x', hx, hx', hstep⟩
  · simp [Connector.link, hx, hx']
  · simp [Connector.link, hx, hx', hstep.successor]

theorem HeapStep.addrOf (X : SessionId) : s'.addrOf X = s.addrOf X := by
  rcases h.lookup X with ⟨hx, hx'⟩ | ⟨x, x', hx, hx', hstep⟩
  · simp [Connector.addrOf, hx, hx']
  · simp [Connector.addrOf, hx, hx', hstep.addr]

end Heap

/-! ## Quiet steps -/

/-- The tables other than the waiters, the answers and the arm are as before. -/
structure SameTables (l l' : Loop) : Prop where
  pendingDials : l'.pendingDials = l.pendingDials
  inFlightDials : l'.inFlightDials = l.inFlightDials
  groups : l'.groups = l.groups
  redials : l'.redials = l.redials
  explorers : l'.explorers = l.explorers
  addrKeys : l'.addrKeys = l.addrKeys
  nextToken : l'.nextToken = l.nextToken
  explorerCtx : l'.explorerCtx = l.explorerCtx

theorem SameTables.refl (l : Loop) : SameTables l l := ⟨rfl, rfl, rfl, rfl, rfl, rfl, rfl, rfl⟩

/-- Where the arm stands, its work list apart. -/
def Arm.coarse : Arm → Arm
  | .completing addr session old (.move _) => .completing addr session old (.move [])
  | .completing addr session old (.one _ _ _) => .completing addr session old (.move [])
  | .completing addr session old (.answer _) => .completing addr session old (.answer [])
  | arm => arm

theorem Arm.locals_coarse (arm : Arm) : arm.coarse.locals = arm.locals := by
  unfold Arm.coarse
  split <;> rfl

theorem Arm.coarse_eq_panicked {arm : Arm} : arm.coarse = .panicked ↔ arm = .panicked := by
  cases arm with
  | completing addr session old stage => cases stage <;> simp [Arm.coarse]
  | _ => simp [Arm.coarse]

/-- A step that changes no table, no map and no successor, and holds no session that was not
held. -/
structure Quiet (s s' : Connector) : Prop where
  sessions : s'.sessions = s.sessions
  draining : s'.draining = s.draining
  tables : SameTables s.loop s'.loop
  arm : s'.loop.arm.coarse = s.loop.arm.coarse
  nextSession : s'.nextSession = s.nextSession
  heap : HeapStep s.heap s'.heap
  strong : ∀ X, s'.Strong X → s.Strong X

/-- A step is quiet if every caller and every stream holds, afterwards, only sessions that were
held. -/
theorem Quiet.of_streams {s s' : Connector} (hsessions : s'.sessions = s.sessions)
    (hdraining : s'.draining = s.draining) (htables : SameTables s.loop s'.loop)
    (harm : s'.loop.arm.coarse = s.loop.arm.coarse) (hnext : s'.nextSession = s.nextSession)
    (hheap : HeapStep s.heap s'.heap) (hvisitors : ∀ X ∈ s'.visitors, s.Strong X)
    (hstreams : ∀ i r, s'.streams.lookup i = some r →
      ∀ X ∈ r.refs (s'.loop.arm.borrowed = some i), s.Strong X) : Quiet s s' where
  sessions := hsessions
  draining := hdraining
  tables := htables
  arm := harm
  nextSession := hnext
  heap := hheap
  strong := by
    intro X hX
    induction hX with
    | root hroot =>
      rcases mem_roots.mp hroot with ⟨a, ha⟩ | ⟨a, r, ha, rfl⟩ | hl | hv | ⟨i, r, hi, hr⟩
      · rw [hsessions] at ha
        exact strong_of_mapped ha
      · rw [htables.redials] at ha
        exact strong_of_redial ha
      · rw [← Arm.locals_coarse, harm, Arm.locals_coarse] at hl
        exact strong_of_arm hl
      · exact hvisitors _ hv
      · exact hstreams i r hi _ hr
    | link _ hlink ih =>
      rw [hheap.link] at hlink
      exact .link ih hlink

theorem Quiet.refl (s : Connector) : Quiet s s :=
  ⟨rfl, rfl, .refl _, rfl, rfl, .refl, fun _ => id⟩

theorem HeapStep.trans {m m' m'' : HashMap SessionId Session} (h : HeapStep m m')
    (h' : HeapStep m' m'') : HeapStep m m'' := by
  induction h' with
  | refl => exact h
  | modify X f _ hf ih => exact .modify X f ih hf

theorem SameTables.trans {l l' l'' : Loop} (h : SameTables l l') (h' : SameTables l' l'') :
    SameTables l l'' where
  pendingDials := h'.pendingDials.trans h.pendingDials
  inFlightDials := h'.inFlightDials.trans h.inFlightDials
  groups := h'.groups.trans h.groups
  redials := h'.redials.trans h.redials
  explorers := h'.explorers.trans h.explorers
  addrKeys := h'.addrKeys.trans h.addrKeys
  nextToken := h'.nextToken.trans h.nextToken
  explorerCtx := h'.explorerCtx.trans h.explorerCtx

/-- Quiet steps add up. -/
theorem Quiet.trans {s s' s'' : Connector} (h : Quiet s s') (h' : Quiet s' s'') : Quiet s s'' where
  sessions := h'.sessions.trans h.sessions
  draining := h'.draining.trans h.draining
  tables := h.tables.trans h'.tables
  arm := h'.arm.trans h.arm
  nextSession := h'.nextSession.trans h.nextSession
  heap := h.heap.trans h'.heap
  strong := fun X hX => h.strong X (h'.strong X hX)

section Primitives

variable {s : Connector}

/-- Changing a session is quiet. -/
theorem Quiet.setSession (X : SessionId) (f : Session → Session)
    (hf : ∀ x, s.heap.lookup X = some x → SessionStep x (f x)) : Quiet s (s.setSession X f) :=
  .of_streams rfl rfl (.refl _) rfl rfl (.modify X f .refl hf)
    (fun _ hv => strong_of_visitor (s := s) hv)
    fun _ _ hi _ hr => strong_of_stream hi hr

theorem Quiet.takeGuard (X : SessionId) : Quiet s (s.takeGuard X) :=
  .setSession X _ fun _ _ => ⟨rfl, rfl, rfl, rfl, id, Iff.rfl, id⟩

theorem Quiet.dropGuard (X : SessionId) : Quiet s (s.dropGuard X) :=
  .setSession X _ fun _ _ => ⟨rfl, rfl, rfl, rfl, id, Iff.rfl, id⟩

theorem Quiet.trackOn (X : SessionId) (i : StreamId) : Quiet s (s.trackOn X i) :=
  .setSession X _ fun _ _ => ⟨rfl, rfl, rfl, rfl, id, Iff.rfl, id⟩

/-- Changing a stream is quiet if it holds only held sessions afterwards. -/
theorem Quiet.setStream (i : StreamId) (f : StreamHandle → StreamHandle)
    (hf : ∀ r, s.streams.lookup i = some r →
      ∀ X ∈ (f r).refs (s.loop.arm.borrowed = some i), s.Strong X) : Quiet s (s.setStream i f) := by
  refine .of_streams rfl rfl (.refl _) rfl rfl .refl (fun _ hv => strong_of_visitor (s := s) hv) ?_
  intro j r hj X hX
  change (s.streams.modify i f).lookup j = some r at hj
  rw [HashMap.lookup_modify] at hj
  split at hj
  · rename_i hji
    subst hji
    obtain ⟨r₀, hr₀, rfl⟩ := Option.map_eq_some_iff.mp hj
    exact hf r₀ hr₀ X hX
  · exact strong_of_stream hj hX

/-- A change that leaves what the stream holds is quiet. -/
theorem Quiet.setStream_refs (i : StreamId) (f : StreamHandle → StreamHandle)
    (hf : ∀ r b, (f r).refs b = r.refs b) : Quiet s (s.setStream i f) := by
  apply Quiet.setStream
  intro r hr X hX
  rw [hf] at hX
  exact strong_of_stream hr hX

/-- Opening a stream on a held session is quiet. -/
theorem Quiet.openStream {X : SessionId} (hX : s.Strong X) (lane : LaneClass) :
    Quiet s (s.openStream X lane) := by
  refine .of_streams rfl rfl (.refl _) rfl rfl
    (.modify X _ .refl fun _ _ => ⟨rfl, rfl, rfl, rfl, id, Iff.rfl, id⟩)
    (fun _ hv => strong_of_visitor (s := s) hv) ?_
  intro j r hj Y hY
  simp only [Connector.openStream, HashMap.lookup_insert_eq] at hj
  split at hj
  · obtain rfl := Option.some.inj hj
    obtain rfl : Y = X := by simpa [StreamHandle.refs] using hY
    exact hX
  · exact strong_of_stream hj hY

/-- The loop goes on in its work list. -/
theorem Quiet.setArm {arm : Arm} (harm : arm.coarse = s.loop.arm.coarse)
    (hstreams : ∀ i r, s.streams.lookup i = some r →
      ∀ X ∈ r.refs (arm.borrowed = some i), s.Strong X) : Quiet s (s.setArm arm) :=
  .of_streams rfl rfl ⟨rfl, rfl, rfl, rfl, rfl, rfl, rfl, rfl⟩ harm rfl .refl
    (fun _ hv => strong_of_visitor (s := s) hv) hstreams

/-- The loop goes on without a stream. -/
theorem Quiet.setArm_none {arm : Arm} (harm : arm.coarse = s.loop.arm.coarse)
    (hnone : arm.borrowed = none) : Quiet s (s.setArm arm) := by
  refine .setArm harm fun i r hi X hX => ?_
  rw [hnone] at hX
  exact strong_of_stream hi (r.refs_subset (by simpa using hX))

/-- Other tables change. -/
theorem Quiet.setLoop (f : Loop → Loop) (htables : SameTables s.loop (f s.loop))
    (harm : (f s.loop).arm = s.loop.arm) : Quiet s (s.setLoop f) := by
  refine .of_streams rfl rfl htables (congrArg Arm.coarse harm) rfl .refl
    (fun _ hv => strong_of_visitor (s := s) hv) ?_
  intro i r hi X hX
  change X ∈ r.refs ((f s.loop).arm.borrowed = some i) at hX
  rw [harm] at hX
  exact strong_of_stream hi hX

/-- Answering a request is quiet. -/
theorem Quiet.respond {X : SessionId} (hX : s.Strong X) (request : StreamRequest) :
    Quiet s (s.respond X request) := by
  unfold Connector.respond
  split
  · exact .refl s
  · exact (Quiet.openStream hX _).trans
      (.setLoop _ ⟨rfl, rfl, rfl, rfl, rfl, rfl, rfl, rfl⟩ rfl)

end Primitives

/-! ## The steps of a stream are quiet -/

section Streams

variable {s : Connector}

/-- A step of `rebind_one` is quiet. -/
theorem Quiet.rebindOne {i : StreamId} {r : StreamHandle} {new : SessionId} (hnew : s.Strong new)
    (hi : s.streams.lookup i = some r) (pc : RebindPc) :
    Quiet s (s.rebindOne i r new pc).1 := by
  cases pc with
  | offer =>
    simp only [Connector.rebindOne]
    split
    · exact .setStream_refs i _ fun _ _ => rfl
    · exact .refl s
  | guard => exact .takeGuard new
  | assign =>
    refine (Quiet.dropGuard r.guard).trans (.setStream i _ ?_)
    intro r' hr' X hX
    obtain rfl : r = r' := Option.some.inj (hi.symm.trans hr')
    -- the guard is the new session, and what the call of `track` holds it still holds
    have hcases : X = new ∨ X ∈ r.refs (s.loop.arm.borrowed = some i) := by
      unfold StreamHandle.refs at hX ⊢
      grind
    rcases hcases with rfl | hX
    · exact hnew.mono (fun Y hY => .root hY) fun p Y hp => by
        rwa [HeapStep.link (Quiet.dropGuard (s := s) r.guard).heap]
    · exact strong_of_stream hr' hX
  | register => exact .trackOn new i

/-- A step of `latest_generation` is quiet: the successor of a held session is held. -/
theorem Quiet.seekStep {i : StreamId} {r : StreamHandle} {session newest cursor : SessionId}
    {hops : Nat} (hi : s.streams.lookup i = some r)
    (hphase : r.phase = .tracking session (.seek newest cursor hops)) :
    Quiet s (s.seekStep i session newest cursor hops) := by
  have hrefs : ∀ b, r.refs b = [r.guard, session, newest, cursor] := by
    intro b
    simp [StreamHandle.refs, hphase, TrackPc.locals]
  have hheld : ∀ X ∈ [r.guard, session, newest, cursor], s.Strong X :=
    fun X hX => strong_of_stream hi (by rwa [hrefs])
  have hlookup : ∀ {r'}, s.streams.lookup i = some r' → r' = r :=
    fun hr' => Option.some.inj (hr'.symm.trans hi)
  have hplace : Quiet s (s.setPhase i (.tracking session (.place newest))) := by
    refine .setStream i _ fun r' hr' X hX => ?_
    obtain rfl := hlookup hr'
    simp only [StreamHandle.refs, TrackPc.locals] at hX
    exact hheld X (by grind)
  cases hops with
  | zero => exact hplace
  | succ hops =>
    simp only [Connector.seekStep]
    split
    · exact hplace
    · rename_i next hnext
      have hheldNext : s.Strong next := .link (hheld cursor (by simp)) hnext
      split
      · refine .setStream i _ fun r' hr' X hX => ?_
        obtain rfl := hlookup hr'
        simp only [StreamHandle.refs, TrackPc.locals] at hX
        grind
      · refine .setStream i _ fun r' hr' X hX => ?_
        obtain rfl := hlookup hr'
        simp only [StreamHandle.refs, TrackPc.locals] at hX
        grind

/-- A stream that was being registered is registered, or goes on being so with the same
references. -/
theorem Quiet.setPhase_tracking {i : StreamId} {r : StreamHandle} {session : SessionId}
    {pc : TrackPc} {phase : StreamPhase} (hi : s.streams.lookup i = some r)
    (hphase : r.phase = .tracking session pc)
    (hsub : ∀ X ∈ (StreamHandle.refs { r with phase := phase } false), X ∈ r.refs false)
    (hnot : phase ≠ .dropped) : Quiet s (s.setPhase i phase) := by
  refine .setStream i _ fun r' hr' X hX => ?_
  obtain rfl : r' = r := Option.some.inj (hr'.symm.trans hi)
  rw [StreamHandle.refs_eq _ hnot _ false] at hX
  exact strong_of_stream hi (r'.refs_subset (hsub X hX))

/-- The record of a stream after a step of `rebind_one`. -/
theorem rebindOne_lookup {i : StreamId} {r : StreamHandle} (new : SessionId)
    (hi : s.streams.lookup i = some r) (pc : RebindPc) :
    ∃ r', (s.rebindOne i r new pc).1.streams.lookup i = some r' ∧ r'.phase = r.phase ∧
      (r'.guard = r.guard ∨ r'.guard = new) := by
  cases pc with
  | offer =>
    simp only [Connector.rebindOne]
    split
    · refine ⟨{ r with lastSent := new }, ?_, rfl, .inl rfl⟩
      simp [Connector.setStream, HashMap.lookup_modify, hi]
    · exact ⟨r, hi, rfl, .inl rfl⟩
  | guard => exact ⟨r, hi, rfl, .inl rfl⟩
  | assign =>
    refine ⟨{ r with guard := new }, ?_, rfl, .inr rfl⟩
    simp [Connector.rebindOne, Connector.setStream, Connector.dropGuard, HashMap.lookup_modify, hi]
  | register => exact ⟨r, hi, rfl, .inl rfl⟩

/-- A step of `StreamRebind::track` is quiet. -/
theorem Quiet.trackStep {i : StreamId} {r : StreamHandle} {session : SessionId} {pc : TrackPc}
    (hi : s.streams.lookup i = some r) (hphase : r.phase = .tracking session pc) :
    Quiet s (s.trackStep i r session pc) := by
  have hrefs : r.refs false = r.guard :: session :: pc.locals := by
    simp [StreamHandle.refs, hphase]
  have htracked : Quiet s ((s.trackOn session i).setPhase i .tracked) := by
    refine (Quiet.trackOn session i).trans (.setPhase_tracking hi hphase ?_ (by simp))
    intro X hX
    rw [hrefs]
    simp only [StreamHandle.refs, List.mem_singleton] at hX
    simp [hX]
  cases pc with
  | current =>
    simp only [Connector.trackStep]
    split
    · refine .setPhase_tracking hi hphase ?_ (by simp)
      intro X hX
      rw [hrefs]
      simp only [StreamHandle.refs, TrackPc.locals] at hX ⊢
      grind
    · exact htracked
  | seek newest cursor hops => exact .seekStep hi hphase
  | place live =>
    simp only [Connector.trackStep]
    split
    · exact htracked
    · refine .setPhase_tracking hi hphase ?_ (by simp)
      intro X hX
      rw [hrefs]
      exact hX
  | rebind live pc =>
    have hlive : s.Strong live :=
      strong_of_stream hi (r.refs_subset (by rw [hrefs]; simp [TrackPc.locals]))
    have hone := Quiet.rebindOne hlive hi pc
    obtain ⟨r', hi', hphase', -⟩ := rebindOne_lookup live hi pc
    rw [hphase] at hphase'
    have hrefs' : r'.refs false = r'.guard :: session :: [live] := by
      simp [StreamHandle.refs, hphase', TrackPc.locals]
    simp only [Connector.trackStep]
    split
    · rename_i s₁ pc' heq
      rw [heq] at hone hi'
      refine hone.trans (.setPhase_tracking hi' hphase' ?_ (by simp))
      intro X hX
      rw [hrefs']
      exact hX
    · rename_i s₁ heq
      rw [heq] at hone hi'
      refine hone.trans (.setPhase_tracking hi' hphase' ?_ (by simp))
      intro X hX
      rw [hrefs']
      simp only [StreamHandle.refs, List.mem_singleton] at hX
      simp [hX]

theorem Quiet.of_track {s' : Connector} {i : StreamId} (h : s.track i = some s') :
    Quiet s s' := by
  unfold Connector.track at h
  split at h
  · rename_i r hi
    split at h
    · rename_i session pc hphase
      obtain rfl := Option.some.inj h
      exact .trackStep hi hphase
    · cases h
  · cases h

theorem Quiet.of_intoStream {s' : Connector} {i : StreamId} (h : s.intoStream i = some s') :
    Quiet s s' := by
  unfold Connector.intoStream at h
  split at h
  · rename_i r hi
    split at h
    · rename_i hopened
      obtain rfl := Option.some.inj h
      refine .setStream i _ fun r' hr' X hX => ?_
      obtain rfl : r' = r := Option.some.inj (hr'.symm.trans hi)
      have hX : X = r'.guard := by simpa [StreamHandle.refs, TrackPc.locals] using hX
      exact strong_of_stream hi (hX ▸ r'.guard_mem_refs (by simp [hopened]) _)
    · cases h
  · cases h

/-- Dropping a stream is quiet: it only lets go. -/
theorem Quiet.of_dropStream {s' : Connector} {i : StreamId} (h : s.dropStream i = some s') :
    Quiet s s' := by
  unfold Connector.dropStream at h
  split at h
  · rename_i r hi
    have hdrop : ∀ {s₁ : Connector}, Quiet s s₁ → s₁.streams.lookup i = some r →
        r.phase ≠ .dropped → Quiet s (s₁.setPhase i .dropped) := by
      intro s₁ hq hi₁ hphase
      refine hq.trans (.setStream i _ fun r' hr' X hX => ?_)
      obtain rfl : r' = r := Option.some.inj (hr'.symm.trans hi₁)
      refine strong_of_stream hi₁ ?_
      simp only [StreamHandle.refs] at hX
      split at hX
      · obtain rfl := List.mem_singleton.mp hX
        exact r'.guard_mem_refs hphase _
      · cases hX
    split at h
    · rename_i hphase
      obtain rfl := Option.some.inj h
      exact hdrop (.dropGuard _) hi (by simp [hphase])
    · rename_i hphase
      split at h
      · obtain rfl := Option.some.inj h
        exact .setStream_refs i _ fun _ _ => rfl
      · split at h <;> obtain rfl := Option.some.inj h
        · exact hdrop (.refl s) hi (by simp [hphase])
        · exact hdrop (.dropGuard _) hi (by simp [hphase])
    · cases h
  · cases h

theorem Quiet.of_writerEnds {s' : Connector} {i : StreamId} (h : s.writerEnds i = some s') :
    Quiet s s' := by
  unfold Connector.writerEnds at h
  split at h
  · split at h
    · cases h
    · obtain rfl := Option.some.inj h
      exact .setStream_refs i _ fun _ _ => rfl
  · cases h

end Streams

/-! ## The steps of a caller are quiet -/

/-- A call only finds what is held. -/
theorem Connector.strong_of_visited {s : Connector} {visit : Visit} {X : SessionId}
    (h : s.visited visit = some X) : s.Strong X := by
  cases visit with
  | liveSession addr => exact strong_of_mapped h
  | requestRedial addr => exact Refs.live_of_isLive (Option.filter_eq_some_iff.mp h).2
  | view session =>
    simp only [visited] at h
    split at h
    · rename_i hview
      obtain rfl := Option.some.inj h
      exact Refs.live_of_isLive hview.2
    · cases h

theorem Quiet.of_visit {s s' : Connector} {visit : Visit} (h : s.visit visit = some s') :
    Quiet s s' := by
  obtain ⟨X, hX, rfl⟩ := Option.map_eq_some_iff.mp h
  refine .of_streams rfl rfl (.refl _) rfl rfl .refl ?_
    fun _ _ hi _ hr => strong_of_stream hi hr
  intro Y hY
  rcases List.mem_cons.mp hY with rfl | hY
  · exact strong_of_visited hX
  · exact strong_of_visitor hY

theorem Quiet.of_leave {s s' : Connector} {X : SessionId} (h : s.leave X = some s') :
    Quiet s s' := by
  unfold Connector.leave at h
  split at h
  · obtain rfl := Option.some.inj h
    exact .of_streams rfl rfl (.refl _) rfl rfl .refl
      (fun _ hY => strong_of_visitor (List.mem_of_mem_erase hY))
      fun _ _ hi _ hr => strong_of_stream hi hr
  · cases h

/-! ## The steps of a watcher are quiet -/

theorem Quiet.of_supervisorEnds {s s' : Connector} {X : SessionId}
    (h : s.supervisorEnds X = some s') : Quiet s s' := by
  unfold Connector.supervisorEnds at h
  split at h
  · rename_i x hx
    split at h
    · rename_i hrunning
      obtain rfl := Option.some.inj h
      refine .setSession X _ fun y hy => ?_
      obtain rfl : x = y := Option.some.inj (hx.symm.trans hy)
      exact ⟨rfl, rfl, rfl, rfl, id, by simp [hrunning], fun _ => rfl⟩
    · cases h
  · cases h

/-- The watcher's steps are quiet until it reports. -/
theorem Quiet.of_watcherStep {s s' : Connector} {X : SessionId} (h : s.watcherStep X = some s') :
    Quiet s s' := by
  unfold Connector.watcherStep at h
  split at h
  · rename_i x hx
    -- a watcher that is running or lingering moves on
    have hmove : ∀ w : Watcher, x.watcher ≠ .reaped → x.watcher ≠ .finished → w ≠ .reaped →
        Quiet s (s.setSession X fun x => { x with watcher := w }) := by
      intro w hreaped hfinished hw
      refine .setSession X _ fun y hy => ?_
      obtain rfl : x = y := Option.some.inj (hx.symm.trans hy)
      exact ⟨rfl, rfl, rfl, rfl, id, by simp [hw, hreaped], fun hf => absurd hf hfinished⟩
    split at h
    · rename_i hrunning
      split at h
      · obtain rfl := Option.some.inj h
        exact hmove _ (by simp [hrunning]) (by simp [hrunning]) (by simp)
      · split at h
        · cases h
        · obtain rfl := Option.some.inj h
          exact hmove _ (by simp [hrunning]) (by simp [hrunning]) (by simp)
    · rename_i hlingering
      obtain rfl := Option.some.inj h
      exact hmove _ (by simp [hlingering]) (by simp [hlingering]) (by simp)
    · cases h
  · cases h

end RtpMux

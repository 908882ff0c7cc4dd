import RtpMux.ConnectorQuiet

/-!
# What a step of the connector does

`ConnectorStep` lists the moments at which the loop changes its tables, each with the guard it was
taken under; every other step is quiet. `ConnectorStep.of_step` is the only place where all events
are taken apart.

A dead session stays dead: a `Weak` that cannot be upgraded never can be again. This is
`ConnectorStep.strong`, and it is what the gate of the `Redial` command relies on.

`Addressed` collects what is true of identities: every reference names a session that exists,
and sessions of one address are only ever succeeded by sessions of that address.
-/

namespace RtpMux

open Connector

/-! ## Every step -/

/-- The session a finished dial was a redial of. -/
def Connector.redialedOld (s : Connector) (addr : SocketAddr) : Option SessionId :=
  (s.loop.redials.lookup addr).map (·.old)

/-- The connector after a dial of a known group succeeded. -/
def Connector.installed (s : Connector) (dial : Dial) (group : AddrGroup) : Connector :=
  { s with
    heap := s.heap.insert s.nextSession
      ⟨dial.addr, dial.token, dial.key, true, 0, [], none, false, .running⟩
    nextSession := s.nextSession + 1
    loop := removeDial dial { s.loop with
      groups := s.loop.groups.insert dial.addr
        { group with sessions := group.sessions.filter s.strong ++ [s.nextSession] }
      arm := .completing dial.addr s.nextSession (s.redialedOld dial.addr) .rebind } }

/-- The connector after a watcher was joined, before it prunes. -/
def Connector.unmapped (s : Connector) (session : SessionId) (x : Session) : Connector :=
  { s with
    heap := s.heap.modify session fun x => { x with watcher := .reaped }
    sessions := if s.sessions.lookup x.addr = some session then s.sessions.erase x.addr
      else s.sessions }

/-- The address an event starts a dial for. -/
def Connector.startsDial (s : Connector) : ConnectorEvent → Option SocketAddr
  | .connect addr _ _ _ =>
    if s.liveSession addr = none ∧ (s.liveDialWaiters addr).2 < maxDialWaitersPerAddr ∧
      addr ∉ s.loop.inFlightDials ∧ s.loop.pendingDials.length < maxConcurrentDualDials then
      some addr
    else none
  | .redial addr trigger wantsMigration =>
    (s.redialTarget addr trigger wantsMigration).map fun _ => addr
  | _ => none

/-- What a step of the connector does at an event. -/
inductive ConnectorStep (s : Connector) (e : ConnectorEvent) : Connector → Prop where
  | quiet {s' : Connector} : Quiet s s' → ConnectorStep s e s'
  /-- a dial succeeded -/
  | installed (dial : Dial) (group : AddrGroup) :
      s.loop.arm = .select → dial ∈ s.loop.pendingDials →
      s.loop.groups.lookup dial.addr = some group → ConnectorStep s e (s.installed dial group)
  /-- a dial succeeded for which there is no group -/
  | panicked (dial : Dial) :
      s.loop.arm = .select → dial ∈ s.loop.pendingDials →
      s.loop.groups.lookup dial.addr = none →
      ConnectorStep s e
        ((s.installSession dial (s.redialedOld dial.addr)).setLoop (removeDial dial))
  /-- a dial failed -/
  | failed (dial : Dial) (waiters : HashMap SocketAddr (List StreamRequest))
      (answers : List (ResponseId × Except ConnectError StreamId)) :
      (∃ error, e = .dialDone dial (.error error)) →
      s.loop.arm = .select → dial ∈ s.loop.pendingDials →
      ConnectorStep s e (s.setLoop fun l =>
        { removeDial dial l with
          dialWaiters := waiters
          answers := answers
          arm := .failing dial.addr (s.redialedOld dial.addr) })
  /-- the dead addresses are pruned after a failed dial -/
  | pruned (addr : SocketAddr) (old : Option SessionId) :
      e = .advance → s.loop.arm = .failing addr old →
      ConnectorStep s e (s.pruneDeadAddresses.setArm .select)
  /-- the critical section of `rebind_streams` -/
  | drained (addr : SocketAddr) (session old : SessionId) :
      s.loop.arm = .completing addr session (some old) .rebind →
      ConnectorStep s e ((s.drain old session).setArm (.completing addr session (some old)
        (.move (((s.heap.lookup old).map (·.streams)).getD []))))
  /-- `rebind_streams` is over, or there is nothing to rebind -/
  | retired (addr : SocketAddr) (session : SessionId) (old : Option SessionId) (stage : Stage) :
      s.loop.arm = .completing addr session old stage → stage = .rebind ∨ stage = .move [] →
      ConnectorStep s e (s.retire addr session old)
  /-- the new session enters the map -/
  | mapped (addr : SocketAddr) (session : SessionId) (old : Option SessionId) :
      s.loop.arm = .completing addr session old (.answer []) →
      ConnectorStep s e { s.setArm .select with sessions := s.sessions.insert addr session }
  /-- a watcher is joined -/
  | reaped (session : SessionId) (x : Session) :
      e = .reap session →
      s.heap.lookup session = some x → s.loop.arm = .select → x.watcher = .finished →
      ConnectorStep s e (s.unmapped session x).pruneDeadAddresses
  /-- `Connect` starts a dial -/
  | dialled (addr : SocketAddr) (key : Option ObfuscationKey) (l : Loop) :
      (∃ lane response, e = .connect addr lane key response) → s.startsDial e = some addr →
      s.loop.arm = .select → addr ∉ s.loop.inFlightDials →
      s.loop.pendingDials.length < maxConcurrentDualDials →
      SameTables s.loop l → l.arm = .select →
      ConnectorStep s e (s.setLoop fun _ =>
        startDial addr key { l with addrKeys := l.addrKeys.insert addr key })
  /-- `Redial` starts a dial -/
  | redialled (addr : SocketAddr) (trigger : RedialTrigger) (wantsMigration : Bool)
      (old : SessionId) :
      e = .redial addr trigger wantsMigration → s.startsDial e = some addr →
      s.loop.arm = .select → s.redialTarget addr trigger wantsMigration = some old →
      ConnectorStep s e (s.setLoop fun l =>
        startDial addr ((l.addrKeys.lookup addr).getD none)
          { l with redials := l.redials.insert addr ⟨old, trigger⟩ })
  | reset {s' : Connector} : s.loop.arm = .select → s.reset = some s' → ConnectorStep s e s'

/-- A session that is found alive in the map is held. -/
theorem Connector.liveSession_eq_some {s : Connector} {addr : SocketAddr} {X : SessionId}
    (h : s.liveSession addr = some X) : s.sessions.lookup addr = some X ∧ s.isAlive X = true :=
  Option.filter_eq_some_iff.mp h

/-- What it takes for a redial to be admitted. -/
theorem Connector.redialTarget_eq_some {s : Connector} {addr : SocketAddr}
    {trigger : RedialTrigger} {wantsMigration : Bool} {old : SessionId}
    (h : s.redialTarget addr trigger wantsMigration = some old) :
    s.sessions.lookup addr = some old ∧ addr ∉ s.loop.inFlightDials ∧
      s.loop.pendingDials.length < maxConcurrentDualDials ∧
      ∀ X, s.draining.lookup addr = some X → s.strong X = false := by
  unfold redialTarget at h
  split at h
  · cases h
  · rename_i hgate
    split at h
    · cases h
    · rename_i hroom
      split at h
      · cases h
      · simp only [Bool.or_eq_true, decide_eq_true_eq, not_or] at hgate
        refine ⟨h, hgate.2, Nat.lt_of_not_le hroom, fun X hX => ?_⟩
        simpa [hX] using hgate.1

/-- What the loop does with one stream of its work list is quiet. -/
theorem ConnectorStep.of_one {s s' : Connector} {addr : SocketAddr} {session : SessionId}
    {old : Option SessionId} {i : StreamId} {pc : RebindPc} {todo : List StreamId}
    (harm : s.loop.arm = .completing addr session old (.one i pc todo))
    (h : s.completeStep addr session old (.one i pc todo) = some s') : Quiet s s' := by
  have hsession : s.Strong session := strong_of_arm (by simp [harm, Arm.locals])
  simp only [Connector.completeStep] at h
  split at h
  · rename_i r hi
    have hone := Quiet.rebindOne hsession hi pc
    have hcoarse : (s.rebindOne i r session pc).1.loop.arm.coarse =
        .completing addr session old (.move []) := by
      rw [hone.arm, harm]
      rfl
    split at h
    · rename_i s₁ pc' heq
      rw [heq] at hone hcoarse
      obtain rfl := Option.some.inj h
      have harm₁ : s₁.loop.arm = s.loop.arm := by
        have : (s.rebindOne i r session pc).1.loop.arm = s.loop.arm := by
          cases pc <;> simp only [Connector.rebindOne] <;> first | rfl | (split <;> rfl)
        rwa [heq] at this
      refine hone.trans (.setArm ?_ ?_)
      · exact hcoarse.symm
      · intro j r' hj X hX
        refine strong_of_stream hj ?_
        rwa [harm₁, harm]
    · rename_i s₁ heq
      rw [heq] at hone hcoarse
      obtain rfl := Option.some.inj h
      have hrelease : Quiet s₁ (s₁.releaseStream i) := by
        unfold Connector.releaseStream
        split
        · split
          · exact .dropGuard _
          · exact .refl _
        · exact .refl _
      refine (hone.trans hrelease).trans (.setArm_none ?_ rfl)
      rw [hrelease.arm, hcoarse]
      rfl
  · cases h

/-- The stages of a finished dial. -/
theorem ConnectorStep.of_completeStep {s s' : Connector} {addr : SocketAddr}
    {session : SessionId} {old : Option SessionId} {stage : Stage}
    (harm : s.loop.arm = .completing addr session old stage)
    (h : s.completeStep addr session old stage = some s') (e : ConnectorEvent) :
    ConnectorStep s e s' := by
  have hsession : s.Strong session := strong_of_arm (by simp [harm, Arm.locals])
  cases stage with
  | rebind =>
    simp only [Connector.completeStep] at h
    split at h
    · obtain rfl := Option.some.inj h
      exact .retired addr session none .rebind harm (.inl rfl)
    · rename_i o
      split at h <;> obtain rfl := Option.some.inj h
      · exact .drained addr session o harm
      · exact .retired addr session (some o) .rebind harm (.inl rfl)
  | move todo =>
    cases todo with
    | nil =>
      obtain rfl := Option.some.inj h
      exact .retired addr session old (.move []) harm (.inr rfl)
    | cons i todo =>
      simp only [Connector.completeStep] at h
      split at h <;> obtain rfl := Option.some.inj h
      · rename_i hstrong
        refine .quiet (.setArm (by rw [harm]; rfl) fun j r hj X hX => strong_of_stream hj ?_)
        by_cases hji : j = i
        · -- the stream could be upgraded, so its owner holds it
          subst hji
          have hphase : r.phase ≠ .dropped := by
            intro hdropped
            simp [Connector.streamStrong, harm, Arm.borrowed, hj, hdropped,
              StreamPhase.isRebind] at hstrong
          rwa [r.refs_eq hphase _ (decide ((Arm.completing addr session old
            (.one j .offer todo)).borrowed = some j))]
        · refine r.refs_subset ?_
          simpa [Arm.borrowed, Ne.symm hji] using hX
      · exact .quiet (.setArm_none (by rw [harm]; rfl) rfl)
  | one i pc todo => exact .quiet (of_one harm h)
  | answer waiters =>
    cases waiters with
    | nil =>
      obtain rfl := Option.some.inj h
      exact .mapped addr session old harm
    | cons request waiters =>
      obtain rfl := Option.some.inj h
      have hq := Quiet.respond hsession request
      refine .quiet (hq.trans (.setArm_none ?_ rfl))
      rw [hq.arm, harm]
      rfl

/-- A step of the arm that the loop is in. -/
theorem ConnectorStep.of_advance {s s' : Connector} (h : s.advance = some s') :
    ConnectorStep s .advance s' := by
  unfold Connector.advance at h
  split at h
  · rename_i addr session old stage harm
    exact of_completeStep harm h .advance
  · rename_i addr old harm
    obtain rfl := Option.some.inj h
    exact .pruned addr old rfl harm
  · cases h

/-- A dial that ends, with a session or without. -/
theorem ConnectorStep.of_dialDone {s s' : Connector} {dial : Dial}
    {result : Except ConnectError Unit} (h : s.dialDone dial result = some s') :
    ConnectorStep s (.dialDone dial result) s' := by
  unfold Connector.dialDone at h
  split at h
  · rename_i hguard
    obtain ⟨harm, hdial⟩ := hguard
    split at h
    · obtain rfl := Option.some.inj h
      cases hgroup : s.loop.groups.lookup dial.addr with
      | none => exact .panicked dial harm hdial hgroup
      | some group =>
        have heq : (s.installSession dial (s.redialedOld dial.addr)).setLoop (removeDial dial) =
            s.installed dial group := by
          simp only [installSession, hgroup, Connector.installed, setLoop]
        exact heq ▸ .installed dial group harm hdial hgroup
    · obtain rfl := Option.some.inj h
      exact .failed dial _ _ ⟨_, rfl⟩ harm hdial
  · cases h

/-- A request for a stream: it is answered, it waits for a dial, or it starts one. -/
theorem ConnectorStep.of_connect {s s' : Connector} {addr : SocketAddr} {lane : LaneClass}
    {key : Option ObfuscationKey} {response : ResponseId}
    (h : s.connect addr lane key response = some s') :
    ConnectorStep s (.connect addr lane key response) s' := by
  unfold Connector.connect at h
  split at h
  · rename_i hguard
    obtain ⟨harm, -⟩ := hguard
    have hreceived : Quiet s (s.setLoop fun l => { l with received := response :: l.received }) :=
      .setLoop _ ⟨rfl, rfl, rfl, rfl, rfl, rfl, rfl, rfl⟩ rfl
    simp only at h
    split at h
    · rename_i session hlive
      obtain rfl := Option.some.inj h
      exact .quiet (hreceived.trans
        (.respond (strong_of_mapped (liveSession_eq_some hlive).1) _))
    · rename_i hlive
      -- the requests change, and nothing else does
      have hwaiters : ∀ f : Loop → Loop, (∀ l, SameTables l (f l)) → (∀ l, (f l).arm = l.arm) →
          Quiet s (((s.setLoop fun l => { l with received := response :: l.received
                    }).liveDialWaiters addr).1.setLoop f) := fun f hf harm' =>
        (hreceived.trans (.setLoop _ ⟨rfl, rfl, rfl, rfl, rfl, rfl, rfl, rfl⟩ rfl)).trans
          (.setLoop _ (hf _) (harm' _))
      split at h
      · obtain rfl := Option.some.inj h
        exact .quiet (hwaiters _ (fun _ => ⟨rfl, rfl, rfl, rfl, rfl, rfl, rfl, rfl⟩) fun _ => rfl)
      · rename_i hwaiting
        split at h
        · obtain rfl := Option.some.inj h
          exact .quiet (hwaiters _ (fun _ => ⟨rfl, rfl, rfl, rfl, rfl, rfl, rfl, rfl⟩)
            fun _ => rfl)
        · rename_i hfree
          split at h <;> obtain rfl := Option.some.inj h
          · exact .quiet (hwaiters _ (fun _ => ⟨rfl, rfl, rfl, rfl, rfl, rfl, rfl, rfl⟩)
              fun _ => rfl)
          · rename_i hroom
            have hstart : s.startsDial (.connect addr lane key response) = some addr :=
              if_pos ⟨hlive, Nat.lt_of_not_le hwaiting, hfree, Nat.lt_of_not_le hroom⟩
            exact .dialled addr key _ ⟨lane, response, rfl⟩ hstart harm hfree
              (Nat.lt_of_not_le hroom)
              ⟨rfl, rfl, rfl, rfl, rfl, rfl, rfl, rfl⟩ harm
  · cases h

/-- **What a step does.** -/
theorem ConnectorStep.of_step {s s' : Connector} {e : ConnectorEvent} (h : s.step e = some s') :
    ConnectorStep s e s' := by
  cases e with
  | «open» addr lane =>
    obtain ⟨X, hX, rfl⟩ := Option.map_eq_some_iff.mp h
    exact .quiet (.openStream (strong_of_mapped (liveSession_eq_some hX).1) lane)
  | intoStream i => exact .quiet (.of_intoStream h)
  | track i => exact .quiet (.of_track h)
  | dropStream i => exact .quiet (.of_dropStream h)
  | writerEnds i => exact .quiet (.of_writerEnds h)
  | closeResponse response =>
    obtain rfl := Option.some.inj h
    exact .quiet (.of_streams rfl rfl (.refl _) rfl rfl .refl
      (fun _ hv => strong_of_visitor (s := s) hv)
      fun _ _ hi _ hr => strong_of_stream hi hr)
  | probeSession addr =>
    obtain rfl := Option.some.inj h
    exact .quiet (.of_streams rfl rfl (.refl _) rfl rfl .refl
      (fun _ hv => strong_of_visitor (s := s) hv)
      fun _ _ hi _ hr => strong_of_stream hi hr)
  | visit visit => exact .quiet (.of_visit h)
  | leave X => exact .quiet (.of_leave h)
  | openerDies X =>
    obtain rfl := Option.some.inj h
    exact .quiet (.setSession X _ fun _ _ =>
      ⟨rfl, rfl, rfl, rfl, fun hx => absurd hx (by simp), Iff.rfl, id⟩)
  | supervisorEnds X => exact .quiet (.of_supervisorEnds h)
  | watcher X => exact .quiet (.of_watcherStep h)
  | reap X =>
    simp only [Connector.step, Connector.reap] at h
    split at h
    · rename_i x hx
      split at h
      · rename_i hguard
        obtain rfl := Option.some.inj h
        exact .reaped X x rfl hx hguard.1 hguard.2
      · cases h
    · cases h
  | dialDone dial result => exact of_dialDone h
  | advance => exact of_advance h
  | connect addr lane key response => exact of_connect h
  | redial addr trigger wantsMigration =>
    simp only [Connector.step, Connector.redial] at h
    split at h
    · rename_i harm
      split at h <;> obtain rfl := Option.some.inj h
      · exact .quiet (.refl s)
      · rename_i old htarget
        exact .redialled addr trigger wantsMigration old rfl (by simp [startsDial, htarget]) harm
          htarget
    · cases h
  | explorerReport addr =>
    simp only [Connector.step] at h
    split at h
    · obtain rfl := Option.some.inj h
      exact .quiet (.refl s)
    · cases h
  | reset =>
    have harm : s.loop.arm = .select := by
      by_contra harm
      simp [Connector.step, Connector.reset, harm] at h
    exact .reset harm h

/-! ## Dead sessions stay dead -/

@[simp] theorem addrOf_setLoop (s : Connector) (f : Loop → Loop) :
    (s.setLoop f).addrOf = s.addrOf := rfl

/-- The table of redials holds the session it replaces. -/
theorem Connector.redialedOld_strong {s : Connector} {addr : SocketAddr} {X : SessionId}
    (h : X ∈ (s.redialedOld addr).toList) : s.Strong X := by
  rw [Option.mem_toList, redialedOld, Option.map_eq_some_iff] at h
  obtain ⟨r, hr, rfl⟩ := h
  exact strong_of_redial hr

theorem Connector.link_insert {s s' : Connector} {x : Session}
    (hheap : s'.heap = s.heap.insert s.nextSession x) (X : SessionId) :
    s'.link X = if X = s.nextSession then x.successor else s.link X := by
  simp only [Connector.link, hheap, HashMap.lookup_insert_eq]
  split <;> rfl

theorem Connector.addrOf_insert {s s' : Connector} {x : Session}
    (hheap : s'.heap = s.heap.insert s.nextSession x) (X : SessionId) :
    s'.addrOf X = if X = s.nextSession then some x.addr else s.addrOf X := by
  simp only [Connector.addrOf, hheap, HashMap.lookup_insert_eq]
  split <;> rfl

/-- Draining links the old session to the new one, and no other. -/
theorem Connector.link_drain {s : Connector} {old session : SessionId} (X : SessionId) :
    (s.drain old session).link X =
      if X = old ∧ s.heap.lookup old ≠ none then some session else s.link X := by
  simp only [Connector.link, drain, HashMap.lookup_modify]
  by_cases hX : X = old
  · subst hX
    cases hx : s.heap.lookup X <;> simp
  · simp [hX]

theorem Connector.addrOf_drain {s : Connector} {old session : SessionId} (X : SessionId) :
    (s.drain old session).addrOf X = s.addrOf X := by
  simp only [Connector.addrOf, drain, HashMap.lookup_modify]
  split
  · rw [Option.map_map]
    rfl
  · rfl

theorem Connector.link_modify {s s' : Connector} {Y : SessionId} {f : Session → Session}
    (hheap : s'.heap = s.heap.modify Y f) (hf : ∀ x, (f x).successor = x.successor) :
    s'.link = s.link := by
  funext X
  simp only [Connector.link, hheap, HashMap.lookup_modify]
  split
  · cases s.heap.lookup X with
    | none => rfl
    | some x => exact hf x
  · rfl

theorem Connector.addrOf_modify {s s' : Connector} {Y : SessionId} {f : Session → Session}
    (hheap : s'.heap = s.heap.modify Y f) (hf : ∀ x, (f x).addr = x.addr) :
    s'.addrOf = s.addrOf := by
  funext X
  simp only [Connector.addrOf, hheap, HashMap.lookup_modify]
  split
  · cases s.heap.lookup X with
    | none => rfl
    | some x => exact congrArg some (hf x)
  · rfl

theorem Connector.link_unmapped (s : Connector) (session : SessionId) (x : Session) :
    (s.unmapped session x).link = s.link :=
  link_modify rfl fun _ => rfl

theorem Connector.addrOf_unmapped (s : Connector) (session : SessionId) (x : Session) :
    (s.unmapped session x).addrOf = s.addrOf :=
  addrOf_modify rfl fun _ => rfl

/-- Joining a watcher only takes from the map. -/
theorem Connector.lookup_unmapped {s : Connector} {session X : SessionId} {x : Session}
    {a : SocketAddr} (ha : (s.unmapped session x).sessions.lookup a = some X) :
    s.sessions.lookup a = some X := by
  simp only [unmapped] at ha
  split at ha
  · rw [HashMap.lookup_erase_eq] at ha
    split at ha
    · cases ha
    · exact ha
  · exact ha

/-- Marking sessions changes neither their addresses nor their successors. -/
theorem Connector.reset_eq {s s' : Connector} (h : s.reset = some s') :
    s'.sessions = ∅ ∧ s'.draining = ∅ ∧ s'.streams = s.streams ∧ s'.nextSession = s.nextSession ∧
      s'.heap = HashMap.mapVal (fun session x =>
        if session ∈ s.resetKills then { x with killed := true } else x) s.heap ∧
      s'.loop.redials = ∅ ∧ s'.loop.groups = ∅ ∧ s'.loop.pendingDials = [] ∧
      s'.loop.inFlightDials = ∅ ∧ s'.loop.explorers = ∅ ∧ s'.loop.nextToken = s.loop.nextToken ∧
      s'.loop.arm = s.loop.arm := by
  unfold reset at h
  split at h
  · obtain rfl := Option.some.inj h
    exact ⟨rfl, rfl, rfl, rfl, rfl, rfl, rfl, rfl, rfl, rfl, rfl, rfl⟩
  · cases h

theorem Connector.reset_visitors {s s' : Connector} (h : s.reset = some s') :
    s'.visitors = s.visitors := by
  unfold reset at h
  split at h
  · obtain rfl := Option.some.inj h
    rfl
  · cases h

theorem Connector.link_mapVal {s s' : Connector} {f : SessionId → Session → Session}
    (hheap : s'.heap = HashMap.mapVal f s.heap) (hf : ∀ X x, (f X x).successor = x.successor)
    (X : SessionId) : s'.link X = s.link X := by
  simp only [Connector.link, hheap, HashMap.lookup_mapVal]
  cases s.heap.lookup X with
  | none => rfl
  | some x => exact hf X x

theorem Connector.addrOf_mapVal {s s' : Connector} {f : SessionId → Session → Session}
    (hheap : s'.heap = HashMap.mapVal f s.heap) (hf : ∀ X x, (f X x).addr = x.addr)
    (X : SessionId) : s'.addrOf X = s.addrOf X := by
  simp only [Connector.addrOf, hheap, HashMap.lookup_mapVal]
  cases s.heap.lookup X with
  | none => rfl
  | some x => exact congrArg some (hf X x)

/-- References that a change of the tables without a new session can create. -/
theorem Connector.Strong.of_tables {s s' : Connector} {X : SessionId} (h : s'.Strong X)
    (hsessions : ∀ a Y, s'.sessions.lookup a = some Y → s.Strong Y)
    (hredials : ∀ a r, s'.loop.redials.lookup a = some r → s.Strong r.old)
    (harm : ∀ Y ∈ s'.loop.arm.locals, s.Strong Y) (hvisitors : s'.visitors = s.visitors)
    (hstreams : s'.streams = s.streams) (hborrowed : s'.loop.arm.borrowed = none)
    (hlink : ∀ P Y, s'.link P = some Y → s.link P = some Y ∨ s.Strong Y) : s.Strong X := by
  induction h with
  | root hroot =>
    rcases mem_roots.mp hroot with ⟨a, ha⟩ | ⟨a, r, ha, rfl⟩ | hl | hv | ⟨i, r, hi, hr⟩
    · exact hsessions a _ ha
    · exact hredials a r ha
    · exact harm _ hl
    · exact strong_of_visitor (hvisitors ▸ hv)
    · rw [hstreams] at hi
      rw [hborrowed] at hr
      exact strong_of_stream hi (r.refs_subset (by simpa using hr))
  | link _ hl ih =>
    rcases hlink _ _ hl with hl | hstrong
    · exact .link ih hl
    · exact hstrong

/-- What is held after a session is installed. -/
theorem Connector.Strong.of_install {s : Connector} {dial : Dial} {group : AddrGroup}
    {X : SessionId} (h : (s.installed dial group).Strong X) :
    s.Strong X ∨ X = s.nextSession := by
  induction h with
  | root hroot =>
    rcases mem_roots.mp hroot with ⟨a, ha⟩ | ⟨a, r, ha, rfl⟩ | hl | hv | ⟨i, r, hi, hr⟩
    · exact .inl (strong_of_mapped ha)
    · simp only [installed, removeDial, HashMap.lookup_erase_eq] at ha
      split at ha
      · cases ha
      · exact .inl (strong_of_redial ha)
    · simp only [installed, removeDial, Arm.locals, List.mem_cons] at hl
      rcases hl with rfl | hl
      · exact .inr rfl
      · exact .inl (redialedOld_strong hl)
    · exact .inl (strong_of_visitor hv)
    · exact .inl (strong_of_stream hi (r.refs_subset (by
        simpa [installed, removeDial, Arm.borrowed] using hr)))
  | link _ hl ih =>
    rw [link_insert rfl] at hl
    split at hl
    · cases hl
    · rename_i hne
      exact .inl (.link (ih.resolve_right hne) hl)

/-- **A dead session stays dead.** What is held after a step was held before, or is the session
the step created. -/
theorem ConnectorStep.strong {s s' : Connector} {e : ConnectorEvent} (h : ConnectorStep s e s')
    {X : SessionId}
    (hX : s'.Strong X) :
    s.Strong X ∨ X = s.nextSession ∧ s'.nextSession = s.nextSession + 1 := by
  cases h with
  | quiet hq => exact .inl (hq.strong X hX)
  | installed dial group harm hdial hgroup =>
    exact (Strong.of_install hX).imp_right fun hX => ⟨hX, rfl⟩
  | panicked dial harm hdial hgroup =>
    simp only [installSession, hgroup] at hX
    refine .inl (hX.of_tables (fun a Y ha => strong_of_mapped ha) ?_ ?_ rfl rfl rfl
      fun P Y hP => .inl hP)
    · intro a r ha
      simp only [setArm, setLoop, removeDial, HashMap.lookup_erase_eq] at ha
      split at ha
      · cases ha
      · exact strong_of_redial ha
    · simp [setArm, setLoop, removeDial, Arm.locals]
  | failed dial waiters answers he harm hdial =>
    refine .inl (hX.of_tables (fun a Y ha => strong_of_mapped ha) ?_ ?_ rfl rfl rfl
      fun P Y hP => .inl hP)
    · intro a r ha
      simp only [setLoop, removeDial, HashMap.lookup_erase_eq] at ha
      split at ha
      · cases ha
      · exact strong_of_redial ha
    · exact fun Y hY => redialedOld_strong hY
  | pruned addr old he harm =>
    exact .inl (hX.of_tables (fun a Y ha => strong_of_mapped ha)
      (fun a r ha => strong_of_redial ha) (by simp [setArm, setLoop, Arm.locals]) rfl rfl rfl
      fun P Y hP => .inl hP)
  | drained addr session old harm =>
    refine .inl (hX.of_tables (fun a Y ha => strong_of_mapped ha)
      (fun a r ha => strong_of_redial ha) ?_ rfl rfl rfl ?_)
    · intro Y hY
      exact strong_of_arm (by rw [harm]; exact hY)
    · intro P Y hP
      change (s.drain old session).link P = some Y at hP
      rw [link_drain] at hP
      split at hP
      · obtain rfl := Option.some.inj hP
        exact .inr (strong_of_arm (by simp [harm, Arm.locals]))
      · exact .inl hP
  | retired addr session old stage harm hstage =>
    refine .inl (hX.of_tables (fun a Y ha => strong_of_mapped ha)
      (fun a r ha => strong_of_redial ha) ?_ rfl rfl rfl fun P Y hP => .inl hP)
    intro Y hY
    exact strong_of_arm (by rw [harm]; exact hY)
  | mapped addr session old harm =>
    refine .inl (hX.of_tables ?_ (fun a r ha => strong_of_redial ha)
      (by simp [setArm, setLoop, Arm.locals]) rfl rfl rfl fun P Y hP => .inl hP)
    intro a Y ha
    rw [HashMap.lookup_insert_eq] at ha
    split at ha
    · obtain rfl := Option.some.inj ha
      exact strong_of_arm (by simp [harm, Arm.locals])
    · exact strong_of_mapped ha
  | reaped session x he hx harm hfinished =>
    refine .inl (hX.of_tables ?_ (fun a r ha => strong_of_redial ha)
      (fun Y hY => strong_of_arm hY) rfl rfl (by
        simp [pruneDeadAddresses, setLoop, unmapped, harm, Arm.borrowed]) ?_)
    · intro a Y ha
      exact strong_of_mapped (lookup_unmapped ha)
    · intro P Y hP
      exact .inl ((link_unmapped s session x) ▸ hP)
  | dialled addr key l he hstart harm hfree hroom htables harm' =>
    refine .inl (hX.of_tables (fun a Y ha => strong_of_mapped ha) ?_ ?_ rfl rfl ?_
      fun P Y hP => .inl hP)
    · intro a r ha
      simp only [setLoop, startDial, htables.redials] at ha
      exact strong_of_redial ha
    · simp [setLoop, startDial, harm', Arm.locals]
    · simp [setLoop, startDial, harm', Arm.borrowed]
  | redialled addr trigger wantsMigration old he hstart harm htarget =>
    refine .inl (hX.of_tables (fun a Y ha => strong_of_mapped ha) ?_ ?_ rfl rfl ?_
      fun P Y hP => .inl hP)
    · intro a r ha
      simp only [setLoop, startDial, HashMap.lookup_insert_eq] at ha
      split at ha
      · obtain rfl := Option.some.inj ha
        exact strong_of_mapped (redialTarget_eq_some htarget).1
      · exact strong_of_redial ha
    · simp [setLoop, startDial, harm, Arm.locals]
    · simp [setLoop, startDial, harm, Arm.borrowed]
  | reset harm hreset =>
    obtain ⟨hsessions, -, hstreams, -, hheap, hredials, -, -, -, -, -, harm'⟩ := reset_eq hreset
    have hvisitors := reset_visitors hreset
    refine .inl (hX.of_tables ?_ ?_ ?_ hvisitors hstreams (by rw [harm', harm]; rfl) ?_)
    · simp [hsessions]
    · simp [hredials]
    · simp [harm', harm, Arm.locals]
    · intro P Y hP
      rw [link_mapVal hheap (by intro X x; split <;> rfl)] at hP
      exact .inl hP

/-- A step that creates no session holds nothing new. -/
theorem ConnectorStep.strong_old {s s' : Connector} {e : ConnectorEvent}
    (h : ConnectorStep s e s') (hnext : s'.nextSession = s.nextSession) (X : SessionId)
    (hX : s'.Strong X) : s.Strong X := by
  rcases h.strong hX with hX | ⟨-, hnext'⟩
  · exact hX
  · exact absurd (hnext.symm.trans hnext') (Nat.ne_of_lt (Nat.lt_succ_self _))

/-! ## Identities -/

/-- The old and the new session of a redial that is being completed. -/
def Arm.handover : Arm → Option (SessionId × SessionId)
  | .completing _ session old _ => old.map (·, session)
  | _ => none

/-- Every reference names a session that exists and has the right address. -/
structure Addressed (s : Connector) : Prop where
  fresh : ∀ X, s.addrOf X ≠ none → X < s.nextSession
  /-- a successor is younger and has the same address -/
  younger : ∀ X Y, s.link X = some Y → X < Y ∧ s.addrOf Y = s.addrOf X
  held : ∀ X, s.Strong X → s.addrOf X ≠ none
  mapped : ∀ a X, s.sessions.lookup a = some X → s.addrOf X = some a
  draining : ∀ a X, s.draining.lookup a = some X → s.addrOf X = some a
  redial : ∀ a r, s.loop.redials.lookup a = some r → s.addrOf r.old = some a
  arm : ∀ X ∈ s.loop.arm.locals, s.addrOf X = s.loop.arm.addr
  /-- the new session of a redial is younger than the old one -/
  handover : ∀ old new, s.loop.arm.handover = some (old, new) → old < new
  group : ∀ a g, s.loop.groups.lookup a = some g → ∀ X ∈ g.sessions, s.addrOf X = some a

theorem addressed_init (explorerCtx : Bool) : Addressed (Connector.init explorerCtx) where
  fresh := by simp [Connector.init, addrOf]
  younger := by simp [Connector.init, link]
  held := by
    intro X hX
    obtain ⟨z, hz, -⟩ := hX.exists_root
    simp [Connector.init, roots, Arm.locals] at hz
  mapped := by simp [Connector.init]
  draining := by simp [Connector.init]
  redial := by simp [Connector.init]
  arm := by simp [Connector.init, Arm.locals]
  handover := by simp [Connector.init, Arm.handover]
  group := by simp [Connector.init]

/-- What has a successor exists. -/
theorem Connector.addrOf_of_link {s : Connector} {X Y : SessionId} (h : s.link X = some Y) :
    s.addrOf X ≠ none := by
  intro hnone
  simp only [addrOf, Option.map_eq_none_iff] at hnone
  simp [link, hnone] at h

theorem Arm.addr_coarse (arm : Arm) : arm.coarse.addr = arm.addr := by
  unfold Arm.coarse
  split <;> rfl

theorem Arm.handover_coarse (arm : Arm) : arm.coarse.handover = arm.handover := by
  unfold Arm.coarse
  split <;> rfl

namespace Addressed

variable {s : Connector} (h : Addressed s)
include h

/-- There is no session under the next number. -/
theorem addrOf_next : s.addrOf s.nextSession = none := by
  by_contra hne
  exact Nat.lt_irrefl _ (h.fresh _ hne)

/-- A session that is still to be made has no successor. -/
theorem link_next : s.link s.nextSession = none := by
  have hnone := h.addrOf_next
  simp only [addrOf, Option.map_eq_none_iff] at hnone
  simp [link, hnone]

/-- Nobody has the next session as its successor. -/
theorem no_link_next (X : SessionId) : s.link X ≠ some s.nextSession := by
  intro hX
  have haddr := (h.younger X _ hX).2
  rw [h.addrOf_next] at haddr
  exact addrOf_of_link hX haddr.symm

/-- A session with an address is not the next one. -/
theorem ne_next {X : SessionId} (hX : s.addrOf X ≠ none) : X ≠ s.nextSession :=
  fun heq => hX (heq ▸ h.addrOf_next)

/-- `strong_count > 0` says that the session is held. -/
theorem strong_iff {X : SessionId} : s.strong X = true ↔ s.Strong X :=
  Refs.isLive_iff fun p x hp => (h.younger p x hp).1

/-- Identities after a step that creates no session and no successor. -/
theorem of_tables {s' : Connector} (haddr : s'.addrOf = s.addrOf) (hlink : s'.link = s.link)
    (hnext : s'.nextSession = s.nextSession) (hstrong : ∀ X, s'.Strong X → s.Strong X)
    (hmapped : ∀ a X, s'.sessions.lookup a = some X → s.addrOf X = some a)
    (hdraining : ∀ a X, s'.draining.lookup a = some X → s.addrOf X = some a)
    (hredial : ∀ a r, s'.loop.redials.lookup a = some r → s.addrOf r.old = some a)
    (harm : ∀ X ∈ s'.loop.arm.locals, s.addrOf X = s'.loop.arm.addr)
    (hhandover : ∀ p, s'.loop.arm.handover = some p → s.loop.arm.handover = some p)
    (hgroup : ∀ a g, s'.loop.groups.lookup a = some g → ∀ X ∈ g.sessions, s.addrOf X = some a) :
    Addressed s' where
  fresh := by
    rw [haddr, hnext]
    exact h.fresh
  younger := by
    rw [haddr, hlink]
    exact h.younger
  held := by
    rw [haddr]
    exact fun X hX => h.held X (hstrong X hX)
  mapped := haddr ▸ hmapped
  draining := haddr ▸ hdraining
  redial := haddr ▸ hredial
  arm := haddr ▸ harm
  handover := fun old new hp => h.handover old new (hhandover _ hp)
  group := haddr ▸ hgroup

theorem quiet {s' : Connector} (hq : Quiet s s') : Addressed s' := by
  refine h.of_tables (funext hq.heap.addrOf) (funext hq.heap.link) hq.nextSession hq.strong
    (hq.sessions ▸ h.mapped) (hq.draining ▸ h.draining) (hq.tables.redials ▸ h.redial) ?_ ?_
    (hq.tables.groups ▸ h.group)
  · intro X hX
    rw [← Arm.locals_coarse, hq.arm, Arm.locals_coarse] at hX
    rw [← Arm.addr_coarse s'.loop.arm, hq.arm, Arm.addr_coarse]
    exact h.arm X hX
  · intro p hp
    rwa [← Arm.handover_coarse, hq.arm, Arm.handover_coarse] at hp

/-- The session a redial replaces has the address of the dial. -/
theorem redialedOld {addr : SocketAddr} {X : SessionId} (hX : X ∈ (s.redialedOld addr).toList) :
    s.addrOf X = some addr := by
  rw [Option.mem_toList, Connector.redialedOld, Option.map_eq_some_iff] at hX
  obtain ⟨r, hr, rfl⟩ := hX
  exact h.redial addr r hr

theorem removeDial {dial : Dial} {a : SocketAddr} {r : RedialInFlight}
    (ha : (removeDial dial s.loop).redials.lookup a = some r) : s.addrOf r.old = some a := by
  simp only [Connector.removeDial, HashMap.lookup_erase_eq] at ha
  split at ha
  · cases ha
  · exact h.redial a r ha

/-- What pruning keeps was there. -/
theorem prune {a : SocketAddr} {g : AddrGroup}
    (ha : s.pruneDeadAddresses.loop.groups.lookup a = some g) : ∀ X ∈ g.sessions,
    s.addrOf X = some a := by
  intro X hX
  simp only [pruneDeadAddresses, setLoop, HashMap.lookup_retain, HashMap.lookup_mapVal,
    Option.filter_eq_some_iff, Option.map_eq_some_iff] at ha
  obtain ⟨⟨g₀, hg₀, rfl⟩, -⟩ := ha
  exact h.group a g₀ hg₀ X (List.mem_of_mem_filter hX)

/-- The group of a new dial is an old one or empty. -/
theorem startDial {addr a : SocketAddr} {l : Loop} {g : AddrGroup} (key : Option ObfuscationKey)
    (hl : l.groups = s.loop.groups)
    (ha : (startDial addr key l).groups.lookup a = some g) : ∀ X ∈ g.sessions,
    s.addrOf X = some a := by
  intro X hX
  simp only [Connector.startDial, HashMap.lookup_insert_eq, groupFor, hl] at ha
  split at ha
  · rename_i haddr
    obtain rfl := Option.some.inj ha
    cases hg : s.loop.groups.lookup addr with
    | none => simp [hg] at hX
    | some g₀ =>
      rw [hg] at hX
      exact haddr ▸ h.group addr g₀ hg X hX
  · exact h.group a g ha X hX

/-- Installing a session gives it an address and leaves the others'. -/
theorem addrOf_installed (dial : Dial) (group : AddrGroup) {X : SessionId} {a : SocketAddr}
    (hX : s.addrOf X = some a) : (s.installed dial group).addrOf X = some a := by
  rw [addrOf_insert rfl, if_neg (h.ne_next (by simp [hX])), hX]

/-- A finished dial is installed under the next number. -/
theorem install {dial : Dial} {group : AddrGroup}
    (hgroup : s.loop.groups.lookup dial.addr = some group) :
    Addressed (s.installed dial group) := by
  have hnew : (s.installed dial group).addrOf s.nextSession = some dial.addr := by
    rw [addrOf_insert rfl, if_pos rfl]
  constructor
  case fresh =>
    intro X hX
    rw [addrOf_insert rfl] at hX
    split at hX
    · rename_i heq
      exact heq ▸ Nat.lt_succ_self _
    · exact Nat.lt_succ_of_lt (h.fresh X hX)
  case younger =>
    intro X Y hXY
    rw [link_insert rfl] at hXY
    split at hXY
    · cases hXY
    · rename_i hne
      obtain ⟨hlt, haddr⟩ := h.younger X Y hXY
      refine ⟨hlt, ?_⟩
      obtain ⟨a, ha⟩ := Option.ne_none_iff_exists'.mp (addrOf_of_link hXY)
      rw [h.addrOf_installed dial group ha, h.addrOf_installed dial group (haddr.trans ha)]
  case held =>
    intro X hX
    rcases Strong.of_install hX with hX | rfl
    · obtain ⟨a, ha⟩ := Option.ne_none_iff_exists'.mp (h.held X hX)
      simp [h.addrOf_installed dial group ha]
    · simp [hnew]
  case mapped => exact fun a X ha => h.addrOf_installed dial group (h.mapped a X ha)
  case draining => exact fun a X ha => h.addrOf_installed dial group (h.draining a X ha)
  case redial => exact fun a r ha => h.addrOf_installed dial group (h.removeDial ha)
  case arm =>
    intro X hX
    simp only [installed, Connector.removeDial, Arm.locals, List.mem_cons] at hX
    rcases hX with rfl | hX
    · exact hnew
    · exact h.addrOf_installed dial group (h.redialedOld hX)
  case handover =>
    intro old new hp
    simp only [installed, Connector.removeDial, Arm.handover, Option.map_eq_some_iff] at hp
    obtain ⟨o, ho, hp⟩ := hp
    cases hp
    exact h.fresh old (by simp [h.redialedOld (Option.mem_toList.mpr ho)])
  case group =>
    intro a g ha X hX
    simp only [installed, Connector.removeDial, HashMap.lookup_insert_eq] at ha
    split at ha
    · rename_i heq
      obtain rfl := Option.some.inj ha
      rw [List.mem_append, List.mem_singleton] at hX
      rcases hX with hX | rfl
      · exact h.addrOf_installed dial group
          (heq ▸ h.group _ group hgroup X (List.mem_of_mem_filter hX))
      · exact heq ▸ hnew
    · exact h.addrOf_installed dial group (h.group a g ha X hX)

/-- The successor is published. -/
theorem drained {addr : SocketAddr} {session old : SessionId}
    (harm : s.loop.arm = .completing addr session (some old) .rebind) (todo : List StreamId)
    (hstrong : ∀ X, ((s.drain old session).setArm
      (.completing addr session (some old) (.move todo))).Strong X → s.Strong X) :
    Addressed ((s.drain old session).setArm
      (.completing addr session (some old) (.move todo))) := by
  have haddr : ((s.drain old session).setArm
      (.completing addr session (some old) (.move todo))).addrOf = s.addrOf :=
    funext fun X => addrOf_drain X
  have hlocal : ∀ X, X = session ∨ X = old → s.addrOf X = some addr := by
    intro X hX
    have := h.arm X (by simpa [harm, Arm.locals] using hX)
    simpa [harm, Arm.addr] using this
  have hlt : old < session := h.handover old session (by rw [harm]; rfl)
  constructor
  case younger =>
    intro X Y hXY
    change (s.drain old session).link X = some Y at hXY
    rw [link_drain] at hXY
    rw [haddr]
    split at hXY
    · rename_i heq
      obtain rfl := Option.some.inj hXY
      obtain ⟨rfl, -⟩ := heq
      exact ⟨hlt, by rw [hlocal _ (.inl rfl), hlocal _ (.inr rfl)]⟩
    · exact h.younger X Y hXY
  case held => exact fun X hX => haddr ▸ h.held X (hstrong X hX)
  case handover =>
    intro o n hp
    cases hp
    exact hlt
  all_goals rw [haddr]
  · exact h.fresh
  · exact h.mapped
  · exact h.draining
  · exact h.redial
  · exact fun X hX => hlocal X (by simpa [setArm, setLoop, Arm.locals] using hX)
  · exact h.group

/-- Identities are kept. -/
theorem step {s' : Connector} {e : ConnectorEvent} (hstep : ConnectorStep s e s') :
    Addressed s' := by
  have hstrong := hstep.strong_old
  have hnone : ∀ {arm : Arm}, arm = .select → ∀ X ∈ arm.locals, s.addrOf X = arm.addr := by
    rintro _ rfl X hX
    cases hX
  have hstay : ∀ {arm : Arm}, arm = .select → ∀ p, arm.handover = some p →
      s.loop.arm.handover = some p := by
    rintro _ rfl p hp
    cases hp
  cases hstep with
  | quiet hq => exact h.quiet hq
  | installed dial group harm hdial hgroup => exact h.install hgroup
  | panicked dial harm hdial hgroup =>
    simp only [installSession, hgroup] at hstrong ⊢
    exact h.of_tables rfl rfl rfl (hstrong rfl) h.mapped h.draining
      (fun a r ha => h.removeDial ha) (fun X hX => by cases hX) (fun p hp => by cases hp) h.group
  | failed dial waiters answers he harm hdial =>
    exact h.of_tables rfl rfl rfl (hstrong rfl) h.mapped h.draining
      (fun a r ha => h.removeDial ha) (fun X hX => h.redialedOld hX) (fun p hp => by cases hp)
      h.group
  | pruned addr old he harm =>
    exact h.of_tables rfl rfl rfl (hstrong rfl) h.mapped h.draining h.redial (hnone rfl)
      (hstay rfl) fun a g ha => h.prune ha
  | drained addr session old harm => exact h.drained harm _ (hstrong rfl)
  | retired addr session old stage harm hstage =>
    have hlocal : ∀ X ∈ session :: old.toList, s.addrOf X = some addr := by
      intro X hX
      have := h.arm X (by rw [harm]; exact hX)
      rwa [harm] at this
    refine h.of_tables rfl rfl rfl (hstrong rfl) h.mapped ?_ h.redial hlocal ?_ h.group
    · intro a X ha
      simp only [retire] at ha
      split at ha
      · rename_i o
        rw [HashMap.lookup_insert_eq] at ha
        split at ha
        · rename_i heq
          obtain rfl := Option.some.inj ha
          exact heq ▸ hlocal o (by simp)
        · exact h.draining a X ha
      · exact h.draining a X ha
    · intro p hp
      rw [harm]
      exact hp
  | mapped addr session old harm =>
    refine h.of_tables rfl rfl rfl (hstrong rfl) ?_ h.draining h.redial (hnone rfl) (hstay rfl)
      h.group
    intro a X ha
    rw [HashMap.lookup_insert_eq] at ha
    split at ha
    · rename_i heq
      obtain rfl := Option.some.inj ha
      have := h.arm session (by simp [harm, Arm.locals])
      rw [harm] at this
      exact heq ▸ this
    · exact h.mapped a X ha
  | reaped session x he hx harm hfinished =>
    refine h.of_tables (addrOf_unmapped s session x) (link_unmapped s session x) rfl (hstrong rfl)
      (fun a X ha => h.mapped a X (lookup_unmapped ha)) h.draining h.redial (hnone harm)
      (hstay harm) ?_
    · intro a g ha X hX
      simp only [pruneDeadAddresses, setLoop, HashMap.lookup_retain, HashMap.lookup_mapVal,
        Option.filter_eq_some_iff, Option.map_eq_some_iff] at ha
      obtain ⟨⟨g₀, hg₀, rfl⟩, -⟩ := ha
      exact h.group a g₀ hg₀ X (List.mem_of_mem_filter hX)
  | dialled addr key l he hstart harm hfree hroom htables harm' =>
    exact h.of_tables rfl rfl rfl (hstrong rfl) h.mapped h.draining
      (fun a r ha => h.redial a r (htables.redials ▸ ha)) (hnone harm') (hstay harm')
      fun a g ha => h.startDial key htables.groups ha
  | redialled addr trigger wantsMigration old he hstart harm htarget =>
    refine h.of_tables rfl rfl rfl (hstrong rfl) h.mapped h.draining ?_ (hnone harm) (hstay harm)
      fun a g ha => h.startDial ((s.loop.addrKeys.lookup addr).getD none) rfl ha
    intro a r ha
    simp only [setLoop, Connector.startDial, HashMap.lookup_insert_eq] at ha
    split at ha
    · rename_i heq
      obtain rfl := Option.some.inj ha
      exact heq ▸ h.mapped addr old (redialTarget_eq_some htarget).1
    · exact h.redial a r ha
  | reset harm hreset =>
    obtain ⟨hsessions, hdraining, hstreams, hnext, hheap, hredials, hgroups, -, -, -, -, harm'⟩ :=
      reset_eq hreset
    refine h.of_tables (funext (addrOf_mapVal hheap ?_)) (funext (link_mapVal hheap ?_)) hnext
      (hstrong hnext) ?_ ?_ ?_ (hnone (harm'.trans harm)) (hstay (harm'.trans harm)) ?_
    · intro X x
      split <;> rfl
    · intro X x
      split <;> rfl
    · simp [hsessions]
    · simp [hdraining]
    · simp [hredials]
    · simp [hgroups]

end Addressed

/-- Sessions keep to their addresses in every run. -/
theorem addressed_of_reaches {C : Connector → ConnectorEvent → Prop} {explorerCtx : Bool}
    {s : Connector} (h : (connector explorerCtx).ReachesWhere C s) : Addressed s :=
  h.invariant (addressed_init explorerCtx) fun _ _ _ hs _ hstep => hs.step (.of_step hstep)

end RtpMux

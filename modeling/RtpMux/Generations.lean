import RtpMux.ConnectorStep

/-!
# Generations of sessions

A redial publishes the new session as the `successor` of the old one, and nothing bounds the
length of such a chain except the gate of the `Redial` arm. `latest_generation` walks at most eight
hops, `rebind_one` registers a stream on its target without asking whether the target has been
drained itself; both are safe because a held session is at most one step behind:

* `GateInv.settled`: the successor of a held session has no successor.

The argument goes through `draining`. While the old session is held, its `Weak` can be upgraded and
no redial of the address is admitted (`GateInv.closed`), so the new session, as long as it is the
one a redial would replace, stays without a successor (`GateInv.gate`). A `Reset` empties
`draining`, but it empties the `sessions` map with it, so nothing is left to redial.
-/

namespace RtpMux

open Connector

/-- What holds while a dial of `a` that produced the session `new` is being completed. -/
structure ArmGate (s : Connector) (a : SocketAddr) (new : SessionId) (old : Option SessionId)
    (stage : Stage) : Prop where
  noSuccessor : s.link new = none
  onlyOld : ∀ X, s.link X = some new → old = some X
  unmapped : ∀ b, s.sessions.lookup b ≠ some new
  unredialled : ∀ b r, s.loop.redials.lookup b = some r → r.old ≠ new
  noRedial : s.loop.redials.lookup a = none
  /-- the session that will be replaced is the redialled one -/
  replaced : ∀ o, old = some o → ∀ X, s.sessions.lookup a = some X → X = o
  /-- nobody held has the old session as its successor -/
  noPredecessor : ∀ o, old = some o → ∀ X, s.Strong X → s.link X ≠ some o
  undrained : stage = .rebind → ∀ o, old = some o → s.link o = none
  draining : stage = .answer [] → ∀ o, old = some o → s.draining.lookup a = some o

/-- The gate of the `Redial` arm at work. -/
structure GateInv (s : Connector) : Prop where
  /-- a held session is at most one step behind -/
  settled : ∀ X Y, s.Strong X → s.link X = some Y → s.link Y = none
  /-- a predecessor of a session that can be redialled is in `draining` -/
  gate : ∀ X Y a, s.Strong X → s.link X = some Y →
    s.sessions.lookup a = some Y ∨ (s.loop.redials.lookup a).map (·.old) = some Y →
    s.draining.lookup a = some X
  /-- while the draining session is held, no redial is in flight -/
  closed : ∀ a X, s.draining.lookup a = some X → s.Strong X → s.loop.redials.lookup a = none
  mapped : ∀ a X, s.sessions.lookup a = some X →
    s.link X = none ∨ ∃ new, s.loop.arm.handover = some (X, new)
  redial : ∀ a r, s.loop.redials.lookup a = some r →
    s.link r.old = none ∧ ∀ X, s.sessions.lookup a = some X → X = r.old
  arm : ∀ a new old stage, s.loop.arm.coarse = .completing a new old stage →
    ArmGate s a new old stage

theorem gateInv_init (explorerCtx : Bool) : GateInv (Connector.init explorerCtx) where
  settled := by simp [Connector.init, link]
  gate := by simp [Connector.init, link]
  closed := by simp [Connector.init]
  mapped := by simp [Connector.init]
  redial := by simp [Connector.init]
  arm := by simp [Connector.init, Arm.coarse]

namespace ArmGate

variable {s s' : Connector} {a : SocketAddr} {new : SessionId} {old : Option SessionId}
  {stage : Stage} (h : ArmGate s a new old stage)
include h

/-- The arm goes on while nothing it depends on changes. -/
theorem of_eq (hlink : s'.link = s.link) (hsessions : s'.sessions = s.sessions)
    (hredials : s'.loop.redials = s.loop.redials) (hdraining : s'.draining = s.draining)
    (hstrong : ∀ X, s'.Strong X → s.Strong X) : ArmGate s' a new old stage where
  noSuccessor := hlink ▸ h.noSuccessor
  onlyOld := hlink ▸ h.onlyOld
  unmapped := hsessions ▸ h.unmapped
  unredialled := hredials ▸ h.unredialled
  noRedial := hredials ▸ h.noRedial
  replaced := hsessions ▸ h.replaced
  noPredecessor := fun o ho X hX => hlink ▸ h.noPredecessor o ho X (hstrong X hX)
  undrained := hlink ▸ h.undrained
  draining := hdraining ▸ h.draining

end ArmGate

namespace GateInv

variable {s : Connector} (h : GateInv s)
include h

/-- The gate after a step that publishes no successor and starts or completes no redial. -/
theorem of_tables {s' : Connector} (hlink : s'.link = s.link)
    (hstrong : ∀ X, s'.Strong X → s.Strong X)
    (hsessions : ∀ a X, s'.sessions.lookup a = some X → s.sessions.lookup a = some X)
    (hredials : ∀ a r, s'.loop.redials.lookup a = some r → s.loop.redials.lookup a = some r)
    (hdraining : s'.draining = s.draining)
    (hhandover : s'.loop.arm.handover = s.loop.arm.handover)
    (harm : ∀ a new old stage, s'.loop.arm.coarse = .completing a new old stage →
      ArmGate s' a new old stage) : GateInv s' where
  settled := by
    intro X Y hX hXY
    rw [hlink] at hXY ⊢
    exact h.settled X Y (hstrong X hX) hXY
  gate := by
    intro X Y a hX hXY hY
    rw [hlink] at hXY
    rw [hdraining]
    refine h.gate X Y a (hstrong X hX) hXY (hY.imp (hsessions a Y) fun hY => ?_)
    obtain ⟨r, hr, rfl⟩ := Option.map_eq_some_iff.mp hY
    rw [hredials a r hr]
    rfl
  closed := by
    intro a X ha hX
    rw [hdraining] at ha
    have hnone := h.closed a X ha (hstrong X hX)
    by_contra hne
    obtain ⟨r, hr⟩ := Option.ne_none_iff_exists'.mp hne
    rw [hredials a r hr] at hnone
    cases hnone
  mapped := by
    intro a X ha
    rw [hlink, hhandover]
    exact h.mapped a X (hsessions a X ha)
  redial := by
    intro a r ha
    obtain ⟨hnone, honly⟩ := h.redial a r (hredials a r ha)
    exact ⟨hlink ▸ hnone, fun X hX => honly X (hsessions a X hX)⟩
  arm := harm

/-- A quiet step leaves the gate as it is. -/
theorem quiet {s' : Connector} (hq : Quiet s s') : GateInv s' := by
  have hlink : s'.link = s.link := funext hq.heap.link
  refine h.of_tables hlink hq.strong (hq.sessions ▸ fun _ _ => id)
    (hq.tables.redials ▸ fun _ _ => id) hq.draining ?_ ?_
  · rw [← Arm.handover_coarse, hq.arm, Arm.handover_coarse]
  · intro a new old stage harm
    rw [hq.arm] at harm
    exact (h.arm a new old stage harm).of_eq hlink hq.sessions hq.tables.redials hq.draining
      hq.strong

/-- At the `select!` the sessions of the map have no successor. -/
theorem mapped_select (harm : s.loop.arm = .select) {a : SocketAddr} {X : SessionId}
    (ha : s.sessions.lookup a = some X) : s.link X = none := by
  rcases h.mapped a X ha with hnone | ⟨new, hnew⟩
  · exact hnone
  · rw [harm] at hnew
    cases hnew

/-- A finished dial. The gate says that nobody held precedes the session it replaces. -/
theorem install (haddressed : Addressed s) {dial : Dial} {group : AddrGroup}
    (harm : s.loop.arm = .select) : GateInv (s.installed dial group) := by
  have hlink : ∀ X Y, (s.installed dial group).link X = some Y → s.link X = some Y := by
    intro X Y hXY
    rw [link_insert rfl] at hXY
    split at hXY
    · cases hXY
    · exact hXY
  have hnone : ∀ X, s.link X = none → (s.installed dial group).link X = none := by
    intro X hX
    rw [link_insert rfl]
    split
    · rfl
    · exact hX
  have hstrong : ∀ X Y, (s.installed dial group).Strong X → (s.installed dial group).link X =
      some Y → s.Strong X := by
    intro X Y hX hXY
    rcases Strong.of_install hX with hX | rfl
    · exact hX
    · have hnext := hlink _ _ hXY
      rw [haddressed.link_next] at hnext
      cases hnext
  have hredials : ∀ a r, (s.installed dial group).loop.redials.lookup a = some r →
      a ≠ dial.addr ∧ s.loop.redials.lookup a = some r := by
    intro a r ha
    simp only [installed, removeDial, HashMap.lookup_erase_eq] at ha
    split at ha
    · cases ha
    · exact ⟨‹_›, ha⟩
  constructor
  case settled =>
    intro X Y hX hXY
    exact hnone Y (h.settled X Y (hstrong X Y hX hXY) (hlink X Y hXY))
  case gate =>
    intro X Y a hX hXY hY
    refine h.gate X Y a (hstrong X Y hX hXY) (hlink X Y hXY) (hY.imp_right fun hY => ?_)
    obtain ⟨r, hr, rfl⟩ := Option.map_eq_some_iff.mp hY
    rw [(hredials a r hr).2]
    rfl
  case closed =>
    intro a X ha hX
    have hX : s.Strong X := by
      rcases Strong.of_install hX with hX | rfl
      · exact hX
      · exact absurd (haddressed.draining a _ ha) (by simp [haddressed.addrOf_next])
    have hclosed := h.closed a X ha hX
    by_contra hne
    obtain ⟨r, hr⟩ := Option.ne_none_iff_exists'.mp hne
    rw [(hredials a r hr).2] at hclosed
    cases hclosed
  case mapped => exact fun a X ha => .inl (hnone X (h.mapped_select harm ha))
  case redial =>
    intro a r ha
    obtain ⟨hold, honly⟩ := h.redial a r (hredials a r ha).2
    exact ⟨hnone _ hold, honly⟩
  case arm =>
    intro a new old stage harm'
    simp only [installed, removeDial, Arm.coarse, Arm.completing.injEq] at harm'
    obtain ⟨rfl, rfl, rfl, rfl⟩ := harm'
    -- the redial the dial came from, if any
    have hold : ∀ o, s.redialedOld dial.addr = some o →
        ∃ r, s.loop.redials.lookup dial.addr = some r ∧ r.old = o := by
      intro o ho
      obtain ⟨r, hr, rfl⟩ := Option.map_eq_some_iff.mp ho
      exact ⟨r, hr, rfl⟩
    constructor
    case noSuccessor => exact hnone _ haddressed.link_next
    case onlyOld => exact fun X hX => absurd (hlink X _ hX) (haddressed.no_link_next X)
    case unmapped =>
      intro b hb
      exact haddressed.ne_next (by simp [haddressed.mapped b _ hb]) rfl
    case unredialled =>
      intro b r hr heq
      exact haddressed.ne_next (by simp [haddressed.redial b r (hredials b r hr).2]) heq
    case noRedial =>
      simp [installed, removeDial]
    case replaced =>
      intro o ho X hX
      obtain ⟨r, hr, rfl⟩ := hold o ho
      exact (h.redial _ r hr).2 X hX
    case noPredecessor =>
      intro o ho X hX hXo
      obtain ⟨r, hr, rfl⟩ := hold o ho
      have hXstrong := hstrong X _ hX hXo
      have hdrain := h.gate X r.old dial.addr hXstrong (hlink X _ hXo) (.inr (by rw [hr]; rfl))
      have hclosed := h.closed dial.addr X hdrain hXstrong
      rw [hr] at hclosed
      cases hclosed
    case undrained =>
      intro _ o ho
      obtain ⟨r, hr, rfl⟩ := hold o ho
      exact hnone _ (h.redial _ r hr).1
    case draining =>
      intro hstage
      cases hstage

/-- The successor is published: the old session was the end of every chain of held sessions. -/
theorem drained {s' : Connector} {addr : SocketAddr} {session old : SessionId}
    (haddressed : Addressed s) {todo : List StreamId}
    (harm : s.loop.arm = .completing addr session (some old) .rebind)
    (hs' : s' = (s.drain old session).setArm (.completing addr session (some old) (.move todo)))
    (hstrong : ∀ X, s'.Strong X → s.Strong X) : GateInv s' := by
  have hgate := h.arm addr session (some old) .rebind (by rw [harm]; rfl)
  have hne : session ≠ old :=
    Nat.ne_of_gt (haddressed.handover old session (by rw [harm]; rfl))
  have hs'link : s'.link = (s.drain old session).link := by rw [hs']; rfl
  -- the one new successor
  have hlink : ∀ X Y, s'.link X = some Y → X = old ∧ Y = session ∨ s.link X = some Y := by
    intro X Y hXY
    rw [hs'link, link_drain] at hXY
    split at hXY
    · rename_i hcond
      exact .inl ⟨hcond.1, (Option.some.inj hXY).symm⟩
    · exact .inr hXY
  have hnone : ∀ X, X ≠ old → s.link X = none → s'.link X = none := by
    intro X hX hXnone
    rw [hs'link, link_drain, if_neg fun hand => hX hand.1]
    exact hXnone
  have hsessions : s'.sessions = s.sessions := by rw [hs']; rfl
  have hredials : s'.loop.redials = s.loop.redials := by rw [hs']; rfl
  have hdraining : s'.draining = s.draining := by rw [hs']; rfl
  have hredialNe : ∀ a r, s.loop.redials.lookup a = some r → r.old ≠ old := by
    rintro a r hr rfl
    have haddr : some a = some addr := by
      rw [← haddressed.redial a r hr, haddressed.arm r.old (by simp [harm, Arm.locals]), harm]
      rfl
    rw [Option.some.inj haddr, hgate.noRedial] at hr
    cases hr
  constructor
  case settled =>
    intro X Y hX hXY
    rcases hlink X Y hXY with ⟨rfl, rfl⟩ | hXY
    · exact hnone _ hne hgate.noSuccessor
    · refine hnone Y ?_ (h.settled X Y (hstrong X hX) hXY)
      rintro rfl
      exact hgate.noPredecessor Y rfl X (hstrong X hX) hXY
  case gate =>
    intro X Y a hX hXY hY
    rw [hsessions, hredials] at hY
    rw [hdraining]
    rcases hlink X Y hXY with ⟨rfl, rfl⟩ | hXY
    · rcases hY with hY | hY
      · exact absurd hY (hgate.unmapped a)
      · obtain ⟨r, hr, heq⟩ := Option.map_eq_some_iff.mp hY
        exact absurd heq (hgate.unredialled a r hr)
    · exact h.gate X Y a (hstrong X hX) hXY hY
  case closed =>
    intro a X ha hX
    rw [hdraining] at ha
    rw [hredials]
    exact h.closed a X ha (hstrong X hX)
  case mapped =>
    intro a X ha
    rw [hsessions] at ha
    by_cases hX : X = old
    · right
      rw [hX, hs']
      exact ⟨session, rfl⟩
    · left
      rcases h.mapped a X ha with hXnone | ⟨new, hnew⟩
      · exact hnone X hX hXnone
      · rw [harm] at hnew
        cases hnew
        exact absurd rfl hX
  case redial =>
    intro a r hr
    rw [hredials] at hr
    obtain ⟨hold, honly⟩ := h.redial a r hr
    exact ⟨hnone _ (hredialNe a r hr) hold, hsessions ▸ honly⟩
  case arm =>
    intro a new o stage harm'
    rw [hs'] at harm'
    simp only [setArm, setLoop, Arm.coarse, Arm.completing.injEq] at harm'
    obtain ⟨rfl, rfl, rfl, rfl⟩ := harm'
    constructor
    case noSuccessor => exact hnone _ hne hgate.noSuccessor
    case onlyOld =>
      intro X hX
      rcases hlink X _ hX with ⟨rfl, -⟩ | hX
      · rfl
      · exact hgate.onlyOld X hX
    case unmapped => exact hsessions ▸ hgate.unmapped
    case unredialled => exact hredials ▸ hgate.unredialled
    case noRedial => exact hredials ▸ hgate.noRedial
    case replaced => exact hsessions ▸ hgate.replaced
    case noPredecessor =>
      intro o ho X hX hXo
      cases ho
      rcases hlink X _ hXo with ⟨-, heq⟩ | hXo
      · exact hne heq.symm
      · exact hgate.noPredecessor old rfl X (hstrong X hX) hXo
    case undrained =>
      intro hstage
      cases hstage
    case draining =>
      intro hstage
      cases hstage

/-- The old session is put into `draining`; what was there is no longer needed. -/
theorem retired {s' : Connector} {addr : SocketAddr} {session : SessionId}
    {old : Option SessionId} {stage : Stage}
    (harm : s.loop.arm = .completing addr session old stage)
    (hstage : stage = .rebind ∨ stage = .move []) (hs' : s' = s.retire addr session old)
    (hstrong : ∀ X, s'.Strong X → s.Strong X) : GateInv s' := by
  -- the old session enters the draining map while its successor is not mapped yet
  have hgate := h.arm addr session old stage (by rw [harm]; rcases hstage with rfl | rfl <;> rfl)
  have hlink : s'.link = s.link := by rw [hs']; rfl
  have hsessions : s'.sessions = s.sessions := by rw [hs']; rfl
  have hredials : s'.loop.redials = s.loop.redials := by rw [hs']; rfl
  have hdraining : ∀ a, s'.draining.lookup a =
      if a = addr ∧ old ≠ none then old else s.draining.lookup a := by
    intro a
    rw [hs']
    cases old with
    | none => simp [retire]
    | some o => simp [retire, HashMap.lookup_insert_eq]
  have hhandover : s'.loop.arm.handover = s.loop.arm.handover := by
    rw [hs', harm]
    rfl
  constructor
  case settled => exact fun X Y hX => hlink ▸ h.settled X Y (hstrong X hX)
  case gate =>
    intro X Y a hX hXY hY
    rw [hlink] at hXY
    rw [hsessions, hredials] at hY
    rw [hdraining]
    split
    · -- only the old session is mapped there, and nobody held precedes it
      rename_i hcond
      obtain ⟨rfl, hold⟩ := hcond
      obtain ⟨o, ho⟩ := Option.ne_none_iff_exists'.mp hold
      rw [hgate.noRedial] at hY
      obtain rfl := hgate.replaced o ho Y (hY.resolve_right (by simp))
      exact absurd hXY (hgate.noPredecessor Y ho X (hstrong X hX))
    · exact h.gate X Y a (hstrong X hX) hXY hY
  case closed =>
    intro a X ha hX
    rw [hdraining] at ha
    rw [hredials]
    split at ha
    · rename_i hcond
      rw [hcond.1]
      exact hgate.noRedial
    · exact h.closed a X ha (hstrong X hX)
  case mapped =>
    rw [hsessions, hlink, hhandover]
    exact h.mapped
  case redial =>
    rw [hsessions, hlink, hredials]
    exact h.redial
  case arm =>
    intro a new o stage' harm'
    rw [hs'] at harm'
    simp only [retire, Arm.coarse, Arm.completing.injEq] at harm'
    obtain ⟨rfl, rfl, rfl, rfl⟩ := harm'
    constructor
    case noSuccessor => exact hlink ▸ hgate.noSuccessor
    case onlyOld => exact hlink ▸ hgate.onlyOld
    case unmapped => exact hsessions ▸ hgate.unmapped
    case unredialled => exact hredials ▸ hgate.unredialled
    case noRedial => exact hredials ▸ hgate.noRedial
    case replaced => exact hsessions ▸ hgate.replaced
    case noPredecessor =>
      exact fun o ho X hX => hlink ▸ hgate.noPredecessor o ho X (hstrong X hX)
    case undrained =>
      intro hstage'
      cases hstage'
    case draining =>
      intro _ o ho
      rw [hdraining, if_pos ⟨rfl, by simp [ho]⟩, ho]

/-- The new session takes the place of the old one in the map. -/
theorem enter {s' : Connector} {addr : SocketAddr} {session : SessionId}
    {old : Option SessionId} (haddressed : Addressed s)
    (harm : s.loop.arm = .completing addr session old (.answer []))
    (hs' : s' = { s.setArm .select with sessions := s.sessions.insert addr session })
    (hstrong : ∀ X, s'.Strong X → s.Strong X) : GateInv s' := by
  -- the successor is mapped now, and the predecessor is what the draining map remembers
  have hgate := h.arm addr session old (.answer []) (by rw [harm]; rfl)
  have hlink : s'.link = s.link := by rw [hs']; rfl
  have hsessions : ∀ a, s'.sessions.lookup a =
      if a = addr then some session else s.sessions.lookup a := by
    intro a
    rw [hs']
    exact HashMap.lookup_insert_eq _ _ _ _
  have hredials : s'.loop.redials = s.loop.redials := by rw [hs']; rfl
  have hdraining : s'.draining = s.draining := by rw [hs']; rfl
  constructor
  case settled => exact fun X Y hX => hlink ▸ h.settled X Y (hstrong X hX)
  case gate =>
    intro X Y a hX hXY hY
    rw [hlink] at hXY
    rw [hsessions, hredials] at hY
    rw [hdraining]
    split at hY
    · rename_i ha
      subst ha
      rw [hgate.noRedial] at hY
      obtain rfl := Option.some.inj (hY.resolve_right (by simp))
      exact hgate.draining rfl X (hgate.onlyOld X hXY)
    · exact h.gate X Y a (hstrong X hX) hXY hY
  case closed =>
    intro a X ha hX
    rw [hdraining] at ha
    rw [hredials]
    exact h.closed a X ha (hstrong X hX)
  case mapped =>
    intro a X ha
    rw [hsessions] at ha
    rw [hlink]
    left
    split at ha
    · obtain rfl := Option.some.inj ha
      exact hgate.noSuccessor
    · rename_i hne
      rcases h.mapped a X ha with hnone | ⟨new, hnew⟩
      · exact hnone
      · -- the old session has the address that was just overwritten
        have hlocal : X ∈ s.loop.arm.locals := by
          rw [harm] at hnew ⊢
          obtain ⟨o, ho, heq⟩ := Option.map_eq_some_iff.mp hnew
          cases heq
          simp [Arm.locals, ho]
        have haddr := haddressed.arm X hlocal
        rw [haddressed.mapped a X ha, harm] at haddr
        exact absurd (Option.some.inj haddr) hne
  case redial =>
    intro a r hr
    rw [hredials] at hr
    obtain ⟨hold, honly⟩ := h.redial a r hr
    refine ⟨hlink ▸ hold, fun X hX => ?_⟩
    rw [hsessions] at hX
    split at hX
    · rename_i ha
      rw [ha, hgate.noRedial] at hr
      cases hr
    · exact honly X hX
  case arm =>
    intro a new o stage harm'
    rw [hs'] at harm'
    cases harm'

/-- A redial is admitted: the draining session of its address is dead. -/
theorem redialled {s' : Connector} {addr : SocketAddr} {r : RedialInFlight}
    (haddressed : Addressed s) (harm : s.loop.arm = .select)
    (hmapped : s.sessions.lookup addr = some r.old)
    (hdead : ∀ X, s.draining.lookup addr = some X → s.strong X = false)
    (hlink : s'.link = s.link) (hstrong : ∀ X, s'.Strong X → s.Strong X)
    (hsessions : s'.sessions = s.sessions) (hdraining : s'.draining = s.draining)
    (hredials : s'.loop.redials = s.loop.redials.insert addr r)
    (harm' : s'.loop.arm = .select) : GateInv s' := by
  have hlookup : ∀ a, s'.loop.redials.lookup a =
      if a = addr then some r else s.loop.redials.lookup a := by
    intro a
    rw [hredials]
    exact HashMap.lookup_insert_eq _ _ _ _
  constructor
  case settled => exact fun X Y hX => hlink ▸ h.settled X Y (hstrong X hX)
  case gate =>
    intro X Y a hX hXY hY
    rw [hlink] at hXY
    rw [hsessions, hlookup] at hY
    rw [hdraining]
    split at hY
    · rename_i ha
      subst ha
      refine h.gate X Y a (hstrong X hX) hXY (.inl ?_)
      rcases hY with hY | hY
      · exact hY
      · exact (Option.some.inj hY) ▸ hmapped
    · exact h.gate X Y a (hstrong X hX) hXY hY
  case closed =>
    intro a X ha hX
    rw [hdraining] at ha
    rw [hlookup]
    split
    · rename_i heq
      have := hdead X (heq ▸ ha)
      rw [haddressed.strong_iff.mpr (hstrong X hX)] at this
      cases this
    · exact h.closed a X ha (hstrong X hX)
  case mapped =>
    intro a X ha
    rw [hsessions] at ha
    exact .inl (hlink ▸ h.mapped_select harm ha)
  case redial =>
    intro a r' hr'
    rw [hlookup] at hr'
    split at hr'
    · rename_i ha
      obtain rfl := Option.some.inj hr'
      refine ⟨hlink ▸ h.mapped_select harm hmapped, fun X hX => ?_⟩
      rw [hsessions, ha, hmapped] at hX
      exact (Option.some.inj hX).symm
    · obtain ⟨hold, honly⟩ := h.redial a r' hr'
      exact ⟨hlink ▸ hold, hsessions ▸ honly⟩
  case arm =>
    intro a new old stage hcoarse
    rw [harm'] at hcoarse
    cases hcoarse

/-- Every step keeps the gate: a draining session has one successor. -/
theorem step {s' : Connector} {e : ConnectorEvent} (haddressed : Addressed s)
    (hstep : ConnectorStep s e s') : GateInv s' := by
  have hstrong := hstep.strong_old
  -- outside the arm for a dial that succeeded there is nothing to say about it
  have hidle : ∀ {arm : Arm}, (∀ a new old stage, arm ≠ .completing a new old stage) →
      ∀ a new old stage, arm.coarse = .completing a new old stage →
        ArmGate s' a new old stage := by
    intro arm hne a new old stage harm
    cases arm with
    | completing a new old stage => exact absurd rfl (hne a new old stage)
    | _ => cases harm
  have hremove : ∀ dial a r, (removeDial dial s.loop).redials.lookup a = some r →
      s.loop.redials.lookup a = some r := by
    intro dial a r hr
    simp only [removeDial, HashMap.lookup_erase_eq] at hr
    split at hr
    · cases hr
    · exact hr
  cases hstep with
  | quiet hq => exact h.quiet hq
  | installed dial group harm hdial hgroup => exact h.install haddressed harm
  | panicked dial harm hdial hgroup =>
    simp only [installSession, hgroup] at hstrong hidle ⊢
    exact h.of_tables rfl (hstrong rfl) (fun _ _ => id) (hremove dial) rfl (by rw [harm]; rfl)
      (hidle (by simp [setArm, setLoop, removeDial]))
  | failed dial waiters answers he harm hdial =>
    exact h.of_tables rfl (hstrong rfl) (fun _ _ => id) (hremove dial) rfl (by rw [harm]; rfl)
      (hidle (by simp [setLoop, removeDial]))
  | pruned addr old he harm =>
    exact h.of_tables rfl (hstrong rfl) (fun _ _ => id) (fun _ _ => id) rfl (by rw [harm]; rfl)
      (hidle (by simp [setArm, setLoop]))
  | drained addr session old harm => exact h.drained haddressed harm rfl (hstrong rfl)
  | retired addr session old stage harm hstage => exact h.retired harm hstage rfl (hstrong rfl)
  | mapped addr session old harm => exact h.enter haddressed harm rfl (hstrong rfl)
  | reaped session x he hx harm hfinished =>
    exact h.of_tables (link_unmapped s session x) (hstrong rfl) (fun _ _ => lookup_unmapped)
      (fun _ _ => id) rfl rfl (hidle (by simp [pruneDeadAddresses, setLoop, unmapped, harm]))
  | dialled addr key l he hstart harm hfree hroom htables harm' =>
    refine h.of_tables rfl (hstrong rfl) (fun _ _ => id) (fun a r hr => htables.redials ▸ hr) rfl
      ?_ (hidle (by simp [setLoop, startDial, harm']))
    simp [setLoop, startDial, harm', harm]
  | redialled addr trigger wantsMigration old he hstart harm htarget =>
    obtain ⟨hmapped, -, -, hdead⟩ := redialTarget_eq_some htarget
    exact h.redialled (r := ⟨old, trigger⟩) haddressed harm hmapped hdead rfl (hstrong rfl) rfl
      rfl rfl harm
  | reset harm hreset =>
    obtain ⟨hsessions, hdraining, -, hnext, hheap, hredials, -, -, -, -, -, harm'⟩ :=
      reset_eq hreset
    have hlink : s'.link = s.link := funext (link_mapVal hheap (by intro X x; split <;> rfl))
    constructor
    case settled => exact fun X Y hX => hlink ▸ h.settled X Y (hstrong hnext X hX)
    case gate => simp [hsessions, hredials]
    case closed => simp [hdraining]
    case mapped => simp [hsessions]
    case redial => simp [hredials]
    case arm => exact hidle (by simp [harm', harm])

end GateInv

end RtpMux

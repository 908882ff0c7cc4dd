import RtpMux.Dials
import RtpMux.Generations
import RtpMux.GroupSafety

/-!
# Two generations of one address

A server admits two sessions of one group token. The client keeps to that by redialing an address
only when the generation before the current one has drained: the `Redial` arm waits until the
`Weak` in `draining` is dead. But a session outlives its last `Arc`. Its watcher lingers for
`SESSION_LINGER` before it ends the mux session, and all that time the server counts it
(`lingering_generation_counts`). A `Connect` that finds the opener of the mapped session dead dials
again, and the session it replaces never enters `draining` at all.

In both cases the loop overwrites the last entry that named a session which is still up.
`Connector.forgetsFinished` says that it does not: what a dial makes the loop forget has finished.
Then the loop knows all sessions of a token that are up, the one in the map and the one in
`draining` (`KnownInv`), and the gate of the `Redial` arm does what it is there for: it leaves the
mapped one alone. So the sum of sessions and dial never exceeds two, and the registry on the other
side has a seat for the dial in flight (`two_generations`).
-/

namespace RtpMux

open Connector

/-- The watcher of the session has not finished: the mux session may still be up. -/
def Session.unfinished (x : Session) : Prop := x.watcher = .running ∨ x.watcher = .lingering

instance (x : Session) : Decidable x.unfinished := inferInstanceAs (Decidable (_ ∨ _))

/-- How many sessions of a token have a watcher that has not finished. -/
def Connector.unfinished (s : Connector) (token : GroupToken) : Nat :=
  HashMap.total (fun x => if x.token = token ∧ x.unfinished then 1 else 0) s.heap

/-- The session whose entry a dial is going to overwrite: of a `Connect`, the one in the map; of a
`Redial`, the draining one, once nobody holds it. -/
def Connector.forgets (s : Connector) : ConnectorEvent → Option SessionId
  | .connect addr _ _ _ => s.sessions.lookup addr
  | .redial addr _ _ => (s.draining.lookup addr).filter fun X => !s.strong X
  | _ => none

/-- A dial for an address that has a group makes the loop forget no session that is still up. -/
def Connector.forgetsFinished (s : Connector) (e : ConnectorEvent) : Prop :=
  ∀ addr ∈ s.startsDial e, addr ∈ s.loop.groups →
    ∀ X ∈ s.forgets e, ∀ x ∈ s.heap.lookup X, ¬ x.unfinished

instance (s : Connector) (e : ConnectorEvent) : Decidable (s.forgetsFinished e) :=
  inferInstanceAs (Decidable (∀ addr ∈ s.startsDial e, addr ∈ s.loop.groups →
    ∀ X ∈ s.forgets e, ∀ x ∈ s.heap.lookup X, ¬ x.unfinished))

/-! ## Tokens are not reused -/

/-- A token belongs to one address and was given out before it is used. -/
structure TokenInv (s : Connector) : Prop where
  dialToken : ∀ d ∈ s.loop.pendingDials,
    ∃ g, s.loop.groups.lookup d.addr = some g ∧ g.token = d.token
  groupFresh : ∀ a g, s.loop.groups.lookup a = some g → g.token.bits < s.loop.nextToken
  sessionFresh : ∀ X x, s.heap.lookup X = some x → x.token.bits < s.loop.nextToken
  groupToken : ∀ a g a' g', s.loop.groups.lookup a = some g → s.loop.groups.lookup a' = some g' →
    g.token = g'.token → a = a'

/-- The connector starts without tokens. -/
theorem tokenInv_init (explorerCtx : Bool) : TokenInv (Connector.init explorerCtx) where
  dialToken := by simp [Connector.init]
  groupFresh := by simp [Connector.init]
  sessionFresh := by simp [Connector.init]
  groupToken := by simp [Connector.init]

/-- A group that is found is in the map. -/
theorem mem_of_lookup {m : HashMap SocketAddr AddrGroup} {a : SocketAddr} {g : AddrGroup}
    (h : m.lookup a = some g) : a ∈ m :=
  AList.lookup_isSome.mp (by simp [h])

/-- A step on the heap keeps the tokens. -/
theorem HeapStep.token {m m' : HashMap SessionId Session} (h : HeapStep m m') {X : SessionId}
    {x' : Session} (hx' : m'.lookup X = some x') :
    ∃ x, m.lookup X = some x ∧ x.token = x'.token := by
  rcases h.lookup X with ⟨-, hnone⟩ | ⟨x, y, hx, hy, hstep⟩
  · rw [hnone] at hx'
    cases hx'
  · obtain rfl := Option.some.inj (hy.symm.trans hx')
    exact ⟨x, hx, hstep.token.symm⟩

namespace TokenInv

variable {s : Connector} (h : TokenInv s)
include h

/-- The sessions and groups are as before, and no dial was added. -/
theorem of_le {s' : Connector}
    (hpending : ∀ d ∈ s'.loop.pendingDials, d ∈ s.loop.pendingDials)
    (hkept : ∀ d ∈ s'.loop.pendingDials, ∀ g, s.loop.groups.lookup d.addr = some g →
      ∃ g', s'.loop.groups.lookup d.addr = some g' ∧ g'.token = g.token)
    (hgroups : ∀ a g', s'.loop.groups.lookup a = some g' →
      ∃ g, s.loop.groups.lookup a = some g ∧ g.token = g'.token)
    (hnext : s'.loop.nextToken = s.loop.nextToken)
    (hsessions : ∀ X x', s'.heap.lookup X = some x' → x'.token.bits < s.loop.nextToken) :
    TokenInv s' where
  dialToken := by
    intro d hd
    obtain ⟨g, hg, htoken⟩ := h.dialToken d (hpending d hd)
    obtain ⟨g', hg', htoken'⟩ := hkept d hd g hg
    exact ⟨g', hg', htoken'.trans htoken⟩
  groupFresh := by
    intro a g' hg'
    obtain ⟨g, hg, htoken⟩ := hgroups a g' hg'
    rw [hnext, ← htoken]
    exact h.groupFresh a g hg
  sessionFresh := fun X x' hx' => hnext ▸ hsessions X x' hx'
  groupToken := by
    intro a g₁' a' g₂' hg₁' hg₂' heq
    obtain ⟨g₁, hg₁, htoken₁⟩ := hgroups a g₁' hg₁'
    obtain ⟨g₂, hg₂, htoken₂⟩ := hgroups a' g₂' hg₂'
    exact h.groupToken a g₁ a' g₂ hg₁ hg₂ (htoken₁.trans (heq.trans htoken₂.symm))

/-- Steps that leave the sessions' tokens, the dials and the groups. -/
theorem of_eq {s' : Connector} (hpending : s'.loop.pendingDials = s.loop.pendingDials)
    (hgroups : s'.loop.groups = s.loop.groups) (hnext : s'.loop.nextToken = s.loop.nextToken)
    (hsessions : ∀ X x', s'.heap.lookup X = some x' → x'.token.bits < s.loop.nextToken) :
    TokenInv s' :=
  h.of_le (fun _ hd => hpending ▸ hd) (fun _ _ g hg => ⟨g, hgroups ▸ hg, rfl⟩)
    (fun _ g hg => ⟨g, hgroups ▸ hg, rfl⟩) hnext hsessions

/-- A quiet step keeps the tokens. -/
theorem quiet {s' : Connector} (hq : Quiet s s') : TokenInv s' := by
  refine h.of_eq hq.tables.pendingDials hq.tables.groups hq.tables.nextToken ?_
  intro X x' hx'
  obtain ⟨x, hx, htoken⟩ := hq.heap.token hx'
  exact htoken ▸ h.sessionFresh X x hx

/-- Pruning only forgets groups, and none that is in flight. -/
theorem prune {s' : Connector} (hdialing : Dialing s)
    (hpending : s'.loop.pendingDials = s.loop.pendingDials)
    (hgroups : s'.loop.groups = s.pruneDeadAddresses.loop.groups)
    (hnext : s'.loop.nextToken = s.loop.nextToken) (hheap : s'.heap = s.heap) : TokenInv s' := by
  refine h.of_le (fun d hd => hpending ▸ hd) ?_ ?_ hnext (hheap ▸ h.sessionFresh)
  · intro d hd g hg
    refine ⟨{ g with sessions := g.sessions.filter s.strong }, ?_, rfl⟩
    rw [hgroups, lookup_prune]
    exact ⟨g, hg, rfl, .inl ((hdialing.inFlight _).mpr ⟨d, hpending ▸ hd, rfl⟩)⟩
  · intro a g' hg'
    rw [hgroups, lookup_prune] at hg'
    obtain ⟨g, hg, rfl, -⟩ := hg'
    exact ⟨g, hg, rfl⟩

/-- A dial is started. -/
theorem start {s' : Connector} {addr : SocketAddr} {key : Option ObfuscationKey} {l : Loop}
    (hpending : l.pendingDials = s.loop.pendingDials) (hgroups : l.groups = s.loop.groups)
    (hnext : l.nextToken = s.loop.nextToken) (hheap : s'.heap = s.heap)
    (hs' : s'.loop = startDial addr key l) : TokenInv s' := by
  cases hg : s.loop.groups.lookup addr with
  | some g =>
    -- the address keeps its token
    have hgroup : groupFor l addr = g := by simp [groupFor, hgroups, hg]
    have hlookup : ∀ a, s'.loop.groups.lookup a = s.loop.groups.lookup a := by
      intro a
      simp only [hs', startDial, hgroups, hgroup, HashMap.lookup_insert_eq]
      split
      · rename_i ha
        rw [ha, hg]
      · rfl
    have hnext' : s'.loop.nextToken = s.loop.nextToken := by
      have hmem : addr ∈ s.loop.groups := by
        rw [← AList.lookup_isSome, hg]
        rfl
      simp [hs', startDial, hgroups, hmem, hnext]
    constructor
    case dialToken =>
      intro d hd
      simp only [hs', startDial, hpending, hgroup, List.mem_append, List.mem_singleton] at hd
      rw [hlookup]
      rcases hd with hd | rfl
      · exact h.dialToken d hd
      · exact ⟨g, hg, rfl⟩
    case groupFresh =>
      intro a g' hg'
      rw [hlookup] at hg'
      exact hnext' ▸ h.groupFresh a g' hg'
    case sessionFresh =>
      rw [hheap, hnext']
      exact h.sessionFresh
    case groupToken =>
      intro a g₁ a' g₂ h₁ h₂
      rw [hlookup] at h₁ h₂
      exact h.groupToken a g₁ a' g₂ h₁ h₂
  | none =>
    -- the address gets a token nobody has seen
    have hgroup : groupFor l addr = ⟨⟨s.loop.nextToken⟩, []⟩ := by
      simp [groupFor, hgroups, hg, hnext]
    have hlookup : ∀ a, s'.loop.groups.lookup a =
        if a = addr then some ⟨⟨s.loop.nextToken⟩, []⟩ else s.loop.groups.lookup a := by
      intro a
      simp only [hs', startDial, hgroups, hgroup, HashMap.lookup_insert_eq]
    have hnext' : s'.loop.nextToken = s.loop.nextToken + 1 := by
      have hmem : addr ∉ s.loop.groups := AList.lookup_eq_none.mp hg
      simp [hs', startDial, hgroups, hmem, hnext]
    constructor
    case dialToken =>
      intro d hd
      simp only [hs', startDial, hpending, hgroup, List.mem_append, List.mem_singleton] at hd
      rw [hlookup]
      rcases hd with hd | rfl
      · obtain ⟨g, hg', htoken⟩ := h.dialToken d hd
        refine ⟨g, ?_, htoken⟩
        rw [if_neg, hg']
        rintro rfl
        rw [hg] at hg'
        cases hg'
      · exact ⟨_, if_pos rfl, rfl⟩
    case groupFresh =>
      intro a g' hg'
      rw [hlookup] at hg'
      rw [hnext']
      split at hg'
      · obtain rfl := Option.some.inj hg'
        exact Nat.lt_succ_self _
      · exact Nat.lt_succ_of_lt (h.groupFresh a g' hg')
    case sessionFresh =>
      intro X x hx
      rw [hheap] at hx
      rw [hnext']
      exact Nat.lt_succ_of_lt (h.sessionFresh X x hx)
    case groupToken =>
      intro a g₁ a' g₂ h₁ h₂ heq
      rw [hlookup] at h₁ h₂
      -- the new token is larger than every other
      have hnew : ∀ {a g}, s.loop.groups.lookup a = some g → g.token ≠ ⟨s.loop.nextToken⟩ := by
        intro a g hg htoken
        have := h.groupFresh a g hg
        rw [htoken] at this
        exact Nat.lt_irrefl _ this
      split at h₁ <;> split at h₂
      · rw [‹a = addr›, ‹a' = addr›]
      · obtain rfl := Option.some.inj h₁
        exact absurd heq.symm (hnew h₂)
      · obtain rfl := Option.some.inj h₂
        exact absurd heq (hnew h₁)
      · exact h.groupToken a g₁ a' g₂ h₁ h₂ heq

/-- A dial presents the token of its address's group. -/
theorem token_of_dial {dial : Dial} {group : AddrGroup} (hdial : dial ∈ s.loop.pendingDials)
    (hgroup : s.loop.groups.lookup dial.addr = some group) : dial.token = group.token := by
  obtain ⟨g, hg, htoken⟩ := h.dialToken dial hdial
  obtain rfl := Option.some.inj (hg.symm.trans hgroup)
  exact htoken.symm

/-- A dial turns into a session. -/
theorem install {dial : Dial} {group : AddrGroup} (hdial : dial ∈ s.loop.pendingDials)
    (hgroup : s.loop.groups.lookup dial.addr = some group) : TokenInv (s.installed dial group) := by
  refine h.of_le (fun d hd => List.mem_of_mem_erase hd) ?_ ?_ rfl ?_
  · intro d hd g hg
    simp only [installed, removeDial, HashMap.lookup_insert_eq]
    split
    · rename_i haddr
      rw [haddr, hgroup] at hg
      obtain rfl := Option.some.inj hg
      exact ⟨_, rfl, rfl⟩
    · exact ⟨g, hg, rfl⟩
  · intro a g' hg'
    simp only [installed, removeDial, HashMap.lookup_insert_eq] at hg'
    split at hg'
    · rename_i haddr
      obtain rfl := Option.some.inj hg'
      exact ⟨group, haddr ▸ hgroup, rfl⟩
    · exact ⟨g', hg', rfl⟩
  · intro X x hx
    simp only [installed, HashMap.lookup_insert_eq] at hx
    split at hx
    · obtain rfl := Option.some.inj hx
      rw [h.token_of_dial hdial hgroup]
      exact h.groupFresh _ group hgroup
    · exact h.sessionFresh X x hx

/-- A step keeps the tokens. -/
theorem step {s' : Connector} {e : ConnectorEvent} (hdialing : Dialing s)
    (hstep : ConnectorStep s e s') : TokenInv s' := by
  cases hstep with
  | quiet hq => exact h.quiet hq
  | installed dial group harm hdial hgroup => exact h.install hdial hgroup
  | panicked dial harm hdial hgroup => exact absurd hgroup (hdialing.group_of_dial hdial)
  | failed dial waiters answers he harm hdial =>
    exact h.of_le (fun d hd => List.mem_of_mem_erase hd) (fun d _ g hg => ⟨g, hg, rfl⟩)
      (fun a g hg => ⟨g, hg, rfl⟩) rfl h.sessionFresh
  | pruned addr old he harm => exact h.prune hdialing rfl rfl rfl rfl
  | drained addr session old harm =>
    refine h.of_eq rfl rfl rfl ?_
    intro X x hx
    simp only [setArm, setLoop, drain, HashMap.lookup_modify] at hx
    split at hx
    · obtain ⟨y, hy, rfl⟩ := Option.map_eq_some_iff.mp hx
      exact h.sessionFresh X y hy
    · exact h.sessionFresh X x hx
  | retired addr session old stage harm hstage => exact h.of_eq rfl rfl rfl h.sessionFresh
  | mapped addr session old harm => exact h.of_eq rfl rfl rfl h.sessionFresh
  | reaped session x he hx harm hfinished =>
    have hs₁ : TokenInv (s.unmapped session x) := by
      refine h.of_eq rfl rfl rfl ?_
      intro X y hy
      simp only [Connector.unmapped, HashMap.lookup_modify] at hy
      split at hy
      · obtain ⟨z, hz, rfl⟩ := Option.map_eq_some_iff.mp hy
        exact h.sessionFresh X z hz
      · exact h.sessionFresh X y hy
    exact hs₁.prune (hdialing.unmapped session x) rfl rfl rfl rfl
  | dialled addr key l he hstart harm hfree hroom htables harm' =>
    exact h.start (l := { l with addrKeys := l.addrKeys.insert addr key }) htables.pendingDials
      htables.groups htables.nextToken rfl rfl
  | redialled addr trigger wantsMigration old he hstart harm htarget =>
    exact h.start (l := { s.loop with redials := s.loop.redials.insert addr ⟨old, trigger⟩ })
      rfl rfl rfl rfl rfl
  | reset harm hreset =>
    obtain ⟨-, -, -, -, hheap, -, hgroups, hpending, -, -, hnext, -⟩ := reset_eq hreset
    refine h.of_le (by simp [hpending]) (by simp [hpending]) (by simp [hgroups]) hnext ?_
    intro X x hx
    rw [hheap, HashMap.lookup_mapVal] at hx
    obtain ⟨y, hy, rfl⟩ := Option.map_eq_some_iff.mp hx
    have := h.sessionFresh X y hy
    split <;> exact this

end TokenInv

/-! ## The sessions the loop knows -/

/-- A session of the token is still up. -/
def Connector.Up (s : Connector) (token : GroupToken) (X : SessionId) : Prop :=
  ∃ x, s.heap.lookup X = some x ∧ x.token = token ∧ x.unfinished

/-- The session of the address the arm is installing. -/
def Arm.installing : Arm → SocketAddr → Option SessionId
  | .completing b session _ _, a => if b = a then some session else none
  | _, _ => none

/-- The session of the address the arm is replacing, until it is in `draining`. -/
def Arm.replacing : Arm → SocketAddr → Option SessionId
  | .completing _ _ _ (.answer _), _ => none
  | .completing b _ old _, a => if b = a then old else none
  | _, _ => none

/-- The newest session the loop knows of an address. -/
def Connector.newer (s : Connector) (a : SocketAddr) : Option SessionId :=
  (s.loop.arm.installing a).or (s.sessions.lookup a)

/-- The one before it. -/
def Connector.older (s : Connector) (a : SocketAddr) : Option SessionId :=
  (s.loop.arm.replacing a).or (s.draining.lookup a)

theorem Arm.installing_coarse (arm : Arm) : arm.coarse.installing = arm.installing := by
  funext a
  unfold Arm.coarse
  split <;> rfl

theorem Arm.replacing_coarse (arm : Arm) : arm.coarse.replacing = arm.replacing := by
  funext a
  unfold Arm.coarse
  split <;> rfl

/-- The loop knows every session of an address that is up, and of a dial in flight only the one it
leaves in its place. -/
structure KnownInv (s : Connector) : Prop where
  known : ∀ a g, s.loop.groups.lookup a = some g → ∀ X, s.Up g.token X →
    s.newer a = some X ∨ s.older a = some X
  /-- a redial has found the draining session finished -/
  redialing : ∀ a g r, s.loop.groups.lookup a = some g → s.loop.redials.lookup a = some r →
    ∀ X, s.Up g.token X → s.newer a = some X
  /-- a `Connect` has found the mapped session finished -/
  connecting : ∀ a g, s.loop.groups.lookup a = some g → a ∈ s.loop.inFlightDials →
    s.loop.redials.lookup a = none → ∀ X, s.Up g.token X → s.older a = some X

/-- The connector starts without sessions. -/
theorem knownInv_init (explorerCtx : Bool) : KnownInv (Connector.init explorerCtx) where
  known := by simp [Connector.init]
  redialing := by simp [Connector.init]
  connecting := by simp [Connector.init]

/-- A watcher that has finished never runs again. -/
theorem SessionStep.unfinished {x x' : Session} (h : SessionStep x x') (hx : x'.unfinished) :
    x.unfinished := by
  cases hw : x.watcher with
  | running => exact .inl hw
  | lingering => exact .inr hw
  | finished =>
    rcases hx with hx | hx <;> rw [h.finished hw] at hx <;> cases hx
  | reaped =>
    rcases hx with hx | hx <;> rw [h.reaped.mpr hw] at hx <;> cases hx

/-- Quiet steps finish sessions and start none. -/
theorem HeapStep.up {s s' : Connector} (h : HeapStep s.heap s'.heap) {token : GroupToken}
    {X : SessionId} (hX : s'.Up token X) : s.Up token X := by
  obtain ⟨x', hx', htoken, hunfinished⟩ := hX
  rcases h.lookup X with ⟨-, hnone⟩ | ⟨x, y, hx, hy, hstep⟩
  · rw [hnone] at hx'
    cases hx'
  · obtain rfl := Option.some.inj (hy.symm.trans hx')
    exact ⟨x, hx, hstep.token.symm.trans htoken, hstep.unfinished hunfinished⟩

/-- A change that keeps tokens and watchers. -/
theorem Connector.Up.of_modify {s s' : Connector} {token : GroupToken} {X : SessionId}
    (Y : SessionId) (f : Session → Session) (hheap : s'.heap = s.heap.modify Y f)
    (hf : ∀ x, (f x).token = x.token ∧ ((f x).unfinished → x.unfinished)) (hX : s'.Up token X) :
    s.Up token X := by
  obtain ⟨x', hx', htoken, hunfinished⟩ := hX
  rw [hheap, HashMap.lookup_modify] at hx'
  split at hx'
  · obtain ⟨x, hx, rfl⟩ := Option.map_eq_some_iff.mp hx'
    exact ⟨x, hx, (hf x).1.symm.trans htoken, (hf x).2 hunfinished⟩
  · exact ⟨x', hx', htoken, hunfinished⟩

namespace KnownInv

variable {s : Connector} (h : KnownInv s)
include h

/-- Steps that bring up no session, start no dial, and keep what the loop knows. -/
theorem of_le {s' : Connector}
    (hgroups : ∀ a g', s'.loop.groups.lookup a = some g' →
      ∃ g, s.loop.groups.lookup a = some g ∧ g.token = g'.token)
    (hup : ∀ token X, s'.Up token X → s.Up token X)
    (hnewer : ∀ a token X, s'.Up token X → s.newer a = some X → s'.newer a = some X)
    (holder : ∀ a, s'.older a = s.older a)
    (hredials : ∀ a r, s'.loop.redials.lookup a = some r → s.loop.redials.lookup a = some r)
    (hfly : ∀ a, a ∈ s'.loop.inFlightDials → a ∈ s.loop.inFlightDials ∧
      (s'.loop.redials.lookup a = none → s.loop.redials.lookup a = none)) : KnownInv s' where
  known := by
    intro a g' hg' X hX
    obtain ⟨g, hg, htoken⟩ := hgroups a g' hg'
    rw [holder]
    exact (h.known a g hg X (htoken ▸ hup _ X hX)).imp_left (hnewer a _ X hX)
  redialing := by
    intro a g' r hg' hr X hX
    obtain ⟨g, hg, htoken⟩ := hgroups a g' hg'
    exact hnewer a _ X hX (h.redialing a g r hg (hredials a r hr) X (htoken ▸ hup _ X hX))
  connecting := by
    intro a g' hg' ha hnone X hX
    obtain ⟨g, hg, htoken⟩ := hgroups a g' hg'
    obtain ⟨ha, hredials⟩ := hfly a ha
    rw [holder]
    exact h.connecting a g hg ha (hredials hnone) X (htoken ▸ hup _ X hX)

/-- Steps that leave the tables. -/
theorem of_eq {s' : Connector} (hgroups : s'.loop.groups = s.loop.groups)
    (hredials : s'.loop.redials = s.loop.redials)
    (hfly : s'.loop.inFlightDials = s.loop.inFlightDials)
    (hup : ∀ token X, s'.Up token X → s.Up token X) (hnewer : ∀ a, s'.newer a = s.newer a)
    (holder : ∀ a, s'.older a = s.older a) : KnownInv s' :=
  h.of_le (fun _ g hg => ⟨g, hgroups ▸ hg, rfl⟩) hup (fun a _ _ _ hX => (hnewer a).trans hX) holder
    (fun _ _ hr => hredials ▸ hr) fun _ ha => ⟨hfly ▸ ha, fun hnone => hredials ▸ hnone⟩

/-- A quiet step keeps every session known. -/
theorem quiet {s' : Connector} (hq : Quiet s s') : KnownInv s' := by
  refine h.of_eq hq.tables.groups hq.tables.redials hq.tables.inFlightDials
    (fun _ _ => hq.heap.up) ?_ ?_
  · intro a
    rw [newer, newer, hq.sessions, ← Arm.installing_coarse s'.loop.arm, hq.arm,
      Arm.installing_coarse]
  · intro a
    rw [older, older, hq.draining, ← Arm.replacing_coarse s'.loop.arm, hq.arm,
      Arm.replacing_coarse]

/-- A finished dial: what was up before it is what it leaves in its place. -/
theorem install {dial : Dial} {group : AddrGroup} (htokens : TokenInv s) (hgate : GateInv s)
    (hdialing : Dialing s) (harm : s.loop.arm = .select) (hdial : dial ∈ s.loop.pendingDials)
    (hgroup : s.loop.groups.lookup dial.addr = some group) :
    KnownInv (s.installed dial group) := by
  have hgroups : ∀ a g', (s.installed dial group).loop.groups.lookup a = some g' →
      ∃ g, s.loop.groups.lookup a = some g ∧ g.token = g'.token := by
    intro a g' hg'
    simp only [installed, removeDial, HashMap.lookup_insert_eq] at hg'
    split at hg'
    · rename_i haddr
      obtain rfl := Option.some.inj hg'
      exact ⟨group, haddr ▸ hgroup, rfl⟩
    · exact ⟨g', hg', rfl⟩
  -- the new session presents the token of its own address
  have hup : ∀ {a g X}, s.loop.groups.lookup a = some g →
      (s.installed dial group).Up g.token X →
      s.Up g.token X ∨ X = s.nextSession ∧ a = dial.addr := by
    rintro a g X hg ⟨x, hx, htoken, hunfinished⟩
    simp only [installed, HashMap.lookup_insert_eq] at hx
    split at hx
    · rename_i hX
      obtain rfl := Option.some.inj hx
      exact .inr ⟨hX, htokens.groupToken a g _ group hg hgroup
        (htoken.symm.trans (htokens.token_of_dial hdial hgroup))⟩
    · exact .inl ⟨x, hx, htoken, hunfinished⟩
  have hnewer : ∀ a, (s.installed dial group).newer a =
      if dial.addr = a then some s.nextSession else s.newer a := by
    intro a
    simp only [newer, harm, installed, removeDial, Arm.installing]
    split <;> simp
  have holder : ∀ a, (s.installed dial group).older a =
      ((if dial.addr = a then s.redialedOld a else none).or (s.older a)) := by
    intro a
    simp only [older, harm, installed, removeDial, Arm.replacing]
    split
    · rename_i haddr
      subst haddr
      simp
    · simp
  have hfly : dial.addr ∈ s.loop.inFlightDials := (hdialing.inFlight _).mpr ⟨dial, hdial, rfl⟩
  -- nothing in flight is left at the address of the dial
  have hredials : ∀ {a r}, (s.installed dial group).loop.redials.lookup a = some r →
      dial.addr ≠ a ∧ s.loop.redials.lookup a = some r := by
    intro a r hr
    simp only [installed, removeDial, HashMap.lookup_erase_eq] at hr
    split at hr
    · cases hr
    · rename_i hne
      exact ⟨fun heq => hne heq.symm, hr⟩
  constructor
  case known =>
    intro a g' hg' X hX
    obtain ⟨g, hg, htoken⟩ := hgroups a g' hg'
    rw [hnewer, holder]
    rcases hup hg (htoken ▸ hX) with hX | ⟨rfl, rfl⟩
    · by_cases haddr : dial.addr = a
      · subst haddr
        right
        rw [if_pos rfl]
        cases hr : s.loop.redials.lookup dial.addr with
        | some r =>
          have hmapped := h.redialing _ g r hg hr X hX
          simp only [newer, harm, Arm.installing, Option.none_or] at hmapped
          obtain rfl := (hgate.redial _ r hr).2 X hmapped
          simp [redialedOld, hr]
        | none =>
          rw [redialedOld, hr, Option.map_none, Option.none_or]
          exact h.connecting _ g hg hfly hr X hX
      · rw [if_neg haddr, if_neg haddr, Option.none_or]
        exact h.known a g hg X hX
    · exact .inl (if_pos rfl)
  case redialing =>
    intro a g' r hg' hr X hX
    obtain ⟨g, hg, htoken⟩ := hgroups a g' hg'
    obtain ⟨haddr, hr⟩ := hredials hr
    rw [hnewer, if_neg haddr]
    rcases hup hg (htoken ▸ hX) with hX | ⟨-, rfl⟩
    · exact h.redialing a g r hg hr X hX
    · exact absurd rfl haddr
  case connecting =>
    intro a g' hg' ha hnone X hX
    obtain ⟨g, hg, htoken⟩ := hgroups a g' hg'
    obtain ⟨haddr, ha⟩ := Finset.mem_erase.mp ha
    rw [holder, if_neg (Ne.symm haddr), Option.none_or]
    rcases hup hg (htoken ▸ hX) with hX | ⟨-, rfl⟩
    · refine h.connecting a g hg ha ?_ X hX
      simpa only [installed, removeDial, HashMap.lookup_erase_eq, if_neg haddr] using hnone
    · exact absurd rfl haddr

/-- The replaced session moves to `draining`. -/
theorem retired {addr : SocketAddr} {session : SessionId} {old : Option SessionId} {stage : Stage}
    (harm : s.loop.arm = .completing addr session old stage)
    (hstage : stage = .rebind ∨ stage = .move []) : KnownInv (s.retire addr session old) := by
  refine h.of_eq rfl rfl rfl (fun _ _ => id) ?_ ?_
  · intro a
    simp only [newer, retire, harm, Arm.installing]
  · intro a
    have hreplacing : s.loop.arm.replacing a = if addr = a then old else none := by
      rw [harm]
      rcases hstage with rfl | rfl <;> rfl
    rw [older, older, hreplacing]
    simp only [retire, Arm.replacing, Option.none_or]
    cases old with
    | none => simp
    | some o =>
      simp only [HashMap.lookup_insert_eq]
      by_cases haddr : addr = a
      · simp [haddr]
      · simp [haddr, Ne.symm haddr]

/-- The new session moves to the map. -/
theorem mapped {addr : SocketAddr} {session : SessionId} {old : Option SessionId}
    (harm : s.loop.arm = .completing addr session old (.answer [])) :
    KnownInv { s.setArm .select with sessions := s.sessions.insert addr session } := by
  refine h.of_eq rfl rfl rfl (fun _ _ => id) ?_ ?_
  · intro a
    simp only [newer, setArm, setLoop, harm, Arm.installing, HashMap.lookup_insert_eq,
      Option.none_or]
    by_cases haddr : addr = a
    · simp [haddr]
    · simp [haddr, Ne.symm haddr]
  · intro a
    simp only [older, setArm, setLoop, harm, Arm.replacing]

/-- Only a session that has finished leaves the map. -/
theorem reaped {session : SessionId} {x : Session} (harm : s.loop.arm = .select) :
    KnownInv (s.unmapped session x).pruneDeadAddresses := by
  have hup : ∀ token X, (s.unmapped session x).Up token X → s.Up token X ∧ X ≠ session := by
    intro token X hX
    refine ⟨hX.of_modify session (fun x => { x with watcher := .reaped }) rfl
      fun _ => ⟨rfl, by simp [Session.unfinished]⟩, ?_⟩
    rintro rfl
    obtain ⟨y, hy, -, hunfinished⟩ := hX
    simp only [unmapped, HashMap.lookup_modify, if_pos] at hy
    obtain ⟨z, -, rfl⟩ := Option.map_eq_some_iff.mp hy
    simp [Session.unfinished] at hunfinished
  refine h.of_le ?_ (fun token X hX => (hup token X hX).1) ?_ (fun _ => rfl) (fun _ _ => id)
    fun a ha => ⟨ha, id⟩
  · intro a g' hg'
    obtain ⟨g, hg, rfl, -⟩ := lookup_prune.mp hg'
    exact ⟨g, hg, rfl⟩
  · intro a token X hX hnewer
    have hne := (hup token X hX).2
    simp only [newer, harm, Arm.installing, Option.none_or] at hnewer
    have hsessions : (s.unmapped session x).sessions.lookup a = some X := by
      simp only [unmapped]
      split
      · rename_i hmapped
        rw [HashMap.lookup_erase_eq, if_neg, hnewer]
        rintro rfl
        exact hne (Option.some.inj (hnewer.symm.trans hmapped))
      · exact hnewer
    change (s.loop.arm.installing a).or ((s.unmapped session x).sessions.lookup a) = some X
    rw [hsessions, harm]
    rfl

/-- A dial is started: of the sessions the loop knows at the address, those that are up are the ones
the caller names. -/
theorem start {s' : Connector} {addr : SocketAddr} {key : Option ObfuscationKey} {l : Loop}
    (htokens : TokenInv s) (hgroups : l.groups = s.loop.groups)
    (hnext : l.nextToken = s.loop.nextToken)
    (hs' : s' = s.setLoop fun _ => startDial addr key l) (harm : l.arm = s.loop.arm)
    (hfly : l.inFlightDials = s.loop.inFlightDials)
    (hredials : ∀ a, a ≠ addr → l.redials.lookup a = s.loop.redials.lookup a)
    (hredialing : ∀ g r, s.loop.groups.lookup addr = some g → l.redials.lookup addr = some r →
      ∀ X, s.Up g.token X → s.newer addr = some X)
    (hconnecting : ∀ g, s.loop.groups.lookup addr = some g → l.redials.lookup addr = none →
      ∀ X, s.Up g.token X → s.older addr = some X) : KnownInv s' := by
  subst hs'
  have hnewer : ∀ a, (s.setLoop fun _ => startDial addr key l).newer a = s.newer a := by
    intro a
    simp only [newer, setLoop, startDial, harm]
  have holder : ∀ a, (s.setLoop fun _ => startDial addr key l).older a = s.older a := by
    intro a
    simp only [older, setLoop, startDial, harm]
  -- a group that is new has a token nobody presents
  have hgroup : ∀ {a g' X}, (startDial addr key l).groups.lookup a = some g' →
      s.Up g'.token X → s.loop.groups.lookup a = some g' := by
    rintro a g' X hg' ⟨x, hx, htoken, -⟩
    simp only [startDial, HashMap.lookup_insert_eq, groupFor, hgroups] at hg'
    split at hg'
    · rename_i haddr
      subst haddr
      cases hg : s.loop.groups.lookup a with
      | some g =>
        rw [hg] at hg'
        exact hg'
      | none =>
        rw [hg] at hg'
        obtain rfl := Option.some.inj hg'
        have := htokens.sessionFresh X x hx
        rw [htoken, hnext] at this
        exact absurd this (Nat.lt_irrefl _)
    · exact hg'
  constructor
  case known =>
    intro a g' hg' X hX
    rw [hnewer, holder]
    exact h.known a g' (hgroup hg' hX) X hX
  case redialing =>
    intro a g' r hg' hr X hX
    rw [hnewer]
    have hg := hgroup hg' hX
    by_cases haddr : a = addr
    · subst haddr
      exact hredialing g' r hg hr X hX
    · exact h.redialing a g' r hg ((hredials a haddr).symm.trans hr) X hX
  case connecting =>
    intro a g' hg' ha hnone X hX
    rw [holder]
    have hg := hgroup hg' hX
    by_cases haddr : a = addr
    · subst haddr
      exact hconnecting g' hg hnone X hX
    · refine h.connecting a g' hg ?_ ((hredials a haddr).symm.trans hnone) X hX
      simp only [setLoop, startDial, hfly] at ha
      exact Finset.mem_of_mem_insert_of_ne ha haddr

/-- **What the loop knows.** The `Redial` arm leaves the draining session alone while it is held;
once it is not held, it has finished. -/
theorem step {s' : Connector} {e : ConnectorEvent} (htokens : TokenInv s) (hgate : GateInv s)
    (hdialing : Dialing s) (hforgets : s.forgetsFinished e) (hstep : ConnectorStep s e s') :
    KnownInv s' := by
  cases hstep with
  | quiet hq => exact h.quiet hq
  | installed dial group harm hdial hgroup =>
    exact h.install htokens hgate hdialing harm hdial hgroup
  | panicked dial harm hdial hgroup => exact absurd hgroup (hdialing.group_of_dial hdial)
  | failed dial waiters answers he harm hdial =>
    refine h.of_le (fun a g hg => ⟨g, hg, rfl⟩) (fun _ _ => id) ?_ ?_ ?_ ?_
    · intro a token X _ hnewer
      rw [newer, harm] at hnewer
      exact hnewer
    · intro a
      rw [older, older, harm]
      rfl
    · intro a r hr
      simp only [setLoop, removeDial, HashMap.lookup_erase_eq] at hr
      split at hr
      · cases hr
      · exact hr
    · intro a ha
      obtain ⟨hne, ha⟩ := Finset.mem_erase.mp ha
      refine ⟨ha, fun hnone => ?_⟩
      simpa only [setLoop, removeDial, HashMap.lookup_erase_eq, if_neg hne] using hnone
  | pruned addr old he harm =>
    refine h.of_le ?_ (fun _ _ => id) ?_ ?_ (fun _ _ => id) fun a ha => ⟨ha, id⟩
    · intro a g' hg'
      obtain ⟨g, hg, rfl, -⟩ := lookup_prune.mp hg'
      exact ⟨g, hg, rfl⟩
    · intro a token X _ hnewer
      rw [newer, harm] at hnewer
      exact hnewer
    · intro a
      rw [older, older, harm]
      rfl
  | drained addr session old harm =>
    refine h.of_eq rfl rfl rfl (fun _ _ hX => hX.of_modify old
      (fun x => { x with streams := [], successor := some session }) rfl fun _ => ⟨rfl, id⟩) ?_ ?_
    · intro a
      rw [newer, newer, harm]
      rfl
    · intro a
      rw [older, older, harm]
      rfl
  | retired addr session old stage harm hstage => exact h.retired harm hstage
  | mapped addr session old harm => exact h.mapped harm
  | reaped session x he hx harm hfinished => exact h.reaped harm
  | dialled addr key l he hstart harm hfree hroom htables harm' =>
    obtain ⟨lane, response, rfl⟩ := he
    refine h.start (l := { l with addrKeys := l.addrKeys.insert addr key }) htokens htables.groups
      htables.nextToken rfl (harm'.trans harm.symm) htables.inFlightDials
      (fun a _ => by rw [← htables.redials]) ?_ ?_
    · intro g r hg hr
      rw [htables.redials] at hr
      exact absurd (hdialing.redials addr r hr) hfree
    · intro g hg _ X hX
      refine (h.known addr g hg X hX).resolve_left fun hnewer => ?_
      simp only [newer, harm, Arm.installing, Option.none_or] at hnewer
      obtain ⟨x, hx, -, hunfinished⟩ := hX
      exact hforgets addr hstart (mem_of_lookup hg) X hnewer x hx hunfinished
  | redialled addr trigger wantsMigration old he hstart harm htarget =>
    subst he
    obtain ⟨-, -, -, hdead⟩ := redialTarget_eq_some htarget
    refine h.start (l := { s.loop with redials := s.loop.redials.insert addr ⟨old, trigger⟩ })
      htokens rfl rfl rfl rfl rfl ?_ ?_ ?_
    · intro a ha
      rw [HashMap.lookup_insert_eq, if_neg ha]
    · intro g r hg _ X hX
      refine (h.known addr g hg X hX).resolve_right fun holder => ?_
      -- the gate was open: nobody holds the draining session
      simp only [older, harm, Arm.replacing, Option.none_or] at holder
      have hforgotten : s.forgets (.redial addr trigger wantsMigration) = some X := by
        simp [forgets, holder, hdead X holder]
      obtain ⟨x, hx, -, hunfinished⟩ := hX
      exact hforgets addr hstart (mem_of_lookup hg) X hforgotten x hx hunfinished
    · intro g hg hnone
      rw [HashMap.lookup_insert_eq, if_pos rfl] at hnone
      cases hnone
  | reset harm hreset =>
    obtain ⟨-, -, -, -, -, -, hgroups, -⟩ := reset_eq hreset
    constructor <;> simp [hgroups]

/-- At most two sessions of a token are up, and next to a dial in flight at most one. -/
theorem atMostTwo {a : SocketAddr} {g : AddrGroup} (hg : s.loop.groups.lookup a = some g) :
    s.unfinished g.token + (if a ∈ s.loop.inFlightDials then 1 else 0) ≤ 2 := by
  have hcount : ∀ l : List SessionId, (∀ X, s.Up g.token X → X ∈ l) →
      s.unfinished g.token ≤ l.length := by
    intro l hl
    refine HashMap.total_le_length (p := fun x : Session => x.token = g.token ∧ x.unfinished) l ?_
    exact fun X x hx hcounted => hl X ⟨x, hx, hcounted⟩
  have hlength : ∀ o : Option SessionId, o.toList.length ≤ 1 := by
    intro o
    cases o <;> simp
  split
  · rename_i ha
    have hone : s.unfinished g.token ≤ 1 := by
      cases hr : s.loop.redials.lookup a with
      | some r =>
        exact Nat.le_trans (hcount (s.newer a).toList fun X hX =>
          Option.mem_toList.mpr (h.redialing a g r hg hr X hX)) (hlength _)
      | none =>
        exact Nat.le_trans (hcount (s.older a).toList fun X hX =>
          Option.mem_toList.mpr (h.connecting a g hg ha hr X hX)) (hlength _)
    omega
  · have htwo := hcount ((s.newer a).toList ++ (s.older a).toList) fun X hX => by
      rw [List.mem_append, Option.mem_toList, Option.mem_toList]
      exact h.known a g hg X hX
    rw [List.length_append] at htwo
    have := hlength (s.newer a)
    have := hlength (s.older a)
    omega

end KnownInv

/-! ## The two sides -/

/-- A live member of the server's group for a token. -/
def SessionGroups.MemberOf (reg : SessionGroups) (token : GroupToken) (j : JoinId) : Prop :=
  ∃ pair seq p, reg.handles.lookup j = some ⟨pair, .member seq⟩ ∧
    reg.pairs.lookup pair = some p ∧ p.token = token

/-- The server counts nothing but sessions that are up: each member of the token belongs to a
session of its own whose watcher has not finished. -/
def Connector.Seats (s : Connector) (reg : SessionGroups) (token : GroupToken) : Prop :=
  ∃ owner : JoinId → SessionId,
    (∀ j j', reg.MemberOf token j → reg.MemberOf token j' → owner j = owner j' → j = j') ∧
    ∀ j, reg.MemberOf token j →
      ∃ x, s.heap.lookup (owner j) = some x ∧ x.token = token ∧ x.unfinished

/-- The server has a seat left: neither `is_full` nor `join` refuses the token. -/
def SessionGroups.HasSeat (reg : SessionGroups) (token : GroupToken) : Prop :=
  reg.isFull token = false ∧
    ∀ pair p, reg.pairs.lookup pair = some p → p.token = token → p.state.members < 2

/-- The members of a token are no more than the unfinished sessions. -/
theorem members_le_unfinished {bound : Nat} {reg : SessionGroups} {s : Connector}
    {token : GroupToken} (hreg : (sessionGroups bound).Reaches reg) (hseats : s.Seats reg token)
    {pair : PairId} {p : SessionPair} (hp : reg.pairs.lookup pair = some p)
    (htoken : p.token = token) : p.state.members ≤ s.unfinished token := by
  obtain ⟨owner, hinj, howner⟩ := hseats
  rw [(groupInv_of_reaches hreg).counted pair p hp]
  -- a handle that counts for the pair is a live member of the token
  have hmember : ∀ j hd, reg.handles.lookup j = some hd → hd.pair = pair ∧ hd.isMember = true →
      reg.MemberOf token j := by
    rintro j ⟨pair', phase⟩ hj ⟨rfl, hphase⟩
    cases phase with
    | member seq => exact ⟨pair', seq, p, hj, hp, htoken⟩
    | _ => cases hphase
  refine HashMap.total_le_of_injOn (p := fun hd : PairHandle => hd.pair = pair ∧ hd.isMember = true)
    (q := fun x : Session => x.token = token ∧ x.unfinished) owner ?_ ?_
  · intro j j' hd hd' hj hcount hj' hcount'
    exact hinj j j' (hmember j hd hj hcount) (hmember j' hd' hj' hcount')
  · intro j hd hj hcount
    exact howner j (hmember j hd hj hcount)

/-- The invariant holds in every run that forgets finished sessions only. -/
theorem knownInv_of_reaches {explorerCtx : Bool} {s : Connector}
    (h : (connector explorerCtx).ReachesWhere Connector.forgetsFinished s) : KnownInv s := by
  have hall : (Addressed s ∧ GateInv s) ∧ Dialing s ∧ TokenInv s ∧ KnownInv s := by
    refine h.invariant
      (I := fun s => (Addressed s ∧ GateInv s) ∧ Dialing s ∧ TokenInv s ∧ KnownInv s) ?_ ?_
    · exact ⟨⟨addressed_init explorerCtx, gateInv_init explorerCtx⟩, dialing_init explorerCtx,
        tokenInv_init explorerCtx, knownInv_init explorerCtx⟩
    · rintro s e s' ⟨⟨haddressed, hgate⟩, hdialing, htokens, hknown⟩ hforgets hstep
      exact ⟨⟨haddressed.step (.of_step hstep), hgate.step haddressed (.of_step hstep)⟩,
        hdialing.step (.of_step hstep), htokens.step hdialing (.of_step hstep),
        hknown.step htokens hgate hdialing hforgets (.of_step hstep)⟩
  exact hall.2.2.2

/-- **Two generations.** In a run in which no dial makes the loop forget a session that is still up,
the unfinished sessions of an address's token and its dial in flight are never more than two, and
the server's registry has a seat for that dial. -/
theorem two_generations {explorerCtx : Bool} {s : Connector}
    (h : (connector explorerCtx).ReachesWhere Connector.forgetsFinished s) {a : SocketAddr}
    {g : AddrGroup} (hg : s.loop.groups.lookup a = some g) :
    s.unfinished g.token + (if a ∈ s.loop.inFlightDials then 1 else 0) ≤ 2 ∧
      (a ∈ s.loop.inFlightDials → ∀ bound reg, (sessionGroups bound).Reaches reg →
        s.Seats reg g.token → reg.HasSeat g.token) := by
  have hsum := (knownInv_of_reaches h).atMostTwo hg
  refine ⟨hsum, fun ha bound reg hreg hseats => ?_⟩
  rw [if_pos ha] at hsum
  have hseat : ∀ pair p, reg.pairs.lookup pair = some p → p.token = g.token →
      p.state.members < 2 := by
    intro pair p hp htoken
    have := members_le_unfinished hreg hseats hp htoken
    omega
  refine ⟨?_, hseat⟩
  -- the registry maps the token to a pair of that token
  simp only [SessionGroups.isFull]
  split
  · rename_i pair hpair
    obtain ⟨p, hp, htoken⟩ := (groupInv_of_reaches hreg).keyed g.token pair hpair
    have hlt := hseat pair p hp htoken
    simp [hp, Nat.not_le.mpr hlt]
  · rfl

/-- An address is dialled and redialled; the first generation has drained. -/
def redialRun : List ConnectorEvent :=
  [.connect (.v4 1 1) .bulk none 0, .dialDone ⟨.v4 1 1, ⟨0⟩, none⟩ (.ok ()), .advance, .advance,
    .advance, .dropStream 0, .redial (.v4 1 1) .forced false,
    .dialDone ⟨.v4 1 1, ⟨0⟩, none⟩ (.ok ()), .advance, .advance, .advance, .watcher 0]

/-- Once the linger of the first generation is over, a second redial finds a seat. -/
theorem two_generations_redial :
    ∃ s g reg, (connector false).ReachesWhere Connector.forgetsFinished s ∧
      s.loop.groups.lookup (.v4 1 1) = some g ∧ (.v4 1 1) ∈ s.loop.inFlightDials ∧
      (sessionGroups 1).Reaches reg ∧ s.Seats reg g.token ∧
      s.unfinished g.token + 1 ≤ 2 ∧ reg.HasSeat g.token := by
  have hrun : ∃ s g, (connector false).ReachesWhere Connector.forgetsFinished s ∧
      s.loop.groups.lookup (.v4 1 1) = some g ∧ (.v4 1 1) ∈ s.loop.inFlightDials ∧
      g.token = ⟨0⟩ ∧ ∃ x, s.heap.lookup 1 = some x ∧ x.token = ⟨0⟩ ∧ x.unfinished :=
    ⟨_, _, ⟨redialRun ++ [ConnectorEvent.watcher 0, .redial (.v4 1 1) .forced false],
      Machine.run_of_exec rfl⟩,
      rfl, by decide, rfl, _, rfl, rfl, .inl rfl⟩
  have hjoin : ∃ reg, (sessionGroups 1).Reaches reg ∧ reg.handles.keys = [0] :=
    ⟨_, ⟨[.lookup 0 ⟨0⟩ 0, .commit 0], Machine.run_of_exec rfl⟩, rfl⟩
  obtain ⟨s, g, hreach, hg, ha, htoken, x, hx, hxtoken, hunfinished⟩ := hrun
  obtain ⟨reg, hreg, hkeys⟩ := hjoin
  have hmember : ∀ j, reg.MemberOf ⟨0⟩ j → j = 0 := by
    rintro j ⟨pair, seq, p, hj, -⟩
    have hmem : j ∈ reg.handles.keys := AList.mem_keys.mp (AList.lookup_isSome.mp (by simp [hj]))
    simpa [hkeys] using hmem
  have hseats : s.Seats reg g.token := by
    rw [htoken]
    refine ⟨fun _ => 1, fun j j' hj hj' _ => (hmember j hj).trans (hmember j' hj').symm, ?_⟩
    exact fun j _ => ⟨x, hx, hxtoken, hunfinished⟩
  obtain ⟨hsum, hseat⟩ := two_generations hreach hg
  rw [if_pos ha] at hsum
  exact ⟨s, g, reg, hreach, hg, ha, hreg, hseats, hsum, hseat ha 1 reg hreg hseats⟩

/-- **The gate opens too early.** The `Weak` of the first generation is dead while its watcher
lingers, so a second redial is admitted with two sessions of the token still up. -/
theorem lingering_generation_counts :
    ∃ s g, (connector false).Reaches s ∧ s.loop.groups.lookup (.v4 1 1) = some g ∧
      (.v4 1 1) ∈ s.loop.inFlightDials ∧ s.unfinished g.token = 2 ∧
      ¬ s.unfinished g.token + (if (.v4 1 1) ∈ s.loop.inFlightDials then 1 else 0) ≤ 2 :=
  ⟨_, _, ⟨redialRun ++ [ConnectorEvent.redial (.v4 1 1) .forced false], Machine.run_of_exec rfl⟩,
    rfl,
    by decide, by decide, by decide⟩

end RtpMux

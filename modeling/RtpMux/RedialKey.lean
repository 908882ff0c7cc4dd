import RtpMux.Dials

/-!
# The key of a redial

A `Redial` command rebuilds the session of an address with the key that `addr_keys` has for the
address. That table is written by every `Connect` that starts a dial, so it is about the newest
dial of the address, and not about the session in the map. The two differ while a dial is in flight,
which no redial sees: a redial of an address in flight is refused. They also differ after a dial
that was started by a `Connect` over a dead session and failed, if the dead session has not been
joined yet (`redial_takes_anothers_key`).

`Connector.failsWithItsKey` excludes just this: when a dial fails, the session that is still in
the map was born with the key of that dial. Then every redial has the key of the session it redials
(`redial_keeps_key`).
-/

namespace RtpMux

open Connector

/-- The key a session was born with. -/
def Connector.keyOf (s : Connector) (session : SessionId) : Option (Option ObfuscationKey) :=
  (s.heap.lookup session).map (·.key)

/-- The key a redial of the address uses. -/
def Connector.addrKey (s : Connector) (addr : SocketAddr) : Option ObfuscationKey :=
  (s.loop.addrKeys.lookup addr).getD none

/-- A dial that fails leaves no session in the map that was born with another key. -/
def Connector.failsWithItsKey (s : Connector) : ConnectorEvent → Bool
  | .dialDone dial (.error _) => (s.sessions.lookup dial.addr).all fun X =>
    s.keyOf X = some dial.key
  | _ => true

/-- A `Redial` command does nothing, or it starts a dial with the key of the session it redials. -/
def Connector.RedialKeepsKey (s : Connector) : Prop :=
  ∀ addr trigger wantsMigration s', s.step (.redial addr trigger wantsMigration) = some s' →
    s' = s ∨ ∃ old x token, s.heap.lookup old = some x ∧
      s'.loop.redials.lookup addr = some ⟨old, trigger⟩ ∧
      s'.loop.pendingDials = s.loop.pendingDials ++ [⟨addr, token, x.key⟩]

/-- The address and the session the loop is installing. -/
def Arm.born : Arm → Option (SocketAddr × SessionId)
  | .completing addr session _ _ => some (addr, session)
  | _ => none

theorem Arm.born_coarse (arm : Arm) : arm.coarse.born = arm.born := by
  cases arm with
  | completing addr session old stage => cases stage <;> rfl
  | _ => rfl

/-! ## The keys of sessions do not change -/

section KeyOf

variable {s s' : Connector}

/-- A step on the heap keeps the keys. -/
theorem HeapStep.keyOf (h : HeapStep s.heap s'.heap) (X : SessionId) : s'.keyOf X = s.keyOf X := by
  rcases h.lookup X with ⟨hx, hx'⟩ | ⟨x, x', hx, hx', hstep⟩
  · simp [Connector.keyOf, hx, hx']
  · simp [Connector.keyOf, hx, hx', hstep.key]

/-- An update that keeps a session's key keeps the keys. -/
theorem Connector.keyOf_modify {Y : SessionId} {f : Session → Session}
    (hheap : s'.heap = s.heap.modify Y f) (hf : ∀ x, (f x).key = x.key) (X : SessionId) :
    s'.keyOf X = s.keyOf X := by
  simp only [Connector.keyOf, hheap, HashMap.lookup_modify]
  split
  · cases s.heap.lookup X with
    | none => rfl
    | some x => exact congrArg some (hf x)
  · rfl

/-- A new session has the key it was dialed with. -/
theorem Connector.keyOf_insert {x : Session} (hheap : s'.heap = s.heap.insert s.nextSession x)
    (X : SessionId) : s'.keyOf X = if X = s.nextSession then some x.key else s.keyOf X := by
  simp only [Connector.keyOf, hheap, HashMap.lookup_insert_eq]
  split <;> rfl

end KeyOf

/-! ## The table of keys -/

/-- `addr_keys` is about the dial of an address, the session that is being installed, or, if there
is neither, the session in the map. -/
structure KeyInv (s : Connector) : Prop where
  pending : ∀ d ∈ s.loop.pendingDials, d.key = s.addrKey d.addr
  installing : ∀ a X, s.loop.arm.born = some (a, X) → s.keyOf X = some (s.addrKey a)
  mapped : ∀ a X, s.sessions.lookup a = some X → a ∉ s.loop.inFlightDials →
    (∀ Y, s.loop.arm.born ≠ some (a, Y)) → s.keyOf X = some (s.addrKey a)

/-- The connector starts without keys. -/
theorem keyInv_init (explorerCtx : Bool) : KeyInv (Connector.init explorerCtx) where
  pending := by simp [Connector.init]
  installing := by simp [Connector.init, Arm.born]
  mapped := by simp [Connector.init]

namespace KeyInv

variable {s s' : Connector} (h : KeyInv s)
include h

/-- Steps that add neither dials nor sessions to the tables. -/
theorem of_tables (haddr : ∀ a, s'.addrKey a = s.addrKey a) (hkey : ∀ X, s'.keyOf X = s.keyOf X)
    (hpending : ∀ d ∈ s'.loop.pendingDials, d ∈ s.loop.pendingDials)
    (hinFlight : s'.loop.inFlightDials = s.loop.inFlightDials)
    (harm : s'.loop.arm.born = s.loop.arm.born)
    (hsessions : ∀ a X, s'.sessions.lookup a = some X → s.sessions.lookup a = some X) :
    KeyInv s' where
  pending := by
    intro d hd
    rw [haddr]
    exact h.pending d (hpending d hd)
  installing := by
    intro a X hborn
    rw [hkey, haddr]
    exact h.installing a X (harm ▸ hborn)
  mapped := by
    intro a X hX hfree hnot
    rw [hkey, haddr]
    rw [hinFlight] at hfree
    rw [harm] at hnot
    exact h.mapped a X (hsessions a X hX) hfree hnot

/-- A dial succeeded: its key is the one of the table. -/
theorem install (ha : Addressed s) {dial : Dial} (group : AddrGroup)
    (hdial : dial ∈ s.loop.pendingDials) (harm : s.loop.arm = .select) :
    KeyInv (s.installed dial group) := by
  have hkey : ∀ X, (s.installed dial group).keyOf X =
      if X = s.nextSession then some dial.key else s.keyOf X := by
    intro X
    rw [keyOf_insert (s := s) rfl]
  refine ⟨fun d hd => h.pending d (List.mem_of_mem_erase hd), ?_, ?_⟩
  · intro a X hborn
    cases hborn
    rw [hkey, if_pos rfl]
    exact congrArg some (h.pending dial hdial)
  · intro a X hX hfree hnot
    have hne : a ≠ dial.addr := by
      rintro rfl
      exact hnot s.nextSession rfl
    have hold : X ≠ s.nextSession := ha.ne_next (by rw [ha.mapped a X hX]; simp)
    rw [hkey, if_neg hold]
    refine h.mapped a X hX (fun hin => hfree ?_) ?_
    · exact Finset.mem_erase.mpr ⟨hne, hin⟩
    · rw [harm]
      nofun

/-- A dial failed: what is left in the map under its address has its key. -/
theorem fail {dial : Dial} (hdial : dial ∈ s.loop.pendingDials) (harm : s.loop.arm = .select)
    (hkeep : ∀ X, s.sessions.lookup dial.addr = some X → s.keyOf X = some dial.key)
    (hsame : s'.sessions = s.sessions ∧ s'.heap = s.heap ∧ s'.loop.addrKeys = s.loop.addrKeys)
    (hpending : s'.loop.pendingDials = s.loop.pendingDials.erase dial)
    (hinFlight : s'.loop.inFlightDials = s.loop.inFlightDials.erase dial.addr)
    (hborn : s'.loop.arm.born = none) : KeyInv s' := by
  obtain ⟨hsessions, hheap, hkeys⟩ := hsame
  have haddr : ∀ a, s'.addrKey a = s.addrKey a := by simp [addrKey, hkeys]
  have hkey : ∀ X, s'.keyOf X = s.keyOf X := by simp [keyOf, hheap]
  refine ⟨?_, ?_, ?_⟩
  · intro d hd
    rw [hpending] at hd
    rw [haddr]
    exact h.pending d (List.mem_of_mem_erase hd)
  · intro a X hb
    rw [hborn] at hb
    cases hb
  · intro a X hX hfree hnot
    rw [hsessions] at hX
    rw [hinFlight] at hfree
    rw [hkey, haddr]
    by_cases hne : a = dial.addr
    · subst hne
      rw [hkeep X hX, h.pending dial hdial]
    · refine h.mapped a X hX (fun hin => hfree (Finset.mem_erase.mpr ⟨hne, hin⟩)) ?_
      rw [harm]
      nofun

/-- A dial starts with the key that the table has from now on. -/
theorem start {addr : SocketAddr} {key : Option ObfuscationKey} {l : Loop}
    (hfree : ∀ d ∈ s.loop.pendingDials, d.addr ≠ addr)
    (hsame : s'.sessions = s.sessions ∧ s'.heap = s.heap)
    (hloop : s'.loop = startDial addr key l) (hpending : l.pendingDials = s.loop.pendingDials)
    (hinFlight : l.inFlightDials = s.loop.inFlightDials) (harm : l.arm = .select)
    (harm' : s.loop.arm = .select)
    (hkeys : ∀ a, (l.addrKeys.lookup a).getD none = if a = addr then key else s.addrKey a) :
    KeyInv s' := by
  have haddr : ∀ a, s'.addrKey a = if a = addr then key else s.addrKey a := by
    intro a
    rw [addrKey, hloop]
    exact hkeys a
  have hkey : ∀ X, s'.keyOf X = s.keyOf X := by simp [keyOf, hsame.2]
  refine ⟨?_, ?_, ?_⟩
  · intro d hd
    rw [hloop] at hd
    simp only [startDial, hpending, List.mem_append, List.mem_singleton] at hd
    rcases hd with hd | rfl
    · rw [haddr, if_neg (hfree d hd)]
      exact h.pending d hd
    · rw [haddr, if_pos rfl]
  · intro a X hb
    rw [hloop] at hb
    simp [startDial, harm, Arm.born] at hb
  · intro a X hX hfree' hnot
    rw [hloop] at hfree'
    simp only [startDial, hinFlight, Finset.mem_insert, not_or] at hfree'
    rw [hkey, haddr, if_neg hfree'.1]
    refine h.mapped a X (hsame.1 ▸ hX) hfree'.2 ?_
    rw [harm']
    intro _ h
    cases h

/-- **Step lemma.** -/
theorem step (hd : Dialing s) (ha : Addressed s) {e : ConnectorEvent}
    (hC : s.failsWithItsKey e = true) (hstep : ConnectorStep s e s') : KeyInv s' := by
  cases hstep with
  | quiet hq =>
    have haddr : ∀ a, s'.addrKey a = s.addrKey a := by simp [addrKey, hq.tables.addrKeys]
    refine h.of_tables haddr hq.heap.keyOf ?_ hq.tables.inFlightDials ?_ ?_
    · rw [hq.tables.pendingDials]
      exact fun _ => id
    · rw [← Arm.born_coarse, hq.arm, Arm.born_coarse]
    · rw [hq.sessions]
      exact fun _ _ => id
  | installed dial group harm hdial hgroup => exact h.install ha group hdial harm
  | panicked dial harm hdial hgroup => exact absurd hgroup (hd.group_of_dial hdial)
  | failed dial waiters answers he harm hdial =>
    obtain ⟨error, rfl⟩ := he
    refine h.fail hdial harm ?_ ⟨rfl, rfl, rfl⟩ rfl rfl rfl
    intro X hX
    simpa [failsWithItsKey, hX] using hC
  | pruned addr old he harm =>
    refine h.of_tables (fun _ => rfl) (fun _ => rfl) (fun _ => id) rfl ?_ fun _ _ => id
    rw [harm]
    rfl
  | drained addr session old harm =>
    refine h.of_tables (fun _ => rfl) (keyOf_modify rfl fun _ => rfl) (fun _ => id) rfl ?_
      fun _ _ => id
    rw [harm]
    rfl
  | retired addr session old stage harm hstage =>
    refine h.of_tables (fun _ => rfl) (fun _ => rfl) (fun _ => id) rfl ?_ fun _ _ => id
    rw [harm]
    rfl
  | mapped addr session old harm =>
    refine ⟨h.pending, nofun, ?_⟩
    intro a X hX hfree _
    rw [HashMap.lookup_insert_eq] at hX
    split at hX
    · rename_i heq
      subst heq
      cases hX
      exact h.installing a session (by rw [harm]; rfl)
    · rename_i hne
      refine h.mapped a X hX hfree fun Y hY => hne ?_
      rw [harm] at hY
      cases hY
      rfl
  | reaped session x he hx harm hfinished =>
    refine h.of_tables (fun _ => rfl) ?_ (fun _ => id) rfl rfl fun a X hX => lookup_unmapped hX
    exact keyOf_modify rfl fun _ => rfl
  | dialled addr key l he hstart harm hfree hroom htables harm' =>
    refine h.start (l := { l with addrKeys := l.addrKeys.insert addr key }) ?_ ⟨rfl, rfl⟩ rfl
      htables.pendingDials htables.inFlightDials harm' harm ?_
    · exact fun d hd' heq => hfree ((hd.inFlight addr).mpr ⟨d, hd', heq⟩)
    · intro a
      simp only [HashMap.lookup_insert_eq, htables.addrKeys]
      split <;> rfl
  | redialled addr trigger wantsMigration old he hstart harm htarget =>
    obtain ⟨-, hfree, -⟩ := redialTarget_eq_some htarget
    refine h.start (l := { s.loop with redials := s.loop.redials.insert addr ⟨old, trigger⟩ }) ?_
      ⟨rfl, rfl⟩ rfl rfl rfl harm harm ?_
    · exact fun d hd' heq => hfree ((hd.inFlight addr).mpr ⟨d, hd', heq⟩)
    · intro a
      split
      · rename_i heq
        rw [heq]
      · rfl
  | reset harm hreset =>
    obtain ⟨hsessions, -, -, -, -, -, -, hpending, -, -, -, harm'⟩ := reset_eq hreset
    refine ⟨by simp [hpending], ?_, by simp [hsessions]⟩
    rw [harm', harm]
    nofun

/-- What the table is for: it has the key of every session that can be redialled. -/
theorem redial (harm : s.loop.arm = .select) {addr : SocketAddr} {trigger : RedialTrigger}
    {wantsMigration : Bool} {old : SessionId}
    (htarget : s.redialTarget addr trigger wantsMigration = some old) :
    s.keyOf old = some (s.addrKey addr) := by
  obtain ⟨hmapped, hfree, -⟩ := redialTarget_eq_some htarget
  refine h.mapped addr old hmapped hfree ?_
  rw [harm]
  nofun

end KeyInv

/-! ## Whole runs -/

/-- **Run lemma.** -/
theorem keyInv_of_reaches {explorerCtx : Bool} {s : Connector}
    (h : (connector explorerCtx).ReachesWhere (fun s e => s.failsWithItsKey e = true) s) :
    KeyInv s := by
  have hall : Dialing s ∧ Addressed s ∧ KeyInv s := by
    refine h.invariant (I := fun s => Dialing s ∧ Addressed s ∧ KeyInv s)
      ⟨dialing_init _, addressed_init _, keyInv_init _⟩ ?_
    rintro s e s' ⟨hd, ha, hk⟩ hC hst
    have hstep := ConnectorStep.of_step hst
    exact ⟨hd.step hstep, ha.step hstep, hk.step hd ha hC hstep⟩
  exact hall.2.2

/-- **A redial keeps the key of its session**, in every run in which no dial fails while the map
still has a session born with another key under its address. -/
theorem redial_keeps_key {explorerCtx : Bool} {s : Connector}
    (h : (connector explorerCtx).ReachesWhere (fun s e => s.failsWithItsKey e = true) s) :
    s.RedialKeepsKey := by
  intro addr trigger wantsMigration s' hst
  simp only [Connector.step, Connector.redial] at hst
  split at hst
  · rename_i harm
    split at hst
    · exact .inl (Option.some.inj hst).symm
    · rename_i old htarget
      obtain ⟨x, hx, hkey⟩ := Option.map_eq_some_iff.mp
        ((keyInv_of_reaches h).redial harm htarget)
      cases hst
      refine .inr ⟨old, x, (groupFor s.loop addr).token, hx, ?_, ?_⟩
      · simp [setLoop, startDial]
      · rw [hkey]
        rfl
  · cases hst

/-- A session is born with one key, its opener dies, and before its watcher is joined a `Connect`
starts a dial with another key. -/
def overwrittenKeyRun : List ConnectorEvent :=
  [.connect (.v4 1 1) .interactive (some ⟨1⟩) 0,
    .dialDone ⟨.v4 1 1, ⟨0⟩, some ⟨1⟩⟩ (.ok ()), .advance, .advance, .advance, .openerDies 0,
    .connect (.v4 1 1) .interactive (some ⟨2⟩) 1]

/-- If that dial succeeds, the address has a session of the second key and a redial uses it. -/
theorem redial_follows_the_second_key :
    ∃ s, (connector false).ReachesWhere (fun s e => s.failsWithItsKey e = true) s ∧
      s.redialTarget (.v4 1 1) .forced false = some 1 ∧ s.keyOf 0 = some (some ⟨1⟩) ∧
      s.keyOf 1 = some (some ⟨2⟩) ∧ s.RedialKeepsKey := by
  have hrun : ∃ s, (connector false).ReachesWhere (fun s e => s.failsWithItsKey e = true) s ∧
      s.redialTarget (.v4 1 1) .forced false = some 1 ∧ s.keyOf 0 = some (some ⟨1⟩) ∧
      s.keyOf 1 = some (some ⟨2⟩) :=
    ⟨_, ⟨overwrittenKeyRun ++ [ConnectorEvent.dialDone ⟨.v4 1 1, ⟨0⟩, some ⟨2⟩⟩ (.ok ()), .advance,
      .advance,
      .advance], Machine.run_of_exec rfl⟩, by decide, rfl, rfl⟩
  obtain ⟨s, h, htarget, hfirst, hsecond⟩ := hrun
  exact ⟨s, h, htarget, hfirst, hsecond, redial_keeps_key h⟩

/-- **Another's key.** If that dial fails, the dead session is still in the map, and a redial of it
dials with the key of the failed dial. -/
theorem redial_takes_anothers_key :
    ∃ s, (connector false).Reaches s ∧ s.keyOf 0 = some (some ⟨1⟩) ∧
      (∃ s', s.step (.redial (.v4 1 1) .forced false) = some s' ∧
        s'.loop.redials.lookup (.v4 1 1) = some ⟨0, .forced⟩ ∧
        s'.loop.pendingDials = [⟨.v4 1 1, ⟨0⟩, some ⟨2⟩⟩]) ∧ ¬ s.RedialKeepsKey := by
  have hrun : ∃ s s', (connector false).Reaches s ∧ s.keyOf 0 = some (some ⟨1⟩) ∧
      s.step (.redial (.v4 1 1) .forced false) = some s' ∧
      s'.loop.redials.lookup (.v4 1 1) = some ⟨0, .forced⟩ ∧
      s'.loop.pendingDials = [⟨.v4 1 1, ⟨0⟩, some ⟨2⟩⟩] ∧ s.loop.pendingDials = [] :=
    ⟨_, _, ⟨overwrittenKeyRun ++
      [ConnectorEvent.dialDone ⟨.v4 1 1, ⟨0⟩, some ⟨2⟩⟩ (.error (.dialFailed 0 "")),
      .advance], Machine.run_of_exec rfl⟩, rfl, rfl, rfl, rfl, rfl⟩
  obtain ⟨s, s', h, hkey, hst, hredial, hpending', hpending⟩ := hrun
  refine ⟨s, h, hkey, ⟨s', hst, hredial, hpending'⟩, fun hkeeps => ?_⟩
  rcases hkeeps _ _ _ _ hst with rfl | ⟨old, x, token, hx, hredial', hdial⟩
  · rw [hpending] at hpending'
    cases hpending'
  · rw [hredial] at hredial'
    cases hredial'
    rw [hpending, hpending'] at hdial
    simp only [keyOf, hx, Option.map_some, Option.some.injEq] at hkey
    rw [hkey] at hdial
    simp at hdial

end RtpMux

import RtpMux.ConnectorStep

/-!
# The tables of dials

`run_connector` spreads its bookkeeping over several collections. `Dialing` says how those about
dials fit together: `in_flight_dials` is the set of addresses of `pending_dials`, every key of
`redials` is in flight, and every address in flight has its group, so that `install_session` finds
it.
-/

namespace RtpMux

open Connector

/-- The dials in flight are the pending ones, at most one for each address, and each has the group
it was started with. -/
structure Dialing (s : Connector) : Prop where
  nodup : (s.loop.pendingDials.map (·.addr)).Nodup
  inFlight : ∀ a, a ∈ s.loop.inFlightDials ↔ ∃ d ∈ s.loop.pendingDials, d.addr = a
  redials : ∀ a r, s.loop.redials.lookup a = some r → a ∈ s.loop.inFlightDials
  room : s.loop.pendingDials.length ≤ maxConcurrentDualDials
  grouped : ∀ a ∈ s.loop.inFlightDials, s.loop.groups.lookup a ≠ none
  explored : ∀ a ∈ s.loop.explorers, s.loop.groups.lookup a ≠ none
  running : s.loop.arm ≠ .panicked

theorem dialing_init (explorerCtx : Bool) : Dialing (Connector.init explorerCtx) where
  nodup := by simp [Connector.init]
  inFlight := by simp [Connector.init]
  redials := by simp [Connector.init]
  room := by simp [Connector.init]
  grouped := by simp [Connector.init]
  explored := by simp [Connector.init]
  running := by simp [Connector.init]

/-- What pruning keeps: the groups of dials in flight and of sessions that are held. -/
theorem lookup_prune {s : Connector} {a : SocketAddr} {g : AddrGroup} :
    s.pruneDeadAddresses.loop.groups.lookup a = some g ↔
      ∃ g₀, s.loop.groups.lookup a = some g₀ ∧
        { g₀ with sessions := g₀.sessions.filter s.strong } = g ∧
        (a ∈ s.loop.inFlightDials ∨ ∃ X ∈ g₀.sessions, s.strong X = true) := by
  simp only [pruneDeadAddresses, setLoop, HashMap.lookup_retain, HashMap.lookup_mapVal,
    Option.filter_eq_some_iff, Option.map_eq_some_iff, Bool.or_eq_true, decide_eq_true_eq,
    Bool.not_eq_true', List.isEmpty_eq_false_iff]
  constructor
  · rintro ⟨⟨g₀, hg₀, rfl⟩, hkeep⟩
    refine ⟨g₀, hg₀, rfl, hkeep.imp_right fun hne => ?_⟩
    obtain ⟨X, hX⟩ := List.exists_mem_of_ne_nil _ hne
    exact ⟨X, List.mem_filter.mp hX⟩
  · rintro ⟨g₀, hg₀, rfl, hkeep⟩
    refine ⟨⟨g₀, hg₀, rfl⟩, hkeep.imp_right ?_⟩
    rintro ⟨X, hX⟩
    exact List.ne_nil_of_mem (List.mem_filter.mpr hX)

namespace Dialing

variable {s : Connector} (h : Dialing s)
include h

/-- Steps that leave the dials. -/
theorem of_eq {s' : Connector} (hpending : s'.loop.pendingDials = s.loop.pendingDials)
    (hinFlight : s'.loop.inFlightDials = s.loop.inFlightDials)
    (hredials : s'.loop.redials = s.loop.redials)
    (hgrouped : ∀ a ∈ s.loop.inFlightDials, s'.loop.groups.lookup a ≠ none)
    (hexplored : ∀ a ∈ s'.loop.explorers, s'.loop.groups.lookup a ≠ none)
    (hrunning : s'.loop.arm ≠ .panicked) : Dialing s' where
  nodup := hpending ▸ h.nodup
  inFlight := by
    rw [hpending, hinFlight]
    exact h.inFlight
  redials := by
    rw [hredials, hinFlight]
    exact h.redials
  room := hpending ▸ h.room
  grouped := hinFlight ▸ hgrouped
  explored := hexplored
  running := hrunning

/-- The address of a dial identifies it. -/
theorem addr_injective {d d' : Dial} (hd : d ∈ s.loop.pendingDials)
    (hd' : d' ∈ s.loop.pendingDials) (heq : d.addr = d'.addr) : d = d' :=
  List.inj_on_of_nodup_map h.nodup hd hd' heq

/-- A dial has a group. -/
theorem group_of_dial {dial : Dial} (hdial : dial ∈ s.loop.pendingDials) :
    s.loop.groups.lookup dial.addr ≠ none :=
  h.grouped dial.addr ((h.inFlight _).mpr ⟨dial, hdial, rfl⟩)

/-- A finished dial leaves the tables. -/
theorem remove {s' : Connector} {dial : Dial} (hdial : dial ∈ s.loop.pendingDials)
    (hpending : s'.loop.pendingDials = s.loop.pendingDials.erase dial)
    (hinFlight : s'.loop.inFlightDials = s.loop.inFlightDials.erase dial.addr)
    (hredials : s'.loop.redials = s.loop.redials.erase dial.addr)
    (hexplorers : s'.loop.explorers = s.loop.explorers)
    (hgroups : ∀ a, s.loop.groups.lookup a ≠ none → s'.loop.groups.lookup a ≠ none)
    (hrunning : s'.loop.arm ≠ .panicked) : Dialing s' where
  nodup := by
    rw [hpending]
    exact h.nodup.sublist (List.erase_sublist.map _)
  inFlight := by
    intro a
    rw [hpending, hinFlight, Finset.mem_erase, h.inFlight]
    have hnodup : s.loop.pendingDials.Nodup := h.nodup.of_map
    constructor
    · rintro ⟨hne, d, hd, rfl⟩
      exact ⟨d, (hnodup.mem_erase_iff).mpr ⟨fun heq => hne (heq ▸ rfl), hd⟩, rfl⟩
    · rintro ⟨d, hd, rfl⟩
      obtain ⟨hne, hd⟩ := hnodup.mem_erase_iff.mp hd
      exact ⟨fun heq => hne (h.addr_injective hd hdial heq), d, hd, rfl⟩
  redials := by
    intro a r ha
    rw [hredials, HashMap.lookup_erase_eq] at ha
    split at ha
    · cases ha
    · rename_i hne
      rw [hinFlight, Finset.mem_erase]
      exact ⟨hne, h.redials a r ha⟩
  room := by
    rw [hpending]
    exact Nat.le_trans (List.length_erase_le) h.room
  grouped := by
    intro a ha
    rw [hinFlight] at ha
    exact hgroups a (h.grouped a (Finset.mem_of_mem_erase ha))
  explored := by
    intro a ha
    rw [hexplorers] at ha
    exact hgroups a (h.explored a ha)
  running := hrunning

/-- A new dial enters the tables. -/
theorem start {s' : Connector} {addr : SocketAddr} {key : Option ObfuscationKey} {l : Loop}
    (hfree : addr ∉ s.loop.inFlightDials)
    (hroom : s.loop.pendingDials.length < maxConcurrentDualDials)
    (hpending : l.pendingDials = s.loop.pendingDials)
    (hinFlight : l.inFlightDials = s.loop.inFlightDials)
    (hgroups : l.groups = s.loop.groups) (hexplorers : l.explorers = s.loop.explorers)
    (hrunning : l.arm = .select)
    (hredials : ∀ a r, l.redials.lookup a = some r → a = addr ∨ s.loop.redials.lookup a = some r)
    (hs' : s'.loop = startDial addr key l) : Dialing s' where
  nodup := by
    rw [hs']
    simp only [startDial, hpending, List.map_append, List.map_cons, List.map_nil]
    refine h.nodup.append (List.nodup_singleton _) ?_
    rintro a ha hb
    obtain rfl := List.mem_singleton.mp hb
    obtain ⟨d, hd, heq⟩ := List.mem_map.mp ha
    exact hfree ((h.inFlight _).mpr ⟨d, hd, heq⟩)
  inFlight := by
    intro a
    rw [hs']
    simp only [startDial, hinFlight, hpending, Finset.mem_insert, h.inFlight, List.mem_append,
      List.mem_singleton]
    constructor
    · rintro (rfl | ⟨d, hd, rfl⟩)
      · exact ⟨_, .inr rfl, rfl⟩
      · exact ⟨d, .inl hd, rfl⟩
    · rintro ⟨d, hd | rfl, rfl⟩
      · exact .inr ⟨d, hd, rfl⟩
      · exact .inl rfl
  redials := by
    intro a r ha
    rw [hs'] at ha ⊢
    simp only [startDial, hinFlight, Finset.mem_insert] at ha ⊢
    exact (hredials a r ha).imp_right (h.redials a r)
  room := by
    rw [hs']
    simp only [startDial, hpending, List.length_append, List.length_singleton]
    exact hroom
  grouped := by
    intro a ha
    rw [hs'] at ha ⊢
    simp only [startDial, hinFlight, hgroups, Finset.mem_insert, HashMap.lookup_insert_eq] at ha ⊢
    split
    · simp
    · exact h.grouped a (ha.resolve_left ‹_›)
  explored := by
    intro a ha
    rw [hs'] at ha ⊢
    simp only [startDial, hgroups, hexplorers, HashMap.lookup_insert_eq] at ha ⊢
    split
    · simp
    · rename_i hne
      split at ha
      · exact h.explored a ((Finset.mem_insert.mp ha).resolve_left hne)
      · exact h.explored a ha
  running := by
    rw [hs']
    simp [startDial, hrunning]

theorem unmapped (session : SessionId) (x : Session) : Dialing (s.unmapped session x) :=
  h.of_eq rfl rfl rfl h.grouped h.explored h.running

/-- Pruning keeps what is in flight, and forgets explorers together with their groups. -/
theorem prune {s' : Connector}
    (hs' : ∃ arm, s'.loop = { s.pruneDeadAddresses.loop with arm := arm } ∧
    arm ≠ .panicked) : Dialing s' := by
  obtain ⟨arm, hloop, harm⟩ := hs'
  refine h.of_eq (by rw [hloop]; rfl) (by rw [hloop]; rfl) (by rw [hloop]; rfl) ?_ ?_
    (by rw [hloop]; exact harm)
  · intro a ha
    obtain ⟨g, hg⟩ := Option.ne_none_iff_exists'.mp (h.grouped a ha)
    rw [hloop, Option.ne_none_iff_exists']
    exact ⟨_, lookup_prune.mpr ⟨g, hg, rfl, .inl ha⟩⟩
  · intro a ha
    rw [hloop] at ha ⊢
    simp only [pruneDeadAddresses, setLoop, Finset.mem_filter] at ha
    exact fun hnone => AList.lookup_eq_none.mp hnone ha.2

/-- Every step keeps the account of the dials. -/
theorem step {s' : Connector} {e : ConnectorEvent} (hstep : ConnectorStep s e s') :
    Dialing s' := by
  -- an arm that stays in the same place has not panicked
  have hcoarse : ∀ {arm : Arm}, arm.coarse = s.loop.arm.coarse → arm ≠ .panicked := by
    rintro _ harm rfl
    exact h.running (Arm.coarse_eq_panicked.mp harm.symm)
  cases hstep with
  | quiet hq =>
    refine h.of_eq hq.tables.pendingDials hq.tables.inFlightDials hq.tables.redials ?_ ?_
      (hcoarse hq.arm)
    · rw [hq.tables.groups]
      exact h.grouped
    · rw [hq.tables.groups, hq.tables.explorers]
      exact h.explored
  | installed dial group harm hdial hgroup =>
    refine h.remove hdial rfl rfl rfl rfl ?_ (by simp [installed, removeDial])
    intro a ha
    simp only [installed, removeDial, HashMap.lookup_insert_eq]
    split
    · simp
    · exact ha
  | panicked dial harm hdial hgroup => exact absurd hgroup (h.group_of_dial hdial)
  | failed dial waiters answers he harm hdial =>
    exact h.remove hdial rfl rfl rfl rfl (fun _ => id) (by simp [setLoop])
  | pruned addr old he harm => exact h.prune ⟨.select, rfl, by simp⟩
  | drained addr session old harm =>
    exact h.of_eq rfl rfl rfl h.grouped h.explored (by simp [setArm, setLoop])
  | retired addr session old stage harm hstage =>
    exact h.of_eq rfl rfl rfl h.grouped h.explored (by simp [retire])
  | mapped addr session old harm =>
    exact h.of_eq rfl rfl rfl h.grouped h.explored (by simp [setArm, setLoop])
  | reaped session x he hx harm hfinished =>
    exact (h.unmapped session x).prune ⟨s.loop.arm, rfl, h.running⟩
  | dialled addr key l he hstart harm hfree hroom htables harm' =>
    refine h.start (l := { l with addrKeys := l.addrKeys.insert addr key }) hfree hroom
      htables.pendingDials htables.inFlightDials htables.groups htables.explorers harm'
      (fun a r ha => .inr ?_) rfl
    rw [← htables.redials]
    exact ha
  | redialled addr trigger wantsMigration old he hstart harm htarget =>
    obtain ⟨-, hfree, hroom, -⟩ := redialTarget_eq_some htarget
    refine h.start (l := { s.loop with redials := s.loop.redials.insert addr ⟨old, trigger⟩ })
      hfree hroom rfl rfl rfl rfl harm ?_ rfl
    intro a r ha
    rw [HashMap.lookup_insert_eq] at ha
    split at ha
    · exact .inl ‹_›
    · exact .inr ha
  | reset harm hreset =>
    obtain ⟨-, -, -, -, -, hredials, -, hpending, hinFlight, hexplorers, -, harm'⟩ :=
      reset_eq hreset
    constructor
    · simp [hpending]
    · simp [hpending, hinFlight]
    · simp [hredials]
    · simp [hpending]
    · simp [hinFlight]
    · simp [hexplorers]
    · simp [harm', harm]

end Dialing

end RtpMux

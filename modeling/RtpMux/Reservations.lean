import RtpMux.ExpiryWorker
import RtpMux.LaneStep

/-!
# Who resolves a reservation

`confirm_reservation` and `cancel_reservation` find the caller's reservation by nonce and
recognise it by peer address and class. The nonce alone says nothing: when the
reservation of a slow lane has expired, another lane may have reserved the same nonce
before the slow lane confirms or cancels, and its call then meets an entry that is not
its own.

What makes peer and class enough is a promise of the listeners. Each class has a listener
of its own, and a listener hands out no second connection from a peer address while the
first one is alive. `distinctLanes` is this promise, asked only of the lanes that may
still reserve, confirm or cancel. In every run that keeps it, a building entry has a task
behind it that is about to resolve it (`OwnInv.owner`), and no other task matches it.

The second half is about calls that are turned away. `confirm_reservation` removes the
entry before it looks at it, so its refusals have to put the entry back as it was;
`RefusesCleanly` states this for every refusing call and every registry.
-/

namespace RtpMux

open PendingLaneRegistry LaneServer

/-! ## The promise of the listeners -/

/-- The task has reserved its nonce and has not yet confirmed or cancelled. -/
def LanePhase.reserving : LanePhase → Bool
  | reserved => true
  | cancelling => true
  | built => true
  | _ => false

/-- The task may still reserve, confirm or cancel. -/
def LanePhase.unresolved : LanePhase → Bool
  | greeting _ => true
  | admitted _ => true
  | phase => phase.reserving

/-- The step accepts no lane from a peer address that has a live lane on the same
listener. -/
def LaneServer.distinctLanes (s : LaneServer) : LaneEvent → Bool
  | .accept _ expectedClass peer _ =>
    s.tasks.entries.all fun e =>
      !(e.2.phase.unresolved && e.2.peer = peer && e.2.expectedClass = expectedClass)
  | _ => true

/-- An accepted lane has no task yet. -/
theorem distinctLanes_accept {s : LaneServer} {lane lane' : LaneId} {expectedClass : LaneClass}
    {peer localAddr : SocketAddr} {t : LaneTask}
    (h : s.distinctLanes (.accept lane expectedClass peer localAddr) = true)
    (ht : s.tasks.lookup lane' = some t) (hun : t.phase.unresolved = true) (hpeer : t.peer = peer) :
    t.expectedClass ≠ expectedClass := by
  simp only [distinctLanes, List.all_eq_true] at h
  have hone := h _ (HashMap.lookup_eq_some_iff.mp ht)
  simpa [hun, hpeer] using hone

/-! ## The owner of a reservation -/

/-- A building entry of `lane` stands under `nonce`. -/
def PendingLaneRegistry.Reserves (reg : PendingLaneRegistry) (nonce : PairingNonce)
    (peer : SocketAddr) (laneClass : LaneClass) (lane : LaneId) : Prop :=
  ∃ localAddr group expiresAt permit, reg.entries.lookup nonce =
    some (.building peer localAddr laneClass group expiresAt lane permit)

/-- A reservation that outlives an erased entry is another one. -/
theorem PendingLaneRegistry.Reserves.of_erase {reg reg' : PendingLaneRegistry}
    {nonce nonce' : PairingNonce} {peer : SocketAddr} {laneClass : LaneClass} {lane : LaneId}
    (hreg : reg'.entries = reg.entries.erase nonce)
    (h : reg'.Reserves nonce' peer laneClass lane) :
    nonce' ≠ nonce ∧ reg.Reserves nonce' peer laneClass lane := by
  obtain ⟨localAddr, group, expiresAt, permit, hentry⟩ := h
  rw [hreg, HashMap.lookup_erase_eq] at hentry
  split at hentry
  · cases hentry
  · rename_i hne
    exact ⟨hne, localAddr, group, expiresAt, permit, hentry⟩

/-- A reservation in a changed registry is the inserted one or an old one. -/
theorem PendingLaneRegistry.Reserves.of_insert {reg reg' : PendingLaneRegistry}
    {entries : HashMap PairingNonce PendingLaneEntry} {nonce nonce' : PairingNonce}
    {peer : SocketAddr} {laneClass : LaneClass} {lane : LaneId} {other : PendingLane}
    {expiresAt : Instant} (hreg : reg'.entries = entries.insert nonce (.ready other expiresAt))
    (hentries : ∀ n ≠ nonce, entries.lookup n = reg.entries.lookup n)
    (h : reg'.Reserves nonce' peer laneClass lane) :
    nonce' ≠ nonce ∧ reg.Reserves nonce' peer laneClass lane := by
  obtain ⟨localAddr, group, expiresAt', permit, hentry⟩ := h
  rw [hreg, HashMap.lookup_insert_eq] at hentry
  split at hentry
  · cases hentry
  · rename_i hne
    rw [hentries nonce' hne] at hentry
    exact ⟨hne, localAddr, group, expiresAt', permit, hentry⟩

/-- A registry with fewer entries has fewer reservations. -/
theorem PendingLaneRegistry.Reserves.of_lookup {reg reg' : PendingLaneRegistry}
    {nonce : PairingNonce} {peer : SocketAddr} {laneClass : LaneClass} {lane : LaneId}
    (hreg : ∀ n entry, reg'.entries.lookup n = some entry → reg.entries.lookup n = some entry)
    (h : reg'.Reserves nonce peer laneClass lane) : reg.Reserves nonce peer laneClass lane := by
  obtain ⟨localAddr, group, expiresAt, permit, hentry⟩ := h
  exact ⟨localAddr, group, expiresAt, permit, hreg nonce _ hentry⟩

/-- A dropped permit makes no reservation. -/
theorem PendingLaneRegistry.Reserves.of_dropPermit {reg : PendingLaneRegistry}
    {given : PendingLanePermit} {nonce : PairingNonce} {peer : SocketAddr} {laneClass : LaneClass}
    {lane : LaneId} (h : (reg.dropPermit given).Reserves nonce peer laneClass lane) :
    reg.Reserves nonce peer laneClass lane := by
  simpa only [Reserves, dropPermit_entries] using h

/-- The task is about to resolve a reservation of this nonce, peer and class. -/
structure LaneTask.Owns (t : LaneTask) (nonce : PairingNonce) (peer : SocketAddr)
    (laneClass : LaneClass) : Prop where
  reserving : t.phase.reserving = true
  peer : t.peer = peer
  hello : ∃ h, t.hello = some h ∧ h.nonce = nonce ∧ h.laneClass = laneClass

/-- What a run that keeps the promise of the listeners maintains. -/
structure OwnInv (s : LaneServer) : Prop where
  /-- the lane of a building entry is about to resolve it -/
  owner : ∀ {nonce peer laneClass lane}, s.registry.Reserves nonce peer laneClass lane →
    ∃ t, s.tasks.lookup lane = some t ∧ t.Owns nonce peer laneClass
  /-- past the class check, the hello names the class of the listener -/
  greeted : ∀ {lane t h}, s.tasks.lookup lane = some t → t.phase.unresolved = true →
    t.hello = some h → h.laneClass = t.expectedClass
  /-- live lanes of one listener have different peers -/
  distinct : ∀ {lane lane' t t'}, s.tasks.lookup lane = some t → s.tasks.lookup lane' = some t' →
    t.phase.unresolved = true → t'.phase.unresolved = true → t.peer = t'.peer →
    t.expectedClass = t'.expectedClass → lane = lane'

/-- A task that reserves has not resolved its reservation. -/
theorem LanePhase.unresolved_of_reserving {φ : LanePhase} (h : φ.reserving = true) :
    φ.unresolved = true := by
  cases φ <;> first | rfl | exact h

/-- A task that reserves still does after a move. -/
theorem PhaseMove.reserving {φ ψ : LanePhase} (h : PhaseMove φ ψ) (hφ : φ.reserving = true) :
    ψ.reserving = true := by
  cases h <;> first | rfl | exact hφ

/-- A move resolves nothing backwards. -/
theorem PhaseMove.unresolved {φ ψ : LanePhase} (h : PhaseMove φ ψ) (hψ : ψ.unresolved = true) :
    φ.unresolved = true := by
  cases h <;> first | rfl | exact hψ

/-- At the start nothing is reserved. -/
theorem OwnInv.init : OwnInv LaneServer.init := by
  refine ⟨?_, ?_, ?_⟩
  · rintro nonce peer laneClass lane ⟨_, _, _, _, hentry⟩
    cases hentry
  · intro lane t h ht
    cases ht
  · intro lane lane' t t' ht
    cases ht

/-- **The key step.** An entry that a reserving task matches is its own. -/
theorem OwnInv.caller {s : LaneServer} (hinv : OwnInv s) {lane changed : LaneId} {t : LaneTask}
    {h : Hello} (ht : s.tasks.lookup lane = some t) (hph : t.phase.reserving = true)
    (hh : t.hello = some h) (hentry : s.registry.Reserves h.nonce t.peer h.laneClass changed) :
    changed = lane := by
  obtain ⟨t', ht', hown⟩ := hinv.owner hentry
  obtain ⟨h', hh', -, hclass⟩ := hown.hello
  have hun := LanePhase.unresolved_of_reserving hph
  have hun' := LanePhase.unresolved_of_reserving hown.reserving
  apply hinv.distinct ht' ht hun' hun hown.peer
  rw [← hinv.greeted ht' hun' hh', ← hinv.greeted ht hun hh, hclass]

/-! ## One task moves -/

/-- A step that changes the task of one lane and keeps its place among the others. Every
reservation left afterwards is either the lane's, and then the task owns it, or was there
before. -/
theorem OwnInv.update {s s' : LaneServer} (hinv : OwnInv s) {lane : LaneId} {t t' : LaneTask}
    (ht : s.tasks.lookup lane = some t) (htasks : s'.tasks = s.tasks.insert lane t')
    (hpeer : t'.peer = t.peer) (hclass : t'.expectedClass = t.expectedClass)
    (hun : t'.phase.unresolved = true → t.phase.unresolved = true)
    (hgreet : t'.phase.unresolved = true → ∀ h, t'.hello = some h → h.laneClass = t.expectedClass)
    (hentries : ∀ nonce peer laneClass changed,
      s'.registry.Reserves nonce peer laneClass changed →
        (changed = lane ∧ t'.Owns nonce peer laneClass) ∨
        (changed ≠ lane ∧ s.registry.Reserves nonce peer laneClass changed)) :
    OwnInv s' := by
  have hlook : ∀ lane', s'.tasks.lookup lane' =
      if lane' = lane then some t' else s.tasks.lookup lane' := by
    intro lane'
    rw [htasks, HashMap.lookup_insert_eq]
  -- an unresolved task of the new state was one of the same peer and class before
  have hback : ∀ {lane₁ t₁}, s'.tasks.lookup lane₁ = some t₁ → t₁.phase.unresolved = true →
      ∃ t₀, s.tasks.lookup lane₁ = some t₀ ∧ t₀.phase.unresolved = true ∧ t₀.peer = t₁.peer ∧
        t₀.expectedClass = t₁.expectedClass := by
    intro lane₁ t₁ h₁ hun₁
    rw [hlook] at h₁
    split at h₁
    · rename_i hl
      obtain rfl := hl
      obtain rfl := Option.some.inj h₁
      exact ⟨t, ht, hun hun₁, hpeer.symm, hclass.symm⟩
    · exact ⟨t₁, h₁, hun₁, rfl, rfl⟩
  refine ⟨?_, ?_, ?_⟩
  · intro nonce peer laneClass changed hentry
    obtain ⟨rfl, hown⟩ | ⟨hne, hold⟩ := hentries nonce peer laneClass changed hentry
    · exact ⟨t', by rw [hlook, if_pos rfl], hown⟩
    · obtain ⟨t₀, h₀, hown⟩ := hinv.owner hold
      exact ⟨t₀, by rw [hlook, if_neg hne, h₀], hown⟩
  · intro lane₁ t₁ h h₁ hun₁ hh
    rw [hlook] at h₁
    split at h₁
    · obtain rfl := Option.some.inj h₁
      rw [hgreet hun₁ h hh, hclass]
    · exact hinv.greeted h₁ hun₁ hh
  · intro lane₁ lane₂ t₁ t₂ h₁ h₂ hun₁ hun₂ hpeers hclasses
    obtain ⟨t₃, h₃, hun₃, hp₃, hc₃⟩ := hback h₁ hun₁
    obtain ⟨t₄, h₄, hun₄, hp₄, hc₄⟩ := hback h₂ hun₂
    apply hinv.distinct h₃ h₄ hun₃ hun₄
    · rw [hp₃, hp₄, hpeers]
    · rw [hc₃, hc₄, hclasses]

/-- A task that is not reserving has no building entry. -/
theorem OwnInv.not_reserves {s : LaneServer} (hinv : OwnInv s) {lane : LaneId} {t : LaneTask}
    (ht : s.tasks.lookup lane = some t) (hph : t.phase.reserving = false) {nonce : PairingNonce}
    {peer : SocketAddr} {laneClass : LaneClass} :
    ¬ s.registry.Reserves nonce peer laneClass lane := by
  intro hentry
  obtain ⟨t', ht', hown⟩ := hinv.owner hentry
  obtain rfl : t = t' := Option.some.inj (ht.symm.trans ht')
  rw [hown.reserving] at hph
  cases hph

/-- A reserving task is done with its reservation, and no building entry of the lane is
left. -/
theorem OwnInv.resolve {s s' : LaneServer} (hinv : OwnInv s) {lane : LaneId} {t : LaneTask}
    {phase : LanePhase} (ht : s.tasks.lookup lane = some t)
    (htasks : s'.tasks = s.tasks.insert lane { t with phase }) (hun : phase.unresolved = false)
    (hentries : ∀ {nonce peer laneClass changed},
      s'.registry.Reserves nonce peer laneClass changed →
        s.registry.Reserves nonce peer laneClass changed)
    (hgone : ∀ {nonce peer laneClass}, t.Owns nonce peer laneClass →
      ¬ s'.registry.Reserves nonce peer laneClass lane) :
    OwnInv s' := by
  refine hinv.update ht htasks rfl rfl ?_ ?_ ?_
  · intro h
    simp [hun] at h
  · intro h
    simp [hun] at h
  · intro nonce peer laneClass changed hentry
    refine .inr ⟨?_, hentries hentry⟩
    rintro rfl
    obtain ⟨t', ht', hown⟩ := hinv.owner (hentries hentry)
    obtain rfl : t = t' := Option.some.inj (ht.symm.trans ht')
    exact hgone hown hentry

/-- A task that was not reserving moves on, and no building entry is added. -/
theorem OwnInv.idle {s s' : LaneServer} (hinv : OwnInv s) {lane : LaneId} {t : LaneTask}
    {phase : LanePhase} (ht : s.tasks.lookup lane = some t) (hph : t.phase.reserving = false)
    (htasks : s'.tasks = s.tasks.insert lane { t with phase }) (hun : phase.unresolved = false)
    (hentries : ∀ {nonce peer laneClass changed},
      s'.registry.Reserves nonce peer laneClass changed →
        s.registry.Reserves nonce peer laneClass changed) :
    OwnInv s' := by
  refine hinv.resolve ht htasks hun hentries ?_
  intro nonce peer laneClass hown
  rw [hown.reserving] at hph
  cases hph

/-- Nothing happens to the tasks, and no building entry is added. -/
theorem OwnInv.shrink {s s' : LaneServer} (hinv : OwnInv s) (htasks : s'.tasks = s.tasks)
    (hentries : ∀ {nonce peer laneClass changed},
      s'.registry.Reserves nonce peer laneClass changed →
        s.registry.Reserves nonce peer laneClass changed) :
    OwnInv s' := by
  refine ⟨?_, ?_, ?_⟩
  · intro nonce peer laneClass changed hentry
    rw [htasks]
    exact hinv.owner (hentries hentry)
  · rw [htasks]
    exact hinv.greeted
  · rw [htasks]
    exact hinv.distinct

/-- A new lane, kept apart from the live ones by its listener. -/
theorem OwnInv.accept {s s' : LaneServer} (hinv : OwnInv s) {lane : LaneId}
    {expectedClass : LaneClass} {peer localAddr : SocketAddr} {phase : LanePhase}
    (hnew : s.tasks.lookup lane = none)
    (hC : s.distinctLanes (.accept lane expectedClass peer localAddr) = true)
    (htasks : s'.tasks =
      s.tasks.insert lane ⟨expectedClass, peer, localAddr, none, phase⟩)
    (hentries : s'.registry.entries = s.registry.entries) : OwnInv s' := by
  have hlook : ∀ lane', s'.tasks.lookup lane' = if lane' = lane then
      some ⟨expectedClass, peer, localAddr, none, phase⟩ else s.tasks.lookup lane' := by
    intro lane'
    rw [htasks, HashMap.lookup_insert_eq]
  refine ⟨?_, ?_, ?_⟩
  · intro nonce peer' laneClass changed hentry
    simp only [Reserves, hentries] at hentry
    obtain ⟨t, ht, hown⟩ := hinv.owner hentry
    refine ⟨t, ?_, hown⟩
    rw [hlook, if_neg, ht]
    rintro rfl
    rw [hnew] at ht
    cases ht
  · intro lane₁ t₁ h h₁ hun₁ hh
    rw [hlook] at h₁
    split at h₁
    · obtain rfl := Option.some.inj h₁
      cases hh
    · exact hinv.greeted h₁ hun₁ hh
  · intro lane₁ lane₂ t₁ t₂ h₁ h₂ hun₁ hun₂ hpeers hclasses
    rw [hlook] at h₁ h₂
    split at h₁ <;> split at h₂
    · rename_i hl₁ hl₂
      rw [hl₁, hl₂]
    · obtain rfl := Option.some.inj h₁
      exact absurd hclasses.symm (distinctLanes_accept hC h₂ hun₂ hpeers.symm)
    · obtain rfl := Option.some.inj h₂
      exact absurd hclasses (distinctLanes_accept hC h₁ hun₁ hpeers)
    · exact hinv.distinct h₁ h₂ hun₁ hun₂ hpeers hclasses

/-! ## Every step -/

/-- Every step that keeps the promise of the listeners keeps the invariant. -/
theorem OwnInv.step {s s' : LaneServer} {e : LaneEvent} (hinv : OwnInv s)
    (hC : s.distinctLanes e = true) (h : LaneStep s e s') : OwnInv s' := by
  -- a reservation appears with the task that makes it and goes with that task or its deadline
  cases h with
  | accepted hnew => exact hinv.accept hnew hC rfl rfl
  | overCapacity hnew => exact hinv.accept hnew hC rfl rfl
  | @helloRejected _ lane t permit hello ht hph =>
    refine hinv.update ht rfl rfl rfl ?_ ?_ ?_
    · simp [LanePhase.unresolved, LanePhase.reserving]
    · simp [LanePhase.unresolved, LanePhase.reserving]
    · intro nonce peer laneClass changed hentry
      refine .inr ⟨?_, hentry⟩
      rintro rfl
      exact hinv.not_reserves ht (by rw [hph]; rfl) hentry
  | @helloRead _ lane t permit h ht hph hclass =>
    refine hinv.update ht rfl rfl rfl ?_ ?_ ?_
    · intro _
      rw [hph]
      rfl
    · rintro - h' hh
      obtain rfl : h = h' := Option.some.inj hh
      exact hclass
    · intro nonce peer laneClass changed hentry
      refine .inr ⟨?_, hentry⟩
      rintro rfl
      exact hinv.not_reserves ht (by rw [hph]; rfl) hentry
  | @move _ lane t phase ht hmove =>
    refine hinv.update ht rfl rfl rfl hmove.unresolved ?_ ?_
    · exact fun hun h hh => hinv.greeted ht (hmove.unresolved hun) hh
    · intro nonce peer laneClass changed hentry
      by_cases hl : changed = lane
      · subst hl
        obtain ⟨t', ht', hown⟩ := hinv.owner hentry
        obtain rfl : t = t' := Option.some.inj (ht.symm.trans ht')
        exact .inl ⟨rfl, hmove.reserving hown.reserving, hown.peer, hown.hello⟩
      · exact .inr ⟨hl, hentry⟩
  | @reserve lane now t permit h ht hph hh hfree =>
    have hun : t.phase.unresolved = true := by
      rw [hph]
      rfl
    refine hinv.update ht rfl rfl rfl (fun _ => hun) ?_ ?_
    · exact fun _ h' hh' => hinv.greeted ht hun hh'
    · rintro nonce peer laneClass changed ⟨localAddr, group, expiresAt, permit', hentry⟩
      simp only [setPhase, HashMap.lookup_insert_eq] at hentry
      split at hentry
      · rename_i hn
        cases hentry
        exact .inl ⟨rfl, rfl, rfl, h, hh, hn.symm, rfl⟩
      · refine .inr ⟨?_, localAddr, group, expiresAt, permit', hentry⟩
        rintro rfl
        exact hinv.not_reserves ht (by rw [hph]; rfl) ⟨localAddr, group, expiresAt, permit', hentry⟩
  | subscribe ht hph => exact hinv.idle ht (by rw [hph]; rfl) rfl rfl id
  | offer ht hph =>
    exact hinv.idle ht (by rw [hph]; rfl) rfl rfl fun hentry => (Reserves.of_erase rfl hentry).2
  | handOver ht hph =>
    exact hinv.idle ht (by rw [hph]; rfl) rfl rfl fun hentry => (Reserves.of_erase rfl hentry).2
  | cancel ht hph hh =>
    refine hinv.resolve ht rfl rfl (fun hentry => (Reserves.of_erase rfl hentry).2) ?_
    intro nonce peer laneClass hown hentry
    obtain ⟨h', hh', hn, -⟩ := hown.hello
    obtain rfl := Option.some.inj (hh.symm.trans hh')
    exact (Reserves.of_erase rfl hentry).1 hn.symm
  | cancelMissed ht hph hh hnone =>
    refine hinv.resolve ht rfl rfl id ?_
    rintro nonce peer laneClass hown ⟨localAddr, group, expiresAt, permit, hentry⟩
    obtain ⟨h', hh', rfl, rfl⟩ := hown.hello
    obtain rfl := Option.some.inj (hh.symm.trans hh')
    obtain rfl := hown.peer
    exact hnone localAddr group expiresAt _ permit hentry
  | dropEntry ht hph => exact hinv.idle ht (by rw [hph]; rfl) rfl rfl id
  | @confirm lane t h localAddr group expiresAt changed permit ht hph hh =>
    have hold : ∀ n ≠ h.nonce, (s.registry.entries.erase h.nonce).lookup n =
        s.registry.entries.lookup n := by
      intro n hn
      rw [HashMap.lookup_erase_eq, if_neg hn]
    refine hinv.resolve ht rfl rfl (fun hentry => (Reserves.of_insert rfl hold hentry).2) ?_
    intro nonce peer laneClass hown hentry
    obtain ⟨h', hh', hn, -⟩ := hown.hello
    obtain rfl := Option.some.inj (hh.symm.trans hh')
    exact (Reserves.of_insert rfl hold hentry).1 hn.symm
  | confirmMissed ht hph hh hnone hreg =>
    have hsame := lookup_rebuilt hreg
    refine hinv.resolve ht rfl rfl ?_ ?_
    · exact fun hentry => hentry.of_lookup fun n entry hn => (hsame n).symm.trans hn
    · rintro nonce peer laneClass hown ⟨localAddr, group, expiresAt, permit, hentry⟩
      obtain ⟨h', hh', rfl, rfl⟩ := hown.hello
      obtain rfl := Option.some.inj (hh.symm.trans hh')
      obtain rfl := hown.peer
      exact hnone localAddr group expiresAt _ permit (by rw [← hsame _, ← hentry]; rfl)
  | announce ht hph => exact hinv.idle ht (by rw [hph]; rfl) rfl rfl id
  | dropSender ht hph => exact hinv.idle ht (by rw [hph]; rfl) rfl rfl id
  | reinsert ht hph hh hfree =>
    exact hinv.idle ht (by rw [hph]; rfl) rfl rfl fun hentry =>
      (Reserves.of_insert rfl (fun _ _ => rfl) hentry).2
  | dropPaired ht hph =>
    exact hinv.idle ht (by rw [hph]; rfl) rfl rfl fun hentry => Reserves.of_dropPermit hentry
  | dropRejected ht hph =>
    exact hinv.idle ht (by rw [hph]; rfl) rfl rfl fun hentry => Reserves.of_dropPermit hentry
  | expire hidle =>
    refine hinv.shrink rfl ?_
    exact fun hentry => hentry.of_lookup fun n entry hn =>
      ((expire_exact s.registry _).left n entry).mp hn |>.1
  | dropSenders => exact hinv.shrink rfl id
  | reap =>
    exact hinv.shrink rfl fun hentry => Reserves.of_dropPermit hentry

/-- The invariant holds in every run of distinct lanes. -/
theorem ownInv_of_reaches {s : LaneServer}
    (h : laneServer.ReachesWhere (fun s e => s.distinctLanes e = true) s) : OwnInv s :=
  h.invariant OwnInv.init fun _ _ _ hs hC hst => hs.step hC (.of_step hst)

/-! ## What can happen to a reservation -/

/-- A step leaves a building entry as it is, or is the owner's, or expires it. -/
theorem OwnInv.resolved {s s' : LaneServer} {e : LaneEvent} (hinv : OwnInv s)
    (h : LaneStep s e s') {nonce : PairingNonce} {peer localAddr : SocketAddr}
    {laneClass : LaneClass} {group : GroupToken} {expiresAt : Instant} {lane : LaneId}
    {permit : PendingLanePermit}
    (hentry : s.registry.entries.lookup nonce =
      some (.building peer localAddr laneClass group expiresAt lane permit)) :
    s'.registry.entries.lookup nonce = s.registry.entries.lookup nonce ∨
      e = .confirm lane ∨ e = .cancel lane ∨ ∃ now, e = .expire now ∧ expiresAt ≤ now := by
  -- an entry of another nonce is out of reach
  have herase : ∀ {n other due}, s.registry.entries.lookup n = some (.ready other due) →
      (s.registry.entries.erase n).lookup nonce = s.registry.entries.lookup nonce := by
    intro n other due hn
    rw [HashMap.lookup_erase_eq, if_neg]
    rintro rfl
    rw [hentry] at hn
    cases hn
  have hinsert : ∀ {n entry}, s.registry.entries.lookup n = none →
      (s.registry.entries.insert n entry).lookup nonce = s.registry.entries.lookup nonce := by
    intro n entry hn
    rw [HashMap.lookup_insert_eq, if_neg]
    rintro rfl
    rw [hentry] at hn
    cases hn
  cases h with
  | accepted => exact .inl rfl
  | overCapacity => exact .inl rfl
  | helloRejected => exact .inl rfl
  | helloRead => exact .inl rfl
  | move => exact .inl rfl
  | reserve ht hph hh hfree => exact .inl (hinsert hfree)
  | subscribe => exact .inl rfl
  | offer ht hph hh hready => exact .inl (herase hready)
  | handOver ht hph hh hready => exact .inl (herase hready)
  | @cancel caller t h localAddr' group' expiresAt' changed permit' ht hph hh hmatch =>
    by_cases hn : nonce = h.nonce
    · subst hn
      have hown : changed = caller := by
        refine hinv.caller ht ?_ hh ⟨_, _, _, _, hmatch⟩
        rw [hph]
        rfl
      rw [hmatch] at hentry
      cases hentry
      exact .inr (.inr (.inl (by rw [hown])))
    · refine .inl ?_
      simp only [setPhase]
      rw [HashMap.lookup_erase_eq, if_neg hn]
  | cancelMissed => exact .inl rfl
  | dropEntry => exact .inl rfl
  | @confirm caller t h localAddr' group' expiresAt' changed permit' ht hph hh hmatch =>
    by_cases hn : nonce = h.nonce
    · subst hn
      have hown : changed = caller := by
        refine hinv.caller ht ?_ hh ⟨_, _, _, _, hmatch⟩
        rw [hph]
        rfl
      rw [hmatch] at hentry
      cases hentry
      exact .inr (.inl (by rw [hown]))
    · refine .inl ?_
      simp only [setPhase]
      rw [HashMap.lookup_insert_eq, if_neg hn, HashMap.lookup_erase_eq, if_neg hn]
  | confirmMissed ht hph hh hnone hreg => exact .inl (lookup_rebuilt hreg nonce)
  | announce => exact .inl rfl
  | dropSender => exact .inl rfl
  | reinsert ht hph hh hfree => exact .inl (hinsert hfree)
  | dropPaired =>
    refine .inl ?_
    simp only [setPhase, releasePermit, dropPermit_entries]
  | dropRejected =>
    refine .inl ?_
    simp only [setPhase, releasePermit, dropPermit_entries]
  | @expire now hidle =>
    by_cases hdue : expiresAt ≤ now
    · exact .inr (.inr (.inr ⟨now, rfl, hdue⟩))
    · refine .inl ?_
      rw [hentry]
      apply ((expire_exact s.registry now).left nonce _).mpr
      exact ⟨hentry, Nat.lt_of_not_le hdue⟩
  | dropSenders => exact .inl rfl
  | reap =>
    refine .inl ?_
    simp only [releasePermit, dropPermit_entries]

/-! ## Calls that are turned away -/

/-- The two registries hold the same: every entry with its deadline, and the counters. -/
structure PendingLaneRegistry.Same (reg reg' : PendingLaneRegistry) : Prop where
  entries : ∀ nonce, reg'.entries.lookup nonce = reg.entries.lookup nonce
  admitted : reg'.admitted = reg.admitted
  perPeer : reg'.perPeer = reg.perPeer

theorem PendingLaneRegistry.Same.refl (reg : PendingLaneRegistry) : reg.Same reg :=
  ⟨fun _ => rfl, rfl, rfl⟩

/-- Every call that is turned away leaves the registry as it was and its caller with what
it brought. -/
structure PendingLaneRegistry.RefusesCleanly (reg : PendingLaneRegistry) : Prop where
  register : ∀ nonce laneClass peer localAddr group permit now lane answer left reg',
    reg.registerAdmitted nonce laneClass peer localAddr group permit now lane =
      .ok (answer, left, reg') →
    ((∃ reason, answer = .reject reason) ∨ ∃ changed expiresAt, answer = .wait changed expiresAt) →
    reg.Same reg' ∧ left = permit
  confirm : ∀ nonce lane back reg',
    reg.confirmReservation nonce lane = (.error back, reg') → reg.Same reg' ∧ back = lane
  reinsert : ∀ nonce lane expiresAt back reg',
    reg.reinsertReadyLane nonce lane expiresAt = (.error back, reg') →
    reg.Same reg' ∧ back = lane
  cancel : ∀ nonce peer laneClass reg',
    reg.cancelReservation nonce peer laneClass = (none, reg') → reg.Same reg'

/-- A registration that is refused or told to wait leaves registry and permit as they were. -/
theorem registerAdmitted_refused {reg reg' : PendingLaneRegistry} {nonce : PairingNonce}
    {laneClass : LaneClass} {peer localAddr : SocketAddr} {group : GroupToken}
    {permit left : Option PendingLanePermit} {now : Instant} {lane : LaneId}
    {answer : PendingLaneAdmission}
    (h : reg.registerAdmitted nonce laneClass peer localAddr group permit now lane =
      .ok (answer, left, reg'))
    (hrefused : (∃ reason, answer = .reject reason) ∨
      ∃ changed expiresAt, answer = .wait changed expiresAt) :
    reg' = reg ∧ left = permit := by
  simp only [registerAdmitted] at h
  split at h
  · split at h
    · cases h
      exact ⟨rfl, rfl⟩
    split at h
    · cases h
      exact ⟨rfl, rfl⟩
    split at h
    · cases h
      exact ⟨rfl, rfl⟩
    split at h
    · cases h
      exact ⟨rfl, rfl⟩
    · cases h
      simp at hrefused
  · split at h
    · cases h
    · cases h
      simp at hrefused

/-- **Refusals change nothing**, in any registry. -/
theorem PendingLaneRegistry.refusesCleanly (reg : PendingLaneRegistry) : reg.RefusesCleanly := by
  refine ⟨?_, ?_, ?_, ?_⟩
  · intro nonce laneClass peer localAddr group permit now lane answer left reg' h hrefused
    obtain ⟨rfl, hleft⟩ := registerAdmitted_refused h hrefused
    exact ⟨.refl _, hleft⟩
  · intro nonce lane back reg' h
    obtain ⟨hback, hreg⟩ := confirmReservation_error h
    refine ⟨⟨lookup_rebuilt hreg, ?_, ?_⟩, hback⟩
    · obtain rfl | ⟨_, _, rfl⟩ := hreg <;> rfl
    · obtain rfl | ⟨_, _, rfl⟩ := hreg <;> rfl
  · intro nonce lane expiresAt back reg' h
    simp only [reinsertReadyLane] at h
    split at h
    · cases h
      exact ⟨.refl _, rfl⟩
    · cases h
  · intro nonce peer laneClass reg' h
    obtain rfl := cancelReservation_none h
    exact .refl _

/-- **Reservations are resolved by their owner.** In every run in which the listeners keep
live lanes apart, a building entry made for a lane changes only by the lane's own
`confirm_reservation` or `cancel_reservation`, or by an `expire` at or after its deadline,
whatever was under its nonce before; and in every registry a call that is turned away
changes nothing. -/
theorem reservations_resolved_by_owner :
    (∀ s, laneServer.ReachesWhere (fun s e => s.distinctLanes e = true) s →
      ∀ e s', s.step e = some s' →
      ∀ nonce peer localAddr laneClass group expiresAt lane permit,
        s.registry.entries.lookup nonce =
          some (.building peer localAddr laneClass group expiresAt lane permit) →
        s'.registry.entries.lookup nonce = s.registry.entries.lookup nonce ∨
          e = .confirm lane ∨ e = .cancel lane ∨ ∃ now, e = .expire now ∧ expiresAt ≤ now) ∧
    ∀ reg : PendingLaneRegistry, reg.RefusesCleanly := by
  refine ⟨?_, refusesCleanly⟩
  intro s hs e s' hst nonce peer localAddr laneClass group expiresAt lane permit hentry
  exact (ownInv_of_reaches hs).resolved (.of_step hst) hentry

/-- The nonce of an expired lane is reserved again, by a lane of the other class, before
the first lane confirms: the late call leaves the new reservation alone. -/
theorem late_confirm_leaves_the_successor :
    ∃ s s', laneServer.ReachesWhere (fun s e => s.distinctLanes e = true) s ∧
      s.step (.confirm 1) = some s' ∧ (s.registry.entries.lookup ⟨7⟩).isSome ∧
      s'.registry.entries.lookup ⟨7⟩ = s.registry.entries.lookup ⟨7⟩ := by
  have hrun : ∃ s s', laneServer.ReachesWhere (fun s e => s.distinctLanes e = true) s ∧
      s.step (.confirm 1) = some s' ∧ ∃ peer localAddr expiresAt permit,
        s.registry.entries.lookup ⟨7⟩ =
          some (.building peer localAddr .bulk ⟨9⟩ expiresAt 2 permit) :=
    ⟨_, _, ⟨arrival 1 .interactive ⟨9⟩ ++
      [LaneEvent.heartbeat 1 true, .expire pairingDeadline, .dropSenders, .reap] ++
        arrival 2 .bulk ⟨9⟩,
      Machine.run_of_exec rfl⟩, rfl, _, _, _, _, rfl⟩
  obtain ⟨s, s', hs, hst, peer, localAddr, expiresAt, permit, hentry⟩ := hrun
  refine ⟨s, s', hs, hst, by rw [hentry]; rfl, ?_⟩
  obtain hsame | hown | hown | ⟨now, hnow, -⟩ := reservations_resolved_by_owner.1 s hs _ _ hst
    _ _ _ _ _ _ _ _ hentry
  · exact hsame
  · cases hown
  · cases hown
  · cases hnow

end RtpMux

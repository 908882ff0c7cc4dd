import RtpMux.LaneStep

/-!
# Permit accounting

A permit is a token: it is issued once, moves between an accept task, a registry
entry, an expired record and a pair of lanes, and is dropped once. The registry
never looks at the tokens; it only keeps two counters, `admitted` and `perPeer`.
This module shows that the counters always count the tokens.

`LaneServer.livePermits` collects the tokens from every place one can sit in.
`PermitFlow` is what a step can do to that collection: nothing, one token more, or
one token less, with the matching change of the counters. Conservation and all
bounds follow from it without looking at the transitions again.
-/

namespace RtpMux

open LaneServer

/-- The permits an accept task holds in a phase. -/
def LanePhase.permits : LanePhase → Multiset PendingLanePermit
  | greeting permit => {permit}
  | admitted permit => {permit}
  | reserved => 0
  | cancelling => 0
  | cancelled entry => {entry.permit}
  | built => 0
  | announcing _ => 0
  | announced _ => 0
  | settled => 0
  | waiting permit _ _ _ _ => {permit}
  | offered permit other _ => {permit} + {other.permit}
  | restoring permit other _ => {permit} + {other.permit}
  | paired permits => permits
  | rejecting permits => permits

/-- The permits inside the entries of the registry. -/
def PendingLaneRegistry.permits (reg : PendingLaneRegistry) : Multiset PendingLanePermit :=
  reg.entries.total fun entry => {entry.permit}

/-- The permits the accept tasks hold. -/
def LaneServer.taskPermits (s : LaneServer) : Multiset PendingLanePermit :=
  s.tasks.total fun t => t.phase.permits

/-- The permits inside the records of the expiry worker. -/
def ExpiryWorker.permits (w : ExpiryWorker) : Multiset PendingLanePermit :=
  w.removed.map ExpiredPendingLane.permit

/-- Every `PendingLanePermit` that exists. -/
def LaneServer.livePermits (s : LaneServer) : Multiset PendingLanePermit :=
  s.registry.permits + s.taskPermits + s.worker.permits

/-- A move of a task keeps what it holds. -/
theorem PhaseMove.permits_eq {φ ψ : LanePhase} (h : PhaseMove φ ψ) : φ.permits = ψ.permits := by
  cases h <;> rfl

/-- Changing a task exchanges what it held for what it holds. -/
theorem taskPermits_setPhase {s : LaneServer} {lane : LaneId} {t t' : LaneTask}
    (ht : s.tasks.lookup lane = some t) (phase : LanePhase) :
    t.phase.permits + (s.setPhase lane t' phase).taskPermits = phase.permits + s.taskPermits :=
  HashMap.total_insert (f := fun t : LaneTask => t.phase.permits) { t' with phase := phase } ht

/-- A new task brings what it holds. -/
theorem livePermits_new {s s' : LaneServer} {lane : LaneId} {t : LaneTask}
    {held : Multiset PendingLanePermit} (hnew : s.tasks.lookup lane = none)
    (htasks : s'.tasks = s.tasks.insert lane t) (hheld : t.phase.permits = held)
    (hentries : s'.registry.entries = s.registry.entries) (hworker : s'.worker = s.worker) :
    s'.livePermits = held + s.livePermits := by
  have htask : s'.taskPermits = held + s.taskPermits := by
    rw [taskPermits, htasks, ← hheld]
    exact HashMap.total_insert_new t hnew
  simp only [livePermits, htask, PendingLaneRegistry.permits, hentries, hworker]
  ac_rfl

/-- What a step does to the permits and to the counters that stand for them. -/
inductive PermitFlow (s s' : LaneServer) : Prop where
  /-- permits only change place -/
  | kept (hlive : s'.livePermits = s.livePermits) (hissued : s'.issued = s.issued)
      (hreleased : s'.released = s.released)
      (hadm : s'.registry.admitted = s.registry.admitted)
      (hper : s'.registry.perPeer = s.registry.perPeer)
  /-- `try_admit` issues a permit to a new lane -/
  | issued (lane : LaneId) (peer : IpAddr) (hnew : s.tasks.lookup lane = none)
      (hold : s'.tasks.lookup lane ≠ none)
      (hlive : s'.livePermits = ⟨peer, lane⟩ ::ₘ s.livePermits)
      (hissued : s'.issued = ⟨peer, lane⟩ :: s.issued) (hreleased : s'.released = s.released)
      (hall : s.registry.admitted < maxPendingLanes)
      (hpeer : (s.registry.perPeer.lookup peer).getD 0 < maxPendingLanesPerPeer)
      (hadm : s'.registry.admitted = s.registry.admitted + 1)
      (hper : s'.registry.perPeer =
        s.registry.perPeer.insert peer ((s.registry.perPeer.lookup peer).getD 0 + 1))
  /-- a permit is dropped -/
  | released (permit : PendingLanePermit) (hlive : s.livePermits = permit ::ₘ s'.livePermits)
      (hissued : s'.issued = s.issued) (hreleased : s'.released = permit :: s.released)
      (hreg : s'.registry.admitted = (s.registry.dropPermit permit).admitted)
      (hper : s'.registry.perPeer = (s.registry.dropPermit permit).perPeer)

/-- A permit that is dropped was not in an entry. -/
theorem permits_dropPermit (reg : PendingLaneRegistry) (permit : PendingLanePermit) :
    (reg.dropPermit permit).permits = reg.permits := by
  rw [PendingLaneRegistry.permits, dropPermit_entries]
  rfl

/-- Exchanging one task's holdings against one change of the registry's. -/
theorem livePermits_exchange {s s' : LaneServer} {φ ψ : LanePhase}
    (htask : φ.permits + s'.taskPermits = ψ.permits + s.taskPermits)
    (hreg : s'.registry.permits + ψ.permits = s.registry.permits + φ.permits)
    (hworker : s'.worker = s.worker) : s'.livePermits = s.livePermits := by
  simp only [livePermits, hworker]
  ext permit
  have h1 := congrArg (Multiset.count permit) htask
  have h2 := congrArg (Multiset.count permit) hreg
  simp only [Multiset.count_add] at h1 h2 ⊢
  omega

/-- A task drops one permit it holds. -/
theorem livePermits_release {s s' : LaneServer} {φ ψ : LanePhase} {permit : PendingLanePermit}
    (htask : φ.permits + s'.taskPermits = ψ.permits + s.taskPermits)
    (hφ : φ.permits = permit ::ₘ ψ.permits)
    (hreg : s'.registry.permits = s.registry.permits)
    (hworker : s'.worker = s.worker) : s.livePermits = permit ::ₘ s'.livePermits := by
  simp only [livePermits, hworker, hreg]
  rw [hφ] at htask
  ext q
  have h1 := congrArg (Multiset.count q) htask
  rw [← Multiset.singleton_add] at h1 ⊢
  simp only [Multiset.count_add] at h1 ⊢
  omega

/-- Taking an entry out of the registry takes its permit out. -/
theorem permits_erase {reg : PendingLaneRegistry} {nonce : PairingNonce}
    {entry : PendingLaneEntry} (h : reg.entries.lookup nonce = some entry) :
    {entry.permit} + ({ reg with entries := reg.entries.erase nonce } :
      PendingLaneRegistry).permits = reg.permits :=
  HashMap.total_erase (f := fun entry => ({PendingLaneEntry.permit entry} : Multiset _)) h

/-- Putting an entry under a free nonce puts its permit in. -/
theorem permits_insert {reg : PendingLaneRegistry} {nonce : PairingNonce}
    (entry : PendingLaneEntry) (h : reg.entries.lookup nonce = none) :
    ({ reg with entries := reg.entries.insert nonce entry } : PendingLaneRegistry).permits =
      {entry.permit} + reg.permits :=
  HashMap.total_insert_new (f := fun entry => ({PendingLaneEntry.permit entry} : Multiset _))
    entry h

/-- Rebuilding an entry around the permit it had keeps the permits. -/
theorem permits_rebuild {reg : PendingLaneRegistry} {nonce : PairingNonce}
    {entry entry' : PendingLaneEntry} (h : reg.entries.lookup nonce = some entry)
    (hp : entry'.permit = entry.permit) :
    ({ reg with entries := (reg.entries.erase nonce).insert nonce entry' } :
      PendingLaneRegistry).permits = reg.permits := by
  have hfree : ({ reg with entries := reg.entries.erase nonce } :
      PendingLaneRegistry).entries.lookup nonce = none := by simp
  rw [← permits_erase h, ← hp]
  exact permits_insert entry' hfree

/-- **Permit flow.** Every step keeps the permits, issues one or drops one. -/
theorem LaneStep.permitFlow {s s' : LaneServer} {e : LaneEvent} (h : LaneStep s e s') :
    PermitFlow s s' := by
  -- every step moves permits between tasks, entries and the worker, or it issues or drops one
  cases h with
  | @accepted lane expectedClass peer localAddr hnew hall hpeer =>
    refine .issued lane peer.ip hnew (by simp) ?_ rfl rfl hall hpeer rfl rfl
    rw [← Multiset.singleton_add]
    exact livePermits_new hnew (by rfl) (by rfl) (by rfl) (by rfl)
  | overCapacity hnew =>
    refine .kept ?_ rfl rfl rfl rfl
    exact (livePermits_new hnew (by rfl) (by rfl) (by rfl) (by rfl)).trans (zero_add _)
  | helloRejected hello ht hph =>
    refine .kept (livePermits_exchange (taskPermits_setPhase ht _) ?_ rfl) rfl rfl rfl rfl
    rw [hph]
    rfl
  | helloRead h ht hph hclass =>
    refine .kept (livePermits_exchange (taskPermits_setPhase ht _) ?_ rfl) rfl rfl rfl rfl
    rw [hph]
    rfl
  | move ht hmove =>
    refine .kept (livePermits_exchange (taskPermits_setPhase ht _) ?_ rfl) rfl rfl rfl rfl
    rw [hmove.permits_eq]
    rfl
  | reserve ht hph hh hfree =>
    refine .kept (livePermits_exchange (taskPermits_setPhase ht _) ?_ rfl) rfl rfl rfl rfl
    rw [hph]
    simp only [LaneServer.setPhase, LanePhase.permits, permits_insert _ hfree]
    rw [add_zero, add_comm]
    rfl
  | subscribe ht hph hh hentry hip hclass =>
    refine .kept (livePermits_exchange (taskPermits_setPhase ht _) ?_ rfl) rfl rfl rfl rfl
    rw [hph]
    rfl
  | offer ht hph hh hentry hip hclass hgroup =>
    refine .kept (livePermits_exchange (taskPermits_setPhase ht _) ?_ rfl) rfl rfl rfl rfl
    rw [hph, ← permits_erase hentry]
    simp only [LaneServer.setPhase, LanePhase.permits, PendingLaneEntry.permit]
    ac_rfl
  | handOver ht hph hh hentry hip hclass =>
    refine .kept (livePermits_exchange (taskPermits_setPhase ht _) ?_ rfl) rfl rfl rfl rfl
    rw [hph, ← permits_erase hentry]
    simp only [LaneServer.setPhase, LanePhase.permits, PendingLaneEntry.permit,
      ← Multiset.cons_coe, ← Multiset.singleton_add, Multiset.coe_nil, add_zero]
    ac_rfl
  | cancel ht hph hh hentry =>
    refine .kept (livePermits_exchange (taskPermits_setPhase ht _) ?_ rfl) rfl rfl rfl rfl
    rw [hph, ← permits_erase hentry]
    simp only [LaneServer.setPhase, LanePhase.permits, PendingLaneEntry.permit, add_zero]
    ac_rfl
  | cancelMissed ht hph hh hnone =>
    refine .kept (livePermits_exchange (taskPermits_setPhase ht _) ?_ rfl) rfl rfl rfl rfl
    rw [hph]
    rfl
  | dropEntry ht hph =>
    refine .kept (livePermits_exchange (taskPermits_setPhase ht _) ?_ rfl) rfl rfl rfl rfl
    rw [hph]
    rfl
  | confirm ht hph hh hentry =>
    refine .kept (livePermits_exchange (taskPermits_setPhase ht _) ?_ rfl) rfl rfl rfl rfl
    rw [hph]
    exact congrArg (· + (0 : Multiset PendingLanePermit)) (permits_rebuild hentry (by rfl))
  | confirmMissed ht hph hh hnone hreg =>
    obtain rfl | ⟨entry, hentry, rfl⟩ := hreg
    · refine .kept (livePermits_exchange (taskPermits_setPhase ht _) ?_ rfl) rfl rfl rfl rfl
      rw [hph]
      rfl
    · refine .kept (livePermits_exchange (taskPermits_setPhase ht _) ?_ rfl) rfl rfl rfl rfl
      rw [hph]
      exact congrArg (· + (0 : Multiset PendingLanePermit)) (permits_rebuild hentry (by rfl))
  | announce ht hph hw =>
    refine .kept (livePermits_exchange (taskPermits_setPhase ht _) ?_ rfl) rfl rfl rfl rfl
    rw [hph]
    rfl
  | dropSender ht hph =>
    refine .kept (livePermits_exchange (taskPermits_setPhase ht _) ?_ rfl) rfl rfl rfl rfl
    rw [hph]
    rfl
  | reinsert ht hph hh hfree =>
    refine .kept (livePermits_exchange (taskPermits_setPhase ht _) ?_ rfl) rfl rfl rfl rfl
    rw [hph]
    simp only [LaneServer.setPhase, LanePhase.permits, permits_insert _ hfree,
      PendingLaneEntry.permit, ← Multiset.cons_coe, ← Multiset.singleton_add, Multiset.coe_nil,
      add_zero]
    ac_rfl
  | @dropPaired lane t permit permits ht hph =>
    refine .released permit (livePermits_release (taskPermits_setPhase ht _) ?_ ?_ rfl)
      rfl rfl rfl rfl
    · rw [hph]
      rfl
    · exact permits_dropPermit s.registry permit
  | @dropRejected lane t permit permits ht hph =>
    refine .released permit (livePermits_release (taskPermits_setPhase ht _) ?_ ?_ rfl)
      rfl rfl rfl rfl
    · rw [hph]
      rfl
    · exact permits_dropPermit s.registry permit
  | @expire now hidle =>
    have hspec := s.registry.expire_spec now
    refine .kept ?_ rfl rfl hspec.admitted hspec.perPeer
    have hperm : ExpiryWorker.permits ⟨(s.registry.expire now).1, (s.registry.expire now).2.1⟩ +
        (s.registry.expire now).2.2.permits = s.registry.permits := hspec.permits
    have htask : ∀ reg w, LaneServer.taskPermits { s with registry := reg, worker := w } =
        s.taskPermits := fun _ _ => rfl
    simp only [livePermits, htask, hidle, ← hperm]
    simp only [ExpiryWorker.permits, List.map_nil, Multiset.coe_nil, add_zero]
    ac_rfl
  | dropSenders => exact .kept rfl rfl rfl rfl rfl
  | @reap expired removed hw =>
    refine .released expired.permit ?_ rfl rfl rfl rfl
    simp only [livePermits, hw, ExpiryWorker.permits, List.map_cons, ← Multiset.cons_coe]
    rw [← Multiset.singleton_add, ← Multiset.singleton_add]
    have hreg : (LaneServer.releasePermit s expired.permit).registry.permits =
      s.registry.permits := permits_dropPermit s.registry expired.permit
    have htask : ∀ w, LaneServer.taskPermits
        { s.releasePermit expired.permit with worker := w } = s.taskPermits := fun _ => rfl
    simp only [hreg, htask]
    ac_rfl

/-! ## The counters count the permits -/

/-- Permits are conserved, and the counters of the registry count them. -/
structure Accounted (s : LaneServer) : Prop where
  /-- every issued permit is live or was released -/
  conserved : (s.issued : Multiset PendingLanePermit) = s.livePermits + s.released
  /-- permits belong to accepted lanes -/
  lanes : ∀ permit ∈ s.issued, s.tasks.lookup permit.lane ≠ none
  /-- no permit is issued twice -/
  nodup : s.issued.Nodup
  admitted : s.registry.admitted = Multiset.card s.livePermits
  total : HashMap.total id s.registry.perPeer = s.registry.admitted
  perPeer : ∀ ip, (s.registry.perPeer.lookup ip).getD 0 =
    s.livePermits.countP fun permit => permit.peer = ip
  nonzero : ∀ ip, s.registry.perPeer.lookup ip ≠ some 0
  admitted_le : s.registry.admitted ≤ maxPendingLanes
  perPeer_le : ∀ ip count, s.registry.perPeer.lookup ip = some count →
    count ≤ maxPendingLanesPerPeer

/-- A live permit is counted: neither counter is zero when it is dropped. -/
theorem Accounted.counted {s : LaneServer} (h : Accounted s) {permit : PendingLanePermit}
    (hp : permit ∈ s.livePermits) :
    0 < s.registry.admitted ∧
      ∃ count, s.registry.perPeer.lookup permit.peer = some count ∧ 0 < count := by
  refine ⟨?_, ?_⟩
  · rw [h.admitted]
    exact Multiset.card_pos_iff_exists_mem.mpr ⟨permit, hp⟩
  · have hpos : 0 < (s.registry.perPeer.lookup permit.peer).getD 0 := by
      rw [h.perPeer]
      exact Multiset.countP_pos.mpr ⟨permit, hp, rfl⟩
    rcases hlook : s.registry.perPeer.lookup permit.peer with _ | count
    · rw [hlook] at hpos
      simp at hpos
    · rw [hlook] at hpos
      exact ⟨count, rfl, hpos⟩

/-- `PendingLanePermit::drop` on a counted permit: the peer's entry goes down by one
and disappears at zero. -/
theorem dropPermit_perPeer {reg : PendingLaneRegistry} {permit : PendingLanePermit} {count : Nat}
    (h : reg.perPeer.lookup permit.peer = some count) :
    (reg.dropPermit permit).perPeer =
      if count - 1 = 0 then reg.perPeer.erase permit.peer
      else reg.perPeer.insert permit.peer (count - 1) := by
  unfold PendingLaneRegistry.dropPermit
  simp only [h]
  split <;> rfl

@[simp] theorem dropPermit_admitted (reg : PendingLaneRegistry) (permit : PendingLanePermit) :
    (reg.dropPermit permit).admitted = reg.admitted - 1 := by
  unfold PendingLaneRegistry.dropPermit
  simp only
  split
  · split <;> rfl
  · rfl

theorem accounted_init : Accounted LaneServer.init where
  conserved := rfl
  lanes := by simp [LaneServer.init]
  nodup := List.nodup_nil
  admitted := rfl
  total := rfl
  perPeer := fun _ => rfl
  nonzero := by simp [LaneServer.init, PendingLaneRegistry.empty]
  admitted_le := Nat.zero_le _
  perPeer_le := by simp [LaneServer.init, PendingLaneRegistry.empty]

/-- **Step lemma.** Every step keeps the accounts. -/
theorem Accounted.step {s s' : LaneServer} {e : LaneEvent} (h : Accounted s)
    (hst : s.step e = some s') : Accounted s' := by
  have hstep := LaneStep.of_step hst
  have hmono : ∀ lane, s.tasks.lookup lane ≠ none → s'.tasks.lookup lane ≠ none :=
    fun _ hl => hstep.tasks_mono hl
  cases hstep.permitFlow with
  | kept hlive hissued hreleased hadm hper =>
    constructor
    case conserved => rw [hissued, hlive, hreleased, h.conserved]
    case lanes => rw [hissued]; exact fun permit hp => hmono _ (h.lanes permit hp)
    case nodup => rw [hissued]; exact h.nodup
    case admitted => rw [hadm, hlive, h.admitted]
    case total => rw [hper, hadm, h.total]
    case perPeer => rw [hper, hlive]; exact h.perPeer
    case nonzero => rw [hper]; exact h.nonzero
    case admitted_le => rw [hadm]; exact h.admitted_le
    case perPeer_le => rw [hper]; exact h.perPeer_le
  | issued lane peer hnew hold hlive hissued hreleased hall hpeer hadm hper =>
    constructor
    case conserved =>
      rw [hissued, hlive, hreleased, ← Multiset.cons_coe, h.conserved, Multiset.cons_add]
    case lanes =>
      rw [hissued]
      intro permit hp
      rcases List.mem_cons.mp hp with rfl | hp
      · exact hold
      · exact hmono _ (h.lanes permit hp)
    case nodup =>
      -- the lane is new, so no earlier permit names it
      rw [hissued]
      exact List.nodup_cons.mpr ⟨fun hp => h.lanes _ hp hnew, h.nodup⟩
    case admitted => rw [hadm, hlive, Multiset.card_cons, h.admitted]
    case total =>
      rw [hper, hadm, ← h.total]
      rcases hlook : s.registry.perPeer.lookup peer with _ | count
      · rw [HashMap.total_insert_new _ hlook]
        exact Nat.add_comm _ _
      · have hsum := HashMap.total_insert (f := id) (count + 1) hlook
        simp only [id, Option.getD_some] at hsum ⊢
        omega
    case perPeer =>
      intro ip
      rw [hper, hlive, HashMap.lookup_insert_eq, Multiset.countP_cons, ← h.perPeer ip]
      by_cases hip : ip = peer
      · subst hip
        simp
      · simp [hip, Ne.symm hip]
    case nonzero =>
      intro ip
      rw [hper, HashMap.lookup_insert_eq]
      split
      · simp
      · exact h.nonzero ip
    case admitted_le => rw [hadm]; exact hall
    case perPeer_le =>
      intro ip count
      rw [hper, HashMap.lookup_insert_eq]
      split
      · intro heq
        obtain rfl := Option.some.inj heq
        exact hpeer
      · exact h.perPeer_le ip count
  | released permit hlive hissued hreleased hreg hper =>
    have hmem : permit ∈ s.livePermits := by
      rw [hlive]
      exact Multiset.mem_cons_self _ _
    obtain ⟨hpos, count, hlook, hcount⟩ := h.counted hmem
    rw [dropPermit_perPeer hlook] at hper
    rw [dropPermit_admitted] at hreg
    constructor
    case conserved =>
      rw [hissued, hreleased, h.conserved, hlive, ← Multiset.cons_coe, Multiset.cons_add,
        Multiset.add_cons]
    case lanes => rw [hissued]; exact fun permit hp => hmono _ (h.lanes permit hp)
    case nodup => rw [hissued]; exact h.nodup
    case admitted =>
      rw [hreg, h.admitted, hlive, Multiset.card_cons]
      rfl
    case total =>
      rw [hper, hreg, ← h.total]
      split
      · have hsum := HashMap.total_erase (f := id) hlook
        simp only [id] at hsum ⊢
        omega
      · have hsum := HashMap.total_insert (f := id) (count - 1) hlook
        simp only [id] at hsum ⊢
        omega
    case perPeer =>
      intro ip
      have hip := h.perPeer ip
      rw [hlive, Multiset.countP_cons] at hip
      rw [hper]
      by_cases heq : ip = permit.peer
      · subst heq
        rw [hlook] at hip
        simp only [Option.getD_some, if_true] at hip
        split
        · rw [HashMap.lookup_erase_eq]
          simp only [if_true, Option.getD_none]
          omega
        · rw [HashMap.lookup_insert_eq]
          simp only [if_true, Option.getD_some]
          omega
      · have hne : ¬ permit.peer = ip := fun h => heq h.symm
        simp only [hne, if_false, Nat.add_zero] at hip
        rw [← hip]
        split
        · rw [HashMap.lookup_erase_eq, if_neg heq]
        · rw [HashMap.lookup_insert_eq, if_neg heq]
    case nonzero =>
      intro ip
      rw [hper]
      split
      · rw [HashMap.lookup_erase_eq]
        split
        · simp
        · exact h.nonzero ip
      · rename_i hne
        rw [HashMap.lookup_insert_eq]
        split
        · simpa using hne
        · exact h.nonzero ip
    case admitted_le =>
      rw [hreg]
      have := h.admitted_le
      omega
    case perPeer_le =>
      intro ip c
      rw [hper]
      have hle := h.perPeer_le permit.peer count hlook
      split
      · rw [HashMap.lookup_erase_eq]
        split
        · simp
        · exact h.perPeer_le ip c
      · rw [HashMap.lookup_insert_eq]
        split
        · intro heq
          obtain rfl := Option.some.inj heq
          omega
        · exact h.perPeer_le ip c

/-- **Run lemma.** The accounts balance in every reachable state. -/
theorem accounted_of_reaches {s : LaneServer} (h : laneServer.Reaches s) : Accounted s :=
  h.invariant accounted_init fun _ _ _ hs hst => hs.step hst

/-- **Admission accounting.** In every reachable state `admitted` is the number of
live permits and the sum of `per_peer`; `per_peer` has an entry for a peer exactly
when that peer has live permits, and the entry is their number; both limits hold.
Every permit ever issued is live in exactly one place or has been released exactly
once, and a permit that a step drops is counted by both counters, so neither
`saturating_sub` saturates. -/
theorem admission_accounting (s : LaneServer) (h : laneServer.Reaches s) :
    s.registry.admitted = Multiset.card s.livePermits ∧
    s.registry.admitted = HashMap.total id s.registry.perPeer ∧
    (∀ ip, s.registry.perPeer.lookup ip =
      let live := s.livePermits.countP fun permit => permit.peer = ip
      if live = 0 then none else some live) ∧
    s.registry.admitted ≤ maxPendingLanes ∧
    (∀ ip count, s.registry.perPeer.lookup ip = some count → count ≤ maxPendingLanesPerPeer) ∧
    (∀ permit, s.livePermits.count permit + s.released.count permit =
      if permit ∈ s.issued then 1 else 0) ∧
    (∀ e s' permit, s.step e = some s' → s'.released = permit :: s.released →
      0 < s.registry.admitted ∧
        ∃ count, s.registry.perPeer.lookup permit.peer = some count ∧ 0 < count) := by
  have hacc := accounted_of_reaches h
  refine ⟨hacc.admitted, hacc.total.symm, ?_, hacc.admitted_le, hacc.perPeer_le, ?_, ?_⟩
  · intro ip
    have hcount := hacc.perPeer ip
    have hne := hacc.nonzero ip
    simp only
    rw [← hcount]
    rcases hlook : s.registry.perPeer.lookup ip with _ | count
    · simp
    · rw [hlook] at hne
      have : count ≠ 0 := fun h0 => hne (by rw [h0])
      simp [this]
  · intro permit
    have hcons := congrArg (Multiset.count permit) hacc.conserved
    rw [Multiset.count_add, Multiset.coe_count, Multiset.coe_count] at hcons
    rw [← hcons]
    split
    · rename_i hmem
      exact List.count_eq_one_of_mem hacc.nodup hmem
    · rename_i hmem
      exact List.count_eq_zero_of_not_mem hmem
  · intro e s' permit hst hrel
    cases (LaneStep.of_step hst).permitFlow with
    | kept _ _ hreleased =>
      rw [hreleased] at hrel
      simp at hrel
    | issued _ _ _ _ _ _ hreleased =>
      rw [hreleased] at hrel
      simp at hrel
    | released permit' hlive _ hreleased =>
      rw [hreleased] at hrel
      obtain rfl : permit' = permit := by simpa using hrel
      exact hacc.counted (by rw [hlive]; exact Multiset.mem_cons_self _ _)

/-- Three lanes arrived; the reservation of the first has expired and its permit has
been dropped. -/
def expiredRun : List LaneEvent :=
  arrival 0 .interactive ⟨1⟩ ++ arrival 1 .bulk ⟨1⟩ ++ [LaneEvent.expire pairingDeadline] ++
    arrival 2 .interactive ⟨1⟩ ++ [LaneEvent.dropSenders, .reap]

/-- Three lanes are admitted and one entry expires: two permits are out. -/
theorem admission_accounting_expired :
    ∃ s, laneServer.Reaches s ∧ s.registry.admitted = 2 ∧ s.issued.length = 3 ∧
      s.released = [⟨.v4 0x0a000001#32, 0⟩] ∧ Multiset.card s.livePermits = 2 := by
  have hrun : ∃ s, laneServer.Reaches s ∧ s.registry.admitted = 2 ∧ s.issued.length = 3 ∧
      s.released = [⟨.v4 0x0a000001#32, 0⟩] :=
    ⟨_, ⟨expiredRun, Machine.run_of_exec rfl⟩, rfl, rfl, rfl⟩
  obtain ⟨s, hs, hadm, hissued, hreleased⟩ := hrun
  exact ⟨s, hs, hadm, hissued, hreleased, (admission_accounting s hs).1 ▸ hadm⟩

end RtpMux

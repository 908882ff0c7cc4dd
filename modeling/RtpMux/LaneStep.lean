import RtpMux.LaneAccept
import Mathlib.Algebra.Order.Group.Multiset

/-!
# What one step of the lane server can do

`LaneStep s e s'` lists the transitions of the lane server once, guards included,
and `LaneStep.of_step` derives them from the step function. Every invariant of the
server is proved by cases on `LaneStep`; none of them unfolds the step function
again.

Steps that only move one accept task along, and touch neither the registry nor a
watch channel, are one constructor (`LaneStep.move`) over the relation `PhaseMove`.
-/

namespace RtpMux

open PendingLaneRegistry LaneServer

/-! ## Inversion of the registry operations -/

/-- What `try_admit` did when it admitted. -/
theorem PendingLaneRegistry.tryAdmit_ok {reg reg' : PendingLaneRegistry} {peer : IpAddr}
    {lane : LaneId} {permit : PendingLanePermit}
    (h : reg.tryAdmit peer lane = .ok (permit, reg')) :
    reg.admitted < maxPendingLanes ∧
      (reg.perPeer.lookup peer).getD 0 < maxPendingLanesPerPeer ∧ permit = ⟨peer, lane⟩ ∧
      reg' = { reg with
        admitted := reg.admitted + 1
        perPeer := reg.perPeer.insert peer ((reg.perPeer.lookup peer).getD 0 + 1) } := by
  unfold tryAdmit at h
  split at h
  · cases h
  · rename_i hadm
    simp only at h
    split at h
    · cases h
    · rename_i hcount
      cases h
      exact ⟨by omega, by omega, rfl, rfl⟩

@[simp] theorem dropPermit_entries (reg : PendingLaneRegistry) (permit : PendingLanePermit) :
    (reg.dropPermit permit).entries = reg.entries := by
  unfold PendingLaneRegistry.dropPermit
  simp only
  split
  · split <;> rfl
  · rfl

/-- The four answers of `register_admitted` to a lane that holds its permit. -/
theorem PendingLaneRegistry.registerAdmitted_cases {reg reg' : PendingLaneRegistry}
    {nonce : PairingNonce} {laneClass : LaneClass} {peer localAddr : SocketAddr}
    {group : GroupToken} {permit : PendingLanePermit} {now : Instant} {lane : LaneId}
    {answer : PendingLaneAdmission} {left : Option PendingLanePermit}
    (h : reg.registerAdmitted nonce laneClass peer localAddr group (some permit) now lane =
      .ok (answer, left, reg')) :
    (∃ reason, answer = .reject reason ∧ reg' = reg) ∨
    (∃ peer' localAddr' laneClass' expiresAt changed permit',
      reg.entries.lookup nonce =
        some (.building peer' localAddr' laneClass' group expiresAt changed permit') ∧
      peer'.ip = peer.ip ∧ laneClass' ≠ laneClass ∧
      answer = .wait changed expiresAt ∧ reg' = reg) ∨
    (∃ other expiresAt, reg.entries.lookup nonce = some (.ready other expiresAt) ∧
      other.peer.ip = peer.ip ∧ other.pending.laneClass ≠ laneClass ∧ other.group = group ∧
      answer = .pair other expiresAt ∧
      reg' = { reg with entries := reg.entries.erase nonce }) ∨
    (reg.entries.lookup nonce = none ∧ answer = .reserved ∧
      reg' = { reg with
        entries := reg.entries.insert nonce
          (.building peer localAddr laneClass group (now + pairingDeadline) lane permit) }) := by
  unfold registerAdmitted at h
  split at h
  · rename_i entry hlook
    split at h
    · cases h
      exact .inl ⟨_, rfl, rfl⟩
    split at h
    · cases h
      exact .inl ⟨_, rfl, rfl⟩
    split at h
    · cases h
      exact .inl ⟨_, rfl, rfl⟩
    rename_i hip hclass hgroup
    simp only [ne_eq, Decidable.not_not] at hip hgroup
    split at h
    · cases h
      subst hgroup
      exact .inr (.inl ⟨_, _, _, _, _, _, hlook, hip, hclass, rfl, rfl⟩)
    · cases h
      exact .inr (.inr (.inl ⟨_, _, hlook, hip, hclass, hgroup, rfl, rfl⟩))
  · rename_i hlook
    cases h
    exact .inr (.inr (.inr ⟨hlook, rfl, rfl⟩))

/-- What `confirm_reservation` did when it succeeded. -/
theorem PendingLaneRegistry.confirmReservation_ok {reg reg' : PendingLaneRegistry}
    {nonce : PairingNonce} {lane : PreparedLane} {changed : LaneId}
    (h : reg.confirmReservation nonce lane = (.ok changed, reg')) :
    ∃ localAddr group expiresAt permit,
      reg.entries.lookup nonce = some (.building lane.peer localAddr lane.pending.laneClass group
        expiresAt changed permit) ∧
      reg' = { reg with
        entries := (reg.entries.erase nonce).insert nonce
          (.ready ⟨lane.pending, lane.peer, lane.localAddr, group, permit, lane.supervisor⟩
            expiresAt) } := by
  unfold confirmReservation at h
  split at h
  · cases h
  rename_i entry hlook
  simp only at h
  split at h
  · cases h
  rename_i peer localAddr laneClass group expiresAt changed' permit
  split at h
  · cases h
  rename_i hne
  simp only [ne_eq, not_or, Decidable.not_not] at hne
  obtain ⟨rfl, rfl⟩ := hne
  cases h
  exact ⟨_, _, _, _, hlook, rfl⟩

/-- A refused `confirm_reservation` rebuilds the entry it took out. -/
theorem PendingLaneRegistry.confirmReservation_error {reg reg' : PendingLaneRegistry}
    {nonce : PairingNonce} {lane back : PreparedLane}
    (h : reg.confirmReservation nonce lane = (.error back, reg')) :
    back = lane ∧ (reg' = reg ∨ ∃ entry, reg.entries.lookup nonce = some entry ∧
      reg' = { reg with entries := (reg.entries.erase nonce).insert nonce entry }) := by
  unfold confirmReservation at h
  split at h
  · cases h
    exact ⟨rfl, .inl rfl⟩
  rename_i entry hlook
  simp only at h
  split at h
  · cases h
    exact ⟨rfl, .inr ⟨_, hlook, rfl⟩⟩
  split at h
  · cases h
    exact ⟨rfl, .inr ⟨_, hlook, rfl⟩⟩
  · cases h

/-- Taking an entry out and putting it back leaves every lookup as it was. -/
theorem PendingLaneRegistry.lookup_rebuilt {reg reg' : PendingLaneRegistry} {nonce : PairingNonce}
    (hreg : reg' = reg ∨ ∃ entry, reg.entries.lookup nonce = some entry ∧
      reg' = { reg with entries := (reg.entries.erase nonce).insert nonce entry })
    (nonce' : PairingNonce) : reg'.entries.lookup nonce' = reg.entries.lookup nonce' := by
  obtain rfl | ⟨entry, hentry, rfl⟩ := hreg
  · rfl
  · simp only [HashMap.lookup_insert_eq, HashMap.lookup_erase_eq]
    split
    · rename_i hn
      rw [hn, hentry]
    · rfl

/-- The answers of `pair_wait_step`: only a ready lane of the same peer IP and the
other class leaves the registry. -/
theorem PendingLaneRegistry.pairWaitStep_cases (reg : PendingLaneRegistry) (nonce : PairingNonce)
    (laneClass : LaneClass) (peer : SocketAddr) (expiresAt now : Instant) :
    (∃ other expiresAt', reg.entries.lookup nonce = some (.ready other expiresAt') ∧
      other.peer.ip = peer.ip ∧ other.pending.laneClass ≠ laneClass ∧
      reg.pairWaitStep nonce laneClass peer expiresAt now =
        (.done (.pair other), { reg with entries := reg.entries.erase nonce })) ∨
    reg.pairWaitStep nonce laneClass peer expiresAt now = (.done .timeout, reg) ∨
    (∃ reason, reg.pairWaitStep nonce laneClass peer expiresAt now =
      (.done (.reservationLost reason), reg)) ∨
    (reg.pairWaitStep nonce laneClass peer expiresAt now = (.wait, reg) ∧
      ∃ peer' localAddr laneClass' group expiresAt' changed permit,
        reg.entries.lookup nonce =
          some (.building peer' localAddr laneClass' group expiresAt' changed permit) ∧
        peer'.ip = peer.ip ∧ laneClass' ≠ laneClass) := by
  unfold pairWaitStep
  rcases hlook : reg.entries.lookup nonce with _ | entry
  · exact .inr (.inr (.inl ⟨_, rfl⟩))
  simp only
  split
  · exact .inr (.inr (.inl ⟨_, rfl⟩))
  split
  · exact .inr (.inr (.inl ⟨_, rfl⟩))
  rename_i hip hclass
  simp only [ne_eq, Decidable.not_not] at hip
  cases entry with
  | ready other expiresAt' => exact .inl ⟨_, _, rfl, hip, hclass, rfl⟩
  | building peer' localAddr laneClass' group expiresAt' changed permit =>
    simp only
    split
    · exact .inr (.inl rfl)
    · exact .inr (.inr (.inr ⟨rfl, _, _, _, _, _, _, _, rfl, hip, hclass⟩))

/-- What `cancel_reservation` took out. -/
theorem PendingLaneRegistry.cancelReservation_some {reg reg' : PendingLaneRegistry}
    {nonce : PairingNonce} {peer : SocketAddr} {laneClass : LaneClass} {entry : PendingLaneEntry}
    (h : reg.cancelReservation nonce peer laneClass = (some entry, reg')) :
    ∃ localAddr group expiresAt changed permit,
      entry = .building peer localAddr laneClass group expiresAt changed permit ∧
      reg.entries.lookup nonce = some entry ∧
      reg' = { reg with entries := reg.entries.erase nonce } := by
  unfold cancelReservation at h
  split at h
  · rename_i hlook
    split at h
    · rename_i heq
      obtain ⟨rfl, rfl⟩ := heq
      cases h
      exact ⟨_, _, _, _, _, rfl, hlook, rfl⟩
    · cases h
  · cases h

/-- A `cancel_reservation` that does not match changes nothing. -/
theorem PendingLaneRegistry.cancelReservation_none {reg reg' : PendingLaneRegistry}
    {nonce : PairingNonce} {peer : SocketAddr} {laneClass : LaneClass}
    (h : reg.cancelReservation nonce peer laneClass = (none, reg')) : reg' = reg := by
  unfold cancelReservation at h
  split at h
  · split at h
    · cases h
    · cases h
      rfl
  · cases h
    rfl

/-- No building entry under the nonce was made by a lane of this peer and class. -/
def PendingLaneRegistry.Unmatched (reg : PendingLaneRegistry) (nonce : PairingNonce)
    (peer : SocketAddr) (laneClass : LaneClass) : Prop :=
  ∀ localAddr group expiresAt changed permit, reg.entries.lookup nonce ≠
    some (.building peer localAddr laneClass group expiresAt changed permit)

/-- `cancel_reservation` takes out nothing only if nothing matches. -/
theorem PendingLaneRegistry.cancelReservation_unmatched {reg reg' : PendingLaneRegistry}
    {nonce : PairingNonce} {peer : SocketAddr} {laneClass : LaneClass}
    (h : reg.cancelReservation nonce peer laneClass = (none, reg')) :
    reg.Unmatched nonce peer laneClass := by
  intro localAddr group expiresAt changed permit hentry
  simp [cancelReservation, hentry] at h

/-- `confirm_reservation` refuses only if nothing matches. -/
theorem PendingLaneRegistry.confirmReservation_unmatched {reg reg' : PendingLaneRegistry}
    {nonce : PairingNonce} {lane back : PreparedLane}
    (h : reg.confirmReservation nonce lane = (.error back, reg')) :
    reg.Unmatched nonce lane.peer lane.pending.laneClass := by
  intro localAddr group expiresAt changed permit hentry
  simp [confirmReservation, hentry] at h

/-! ## The effect of `expire`

`expire` is a loop that removes one nonce after the other. `ExpireSpec reg acc`
relates the loop's accumulator to the registry it started from: entries only
disappear, every permit that left the entries is in a record, and every collected
sender belonged to a building entry that is gone. -/

/-- The loop invariant of `expire`, started from `reg`. -/
structure ExpireSpec (reg : PendingLaneRegistry)
    (acc : List ExpiredPendingLane × List LaneId × PendingLaneRegistry) : Prop where
  admitted : acc.2.2.admitted = reg.admitted
  perPeer : acc.2.2.perPeer = reg.perPeer
  /-- entries are unchanged or gone -/
  lookup : ∀ nonce, acc.2.2.entries.lookup nonce = reg.entries.lookup nonce ∨
    acc.2.2.entries.lookup nonce = none
  /-- permits move from the entries into the records -/
  permits : (acc.1.map ExpiredPendingLane.permit : Multiset PendingLanePermit) +
      acc.2.2.entries.total (fun entry => {entry.permit}) =
    reg.entries.total fun entry => {entry.permit}
  /-- collected senders come from building entries that are gone -/
  changed : ∀ c ∈ acc.2.1, ∃ nonce peer localAddr laneClass group expiresAt permit,
    reg.entries.lookup nonce =
      some (.building peer localAddr laneClass group expiresAt c permit) ∧
    acc.2.2.entries.lookup nonce = none

/-- Before the first entry nothing is expired. -/
theorem ExpireSpec.start (reg : PendingLaneRegistry) : ExpireSpec reg ([], [], reg) :=
  ⟨rfl, rfl, fun _ => .inl rfl, by simp, by simp⟩

/-- One turn of the loop keeps the loop invariant. -/
theorem ExpireSpec.expireOne {reg : PendingLaneRegistry}
    {acc : List ExpiredPendingLane × List LaneId × PendingLaneRegistry}
    (h : ExpireSpec reg acc) (nonce : PairingNonce) : ExpireSpec reg (expireOne acc nonce) := by
  obtain ⟨removed, changed, r⟩ := acc
  obtain ⟨hadm, hper, hlook, hperm, hchg⟩ := h
  simp only at hadm hper hlook hperm hchg
  -- erasing `nonce` keeps every entry that is still there
  have hlook' : ∀ n, (r.entries.erase nonce).lookup n = reg.entries.lookup n ∨
      (r.entries.erase nonce).lookup n = none := by
    intro n
    rw [HashMap.lookup_erase_eq]
    split
    · exact .inr rfl
    · exact hlook n
  have hchg' : ∀ c ∈ changed, ∃ nonce' peer localAddr laneClass group expiresAt permit,
      reg.entries.lookup nonce' =
        some (.building peer localAddr laneClass group expiresAt c permit) ∧
      (r.entries.erase nonce).lookup nonce' = none := by
    intro c hc
    obtain ⟨n, p, l, k, g, x, q, hn, hnone⟩ := hchg c hc
    refine ⟨n, p, l, k, g, x, q, hn, ?_⟩
    rw [HashMap.lookup_erase_eq, hnone]
    simp
  unfold PendingLaneRegistry.expireOne
  simp only
  split
  · exact ⟨hadm, hper, hlook, hperm, hchg⟩
  · rename_i peer localAddr laneClass group expiresAt c permit hentry
    refine ⟨hadm, hper, hlook', ?_, ?_⟩
    · rw [← hperm, ← HashMap.total_erase hentry]
      simp only [List.map_append, List.map_cons, List.map_nil, ← Multiset.coe_add,
        Multiset.coe_singleton, add_assoc]
      rfl
    · intro c' hc'
      rcases List.mem_append.mp hc' with hc' | hc'
      · exact hchg' c' hc'
      · obtain rfl : c' = c := by simpa using hc'
        refine ⟨nonce, peer, localAddr, laneClass, group, expiresAt, permit, ?_, by simp⟩
        rcases hlook nonce with hn | hn
        · rw [← hn, hentry]
        · rw [hn] at hentry
          cases hentry
  · rename_i lane expiresAt hentry
    refine ⟨hadm, hper, hlook', ?_, hchg'⟩
    rw [← hperm, ← HashMap.total_erase hentry]
    simp only [List.map_append, List.map_cons, List.map_nil, ← Multiset.coe_add,
      Multiset.coe_singleton, add_assoc]
    rfl

/-- The specification of `expire` that the invariants below use. -/
theorem PendingLaneRegistry.expire_spec (reg : PendingLaneRegistry) (now : Instant) :
    ExpireSpec reg (reg.expire now) := by
  unfold PendingLaneRegistry.expire
  generalize reg.expiredNonces now = nonces
  have hloop : ∀ (nonces : List PairingNonce) acc, ExpireSpec reg acc →
      ExpireSpec reg (nonces.foldl PendingLaneRegistry.expireOne acc) := by
    intro nonces
    induction nonces with
    | nil => exact fun acc h => h
    | cons n rest ih => exact fun acc h => ih _ (h.expireOne n)
  exact hloop nonces _ (.start reg)

/-! ## The transitions -/

/-- A move of one accept task that touches nothing but its own phase. -/
inductive PhaseMove : LanePhase → LanePhase → Prop where
  | turnedAway (permit) : PhaseMove (.admitted permit) (.rejecting [permit])
  | heartbeatOk : PhaseMove .reserved .built
  | heartbeatFailed : PhaseMove .reserved .cancelling
  | waitStarted (permit changed seen expiresAt) :
      PhaseMove (.waiting permit changed seen expiresAt .heartbeat)
        (.waiting permit changed seen expiresAt .polling)
  | waitAgain (permit changed seen expiresAt) :
      PhaseMove (.waiting permit changed seen expiresAt .polling)
        (.waiting permit changed seen expiresAt .blocked)
  | woken (permit changed seen seen' expiresAt) :
      PhaseMove (.waiting permit changed seen expiresAt .blocked)
        (.waiting permit changed seen' expiresAt .polling)
  | timedOut (permit changed seen expiresAt) :
      PhaseMove (.waiting permit changed seen expiresAt .blocked)
        (.waiting permit changed seen expiresAt .lastPoll)
  | waitEnded (permit changed seen expiresAt pc) :
      PhaseMove (.waiting permit changed seen expiresAt pc) (.rejecting [permit])
  | pairedUp (permit other expiresAt) :
      PhaseMove (.offered permit other expiresAt) (.paired [permit, other.permit])
  | offerFailed (permit other expiresAt) :
      PhaseMove (.offered permit other expiresAt) (.restoring permit other expiresAt)
  | restoreFailed (permit other expiresAt) :
      PhaseMove (.restoring permit other expiresAt) (.rejecting [permit, other.permit])

/-- The transitions of the lane server. -/
inductive LaneStep (s : LaneServer) : LaneEvent → LaneServer → Prop where
  | accepted {lane expectedClass peer localAddr} (hnew : s.tasks.lookup lane = none)
      (hall : s.registry.admitted < maxPendingLanes)
      (hpeer : (s.registry.perPeer.lookup peer.ip).getD 0 < maxPendingLanesPerPeer) :
      LaneStep s (.accept lane expectedClass peer localAddr)
        { s with
          registry := { s.registry with
            admitted := s.registry.admitted + 1
            perPeer := s.registry.perPeer.insert peer.ip
              ((s.registry.perPeer.lookup peer.ip).getD 0 + 1) }
          tasks := s.tasks.insert lane
            ⟨expectedClass, peer, localAddr, none, .greeting ⟨peer.ip, lane⟩⟩
          issued := ⟨peer.ip, lane⟩ :: s.issued }
  | overCapacity {lane expectedClass peer localAddr} (hnew : s.tasks.lookup lane = none) :
      LaneStep s (.accept lane expectedClass peer localAddr)
        { s with
          tasks := s.tasks.insert lane ⟨expectedClass, peer, localAddr, none, .rejecting []⟩ }
  | helloRejected {e lane t permit} (hello) (ht : s.tasks.lookup lane = some t)
      (hph : t.phase = .greeting permit) :
      LaneStep s e (s.setPhase lane { t with hello := hello } (.rejecting [permit]))
  | helloRead {e lane t permit} (h) (ht : s.tasks.lookup lane = some t)
      (hph : t.phase = .greeting permit) (hclass : h.laneClass = t.expectedClass) :
      LaneStep s e (s.setPhase lane { t with hello := some h } (.admitted permit))
  | move {e lane t phase} (ht : s.tasks.lookup lane = some t) (hmove : PhaseMove t.phase phase) :
      LaneStep s e (s.setPhase lane t phase)
  | reserve {lane now t permit h} (ht : s.tasks.lookup lane = some t)
      (hph : t.phase = .admitted permit) (hh : t.hello = some h)
      (hfree : s.registry.entries.lookup h.nonce = none) :
      LaneStep s (.register lane now)
        (setPhase { s with
          registry := { s.registry with
            entries := s.registry.entries.insert h.nonce (.building t.peer t.localAddr
              h.laneClass h.group (now + pairingDeadline) lane permit) }
          watches := s.watches.insert lane ⟨0, false⟩ } lane t .reserved)
  | subscribe {lane now t permit h peer localAddr laneClass expiresAt changed permit'}
      (ht : s.tasks.lookup lane = some t) (hph : t.phase = .admitted permit)
      (hh : t.hello = some h)
      (hentry : s.registry.entries.lookup h.nonce =
        some (.building peer localAddr laneClass h.group expiresAt changed permit'))
      (hip : peer.ip = t.peer.ip) (hclass : laneClass ≠ h.laneClass) :
      LaneStep s (.register lane now)
        (s.setPhase lane t
          (.waiting permit changed (s.watchVersion changed) expiresAt .heartbeat))
  | offer {lane now t permit h other expiresAt} (ht : s.tasks.lookup lane = some t)
      (hph : t.phase = .admitted permit) (hh : t.hello = some h)
      (hentry : s.registry.entries.lookup h.nonce = some (.ready other expiresAt))
      (hip : other.peer.ip = t.peer.ip) (hclass : other.pending.laneClass ≠ h.laneClass)
      (hgroup : other.group = h.group) :
      LaneStep s (.register lane now)
        (setPhase { s with
          registry := { s.registry with entries := s.registry.entries.erase h.nonce }
          log := .handed lane other.supervisor :: s.log } lane t (.offered permit other expiresAt))
  | handOver {lane now t permit changed seen expiresAt pc h other expiresAt'}
      (ht : s.tasks.lookup lane = some t)
      (hph : t.phase = .waiting permit changed seen expiresAt pc) (hh : t.hello = some h)
      (hentry : s.registry.entries.lookup h.nonce = some (.ready other expiresAt'))
      (hip : other.peer.ip = t.peer.ip) (hclass : other.pending.laneClass ≠ h.laneClass) :
      LaneStep s (.poll lane now)
        (setPhase { s with
          registry := { s.registry with entries := s.registry.entries.erase h.nonce }
          log := .handed lane other.supervisor :: s.log } lane t (.paired [permit, other.permit]))
  | cancel {lane t h localAddr group expiresAt changed permit}
      (ht : s.tasks.lookup lane = some t) (hph : t.phase = .cancelling) (hh : t.hello = some h)
      (hentry : s.registry.entries.lookup h.nonce =
        some (.building t.peer localAddr h.laneClass group expiresAt changed permit)) :
      LaneStep s (.cancel lane)
        (setPhase { s with
          registry := { s.registry with entries := s.registry.entries.erase h.nonce } } lane t
          (.cancelled (.building t.peer localAddr h.laneClass group expiresAt changed permit)))
  | cancelMissed {lane t h} (ht : s.tasks.lookup lane = some t) (hph : t.phase = .cancelling)
      (hh : t.hello = some h) (hnone : s.registry.Unmatched h.nonce t.peer h.laneClass) :
      LaneStep s (.cancel lane) (s.setPhase lane t (.rejecting []))
  | dropEntry {lane t peer localAddr laneClass group expiresAt changed permit}
      (ht : s.tasks.lookup lane = some t)
      (hph : t.phase = .cancelled
        (.building peer localAddr laneClass group expiresAt changed permit)) :
      LaneStep s (.dropEntry lane)
        (setPhase { s with watches := closeWatch s.watches changed } lane t (.rejecting [permit]))
  | confirm {lane t h localAddr group expiresAt changed permit}
      (ht : s.tasks.lookup lane = some t) (hph : t.phase = .built) (hh : t.hello = some h)
      (hentry : s.registry.entries.lookup h.nonce =
        some (.building t.peer localAddr h.laneClass group expiresAt changed permit)) :
      LaneStep s (.confirm lane)
        (setPhase { s with
          registry := { s.registry with
            entries := (s.registry.entries.erase h.nonce).insert h.nonce
              (.ready ⟨⟨h.laneClass, h.nonce, h.group⟩, t.peer, t.localAddr, group, permit, lane⟩
                expiresAt) }
          log := .confirmed lane :: s.log } lane t (.announcing changed))
  | confirmMissed {lane t h reg} (ht : s.tasks.lookup lane = some t) (hph : t.phase = .built)
      (hh : t.hello = some h) (hnone : s.registry.Unmatched h.nonce t.peer h.laneClass)
      (hreg : reg = s.registry ∨ ∃ entry, s.registry.entries.lookup h.nonce = some entry ∧
        reg = { s.registry with
          entries := (s.registry.entries.erase h.nonce).insert h.nonce entry }) :
      LaneStep s (.confirm lane) (setPhase { s with registry := reg } lane t (.rejecting []))
  | announce {lane t changed w} (ht : s.tasks.lookup lane = some t)
      (hph : t.phase = .announcing changed) (hw : s.watches.lookup changed = some w) :
      LaneStep s (.announce lane)
        (setPhase { s with watches := s.watches.insert changed ⟨w.version + 1, w.closed⟩ } lane t
          (.announced changed))
  | dropSender {lane t changed} (ht : s.tasks.lookup lane = some t)
      (hph : t.phase = .announced changed) :
      LaneStep s (.dropSender lane)
        (setPhase { s with watches := closeWatch s.watches changed } lane t .settled)
  | reinsert {lane t permit other expiresAt h} (ht : s.tasks.lookup lane = some t)
      (hph : t.phase = .restoring permit other expiresAt) (hh : t.hello = some h)
      (hfree : s.registry.entries.lookup h.nonce = none) :
      LaneStep s (.reinsert lane)
        (setPhase { s with
          registry := { s.registry with
            entries := s.registry.entries.insert h.nonce (.ready other expiresAt) }
          log := .reinserted lane other.supervisor :: s.log } lane t (.rejecting [permit]))
  | dropPaired {lane t permit permits} (ht : s.tasks.lookup lane = some t)
      (hph : t.phase = .paired (permit :: permits)) :
      LaneStep s (.dropPermit lane) ((s.releasePermit permit).setPhase lane t (.paired permits))
  | dropRejected {lane t permit permits} (ht : s.tasks.lookup lane = some t)
      (hph : t.phase = .rejecting (permit :: permits)) :
      LaneStep s (.dropPermit lane) ((s.releasePermit permit).setPhase lane t (.rejecting permits))
  | expire {now} (hidle : s.worker = ⟨[], []⟩) :
      LaneStep s (.expire now)
        { s with
          registry := (s.registry.expire now).2.2
          worker := ⟨(s.registry.expire now).1, (s.registry.expire now).2.1⟩ }
  | dropSenders :
      LaneStep s .dropSenders
        { s with
          watches := s.worker.changed.foldl closeWatch s.watches
          worker := ⟨s.worker.removed, []⟩ }
  | reap {expired removed} (hw : s.worker = ⟨expired :: removed, []⟩) :
      LaneStep s .reap { s.releasePermit expired.permit with worker := ⟨removed, []⟩ }

/-! ### What each handler can do -/

section Handlers

variable {s s' : LaneServer}

/-- A new lane is admitted, or it is over the capacity. -/
theorem LaneStep.of_handleLaneAccept {lane : LaneId} {expectedClass : LaneClass}
    {peer localAddr : SocketAddr}
    (h : s.handleLaneAccept lane expectedClass peer localAddr = some s') :
    LaneStep s (.accept lane expectedClass peer localAddr) s' := by
  simp only [handleLaneAccept] at h
  split at h
  · cases h
  rename_i hnew
  replace hnew : s.tasks.lookup lane = none := AList.lookup_eq_none.mpr hnew
  split at h
  · rename_i permit reg hadmit
    obtain ⟨hall, hpeer, rfl, rfl⟩ := tryAdmit_ok hadmit
    cases h
    exact .accepted hnew hall hpeer
  · cases h
    exact .overCapacity hnew

/-- A hello is read and of the class that was expected, or its lane is rejected. -/
theorem LaneStep.of_readLaneHello {e : LaneEvent} {lane : LaneId} {hello : Option Hello}
    (h : s.readLaneHello lane hello = some s') : LaneStep s e s' := by
  simp only [readLaneHello] at h
  split at h
  · rename_i t ht
    split at h
    · rename_i permit h' hph
      split at h
      · cases h
        exact .helloRejected (some h') ht hph
      · rename_i hclass
        cases h
        exact .helloRead h' ht hph (by simpa using hclass)
    · rename_i permit hph
      cases h
      exact .helloRejected t.hello ht hph
    · cases h
  · cases h

theorem LaneStep.of_rejectGroupFull {lane : LaneId} (h : s.rejectGroupFull lane = some s') :
    LaneStep s (.groupFull lane) s' := by
  simp only [rejectGroupFull] at h
  split at h
  · rename_i t ht
    split at h
    · rename_i permit hph
      cases h
      exact .move ht (hph ▸ .turnedAway permit)
    · cases h
  · cases h

/-- The four answers of the registry to a registration. -/
theorem LaneStep.of_register {lane : LaneId} {now : Instant} (h : s.register lane now = some s') :
    LaneStep s (.register lane now) s' := by
  simp only [LaneServer.register] at h
  split at h
  · rename_i t ht
    split at h
    · rename_i permit hh hph hhello
      split at h
      · rename_i left reg hreg
        cases h
        obtain ⟨_, hn, _⟩ | ⟨_, _, _, _, _, _, _, _, _, hn, _⟩ | ⟨_, _, _, _, _, _, hn, _⟩ |
          ⟨hfree, -, rfl⟩ := registerAdmitted_cases hreg
        · cases hn
        · cases hn
        · cases hn
        · exact .reserve ht hph hhello hfree
      · rename_i changed expiresAt left reg hreg
        cases h
        obtain ⟨_, hn, _⟩ | ⟨_, _, _, _, _, _, hentry, hip, hclass, hn, rfl⟩ |
          ⟨_, _, _, _, _, _, hn, _⟩ | ⟨_, hn, _⟩ := registerAdmitted_cases hreg
        · cases hn
        · cases hn
          exact .subscribe ht hph hhello hentry hip hclass
        · cases hn
        · cases hn
      · rename_i other expiresAt left reg hreg
        cases h
        obtain ⟨_, hn, _⟩ | ⟨_, _, _, _, _, _, _, _, _, hn, _⟩ |
          ⟨_, _, hentry, hip, hclass, hgroup, hn, rfl⟩ | ⟨_, hn, _⟩ :=
          registerAdmitted_cases hreg
        · cases hn
        · cases hn
        · cases hn
          exact .offer ht hph hhello hentry hip hclass hgroup
        · cases hn
      · rename_i reason left reg hreg
        cases h
        obtain ⟨_, _, rfl⟩ | ⟨_, _, _, _, _, _, _, _, _, hn, _⟩ | ⟨_, _, _, _, _, _, hn, _⟩ |
          ⟨_, hn, _⟩ := registerAdmitted_cases hreg
        · exact .move ht (hph ▸ .turnedAway permit)
        · cases hn
        · cases hn
        · cases hn
      · cases h
    · cases h
  · cases h

/-- The heartbeat is written for a reservation, a wait or an offer. -/
theorem LaneStep.of_writeBirthHeartbeat {lane : LaneId} {ok : Bool}
    (h : s.writeBirthHeartbeat lane ok = some s') :
    LaneStep s (.heartbeat lane ok) s' := by
  simp only [writeBirthHeartbeat] at h
  split at h
  · rename_i t ht
    split at h
    · rename_i hph
      cases h
      cases ok
      · exact .move ht (hph ▸ .heartbeatFailed)
      · exact .move ht (hph ▸ .heartbeatOk)
    · rename_i permit changed seen expiresAt hph
      cases h
      cases ok
      · exact .move ht (hph ▸ .waitEnded ..)
      · exact .move ht (hph ▸ .waitStarted ..)
    · rename_i permit other expiresAt hph
      cases h
      cases ok
      · exact .move ht (hph ▸ .offerFailed ..)
      · exact .move ht (hph ▸ .pairedUp ..)
    · cases h
  · cases h

/-- A reservation is cancelled by the lane that made it, or there is none of it. -/
theorem LaneStep.of_cancel {lane : LaneId} (h : s.cancel lane = some s') :
    LaneStep s (.cancel lane) s' := by
  simp only [LaneServer.cancel] at h
  split at h
  · rename_i t ht
    split at h
    · rename_i hh hph hhello
      split at h
      · rename_i entry reg hcancel
        cases h
        obtain ⟨_, _, _, _, _, rfl, hentry, rfl⟩ := cancelReservation_some hcancel
        exact .cancel ht hph hhello hentry
      · rename_i reg hcancel
        cases h
        have hnone := cancelReservation_unmatched hcancel
        obtain rfl := cancelReservation_none hcancel
        exact .cancelMissed ht hph hhello hnone
    · cases h
  · cases h

theorem LaneStep.of_dropEntry {lane : LaneId} (h : s.dropEntry lane = some s') :
    LaneStep s (.dropEntry lane) s' := by
  simp only [LaneServer.dropEntry] at h
  split at h
  · rename_i t ht
    split at h
    · rename_i hph
      cases h
      exact .dropEntry ht hph
    · cases h
  · cases h

/-- A reservation is confirmed by the lane that made it, or there is none of it. -/
theorem LaneStep.of_confirm {lane : LaneId} (h : s.confirm lane = some s') :
    LaneStep s (.confirm lane) s' := by
  simp only [LaneServer.confirm] at h
  split at h
  · rename_i t ht
    split at h
    · rename_i hh hph hhello
      split at h
      · rename_i changed reg hconfirm
        cases h
        obtain ⟨_, _, _, _, hentry, rfl⟩ := confirmReservation_ok hconfirm
        exact .confirm ht hph hhello hentry
      · rename_i back reg hconfirm
        cases h
        exact .confirmMissed ht hph hhello (confirmReservation_unmatched hconfirm)
          (confirmReservation_error hconfirm).2
    · cases h
  · cases h

theorem LaneStep.of_announce {lane : LaneId} (h : s.announce lane = some s') :
    LaneStep s (.announce lane) s' := by
  simp only [LaneServer.announce] at h
  split at h
  · rename_i t ht
    split at h
    · rename_i changed hph
      split at h
      · rename_i w hw
        cases h
        exact .announce ht hph hw
      · cases h
    · cases h
  · cases h

theorem LaneStep.of_dropSender {lane : LaneId} (h : s.dropSender lane = some s') :
    LaneStep s (.dropSender lane) s' := by
  simp only [LaneServer.dropSender] at h
  split at h
  · rename_i t ht
    split at h
    · rename_i changed hph
      cases h
      exact .dropSender ht hph
    · cases h
  · cases h

/-- What a poll comes to, given what a poll that is to wait goes on with. -/
theorem LaneStep.of_afterPoll {lane : LaneId} {now expiresAt : Instant} {t : LaneTask}
    {hello : Hello}
    {permit : PendingLanePermit} {changed : LaneId} {seen : Nat} {pc : WaitPc} {again : LanePhase}
    (ht : s.tasks.lookup lane = some t) (hph : t.phase = .waiting permit changed seen expiresAt pc)
    (hhello : t.hello = some hello) (hagain : PhaseMove t.phase again) :
    LaneStep s (.poll lane now) (s.afterPoll lane t permit again
      (s.registry.pairWaitStep hello.nonce hello.laneClass t.peer expiresAt now)) := by
  obtain ⟨other, expiresAt', hentry, hip, hclass, hpoll⟩ | hpoll | ⟨_, hpoll⟩ | ⟨hpoll, -⟩ :=
    pairWaitStep_cases s.registry hello.nonce hello.laneClass t.peer expiresAt now
  · rw [hpoll]
    exact .handOver ht hph hhello hentry hip hclass
  · rw [hpoll]
    exact .move ht (hph ▸ .waitEnded ..)
  · rw [hpoll]
    exact .move ht (hph ▸ .waitEnded ..)
  · rw [hpoll]
    exact .move ht hagain

theorem LaneStep.of_poll {lane : LaneId} {now : Instant} (h : s.poll lane now = some s') :
    LaneStep s (.poll lane now) s' := by
  simp only [LaneServer.poll] at h
  split at h
  · rename_i t ht
    split at h
    · rename_i permit changed seen expiresAt hello hph hhello
      cases h
      exact .of_afterPoll ht hph hhello (hph ▸ .waitAgain ..)
    · rename_i permit changed seen expiresAt hello hph hhello
      cases h
      exact .of_afterPoll ht hph hhello (hph ▸ .waitEnded ..)
    · cases h
  · cases h

theorem LaneStep.of_wake {lane : LaneId} (h : s.wake lane = some s') :
    LaneStep s (.wake lane) s' := by
  simp only [LaneServer.wake] at h
  split at h
  · rename_i t ht
    split at h
    · rename_i permit changed seen expiresAt hph
      split at h
      · cases h
        exact .move ht (hph ▸ .woken ..)
      · cases h
    · cases h
  · cases h

theorem LaneStep.of_timeout {lane : LaneId} {now : Instant} (h : s.timeout lane now = some s') :
    LaneStep s (.timeout lane now) s' := by
  simp only [LaneServer.timeout] at h
  split at h
  · rename_i t ht
    split at h
    · rename_i permit changed seen expiresAt hph
      split at h
      · cases h
        exact .move ht (hph ▸ .timedOut ..)
      · cases h
    · cases h
  · cases h

theorem LaneStep.of_reinsert {lane : LaneId} (h : s.reinsert lane = some s') :
    LaneStep s (.reinsert lane) s' := by
  simp only [LaneServer.reinsert, reinsertReadyLane] at h
  split at h
  · rename_i t ht
    split at h
    · rename_i permit other expiresAt hh hph hhello
      by_cases hmem : hh.nonce ∈ s.registry.entries
      · simp only [hmem, if_true] at h
        cases h
        exact .move ht (hph ▸ .restoreFailed ..)
      · simp only [hmem, if_false] at h
        cases h
        exact .reinsert ht hph hhello (AList.lookup_eq_none.mpr hmem)
    · cases h
  · cases h

theorem LaneStep.of_dropPermit {lane : LaneId} (h : s.dropPermit lane = some s') :
    LaneStep s (.dropPermit lane) s' := by
  simp only [LaneServer.dropPermit] at h
  split at h
  · rename_i t ht
    split at h
    · rename_i permit permits hph
      cases h
      exact .dropPaired ht hph
    · rename_i permit permits hph
      cases h
      exact .dropRejected ht hph
    · cases h
  · cases h

theorem LaneStep.of_expire {now : Instant} (h : s.expire now = some s') :
    LaneStep s (.expire now) s' := by
  simp only [LaneServer.expire] at h
  split at h
  · rename_i hidle
    cases h
    exact .expire hidle
  · cases h

theorem LaneStep.of_dropSenders (h : s.dropSenders = some s') :
    LaneStep s .dropSenders s' := by
  simp only [LaneServer.dropSenders] at h
  split at h
  · cases h
  · cases h
    exact .dropSenders

theorem LaneStep.of_reap (h : s.reap = some s') :
    LaneStep s .reap s' := by
  simp only [LaneServer.reap] at h
  split at h
  · rename_i hw
    cases h
    exact .reap hw
  · cases h

/-- The step function performs no other transitions. -/
theorem LaneStep.of_step {e : LaneEvent} (h : s.step e = some s') : LaneStep s e s' := by
  cases e with
  | accept lane expectedClass peer localAddr => exact .of_handleLaneAccept h
  | helloFailed lane => exact .of_readLaneHello h
  | hello lane h' => exact .of_readLaneHello h
  | groupFull lane => exact .of_rejectGroupFull h
  | register lane now => exact .of_register h
  | heartbeat lane ok => exact .of_writeBirthHeartbeat h
  | cancel lane => exact .of_cancel h
  | dropEntry lane => exact .of_dropEntry h
  | confirm lane => exact .of_confirm h
  | announce lane => exact .of_announce h
  | dropSender lane => exact .of_dropSender h
  | poll lane now => exact .of_poll h
  | wake lane => exact .of_wake h
  | timeout lane now => exact .of_timeout h
  | reinsert lane => exact .of_reinsert h
  | dropPermit lane => exact .of_dropPermit h
  | expire now => exact .of_expire h
  | dropSenders => exact .of_dropSenders h
  | reap => exact .of_reap h

end Handlers

/-- Setting one task's phase leaves the others. -/
theorem lookup_setPhase (s : LaneServer) (lane lane' : LaneId) (t : LaneTask) (phase : LanePhase) :
    (s.setPhase lane t phase).tasks.lookup lane' =
      if lane' = lane then some { t with phase := phase } else s.tasks.lookup lane' :=
  HashMap.lookup_insert_eq ..

/-! ## Tasks only move forward -/

/-- How far an accept task has come: reading the hello, about to register, past it. -/
def LanePhase.stage : LanePhase → Nat
  | greeting _ => 0
  | admitted _ => 1
  | _ => 2

/-- What a step of the server can do to one accept task. -/
structure TaskStep (t t' : LaneTask) : Prop where
  peer : t'.peer = t.peer
  stage : t.phase.stage ≤ t'.phase.stage
  /-- the hello is fixed once it is read -/
  hello : 0 < t.phase.stage → t'.hello = t.hello

theorem TaskStep.refl (t : LaneTask) : TaskStep t t := ⟨rfl, Nat.le_refl _, fun _ => rfl⟩

/-- No phase is past the last stage. -/
theorem LanePhase.stage_le (φ : LanePhase) : φ.stage ≤ 2 := by
  cases φ <;> simp [LanePhase.stage]

/-- A move ends past the registration. -/
theorem PhaseMove.stage_eq {φ ψ : LanePhase} (h : PhaseMove φ ψ) : ψ.stage = 2 := by
  cases h <;> rfl

/-- Where one task makes a step, every task makes one or stays. -/
theorem task_setPhase {s : LaneServer} {lane lane' : LaneId} {t t' t₀ : LaneTask}
    {phase : LanePhase} (ht : s.tasks.lookup lane = some t) (hstep : TaskStep t { t' with phase })
    (h₀ : s.tasks.lookup lane' = some t₀) :
    ∃ t₁, (s.setPhase lane t' phase).tasks.lookup lane' = some t₁ ∧ TaskStep t₀ t₁ := by
  rw [lookup_setPhase]
  split
  · rename_i hl
    subst hl
    obtain rfl : t = t₀ := Option.some.inj (ht.symm.trans h₀)
    exact ⟨_, rfl, hstep⟩
  · exact ⟨t₀, h₀, .refl t₀⟩

/-- **Forward.** A step never forgets an accepted lane, and its task only moves forward. -/
theorem LaneStep.task {s s' : LaneServer} {e : LaneEvent} (h : LaneStep s e s') {lane : LaneId}
    {t : LaneTask} (ht : s.tasks.lookup lane = some t) :
    ∃ t', s'.tasks.lookup lane = some t' ∧ TaskStep t t' := by
  have hnew : ∀ {lane' t'}, s.tasks.lookup lane' = none →
      ∃ t₁, (s.tasks.insert lane' t').lookup lane = some t₁ ∧ TaskStep t t₁ := by
    intro lane' t' hnone
    have hl : lane ≠ lane' := by
      rintro rfl
      rw [hnone] at ht
      cases ht
    exact ⟨t, by rw [AList.lookup_insert_ne hl, ht], .refl t⟩
  -- a task that is past its registration stays there
  have hlast : ∀ {t₀ : LaneTask} {phase : LanePhase}, phase.stage = 2 →
      TaskStep t₀ { t₀ with phase } :=
    fun {t₀ phase} hphase => ⟨rfl, hphase ▸ t₀.phase.stage_le, fun _ => rfl⟩
  cases h with
  | accepted hnone => exact hnew hnone
  | overCapacity hnone => exact hnew hnone
  | helloRejected _ h₀ hph =>
    exact task_setPhase h₀ ⟨rfl, by simp [hph, LanePhase.stage], by simp [hph, LanePhase.stage]⟩ ht
  | helloRead _ h₀ hph =>
    exact task_setPhase h₀ ⟨rfl, by simp [hph, LanePhase.stage], by simp [hph, LanePhase.stage]⟩ ht
  | move h₀ hmove => exact task_setPhase h₀ (hlast hmove.stage_eq) ht
  | reserve h₀ => exact task_setPhase h₀ (hlast rfl) ht
  | subscribe h₀ => exact task_setPhase h₀ (hlast rfl) ht
  | offer h₀ => exact task_setPhase h₀ (hlast rfl) ht
  | handOver h₀ => exact task_setPhase h₀ (hlast rfl) ht
  | cancel h₀ => exact task_setPhase h₀ (hlast rfl) ht
  | cancelMissed h₀ => exact task_setPhase h₀ (hlast rfl) ht
  | dropEntry h₀ => exact task_setPhase h₀ (hlast rfl) ht
  | confirm h₀ => exact task_setPhase h₀ (hlast rfl) ht
  | confirmMissed h₀ => exact task_setPhase h₀ (hlast rfl) ht
  | announce h₀ => exact task_setPhase h₀ (hlast rfl) ht
  | dropSender h₀ => exact task_setPhase h₀ (hlast rfl) ht
  | reinsert h₀ => exact task_setPhase h₀ (hlast rfl) ht
  | dropPaired h₀ => exact task_setPhase h₀ (hlast rfl) ht
  | dropRejected h₀ => exact task_setPhase h₀ (hlast rfl) ht
  | expire => exact ⟨t, ht, .refl t⟩
  | dropSenders => exact ⟨t, ht, .refl t⟩
  | reap => exact ⟨t, ht, .refl t⟩

/-- A step never forgets an accepted lane. -/
theorem LaneStep.tasks_mono {s s' : LaneServer} {e : LaneEvent} (h : LaneStep s e s')
    {lane : LaneId} (hl : s.tasks.lookup lane ≠ none) : s'.tasks.lookup lane ≠ none := by
  obtain ⟨t, ht⟩ := Option.ne_none_iff_exists'.mp hl
  obtain ⟨t', ht', -⟩ := h.task ht
  rw [ht']
  exact Option.some_ne_none t'

end RtpMux
